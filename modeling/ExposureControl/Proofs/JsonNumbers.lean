import ExposureControl.Json.Reader
import ExposureControl.Json.Writer
import ExposureControl.Proofs.TomlValues
import ExposureControl.Proofs.WordQuotient

/-!
# Numbers in JSON

A number reads the same in front of whatever may follow it in a text, so that a written one reads
back there if it does so on its own.  A number that was read is finite, whether it was an integer
or not.
-/

namespace ExposureControl

namespace Json

/-! ## Where a number ends -/

/-- Whether no number goes on with a text: it begins with neither a digit nor a point nor an
exponent. -/
def Ends (rest : List Char) : Prop :=
  ∀ c ∈ rest.head?, Digits.isDigit c = false ∧ c ∉ ['.', 'e', 'E']

theorem ends_nil : Ends [] := nofun

theorem ends_cons {c : Char} (hdigit : Digits.isDigit c = false) (hother : c ∉ ['.', 'e', 'E'])
    (rest : List Char) : Ends (c :: rest) := by
  rintro d ⟨⟩
  exact ⟨hdigit, hother⟩

/-- Whether a reader that succeeds on a text reads the same in front of what is no part of a
number. -/
def StopsBefore {α : Type} (read : List Char → Option (α × List Char)) : Prop :=
  ∀ (cs : List Char) (value : α) (left rest : List Char), Ends rest →
    read cs = some (value, left) → read (cs ++ rest) = some (value, left ++ rest)

namespace StopsBefore

variable {α β : Type} {read : List Char → Option (α × List Char)}

theorem bind (hread : StopsBefore read) {next : α → List Char → Option (β × List Char)}
    (hnext : ∀ value, StopsBefore (next value)) :
    StopsBefore fun cs => (read cs).bind fun result => next result.1 result.2 := by
  intro cs value left rest hends hcs
  obtain ⟨⟨first, after⟩, hfirst, hsecond⟩ := Option.bind_eq_some_iff.mp hcs
  exact Option.bind_eq_some_iff.mpr
    ⟨_, hread _ _ _ rest hends hfirst, hnext first _ _ _ rest hends hsecond⟩

theorem result (value : Option α) : StopsBefore fun cs => value.map fun value => (value, cs) := by
  intro cs read left rest _ hcs
  obtain ⟨value, rfl, hvalue⟩ := Option.map_eq_some_iff.mp hcs
  obtain ⟨rfl, rfl⟩ := Prod.mk.inj hvalue
  rfl

end StopsBefore

theorem readDigits?_stops : StopsBefore readDigits? := by
  intro cs digits left rest hends hread
  have htake : (cs ++ rest).takeWhile Digits.isDigit = cs.takeWhile Digits.isDigit := by
    have hrest : rest.takeWhile Digits.isDigit = [] := by
      cases rest with
      | nil => rfl
      | cons c rest => exact List.takeWhile_cons_of_neg (by simp [(hends c rfl).1])
    rw [List.takeWhile_append, hrest, List.append_nil]
    split
    · next hall => exact ((List.takeWhile_prefix _).eq_of_length hall).symm
    · rfl
  have hlength : (cs.takeWhile Digits.isDigit).length ≤ cs.length :=
    (List.takeWhile_prefix _).length_le
  rw [readDigits?] at hread ⊢
  rw [htake]
  split at hread
  · cases hread
  · next hsome =>
    obtain ⟨rfl, rfl⟩ := Prod.mk.inj (Option.some.inj hread)
    rw [if_neg hsome, List.drop_append_of_le_length hlength]

theorem readWhole?_stops : StopsBefore readWhole? := by
  intro cs whole left rest hends hread
  obtain ⟨⟨digits, after⟩, hdigits, hread⟩ := Option.bind_eq_some_iff.mp hread
  refine Option.bind_eq_some_iff.mpr ⟨_, readDigits?_stops _ _ _ rest hends hdigits, ?_⟩
  dsimp only at hread ⊢
  split at hread
  · cases hread
  · next hzero =>
    obtain ⟨rfl, rfl⟩ := Prod.mk.inj (Option.some.inj hread)
    rw [if_neg hzero]

theorem readFraction?_of_ne {cs : List Char} (hpoint : cs.head? ≠ some '.') :
    readFraction? cs = some (none, cs) :=
  readFraction?.eq_2 _ fun _ heq => hpoint (heq ▸ rfl)

theorem readFraction?_stops : StopsBefore readFraction? := by
  intro cs fraction left rest hends hread
  by_cases hpoint : cs.head? = some '.'
  · obtain ⟨cs, rfl⟩ := List.head?_eq_some_iff.mp hpoint
    obtain ⟨⟨digits, after⟩, hdigits, hread⟩ := Option.map_eq_some_iff.mp hread
    obtain ⟨rfl, rfl⟩ := Prod.mk.inj hread
    exact Option.map_eq_some_iff.mpr ⟨_, readDigits?_stops _ _ _ rest hends hdigits, rfl⟩
  · rw [readFraction?_of_ne hpoint] at hread
    obtain ⟨rfl, rfl⟩ := Prod.mk.inj (Option.some.inj hread)
    refine readFraction?_of_ne ?_
    cases cs with
    | cons c cs => exact hpoint
    | nil => exact fun hhead => (hends _ hhead).2 (by decide)

theorem readExponent?_of_ne {cs : List Char} (hlower : cs.head? ≠ some 'e')
    (hupper : cs.head? ≠ some 'E') : readExponent? cs = some (none, cs) := by
  cases cs with
  | nil => rfl
  | cons c cs =>
    have hlower' : c ≠ 'e' := fun heq => hlower (heq ▸ rfl)
    have hupper' : c ≠ 'E' := fun heq => hupper (heq ▸ rfl)
    rw [readExponent?, if_neg (by simp [hlower', hupper'])]

theorem readExponent?_stops : StopsBefore readExponent? := by
  intro cs exponent left rest hends hread
  by_cases hexponent : cs.head? = some 'e' ∨ cs.head? = some 'E'
  · obtain ⟨c, cs, hc, rfl⟩ : ∃ c tail, (c = 'e' || c = 'E') = true ∧ cs = c :: tail := by
      obtain hhead | hhead := hexponent
      all_goals
        obtain ⟨tail, rfl⟩ := List.head?_eq_some_iff.mp hhead
        exact ⟨_, tail, by decide, rfl⟩
    have hcs : cs ≠ [] := by
      rintro rfl
      rw [readExponent?, if_pos hc] at hread
      cases hread
    rw [readExponent?, if_pos hc] at hread
    rw [List.cons_append, readExponent?, if_pos hc, Toml.readSign_append hcs]
    have hdigits : ∀ negative : Bool, StopsBefore fun cs => (readDigits? cs).bind fun result =>
        some (some (if negative then -(Digits.toNat result.1 : Int) else Digits.toNat result.1),
          result.2) := fun negative =>
      readDigits?_stops.bind fun digits => .result
        (some (some (if negative then -(Digits.toNat digits : Int) else Digits.toNat digits)))
    exact hdigits _ _ _ _ _ hends hread
  · obtain ⟨hlower, hupper⟩ := not_or.mp hexponent
    rw [readExponent?_of_ne hlower hupper] at hread
    obtain ⟨rfl, rfl⟩ := Prod.mk.inj (Option.some.inj hread)
    cases cs with
    | cons c cs => exact readExponent?_of_ne hlower hupper
    | nil =>
      exact readExponent?_of_ne (fun hhead => (hends _ hhead).2 (by decide))
        fun hhead => (hends _ hhead).2 (by decide)

/-- The sign of a number and what follows it. -/
def splitSign : List Char → Bool × List Char
  | '-' :: rest => (true, rest)
  | cs => (false, cs)

/-- The number of given parts, unless it is beyond the range of binary64. -/
def accepted? (negative : Bool) (whole : List Char) (fraction : Option (List Char))
    (exponent : Option Int) : Option Document :=
  let document := match fraction, exponent with
    | none, none => wholeNumber negative whole
    | _, _ => .float (Decimal.ofParts negative whole (fraction.getD []) (exponent.getD 0))
  match document with
  | .float value => if value.isFinite then some document else none
  | _ => some document

theorem readNumber?_eq (cs : List Char) :
    readNumber? cs = (readWhole? (splitSign cs).2).bind fun whole =>
      (readFraction? whole.2).bind fun fraction =>
        (readExponent? fraction.2).bind fun exponent =>
          (accepted? (splitSign cs).1 whole.1 fraction.1 exponent.1).map fun document =>
            (document, exponent.2) := by
  have haccepted : ∀ (document : Document) (rest : List Char),
      (match document with
        | .float value => if value.isFinite then some (document, rest) else none
        | _ => some (document, rest)) =
      (match document with
        | .float value => if value.isFinite then some document else none
        | _ => some document).map fun document => (document, rest) := by
    intro document rest
    cases document with
    | float value => by_cases hfinite : value.isFinite = true <;> simp [hfinite]
    | _ => rfl
  rw [readNumber?.eq_def]
  refine Option.bind_congr fun whole _ => Option.bind_congr fun fraction _ =>
    Option.bind_congr fun exponent _ => ?_
  exact haccepted _ _

theorem splitSign_of_ne {c : Char} (hc : c ≠ '-') (cs : List Char) :
    splitSign (c :: cs) = (false, c :: cs) :=
  splitSign.eq_2 _ fun _ heq => hc (List.cons.inj heq).1

theorem head_of_readNumber? {c : Char} {cs : List Char} {result : Document × List Char}
    (hread : readNumber? (c :: cs) = some result) : Digits.isDigit c = true ∨ c = '-' := by
  by_cases hminus : c = '-'
  · exact .inr hminus
  · rw [readNumber?_eq, splitSign_of_ne hminus] at hread
    obtain ⟨whole, hwhole, -⟩ := Option.bind_eq_some_iff.mp hread
    obtain ⟨digits, hdigits, -⟩ := Option.bind_eq_some_iff.mp hwhole
    refine .inl (Decidable.byContradiction fun hdigit => ?_)
    rw [readDigits?, List.takeWhile_cons_of_neg hdigit] at hdigits
    cases hdigits

theorem readNumber?_stops : StopsBefore readNumber? := by
  intro cs value left rest hends hread
  have hsplit : splitSign (cs ++ rest) = ((splitSign cs).1, (splitSign cs).2 ++ rest) := by
    cases cs with
    | nil => exact nomatch hread
    | cons c cs =>
      by_cases hminus : c = '-'
      · subst hminus
        rfl
      · rw [List.cons_append, splitSign_of_ne hminus, splitSign_of_ne hminus]
        rfl
  rw [readNumber?_eq] at hread ⊢
  rw [hsplit]
  exact readWhole?_stops.bind (fun whole => readFraction?_stops.bind fun fraction =>
    readExponent?_stops.bind fun exponent => .result (accepted? _ whole fraction exponent))
    _ _ _ _ hends hread

/-! ## Integers -/

/-- Whether 64 bits hold an integer, with or without a sign. -/
def IsWord (n : Int) : Prop := Word64.unsigned n = true ∨ Word64.signed n = true

theorem readWhole?_toDigits (n : Nat) :
    readWhole? (Nat.toDigits 10 n) = some (Nat.toDigits 10 n, []) := by
  obtain rfl | hpos := Nat.eq_zero_or_pos n
  · rfl
  · obtain ⟨c, cs, hc, heq⟩ := Toml.toDigits_eq_cons hpos
    have htake : (Nat.toDigits 10 n).takeWhile Digits.isDigit = Nat.toDigits 10 n :=
      List.takeWhile_eq_self_iff.mpr fun _ hmem => Toml.isDigit_of_mem_toDigits hmem
    have hdigits : readDigits? (Nat.toDigits 10 n) = some (Nat.toDigits 10 n, []) := by
      rw [readDigits?, htake, if_neg (by simp [heq]), List.drop_length]
    rw [readWhole?, hdigits]
    refine if_neg ?_
    rw [heq]
    simp [hc]

theorem wholeNumber_of_unsigned {digits : List Char}
    (hunsigned : Word64.unsigned (Digits.toNat digits) = true) :
    wholeNumber false digits = .int (Digits.toNat digits) := by
  simp only [wholeNumber, Bool.not_false, Bool.true_and, hunsigned, if_true]

theorem wholeNumber_of_signed {digits : List Char} (hpos : 0 < Digits.toNat digits)
    (hsigned : Word64.signed (-(Digits.toNat digits : Int)) = true) :
    wholeNumber true digits = .int (-(Digits.toNat digits : Int)) := by
  simp only [wholeNumber, Bool.not_true, Bool.false_and, Bool.true_and, hpos, hsigned, decide_true,
    Bool.false_eq_true, if_false, if_true]

theorem readNumber?_ofInt {n : Int} (hword : IsWord n) :
    readNumber? (Digits.ofInt n).toList = some (.int n, []) := by
  have hread : ∀ {negative : Bool} {n : Nat} {value : Int},
      wholeNumber negative (Nat.toDigits 10 n) = .int value →
      ((readWhole? (Nat.toDigits 10 n)).bind fun whole =>
        (readFraction? whole.2).bind fun fraction =>
          (readExponent? fraction.2).bind fun exponent =>
            (accepted? negative whole.1 fraction.1 exponent.1).map fun document =>
              (document, exponent.2)) = some (.int value, []) := by
    intro negative n value hvalue
    have haccepted : accepted? negative (Nat.toDigits 10 n) none none = some (.int value) := by
      rw [accepted?, hvalue]
    rw [readWhole?_toDigits]
    exact congrArg (Option.map fun document => (document, [])) haccepted
  cases n with
  | ofNat n =>
    have hsplit : splitSign (Nat.toDigits 10 n) = (false, Nat.toDigits 10 n) :=
      splitSign.eq_2 _ (Toml.toDigits_ne_cons (by decide))
    have hunsigned : Word64.unsigned (n : Int) = true := by
      rw [IsWord, Word64.unsigned_iff, Word64.signed_iff, Word64.size] at hword
      rw [Word64.unsigned_iff, Word64.size]
      change (0 ≤ (n : Int) ∧ (n : Int) < _) ∨ _ ≤ (n : Int) ∧ (n : Int) ≤ _ at hword
      omega
    have hvalue := @wholeNumber_of_unsigned (Nat.toDigits 10 n)
    rw [Toml.toNat_toDigits] at hvalue
    rw [Toml.toList_ofInt_ofNat, readNumber?_eq, hsplit]
    exact hread (hvalue hunsigned)
  | negSucc n =>
    have hsigned : Word64.signed (-((n + 1 : Nat) : Int)) = true := by
      rw [IsWord, Word64.unsigned_iff, Word64.signed_iff] at hword
      rw [Word64.signed_iff]
      omega
    have hvalue := @wholeNumber_of_signed (Nat.toDigits 10 (n + 1))
    rw [Toml.toNat_toDigits] at hvalue
    rw [Toml.toList_ofInt_negSucc, readNumber?_eq, splitSign]
    exact hread (hvalue n.succ_pos hsigned)

/-! ## Floating-point numbers -/

def ReadsBack (value : Float) : Prop :=
  readNumber? (writeFloat value).toList = some (.float value, [])

/-- Whether the text written for a number is seen to read back to it. -/
def readsBack (value : Float) : Bool :=
  match readNumber? (writeFloat value).toList with
  | some (.float read, []) => read = value
  | _ => false

theorem readsBack_iff (value : Float) : readsBack value = true ↔ ReadsBack value := by
  rw [readsBack, ReadsBack]
  split
  · next heq => simp [heq]
  · next hother => exact ⟨nofun, fun heq => (hother _ heq).elim⟩

instance decidableReadsBack (value : Float) : Decidable (ReadsBack value) :=
  decidable_of_iff _ (readsBack_iff value)

/-- Whether a document is a number that JSON can give: an integer that 64 bits hold, or a finite
floating-point number. -/
inductive IsNumber : Document → Prop
  | int {n : Int} (hword : IsWord n) : IsNumber (.int n)
  | float {value : Float} (hfinite : value.isFinite = true) : IsNumber (.float value)

theorem wholeNumber_cases (negative : Bool) (digits : List Char) :
    (∃ n, wholeNumber negative digits = .int n ∧ IsWord n) ∨
      ∃ value, wholeNumber negative digits = .float value := by
  rw [wholeNumber]
  split
  · next hunsigned => exact .inl ⟨_, rfl, .inl (Bool.and_eq_true_iff.mp hunsigned).2⟩
  · split
    · next hsigned => exact .inl ⟨_, rfl, .inr (Bool.and_eq_true_iff.mp hsigned).2⟩
    · exact .inr ⟨_, rfl⟩

theorem isNumber_of_accepted? {negative : Bool} {whole : List Char}
    {fraction : Option (List Char)} {exponent : Option Int} {document : Document}
    (haccepted : accepted? negative whole fraction exponent = some document) :
    IsNumber document := by
  have hfloat : ∀ {value : Float},
      (if value.isFinite then some (Document.float value) else none) = some document →
      IsNumber document := by
    intro value hsome
    split at hsome
    · next hfinite =>
      obtain rfl := Option.some.inj hsome
      exact .float hfinite
    · cases hsome
  cases fraction with
  | some fraction => exact hfloat haccepted
  | none =>
    cases exponent with
    | some exponent => exact hfloat haccepted
    | none =>
      rw [accepted?] at haccepted
      obtain ⟨n, hwhole, hword⟩ | ⟨value, hwhole⟩ := wholeNumber_cases negative whole
      · rw [hwhole] at haccepted
        obtain rfl := Option.some.inj haccepted
        exact .int hword
      · rw [hwhole] at haccepted
        exact hfloat haccepted

theorem isNumber_of_readNumber? {cs left : List Char} {document : Document}
    (hread : readNumber? cs = some (document, left)) : IsNumber document := by
  rw [readNumber?_eq] at hread
  obtain ⟨whole, -, hread⟩ := Option.bind_eq_some_iff.mp hread
  obtain ⟨fraction, -, hread⟩ := Option.bind_eq_some_iff.mp hread
  obtain ⟨exponent, -, hread⟩ := Option.bind_eq_some_iff.mp hread
  obtain ⟨number, haccepted, heq⟩ := Option.map_eq_some_iff.mp hread
  obtain ⟨rfl, -⟩ := Prod.mk.inj heq
  exact isNumber_of_accepted? haccepted

end Json

/-! ## Integers as floating-point numbers -/

namespace Binary64

open Float.Model Float.Model.UnpackedFloat

/-- Components give a finite value unless their exponent is the top one. -/
theorem isFinite_unpack_packComponents (sign : Sign)
    {exponent : BitVec Format.binary64.exponentBits}
    (mantissa : BitVec Format.binary64.mantissaBitsWithoutImplicit) (hexponent : exponent ≠ -1#_) :
    (UnpackedFloat.unpack Format.binary64
      (packComponents Format.binary64 sign exponent mantissa)).isFinite = true := by
  simp only [UnpackedFloat.unpack, unpackMantissa_packComponents, unpackExponent_packComponents,
    if_neg hexponent]
  split
  · split <;> rfl
  · rfl

theorem exponent_lt_of_unpack {bits : BitVec Format.binary64.numBits} {sign : Sign}
    {mantissa : Nat} {exponent : Int} {hmantissa : 0 < mantissa}
    (hfinite : UnpackedFloat.unpack Format.binary64 bits =
      .finite sign mantissa exponent hmantissa) : exponent + 1075 < 2047 := by
  have hbias : (Format.binary64.exponentBias : Int) + Format.binary64.mantissaBitsWithoutImplicit =
      1075 := rfl
  have hfield := (unpackExponent bits).isLt
  change _ < 2 ^ 11 at hfield
  rw [UnpackedFloat.unpack] at hfinite
  dsimp only at hfinite
  rw [hbias] at hfinite
  split at hfinite
  · split at hfinite <;> cases hfinite
  · next htop =>
    have hne : (unpackExponent bits).toNat ≠ 2047 := fun heq => htop (BitVec.eq_of_toNat_eq heq)
    split at hfinite
    · next hzero =>
      split at hfinite
      · cases hfinite
      · rw [UnpackedFloat.finite.injEq, hzero] at hfinite
        change _ ∧ _ ∧ (0 : Int) - 1075 + 1 = exponent at hfinite
        omega
    · rw [UnpackedFloat.finite.injEq] at hfinite
      omega

theorem isFinite_unpack_pack (sign : Sign) {mantissa : Nat} {exponent : Int}
    (hmantissa : 0 < mantissa) (hexponent : exponent + 1075 < 2047) :
    (Float.Model.pack (.finite sign mantissa exponent hmantissa)).unpack.isFinite = true := by
  have hfield : (exponent + Format.binary64.exponentBias +
      Format.binary64.mantissaBitsWithoutImplicit).toNat = (exponent + 1075).toNat := by
    simp only [Format.exponentBias]
    norm_num
    omega
  change (UnpackedFloat.unpack Format.binary64
    (UnpackedFloat.pack Format.binary64 (.finite sign mantissa exponent hmantissa))).isFinite = true
  simp only [UnpackedFloat.pack, hfield]
  rw [if_neg (by omega)]
  split
  · refine isFinite_unpack_packComponents _ _ fun htop => ?_
    have hvalue := congrArg BitVec.toNat htop
    rw [BitVec.toNat_ofNat, BitVec.neg_one_eq_allOnes, BitVec.toNat_allOnes,
      Nat.mod_eq_of_lt (by omega)] at hvalue
    change _ = 2 ^ 11 - 1 at hvalue
    omega
  · exact isFinite_unpack_packComponents _ _ (by decide)

theorem isFinite_neg {value : Float} (hfinite : value.isFinite = true) :
    (-value).isFinite = true := by
  change (Float.Model.pack value.toModel.unpack.neg).unpack.isFinite = true
  change value.toModel.unpack.isFinite = true at hfinite
  cases hvalue : value.toModel.unpack with
  | notANumber | infinity =>
    rw [hvalue] at hfinite
    cases hfinite
  | zero sign => cases sign <;> decide
  | finite sign mantissa exponent hmantissa =>
    exact isFinite_unpack_pack _ hmantissa (exponent_lt_of_unpack hvalue)

theorem isFinite_ofNat {n : Nat} (hword : n < Word64.size) : (ofNat n).isFinite = true := by
  obtain rfl | hpos := Nat.eq_zero_or_pos n
  · rfl
  · obtain ⟨mantissa, exponent, hmantissa, hvalue⟩ := unpack_ofNat hpos hword
    change (ofNat n).toModel.unpack.isFinite = true
    rw [hvalue]
    rfl

theorem isFinite_ofInt {n : Int} (hword : Json.IsWord n) : (ofInt n).isFinite = true := by
  rw [Json.IsWord, Word64.unsigned_iff, Word64.signed_iff, Word64.size] at hword
  cases n with
  | ofNat n =>
    refine isFinite_ofNat (Int.ofNat_lt.mp ?_)
    obtain ⟨-, hlt⟩ | ⟨-, hle⟩ := hword
    · exact hlt
    · exact Int.lt_of_le_of_lt hle (by decide)
  | negSucc n =>
    refine isFinite_neg (isFinite_ofNat ?_)
    rw [Word64.size]
    omega

end Binary64

end ExposureControl
