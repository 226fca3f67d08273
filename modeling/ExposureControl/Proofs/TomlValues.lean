import ExposureControl.Policy
import ExposureControl.Toml.Reader
import ExposureControl.Toml.Writer

/-!
# Written values read back

A written value stands between a blank and the end of its line.  It reads back to the value there
if it does so on its own, since no reader of numbers looks beyond the end of a line.
-/

namespace ExposureControl.Toml

/-! ## Reading up to the end of a line -/

/-- Whether a reader that succeeds on a text reads the same in front of a line break. -/
def StopsAtLineEnd {α : Type} (read : List Char → Option (α × List Char)) : Prop :=
  ∀ (cs : List Char) (value : α) (left rest : List Char), read cs = some (value, left) →
    read (cs ++ '\n' :: rest) = some (value, left ++ '\n' :: rest)

namespace StopsAtLineEnd

variable {α β : Type} {read : List Char → Option (α × List Char)}

theorem bind (hread : StopsAtLineEnd read) {next : α → List Char → Option (β × List Char)}
    (hnext : ∀ value, StopsAtLineEnd (next value)) :
    StopsAtLineEnd fun cs => (read cs).bind fun result => next result.1 result.2 := by
  intro cs value left rest hcs
  obtain ⟨⟨first, after⟩, hfirst, hsecond⟩ := Option.bind_eq_some_iff.mp hcs
  exact Option.bind_eq_some_iff.mpr
    ⟨_, hread _ _ _ rest hfirst, hnext first _ _ _ rest hsecond⟩

theorem result (value : Option α) :
    StopsAtLineEnd fun cs => value.bind fun value => some (value, cs) := by
  intro cs read left rest hcs
  obtain ⟨value, rfl, hvalue⟩ := Option.bind_eq_some_iff.mp hcs
  obtain ⟨rfl, rfl⟩ := Prod.mk.inj (Option.some.inj hvalue)
  rfl

end StopsAtLineEnd

section Digits

variable {isDigit : Char → Bool} (hnewline : isDigit '\n' = false)
  (hunderscore : isDigit '_' = false)
include hnewline hunderscore

theorem readMoreDigits?_stops : StopsAtLineEnd (readMoreDigits? isDigit) := by
  intro cs
  fun_induction readMoreDigits? isDigit cs with
  | case1 =>
    rintro _ _ rest ⟨⟩
    simp [readMoreDigits?, hnewline]
  | case2 c cs hc ih =>
    intro value left rest hread
    obtain ⟨⟨digits, left⟩, hmore, hvalue⟩ := Option.bind_eq_some_iff.mp hread
    obtain ⟨rfl, rfl⟩ := Prod.mk.inj (Option.some.inj hvalue)
    rw [List.cons_append, List.cons_append, readMoreDigits?, if_pos hc, ih _ _ rest hmore]
    rfl
  | case3 => exact fun _ _ _ hread => nomatch hread
  | case4 c cs hother hc ih =>
    intro value left rest hread
    obtain ⟨⟨digits, left⟩, hmore, hvalue⟩ := Option.bind_eq_some_iff.mp hread
    obtain ⟨rfl, rfl⟩ := Prod.mk.inj (Option.some.inj hvalue)
    have hne : c ≠ '_' := by
      rintro rfl
      exact nomatch hunderscore.symm.trans hc
    rw [List.cons_append, readMoreDigits?.eq_3 _ _ _ fun _ _ heq _ => hne heq, if_pos hc,
      ih _ _ rest hmore]
    rfl
  | case5 => exact fun _ _ _ hread => nomatch hread
  | case6 c cs hother hc hne =>
    intro value left rest hread
    obtain ⟨rfl, rfl⟩ := Prod.mk.inj (Option.some.inj hread)
    rw [List.cons_append, readMoreDigits?.eq_3 _ _ _ fun _ _ heq _ => hne heq, if_neg hc,
      if_neg hne]

theorem readDigits?_stops : StopsAtLineEnd (readDigits? isDigit) := by
  rintro (_ | ⟨c, cs⟩) value left rest hread
  · exact nomatch hread
  · rw [readDigits?] at hread
    rw [List.cons_append, readDigits?]
    split at hread
    · next hc =>
      rw [if_pos hc]
      exact (readMoreDigits?_stops hnewline hunderscore).bind
        (fun digits => .result (some (c :: digits))) _ _ _ rest hread
    · exact nomatch hread

end Digits

theorem readDecimalDigits?_stops : StopsAtLineEnd (readDigits? Digits.isDigit) :=
  readDigits?_stops (by decide) (by decide)

theorem readWhole?_stops : StopsAtLineEnd readWhole? := by
  rintro (_ | ⟨c, cs⟩) value left rest hread
  · exact nomatch hread
  · by_cases hzero : c = '0'
    · subst hzero
      obtain ⟨rfl, rfl⟩ := Prod.mk.inj (Option.some.inj hread)
      rfl
    · rw [readWhole?.eq_2 _ fun _ heq => hzero (List.cons.inj heq).1] at hread
      rw [List.cons_append, readWhole?.eq_2 _ fun _ heq => hzero (List.cons.inj heq).1]
      exact readDecimalDigits?_stops _ _ _ _ hread

theorem readSign_append {cs : List Char} (hcs : cs ≠ []) (rest : List Char) :
    Decimal.readSign (cs ++ rest) =
      ((Decimal.readSign cs).1, (Decimal.readSign cs).2 ++ rest) := by
  obtain ⟨c, cs, rfl⟩ := List.exists_cons_of_ne_nil hcs
  by_cases hminus : c = '-'
  · subst hminus
    rfl
  · by_cases hplus : c = '+'
    · subst hplus
      rfl
    · have hnone : ∀ cs, Decimal.readSign (c :: cs) = (false, c :: cs) := fun cs =>
        Decimal.readSign.eq_3 _ (fun _ heq => hminus (List.cons.inj heq).1)
          fun _ heq => hplus (List.cons.inj heq).1
      rw [List.cons_append, hnone, hnone]
      rfl

theorem StopsAtLineEnd.signed {α : Type} {read : Bool → List Char → Option (α × List Char)}
    (hread : ∀ negative, StopsAtLineEnd (read negative)) (hempty : read false [] = none) :
    StopsAtLineEnd fun cs => read (Decimal.readSign cs).1 (Decimal.readSign cs).2 := by
  intro cs value left rest hcs
  have hne : cs ≠ [] := by
    rintro rfl
    exact nomatch hempty.symm.trans hcs
  dsimp only
  rw [readSign_append hne]
  exact hread _ _ _ _ rest hcs

theorem readExponent?_stops : StopsAtLineEnd readExponent? := by
  have hdigits : ∀ negative : Bool, StopsAtLineEnd fun cs =>
      (readDigits? Digits.isDigit cs).bind fun result =>
        some (if negative then -(Digits.toNat result.1 : Int) else Digits.toNat result.1,
          result.2) :=
    fun negative => readDecimalDigits?_stops.bind fun digits =>
      .result (some (if negative then -(Digits.toNat digits : Int) else Digits.toNat digits))
  exact StopsAtLineEnd.signed hdigits rfl

theorem readOptionalExponent?_stops : StopsAtLineEnd readOptionalExponent? := by
  rintro (_ | ⟨c, cs⟩) value left rest hread
  · obtain ⟨rfl, rfl⟩ := Prod.mk.inj (Option.some.inj hread)
    rfl
  · by_cases hlower : c = 'e'
    · subst hlower
      exact readExponent?_stops _ _ _ _ hread
    · by_cases hupper : c = 'E'
      · subst hupper
        exact readExponent?_stops _ _ _ _ hread
      · have hnone : ∀ cs, readOptionalExponent? (c :: cs) = some (0, c :: cs) := fun cs =>
          readOptionalExponent?.eq_3 _ (fun _ heq => hlower (List.cons.inj heq).1)
            fun _ heq => hupper (List.cons.inj heq).1
        rw [hnone] at hread
        obtain ⟨rfl, rfl⟩ := Prod.mk.inj (Option.some.inj hread)
        exact hnone _

theorem readDecimal?_stops (negative : Bool) : StopsAtLineEnd (readDecimal? negative) := by
  intro cs value left rest hread
  obtain ⟨⟨whole, after⟩, hwhole, hread⟩ := Option.bind_eq_some_iff.mp hread
  refine Option.bind_eq_some_iff.mpr ⟨_, readWhole?_stops _ _ _ rest hwhole, ?_⟩
  obtain _ | ⟨c, after⟩ := after
  · exact StopsAtLineEnd.result (integer? _) [] value left rest hread
  · by_cases hpoint : c = '.'
    · subst hpoint
      exact readDecimalDigits?_stops.bind (fun fraction =>
        readOptionalExponent?_stops.bind fun exponent =>
          .result (floating? negative whole fraction exponent)) _ _ _ rest hread
    · dsimp only at hread ⊢
      split at hread
      · next heq => exact absurd (List.cons.inj heq).1 hpoint
      · split
        · next heq => exact absurd (List.cons.inj heq).1 hpoint
        · split at hread
          · next hexponent =>
            exact (if_pos hexponent).trans (readOptionalExponent?_stops.bind (fun exponent =>
              .result (floating? negative whole [] exponent)) _ _ _ rest hread)
          · next hexponent =>
            exact (if_neg hexponent).trans
              (StopsAtLineEnd.result (integer? _) _ _ _ rest hread)

theorem readBased?_stops (base : Nat) {isDigit : Char → Bool} (hnewline : isDigit '\n' = false)
    (hunderscore : isDigit '_' = false) : StopsAtLineEnd (readBased? base isDigit) :=
  (readDigits?_stops hnewline hunderscore).bind fun digits =>
    .result (integer? (valueIn base digits))

theorem starts_of_append {cs rest tail : List Char} (word : List Char) (hword : '\n' ∉ word)
    (heq : cs ++ '\n' :: rest = word ++ tail) : ∃ tail, cs = word ++ tail := by
  obtain ⟨after, rfl, hrest⟩ | ⟨after, hcs, -⟩ := List.append_eq_append_iff.mp heq
  · obtain _ | ⟨c, after⟩ := after
    · exact ⟨[], by simp⟩
    · obtain ⟨rfl, -⟩ := List.cons.inj hrest
      exact absurd (List.mem_append_right cs List.mem_cons_self) hword
  · exact ⟨after, hcs⟩

theorem readNumber?_stops : StopsAtLineEnd readNumber? := by
  intro cs value left rest hread
  rw [readNumber?.eq_def] at hread
  split at hread
  · exact readBased?_stops 16 (by decide) (by decide) _ _ _ rest hread
  · exact readBased?_stops 8 (by decide) (by decide) _ _ _ rest hread
  · exact readBased?_stops 2 (by decide) (by decide) _ _ _ rest hread
  · next hx ho hb =>
    have hne : cs ≠ [] := by
      rintro rfl
      exact nomatch hread
    rw [readNumber?.eq_4, readSign_append hne]
    · generalize Decimal.readSign cs = signed at hread ⊢
      obtain ⟨negative, cs⟩ := signed
      dsimp only at hread ⊢
      split at hread
      · obtain ⟨rfl, rfl⟩ := Prod.mk.inj (Option.some.inj hread)
        rfl
      · obtain ⟨rfl, rfl⟩ := Prod.mk.inj (Option.some.inj hread)
        rfl
      · next hinf hnan =>
        split
        · next heq =>
          obtain ⟨tail, rfl⟩ := starts_of_append ['i', 'n', 'f'] (by decide) heq
          exact (hinf tail rfl).elim
        · next heq =>
          obtain ⟨tail, rfl⟩ := starts_of_append ['n', 'a', 'n'] (by decide) heq
          exact (hnan tail rfl).elim
        · exact readDecimal?_stops negative _ _ _ rest hread
    · intro after heq
      obtain ⟨tail, rfl⟩ := starts_of_append ['0', 'x'] (by decide) heq
      exact hx tail rfl
    · intro after heq
      obtain ⟨tail, rfl⟩ := starts_of_append ['0', 'o'] (by decide) heq
      exact ho tail rfl
    · intro after heq
      obtain ⟨tail, rfl⟩ := starts_of_append ['0', 'b'] (by decide) heq
      exact hb tail rfl

/-! ## Telling numbers from other values -/

theorem head_of_readNumber? {c : Char} {cs : List Char} {result : Document × List Char}
    (hread : readNumber? (c :: cs) = some result) :
    Digits.isDigit c = true ∨ c ∈ ['+', '-', 'i', 'n'] := by
  have hdecimal : ∀ negative, readDecimal? negative (c :: cs) = some result →
      Digits.isDigit c = true := by
    intro negative hread
    obtain ⟨whole, hwhole, -⟩ := Option.bind_eq_some_iff.mp hread
    rw [readWhole?.eq_def] at hwhole
    split at hwhole
    · next heq =>
      obtain ⟨rfl, -⟩ := List.cons.inj heq
      decide
    · rw [readDigits?] at hwhole
      split at hwhole
      · assumption
      · exact nomatch hwhole
  by_cases hminus : c = '-'
  · exact .inr (by simp [hminus])
  by_cases hplus : c = '+'
  · exact .inr (by simp [hplus])
  have hsign : Decimal.readSign (c :: cs) = (false, c :: cs) :=
    Decimal.readSign.eq_3 _ (fun _ heq => hminus (List.cons.inj heq).1)
      fun _ heq => hplus (List.cons.inj heq).1
  rw [readNumber?.eq_def] at hread
  split at hread
  · next heq => exact .inl ((List.cons.inj heq).1 ▸ by decide)
  · next heq => exact .inl ((List.cons.inj heq).1 ▸ by decide)
  · next heq => exact .inl ((List.cons.inj heq).1 ▸ by decide)
  · rw [hsign] at hread
    dsimp only at hread
    split at hread
    · next heq => exact .inr (by simp [(List.cons.inj heq).1])
    · next heq => exact .inr (by simp [(List.cons.inj heq).1])
    · exact .inl (hdecimal _ hread)

theorem exists_of_readField? {count low high value : Nat} {cs left : List Char}
    (hread : readField? count low high cs = some (value, left)) :
    ∃ digits, digits.length = count ∧ (∀ c ∈ digits, Digits.isDigit c = true) ∧
      cs = digits ++ left := by
  rw [readField?] at hread
  split at hread
  · next hfits =>
    simp only [Bool.and_eq_true, decide_eq_true_eq, List.all_eq_true] at hfits
    obtain ⟨-, rfl⟩ := Prod.mk.inj (Option.some.inj hread)
    exact ⟨cs.take count, hfits.1.1.1, hfits.1.1.2, (List.take_append_drop count cs).symm⟩
  · exact nomatch hread

theorem eq_cons_of_readChar? {expected : Char} {cs left : List Char}
    (hread : readChar? expected cs = some left) : cs = expected :: left := by
  obtain _ | ⟨c, cs⟩ := cs
  · exact nomatch hread
  · rw [readChar?] at hread
    split at hread
    · next hc => rw [hc, Option.some.inj hread]
    · exact nomatch hread

theorem exists_of_readStamp? {cs : List Char} {result : Document × List Char}
    (hread : readStamp? cs = some result) :
    ∃ digits c after, digits ≠ [] ∧ (∀ d ∈ digits, Digits.isDigit d = true) ∧
      (c = '-' ∨ c = ':') ∧ cs = digits ++ c :: after := by
  have hfield : ∀ {count low high : Nat} {c : Char} {value : Nat × List Char}
      {after : List Char}, 0 < count → readField? count low high cs = some value →
      readChar? c value.2 = some after → ∃ digits, digits ≠ [] ∧
        (∀ d ∈ digits, Digits.isDigit d = true) ∧ cs = digits ++ c :: after := by
    intro count low high c value after hcount hvalue hc
    obtain ⟨digits, hlength, hdigits, heq⟩ := exists_of_readField? hvalue
    refine ⟨digits, ?_, hdigits, by rw [heq, eq_cons_of_readChar? hc]⟩
    rintro rfl
    exact absurd hlength (Nat.ne_of_lt hcount)
  rw [readStamp?] at hread
  split at hread
  · next hdate =>
    obtain ⟨year, hyear, hdate⟩ := Option.bind_eq_some_iff.mp hdate
    obtain ⟨rest, hrest, -⟩ := Option.bind_eq_some_iff.mp hdate
    obtain ⟨digits, hne, hdigits, heq⟩ := hfield (by decide) hyear hrest
    exact ⟨digits, '-', rest, hne, hdigits, .inl rfl, heq⟩
  · obtain ⟨after, htime, -⟩ := Option.bind_eq_some_iff.mp hread
    obtain ⟨hour, hhour, htime⟩ := Option.bind_eq_some_iff.mp htime
    obtain ⟨rest, hrest, -⟩ := Option.bind_eq_some_iff.mp htime
    obtain ⟨digits, hne, hdigits, heq⟩ := hfield (by decide) hhour hrest
    exact ⟨digits, ':', rest, hne, hdigits, .inr rfl, heq⟩

/-- Whether a text has no hyphen or colon inside, so that it is neither a date nor a time. -/
def Unstamped (cs : List Char) : Prop := ∀ c ∈ cs.tail, c ≠ '-' ∧ c ≠ ':'

theorem readStamp?_eq_none {cs : List Char} (hcs : Unstamped cs) (rest : List Char) :
    readStamp? (cs ++ '\n' :: rest) = none := by
  rw [Option.eq_none_iff_forall_ne_some]
  intro result hread
  obtain ⟨digits, c, after, hne, hdigits, hc, heq⟩ := exists_of_readStamp? hread
  have hnewline : c ≠ '\n' := by
    rintro rfl
    revert hc
    decide
  obtain ⟨more, rfl, hrest⟩ | ⟨more, rfl, hafter⟩ := List.append_eq_append_iff.mp heq
  · obtain _ | ⟨d, more⟩ := more
    · exact hnewline (List.cons.inj hrest).1.symm
    · obtain ⟨rfl, -⟩ := List.cons.inj hrest
      exact nomatch hdigits '\n' (List.mem_append_right _ List.mem_cons_self)
  · obtain _ | ⟨d, more⟩ := more
    · exact hnewline (List.cons.inj hafter).1
    · obtain ⟨rfl, -⟩ := List.cons.inj hafter
      have hinside : c ∈ (digits ++ c :: more).tail := by
        rw [List.tail_append_of_ne_nil hne]
        exact List.mem_append_right _ List.mem_cons_self
      obtain rfl | rfl := hc
      · exact (hcs _ hinside).1 rfl
      · exact (hcs _ hinside).2 rfl

/-! ## Values -/

/-- Whether a text reads as a value between a blank and the end of its line. -/
def ReadsAs (written : String) (value : Document) : Prop :=
  ∀ rest, readValue? maxDepth (skipBlanks (written.toList ++ '\n' :: rest)) =
    some (value, '\n' :: rest)

/-- A number that reads back on its own does so in its line, unless it looks like a date. -/
theorem readsAs_of_readNumber? {written : String} {value : Document}
    (hread : readNumber? written.toList = some (value, [])) (hplain : Unstamped written.toList) :
    ReadsAs written value := by
  intro rest
  have hline := readNumber?_stops _ _ _ rest hread
  have hstamp := readStamp?_eq_none hplain rest
  cases hcs : written.toList with
  | nil =>
    rw [hcs] at hread
    exact nomatch hread
  | cons c cs =>
    rw [hcs] at hread hline hstamp
    have hhead : ∀ d, d ∉ ['+', '-', 'i', 'n'] → Digits.isDigit d = false → c ≠ d := by
      rintro d hother hdigit rfl
      obtain htrue | hmem := head_of_readNumber? hread
      · exact nomatch hdigit.symm.trans htrue
      · exact hother hmem
    have hblank : isBlank c = false := by
      simp only [isBlank, Bool.or_eq_false_iff, decide_eq_false_iff_not]
      exact ⟨hhead _ (by decide) (by decide), hhead _ (by decide) (by decide)⟩
    rw [List.cons_append, skipBlanks, List.dropWhile_cons_of_neg (by simp [hblank]),
      readValue?.eq_def]
    dsimp only
    split
    -- Nothing else begins with the first character of a number.
    iterate 6
      · next heq => exact absurd (List.cons.inj heq).1 (hhead _ (by decide) (by decide))
    · exact (congrArg (Option.orElse · _) hstamp).trans hline

theorem readsAs_bool (value : Bool) :
    ReadsAs (if value then "true" else "false") (.bool value) := by
  cases value <;> exact fun _ => rfl

theorem readsAs_policy (policy : Policy) : ReadsAs (writeText policy.text) (.text policy.text) := by
  cases policy <;> exact fun _ => rfl

/-! ### Integers -/

theorem isDigit_of_mem_toDigits {n : Nat} {c : Char} (hc : c ∈ Nat.toDigits 10 n) :
    Digits.isDigit c = true := by
  have hdigit := Nat.isDigit_of_mem_toDigits (by decide) (by decide) hc
  simp only [Char.isDigit, Bool.and_eq_true, decide_eq_true_eq] at hdigit
  simp only [Digits.isDigit, Bool.and_eq_true, decide_eq_true_eq]
  exact hdigit

theorem toDigits_ne_cons {n : Nat} {c : Char} (hc : Digits.isDigit c = false)
    (after : List Char) : Nat.toDigits 10 n ≠ c :: after := by
  intro heq
  exact nomatch hc.symm.trans (isDigit_of_mem_toDigits (heq ▸ List.mem_cons_self))

theorem toNat_toDigits (n : Nat) : Digits.toNat (Nat.toDigits 10 n) = n :=
  Nat.ofDigitChars_toDigits (by decide) (by decide)

theorem readMoreDigits?_of_digits {isDigit : Char → Bool} (hunderscore : isDigit '_' = false)
    {cs : List Char} (hdigits : ∀ c ∈ cs, isDigit c = true) :
    readMoreDigits? isDigit cs = some (cs, []) := by
  induction cs with
  | nil => rfl
  | cons c cs ih =>
    have hc := hdigits c List.mem_cons_self
    have hne : c ≠ '_' := by
      rintro rfl
      exact nomatch hunderscore.symm.trans hc
    rw [readMoreDigits?.eq_3 _ _ _ fun _ _ heq _ => hne heq, if_pos hc,
      ih fun d hd => hdigits d (List.mem_cons_of_mem c hd)]
    rfl

theorem toDigits_eq_cons {n : Nat} (hpos : 0 < n) :
    ∃ c cs, c ≠ '0' ∧ Nat.toDigits 10 n = c :: cs := by
  induction n using Nat.strongRecOn with
  | ind n ih =>
    obtain hsmall | hlarge := Nat.lt_or_ge n 10
    · refine ⟨n.digitChar, [], ?_, Nat.toDigits_of_lt_base hsmall⟩
      have hdigit : ∀ n < 10, 0 < n → n.digitChar ≠ '0' := by decide
      exact hdigit n hsmall hpos
    · obtain ⟨c, cs, hc, heq⟩ := ih (n / 10) (by omega) (by omega)
      exact ⟨c, cs ++ [(n % 10).digitChar], hc, by
        rw [Nat.toDigits_of_base_le (by decide) hlarge, heq, List.cons_append]⟩

theorem readWhole?_toDigits (n : Nat) :
    readWhole? (Nat.toDigits 10 n) = some (Nat.toDigits 10 n, []) := by
  obtain rfl | hpos := Nat.eq_zero_or_pos n
  · rfl
  · have hdigits : ∀ c ∈ Nat.toDigits 10 n, Digits.isDigit c = true :=
      fun c hc => isDigit_of_mem_toDigits hc
    obtain ⟨c, cs, hc, heq⟩ := toDigits_eq_cons hpos
    rw [heq] at hdigits ⊢
    rw [readWhole?.eq_2 _ fun _ heq => hc (List.cons.inj heq).1, readDigits?,
      if_pos (hdigits c List.mem_cons_self), readMoreDigits?_of_digits (by decide)
        fun d hd => hdigits d (List.mem_cons_of_mem c hd)]
    rfl

theorem readDecimal?_toDigits (negative : Bool) (n : Nat) :
    readDecimal? negative (Nat.toDigits 10 n) =
      (integer? (if negative then -n else n)).map fun value => (value, []) := by
  rw [readDecimal?, readWhole?_toDigits]
  have hvalue : (integer? (if negative then -(Digits.toNat (Nat.toDigits 10 n) : Int)
      else Digits.toNat (Nat.toDigits 10 n))).bind (fun value => some (value, ([] : List Char))) =
      (integer? (if negative then -n else n)).map fun value => (value, []) := by
    rw [toNat_toDigits, Option.map_eq_bind]
    rfl
  exact hvalue

theorem readNumber?_of_toDigits {cs : List Char} {negative : Bool} {n : Nat}
    (hsign : Decimal.readSign cs = (negative, Nat.toDigits 10 n))
    (hdigits : ∀ c ∈ cs.tail, Digits.isDigit c = true) :
    readNumber? cs = (integer? (if negative then -n else n)).map fun value => (value, []) := by
  have hbased : ∀ {c : Char}, Digits.isDigit c = false → ∀ after, cs ≠ '0' :: c :: after := by
    rintro c hc after rfl
    exact nomatch hc.symm.trans (hdigits c List.mem_cons_self)
  rw [readNumber?.eq_4 _ (hbased (by decide)) (hbased (by decide)) (hbased (by decide)), hsign]
  dsimp only
  split
  · next heq => exact absurd heq (toDigits_ne_cons (by decide) _)
  · next heq => exact absurd heq (toDigits_ne_cons (by decide) _)
  · exact readDecimal?_toDigits negative n

theorem readSign_toDigits (n : Nat) :
    Decimal.readSign (Nat.toDigits 10 n) = (false, Nat.toDigits 10 n) :=
  Decimal.readSign.eq_3 _ (toDigits_ne_cons (by decide)) (toDigits_ne_cons (by decide))

theorem toList_ofInt_ofNat (n : Nat) : (Digits.ofInt (.ofNat n)).toList = Nat.toDigits 10 n :=
  String.toList_ofList

theorem toList_ofInt_negSucc (n : Nat) :
    (Digits.ofInt (.negSucc n)).toList = '-' :: Nat.toDigits 10 (n + 1) := by
  simp [Digits.ofInt, Digits.ofNat]

theorem readNumber?_ofInt {n : Int} (hsigned : Word64.signed n = true) :
    readNumber? (Digits.ofInt n).toList = some (.int n, []) := by
  have hfits : integer? n = some (.int n) := if_pos hsigned
  cases n with
  | ofNat n =>
    rw [toList_ofInt_ofNat,
      readNumber?_of_toDigits (readSign_toDigits n)
        fun c hc => isDigit_of_mem_toDigits (List.mem_of_mem_tail hc)]
    exact congrArg (Option.map _) hfits
  | negSucc n =>
    have hsign : Decimal.readSign ('-' :: Nat.toDigits 10 (n + 1)) =
        (true, Nat.toDigits 10 (n + 1)) := rfl
    rw [toList_ofInt_negSucc,
      readNumber?_of_toDigits hsign fun c hc => isDigit_of_mem_toDigits hc]
    exact congrArg (Option.map _) hfits

theorem isDigit_of_mem_tail_ofInt {n : Int} {c : Char} (hc : c ∈ (Digits.ofInt n).toList.tail) :
    Digits.isDigit c = true := by
  cases n with
  | ofNat n =>
    rw [toList_ofInt_ofNat] at hc
    exact isDigit_of_mem_toDigits (List.mem_of_mem_tail hc)
  | negSucc n =>
    rw [toList_ofInt_negSucc] at hc
    exact isDigit_of_mem_toDigits hc

theorem unstamped_ofInt (n : Int) : Unstamped (Digits.ofInt n).toList := by
  intro c hc
  have hdigit := isDigit_of_mem_tail_ofInt hc
  constructor
  all_goals
    rintro rfl
    revert hdigit
    decide

theorem readsAs_int {n : Int} (hsigned : Word64.signed n = true) :
    ReadsAs (Digits.ofInt n) (.int n) :=
  readsAs_of_readNumber? (readNumber?_ofInt hsigned) (unstamped_ofInt n)

/-! ### Floating-point numbers -/

theorem isDigit_of_mem_layOut {n : Nat} {point : Int} {c : Char}
    (hc : c ∈ NumberStyle.layOut (Nat.toDigits 10 n) point) :
    Digits.isDigit c = true ∨ c = '.' := by
  have hzero : ∀ {count : Nat}, c ∈ NumberStyle.zeros count → Digits.isDigit c = true := by
    intro count hc
    rw [List.eq_of_mem_replicate hc]
    decide
  have hdigit : c ∈ Nat.toDigits 10 n → Digits.isDigit c = true := isDigit_of_mem_toDigits
  rw [NumberStyle.layOut] at hc
  split at hc
  · simp only [List.mem_append, List.mem_cons, List.not_mem_nil, or_false] at hc
    obtain ((rfl | hpoint) | hc) | hc := hc
    · exact .inl (by decide)
    · exact .inr hpoint
    · exact .inl (hzero hc)
    · exact .inl (hdigit hc)
  · split at hc
    · simp only [List.mem_append, List.mem_cons, List.not_mem_nil, or_false] at hc
      obtain (hc | hc) | hpoint | rfl := hc
      · exact .inl (hdigit hc)
      · exact .inl (hzero hc)
      · exact .inr hpoint
      · exact .inl (by decide)
    · simp only [List.mem_append, List.mem_cons, List.not_mem_nil, or_false] at hc
      obtain (hc | hpoint) | hc := hc
      · exact .inl (hdigit (List.mem_of_mem_take hc))
      · exact .inr hpoint
      · exact .inl (hdigit (List.mem_of_mem_drop hc))

theorem isDigit_of_mem_magnitude {value : Float} {c : Char}
    (hc : c ∈ NumberStyle.magnitude .settings value) : Digits.isDigit c = true ∨ c = '.' := by
  rw [NumberStyle.magnitude] at hc
  split at hc
  · simp only [List.mem_cons, List.not_mem_nil, or_false] at hc
    obtain rfl | rfl | rfl := hc <;> decide
  · exact isDigit_of_mem_layOut hc

theorem unstamped_sign_append {negative : Bool} {body : String}
    (hbody : ∀ c ∈ body.toList, c ≠ '-' ∧ c ≠ ':') :
    Unstamped ((if negative then "-" else "") ++ body).toList := by
  intro c hc
  rw [String.toList_append] at hc
  cases negative with
  | true => exact hbody c hc
  | false => exact hbody c (List.mem_of_mem_tail hc)

theorem unstamped_writeFloat (value : Float) : Unstamped (writeFloat value).toList := by
  rw [writeFloat]
  split
  · exact unstamped_sign_append (by simp)
  · split
    · exact unstamped_sign_append (by simp)
    · refine unstamped_sign_append fun c hc => ?_
      have hdigit := isDigit_of_mem_magnitude (String.toList_ofList ▸ hc)
      constructor
      all_goals
        rintro rfl
        revert hdigit
        decide

def ReadsBack (value : Float) : Prop :=
  readNumber? (writeFloat value).toList = some (.float value, [])

/-- Whether the text written for a number is seen to read back to it. -/
def readsBack (value : Float) : Bool :=
  match readNumber? (writeFloat value).toList with
  | some (.float read, []) => read = value
  | _ => false

theorem readsBack_iff (value : Float) : readsBack value = true ↔ ReadsBack value := by
  rw [readsBack, ReadsBack]
  split
  · next heq => simp [heq]
  · next hother => exact ⟨nofun, fun heq => (hother _ heq).elim⟩

instance decidableReadsBack (value : Float) : Decidable (ReadsBack value) :=
  decidable_of_iff _ (readsBack_iff value)

theorem readsAs_float {value : Float} (hread : ReadsBack value) :
    ReadsAs (writeFloat value) (.float value) :=
  readsAs_of_readNumber? hread (unstamped_writeFloat value)

end ExposureControl.Toml
