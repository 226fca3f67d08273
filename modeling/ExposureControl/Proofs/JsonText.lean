import ExposureControl.Proofs.JsonNumbers

/-!
# JSON texts

The text of a document reads back to it, if its numbers do: strings with whatever they escape,
and lists and tables at any level of indentation, as far as they are nested no deeper than the
reader goes and no name occurs twice in a table.
-/

namespace ExposureControl

namespace Json

/-! ## Blanks -/

theorem skipBlanks_append {blank : List Char} (hblank : ∀ c ∈ blank, isBlank c = true)
    (rest : List Char) : skipBlanks (blank ++ rest) = skipBlanks rest :=
  List.dropWhile_append_of_pos hblank

theorem skipBlanks_cons {c : Char} (hc : isBlank c = false) (rest : List Char) :
    skipBlanks (c :: rest) = c :: rest :=
  List.dropWhile_cons_of_neg (by simp [hc])

theorem isBlank_of_mem_lineBreak {level : Nat} {c : Char} (hc : c ∈ (lineBreak level).toList) :
    isBlank c = true := by
  simp only [lineBreak, String.toList_append, String.toList_ofList, List.mem_append] at hc
  obtain hc | hc := hc
  · obtain rfl := List.mem_singleton.mp hc
    decide
  · rw [List.eq_of_mem_replicate hc]
    decide

theorem ends_append {blank rest : List Char} (hblank : ∀ c ∈ blank, isBlank c = true)
    (hrest : Ends rest) : Ends (blank ++ rest) := by
  cases blank with
  | nil => exact hrest
  | cons c blank =>
    have hc := hblank c List.mem_cons_self
    simp only [isBlank, Bool.or_eq_true, decide_eq_true_eq] at hc
    obtain ((rfl | rfl) | rfl) | rfl := hc
    all_goals exact ends_cons (by decide) (by decide) _

/-! ## Strings -/

theorem readUnit?_hex {n : Nat} (hcontrol : n < 32) (rest : List Char) :
    readUnit? (Digits.hex 4 n ++ rest) = some (n, rest) := by
  have hvalue : ∀ n < 32, Digits.hexToNat? (Digits.hex 4 n) = some n := by decide
  have htake : (Digits.hex 4 n ++ rest).take 4 = Digits.hex 4 n :=
    List.take_left' (Digits.length_hex 4 n)
  have hdrop : (Digits.hex 4 n ++ rest).drop 4 = rest :=
    List.drop_left' (Digits.length_hex 4 n)
  rw [readUnit?, htake, hvalue n hcontrol, hdrop, Digits.length_hex]
  rfl

theorem writeChar_cases (c : Char) :
    (∃ escape, writeChar c = '\\' :: escape ∧
      ∀ rest, readEscape? (escape ++ rest) = some (c, rest)) ∨
      writeChar c = [c] ∧ c ≠ '"' ∧ c ≠ '\\' ∧ ¬ c.toNat < 0x20 := by
  have hcode : ∀ {n : Nat}, c.toNat = n → Char.ofNat n = c := by
    rintro _ rfl
    exact Char.ofNat_toNat c
  rw [writeChar]
  split_ifs with hquote hbackslash hnewline htab hreturn hback hfeed hcontrol
  · exact .inl ⟨['"'], rfl, fun _ => by rw [hquote]; rfl⟩
  · exact .inl ⟨['\\'], rfl, fun _ => by rw [hbackslash]; rfl⟩
  · exact .inl ⟨['n'], rfl, fun _ => by rw [hnewline]; rfl⟩
  · exact .inl ⟨['t'], rfl, fun _ => by rw [htab]; rfl⟩
  · exact .inl ⟨['r'], rfl, fun _ => by rw [hreturn]; rfl⟩
  · exact .inl ⟨['b'], rfl, fun _ => by rw [← hcode hback]; rfl⟩
  · exact .inl ⟨['f'], rfl, fun _ => by rw [← hcode hfeed]; rfl⟩
  · refine .inl ⟨'u' :: Digits.hex 4 c.toNat, rfl, fun rest => ?_⟩
    have hlow : (decide (c.toNat < 0xD800) || decide (0xE000 ≤ c.toNat)) = true := by
      simp only [Bool.or_eq_true, decide_eq_true_eq]
      omega
    rw [List.cons_append, readEscape?, readCodePoint?, readUnit?_hex hcontrol]
    refine (if_pos hlow).trans ?_
    rw [hcode rfl]
    rfl
  · exact .inr ⟨rfl, hquote, hbackslash, hcontrol⟩

/-- A written character is read, whatever follows it. -/
theorem readBody?_writeChar (fuel : Nat) (c : Char) (rest : List Char) :
    readBody? (fuel + 1) (writeChar c ++ rest) =
      (readBody? fuel rest).map fun result => (c :: result.1, result.2) := by
  obtain ⟨escape, hwritten, hread⟩ | ⟨hwritten, hquote, hbackslash, hplain⟩ := writeChar_cases c
  · rw [hwritten, List.cons_append, readBody?, if_neg (by decide), if_pos rfl, hread,
      Option.map_eq_bind]
    rfl
  · rw [hwritten, List.singleton_append, readBody?, if_neg hquote, if_neg hbackslash,
      if_neg hplain, Option.map_eq_bind]
    rfl

theorem readBody?_flatMap {cs : List Char} {fuel : Nat} (hfuel : cs.length < fuel)
    (rest : List Char) :
    readBody? fuel (cs.flatMap writeChar ++ '"' :: rest) = some (cs, rest) := by
  induction cs generalizing fuel with
  | nil =>
    obtain ⟨fuel, rfl⟩ := Nat.exists_eq_add_one_of_ne_zero (Nat.ne_of_gt hfuel)
    rfl
  | cons c cs ih =>
    obtain ⟨fuel, rfl⟩ := Nat.exists_eq_add_one_of_ne_zero (Nat.ne_zero_of_lt hfuel)
    rw [List.flatMap_cons, List.append_assoc, readBody?_writeChar,
      ih (Nat.lt_of_succ_lt_succ hfuel)]
    rfl

theorem length_le_length_flatMap (cs : List Char) : cs.length ≤ (cs.flatMap writeChar).length := by
  induction cs with
  | nil => exact Nat.le_refl _
  | cons c cs ih =>
    have hchar : 0 < (writeChar c).length := by
      obtain ⟨escape, hwritten, -⟩ | ⟨hwritten, -⟩ := writeChar_cases c
      all_goals
        rw [hwritten]
        exact Nat.zero_lt_succ _
    rw [List.flatMap_cons, List.length_append, List.length_cons]
    omega

theorem toList_writeText_append (text : String) (rest : List Char) :
    (writeText text).toList ++ rest = '"' :: (text.toList.flatMap writeChar ++ '"' :: rest) := by
  simp [writeText]

/-- A written string reads back, whatever is in it. -/
theorem readString?_writeText (text : String) (rest : List Char) :
    readString? ((writeText text).toList ++ rest) = some (text, rest) := by
  have hlength := length_le_length_flatMap text.toList
  rw [toList_writeText_append, readString?, readBody?_flatMap]
  · exact congrArg (fun body => some (body, rest)) (String.ofList_toList)
  · rw [List.length_append]
    omega

/-! ## Values -/

/-- Whether a text is read as a value, in front of whatever ends a number. -/
structure ReadsAt (depth : Nat) (written : String) (value : Document) : Prop where
  head : ∃ c ∈ written.toList.head?, isBlank c = false
  read : ∀ rest, Ends rest → readValue? depth (written.toList ++ rest) = some (value, rest)

namespace ReadsAt

variable {depth : Nat} {written : String} {value : Document}

theorem skipBlanks_append (hreads : ReadsAt depth written value) (rest : List Char) :
    skipBlanks (written.toList ++ rest) = written.toList ++ rest := by
  obtain ⟨c, hhead, hc⟩ := hreads.head
  obtain ⟨cs, hcs⟩ := List.head?_eq_some_iff.mp hhead
  rw [hcs]
  exact skipBlanks_cons hc _

theorem length_pos (hreads : ReadsAt depth written value) : 0 < written.toList.length := by
  obtain ⟨c, hhead, -⟩ := hreads.head
  obtain ⟨cs, hcs⟩ := List.head?_eq_some_iff.mp hhead
  rw [hcs]
  exact Nat.zero_lt_succ _

theorem text (depth : Nat) (value : String) : ReadsAt depth (writeText value) (.text value) where
  head := ⟨'"', by simp [writeText], by decide⟩
  read rest _ := by
    have hread := readString?_writeText value rest
    rw [toList_writeText_append] at hread ⊢
    rw [readValue?, hread]
    rfl

theorem null (depth : Nat) : ReadsAt depth "null" .null where
  head := ⟨'n', rfl, by decide⟩
  read rest _ := by cases depth <;> rfl

theorem bool (depth : Nat) (value : Bool) :
    ReadsAt depth (if value then "true" else "false") (.bool value) where
  head := by cases value <;> exact ⟨_, rfl, by decide⟩
  read rest _ := by cases value <;> cases depth <;> rfl

theorem number (depth : Nat) (hread : readNumber? written.toList = some (value, [])) :
    ReadsAt depth written value := by
  cases hcs : written.toList with
  | nil =>
    rw [hcs] at hread
    exact nomatch hread
  | cons c cs =>
    rw [hcs] at hread
    have hhead : ∀ d, d ≠ '-' → Digits.isDigit d = false → c ≠ d := by
      rintro d hminus hdigit rfl
      obtain htrue | hsign := head_of_readNumber? hread
      · exact nomatch hdigit.symm.trans htrue
      · exact hminus hsign
    have hblank : isBlank c = false := by
      simp only [isBlank, Bool.or_eq_false_iff, decide_eq_false_iff_not]
      exact ⟨⟨⟨hhead _ (by decide) (by decide), hhead _ (by decide) (by decide)⟩,
        hhead _ (by decide) (by decide)⟩, hhead _ (by decide) (by decide)⟩
    refine ⟨⟨c, by rw [hcs]; rfl, hblank⟩, fun rest hends => ?_⟩
    have hstops := readNumber?_stops _ _ _ rest hends hread
    rw [hcs, List.cons_append, readValue?.eq_def]
    dsimp only
    split
    -- Nothing else begins with the first character of a number.
    iterate 6
      · next heq => exact absurd (List.cons.inj heq).1 (hhead _ (by decide) (by decide))
    · exact hstops

end ReadsAt

/-! ## Blocks -/

theorem length_le_length_intercalate (separator : String) {texts : List String}
    (htexts : ∀ text ∈ texts, 0 < text.toList.length) :
    texts.length ≤ (separator.intercalate texts).toList.length := by
  induction texts with
  | nil => exact Nat.zero_le _
  | cons text texts ih =>
    have hfirst := htexts text List.mem_cons_self
    cases texts with
    | nil => rwa [String.intercalate_singleton]
    | cons next texts =>
      have hrest := ih fun text hmem => htexts text (List.mem_cons_of_mem _ hmem)
      rw [String.intercalate_cons_cons]
      simp only [String.toList_append, List.length_append, List.length_cons] at hrest ⊢
      omega

theorem exists_intercalate_append (separator text : String) (texts : List String)
    (rest : List Char) : ∃ tail,
      (separator.intercalate (text :: texts)).toList ++ rest = text.toList ++ tail := by
  cases texts with
  | nil => exact ⟨rest, by rw [String.intercalate_singleton]⟩
  | cons next texts =>
    rw [String.intercalate_cons_cons, String.toList_append, String.toList_append]
    simp only [List.append_assoc]
    exact ⟨_, rfl⟩

theorem writeBlock_append (left right : String) (level : Nat) {elements : List String}
    (hsome : elements ≠ []) (rest : List Char) :
    (writeBlock left right level elements).toList ++ rest =
      left.toList ++ ((lineBreak (level + 1)).toList ++
        ((("," ++ lineBreak (level + 1)).intercalate elements).toList ++
          ((lineBreak level).toList ++ (right.toList ++ rest)))) := by
  rw [writeBlock, if_neg (by simpa using hsome)]
  simp only [String.toList_append, List.append_assoc]

/-! ## Lists -/

theorem readValue?_bracket (depth : Nat) (cs : List Char) :
    readValue? depth (']' :: cs) = none := by
  have hnumber : readNumber? (']' :: cs) = none := by
    rw [Option.eq_none_iff_forall_ne_some]
    intro result hread
    obtain hdigit | hminus := head_of_readNumber? hread
    · exact absurd hdigit (by decide)
    · exact absurd hminus (by decide)
  cases depth <;> exact hnumber

theorem ReadsAt.append_ne_bracket {depth : Nat} {written : String} {value : Document}
    (hreads : ReadsAt depth written value) (tail cs : List Char) :
    written.toList ++ tail ≠ ']' :: cs := by
  intro heq
  obtain ⟨c, hhead, -⟩ := hreads.head
  obtain ⟨more, hmore⟩ := List.head?_eq_some_iff.mp hhead
  have hread := hreads.read [] ends_nil
  rw [hmore] at heq hread
  obtain ⟨rfl, -⟩ := List.cons.inj heq
  exact nomatch (readValue?_bracket depth _).symm.trans hread

section

variable {depth fuel : Nat} {written blank close : String} {value : Document}

theorem readItems?_append (item : List Char → Option (Document × List Char))
    (hblank : ∀ c ∈ blank.toList, isBlank c = true) (cs : List Char) :
    readItems? item fuel (blank.toList ++ cs) = readItems? item fuel cs := by
  cases fuel with
  | zero => rfl
  | succ fuel => rw [readItems?, readItems?, skipBlanks_append hblank]

/-- After an item the next one follows, or the closing bracket. -/
theorem readItems?_item (hreads : ReadsAt depth written value) {after : List Char}
    (hends : Ends after) :
    readItems? (readValue? depth) (fuel + 1) (written.toList ++ after) =
      match skipBlanks after with
      | ',' :: cs => (readItems? (readValue? depth) fuel cs).map fun result =>
          (value :: result.1, result.2)
      | ']' :: rest => some ([value], rest)
      | _ => none := by
  rw [readItems?, hreads.skipBlanks_append, hreads.read _ hends]
  simp only [Option.map_eq_bind]
  rfl

theorem readItems?_last (hreads : ReadsAt depth written value)
    (hclose : ∀ c ∈ close.toList, isBlank c = true) (rest : List Char) :
    readItems? (readValue? depth) (fuel + 1) (written.toList ++ (close.toList ++ ']' :: rest)) =
      some ([value], rest) := by
  rw [readItems?_item hreads (ends_append hclose (ends_cons (by decide) (by decide) rest)),
    skipBlanks_append hclose, skipBlanks_cons (by decide)]
  rfl

theorem readItems?_more (hreads : ReadsAt depth written value) (cs : List Char) :
    readItems? (readValue? depth) (fuel + 1) (written.toList ++ ',' :: cs) =
      (readItems? (readValue? depth) fuel cs).map fun result =>
        (value :: result.1, result.2) := by
  rw [readItems?_item hreads (ends_cons (by decide) (by decide) cs), skipBlanks_cons (by decide)]
  rfl

/-- Items that are written between commas and blanks are read up to the closing bracket. -/
theorem readItems?_intercalate (hblank : ∀ c ∈ blank.toList, isBlank c = true)
    (hclose : ∀ c ∈ close.toList, isBlank c = true) {items : List Document}
    {write : Document → String} (hreads : ∀ item ∈ items, ReadsAt depth (write item) item)
    (hsome : items ≠ []) (hfuel : items.length ≤ fuel) (rest : List Char) :
    readItems? (readValue? depth) fuel
        ((("," ++ blank).intercalate (items.map write)).toList ++
          (close.toList ++ ']' :: rest)) = some (items, rest) := by
  induction items generalizing fuel with
  | nil => exact absurd rfl hsome
  | cons item items ih =>
    obtain ⟨fuel, rfl⟩ := Nat.exists_eq_add_one_of_ne_zero (Nat.ne_zero_of_lt hfuel)
    have hfirst := hreads item List.mem_cons_self
    cases items with
    | nil =>
      rw [List.map_singleton, String.intercalate_singleton]
      exact readItems?_last hfirst hclose rest
    | cons next items =>
      have hrest := ih (fun item hmem => hreads item (List.mem_cons_of_mem _ hmem))
        (List.cons_ne_nil _ _) (Nat.le_of_succ_le_succ hfuel)
      have htext : ((("," ++ blank).intercalate ((item :: next :: items).map write)).toList ++
          (close.toList ++ ']' :: rest)) = (write item).toList ++ ',' :: (blank.toList ++
            ((("," ++ blank).intercalate ((next :: items).map write)).toList ++
              (close.toList ++ ']' :: rest))) := by
        rw [List.map_cons, List.map_cons, String.intercalate_cons_cons]
        simp
      rw [htext, readItems?_more hfirst, readItems?_append _ hblank, hrest]
      rfl

/-- A list is read from its items, whatever blanks stand around them. -/
theorem readList?_intercalate (hblank : ∀ c ∈ blank.toList, isBlank c = true)
    (hclose : ∀ c ∈ close.toList, isBlank c = true) {items : List Document}
    {write : Document → String} (hreads : ∀ item ∈ items, ReadsAt depth (write item) item)
    (hsome : items ≠ []) (rest : List Char) :
    readList? (readValue? depth) (blank.toList ++
        ((("," ++ blank).intercalate (items.map write)).toList ++
          (close.toList ++ ']' :: rest))) = some (.list items, rest) := by
  have htexts : ∀ text ∈ items.map write, 0 < text.toList.length := by
    intro text hmem
    obtain ⟨item, hitem, rfl⟩ := List.mem_map.mp hmem
    exact (hreads item hitem).length_pos
  have hlength := length_le_length_intercalate ("," ++ blank) htexts
  rw [List.length_map] at hlength
  obtain ⟨first, others, heq⟩ := List.exists_cons_of_ne_nil hsome
  have hfirst : ReadsAt depth (write first) first := hreads first (heq ▸ List.mem_cons_self)
  obtain ⟨tail, htail⟩ := exists_intercalate_append ("," ++ blank) (write first)
    (others.map write) (close.toList ++ ']' :: rest)
  rw [← List.map_cons, ← heq] at htail
  have hitems := readItems?_intercalate hblank hclose hreads hsome
    (Nat.le_succ_of_le (Nat.le_trans hlength
      (List.sublist_append_left _ (close.toList ++ ']' :: rest)).length_le)) rest
  rw [readList?, skipBlanks_append hblank, htail, hfirst.skipBlanks_append]
  rw [htail] at hitems
  split
  · next hbracket => exact absurd hbracket (hfirst.append_ne_bracket _ _)
  · rw [hitems]
    rfl

end

/-! ## Tables -/

section

variable {depth fuel : Nat} {name written blank close : String} {value : Document}

def writeMember (write : Document → String) (field : String × Document) : String :=
  writeText field.1 ++ ": " ++ write field.2

theorem skipBlanks_writeText (text : String) (rest : List Char) :
    skipBlanks ((writeText text).toList ++ rest) = (writeText text).toList ++ rest := by
  rw [toList_writeText_append, skipBlanks_cons (by decide)]

theorem readMembers?_append (value : List Char → Option (Document × List Char))
    (hblank : ∀ c ∈ blank.toList, isBlank c = true) (cs : List Char) :
    readMembers? value fuel (blank.toList ++ cs) = readMembers? value fuel cs := by
  cases fuel with
  | zero => rfl
  | succ fuel => rw [readMembers?, readMembers?, skipBlanks_append hblank]

/-- After a member the next one follows, or the closing brace. -/
theorem readMembers?_member (hreads : ReadsAt depth written value) {after : List Char}
    (hends : Ends after) :
    readMembers? (readValue? depth) (fuel + 1)
        ((writeText name).toList ++ (':' :: ' ' :: (written.toList ++ after))) =
      match skipBlanks after with
      | ',' :: cs => (readMembers? (readValue? depth) fuel cs).map fun result =>
          ((name, value) :: result.1, result.2)
      | '\x7d' :: rest => some ([(name, value)], rest)
      | _ => none := by
  have hcolon : ∀ cs, skipBlanks (':' :: cs) = ':' :: cs := skipBlanks_cons (by decide)
  have hspace : ∀ cs, skipBlanks (' ' :: cs) = skipBlanks cs := fun _ => rfl
  rw [readMembers?, skipBlanks_writeText, readString?_writeText]
  simp only [Option.bind_eq_bind, Option.bind_some, hcolon, hspace, hreads.skipBlanks_append,
    hreads.read _ hends, Option.map_eq_bind]
  rfl

theorem readMembers?_last (hreads : ReadsAt depth written value)
    (hclose : ∀ c ∈ close.toList, isBlank c = true) (rest : List Char) :
    readMembers? (readValue? depth) (fuel + 1) ((writeText name).toList ++
        (':' :: ' ' :: (written.toList ++ (close.toList ++ '\x7d' :: rest)))) =
      some ([(name, value)], rest) := by
  rw [readMembers?_member hreads (ends_append hclose (ends_cons (by decide) (by decide) rest)),
    skipBlanks_append hclose, skipBlanks_cons (by decide)]
  rfl

theorem readMembers?_more (hreads : ReadsAt depth written value) (cs : List Char) :
    readMembers? (readValue? depth) (fuel + 1) ((writeText name).toList ++
        (':' :: ' ' :: (written.toList ++ ',' :: cs))) =
      (readMembers? (readValue? depth) fuel cs).map fun result =>
        ((name, value) :: result.1, result.2) := by
  rw [readMembers?_member hreads (ends_cons (by decide) (by decide) cs),
    skipBlanks_cons (by decide)]
  rfl

/-- Members that are written between commas and blanks are read up to the closing brace. -/
theorem readMembers?_intercalate (hblank : ∀ c ∈ blank.toList, isBlank c = true)
    (hclose : ∀ c ∈ close.toList, isBlank c = true) {fields : List (String × Document)}
    {write : Document → String} (hreads : ∀ field ∈ fields, ReadsAt depth (write field.2) field.2)
    (hsome : fields ≠ []) (hfuel : fields.length ≤ fuel) (rest : List Char) :
    readMembers? (readValue? depth) fuel
        ((("," ++ blank).intercalate (fields.map (writeMember write))).toList ++
          (close.toList ++ '\x7d' :: rest)) = some (fields, rest) := by
  induction fields generalizing fuel with
  | nil => exact absurd rfl hsome
  | cons field fields ih =>
    obtain ⟨fuel, rfl⟩ := Nat.exists_eq_add_one_of_ne_zero (Nat.ne_zero_of_lt hfuel)
    have hfirst := hreads field List.mem_cons_self
    cases fields with
    | nil =>
      have htext : (writeMember write field).toList ++ (close.toList ++ '\x7d' :: rest) =
          (writeText field.1).toList ++ (':' :: ' ' :: ((write field.2).toList ++
            (close.toList ++ '\x7d' :: rest))) := by
        simp [writeMember]
      rw [List.map_singleton, String.intercalate_singleton, htext]
      exact readMembers?_last hfirst hclose rest
    | cons next fields =>
      have hrest := ih (fun field hmem => hreads field (List.mem_cons_of_mem _ hmem))
        (List.cons_ne_nil _ _) (Nat.le_of_succ_le_succ hfuel)
      have htext :
          ((("," ++ blank).intercalate
              ((field :: next :: fields).map (writeMember write))).toList ++
            (close.toList ++ '\x7d' :: rest)) =
          (writeText field.1).toList ++ (':' :: ' ' :: ((write field.2).toList ++ ',' ::
            (blank.toList ++
              ((("," ++ blank).intercalate ((next :: fields).map (writeMember write))).toList ++
                (close.toList ++ '\x7d' :: rest))))) := by
        rw [List.map_cons, List.map_cons, String.intercalate_cons_cons]
        simp [writeMember]
      rw [htext, readMembers?_more hfirst, readMembers?_append _ hblank, hrest]
      rfl

/-- A table is read from its fields, whatever blanks stand around them. -/
theorem readTable?_intercalate (hblank : ∀ c ∈ blank.toList, isBlank c = true)
    (hclose : ∀ c ∈ close.toList, isBlank c = true) {fields : List (String × Document)}
    {write : Document → String} (hreads : ∀ field ∈ fields, ReadsAt depth (write field.2) field.2)
    (hdistinct : (fields.map Prod.fst).Nodup) (hsome : fields ≠ []) (rest : List Char) :
    readTable? (readValue? depth) (blank.toList ++
        ((("," ++ blank).intercalate (fields.map (writeMember write))).toList ++
          (close.toList ++ '\x7d' :: rest))) = some (.table fields, rest) := by
  have htexts : ∀ text ∈ fields.map (writeMember write), 0 < text.toList.length := by
    intro text hmem
    obtain ⟨field, -, rfl⟩ := List.mem_map.mp hmem
    simp [writeMember, writeText]
  have hlength := length_le_length_intercalate ("," ++ blank) htexts
  rw [List.length_map] at hlength
  obtain ⟨first, others, heq⟩ := List.exists_cons_of_ne_nil hsome
  obtain ⟨tail, htail⟩ := exists_intercalate_append ("," ++ blank) (writeMember write first)
    (others.map (writeMember write)) (close.toList ++ '\x7d' :: rest)
  have hquote : ∃ cs, (writeMember write first).toList ++ tail = '"' :: cs :=
    ⟨_, by simp [writeMember, writeText]; rfl⟩
  rw [← List.map_cons, ← heq] at htail
  have hmembers := readMembers?_intercalate hblank hclose hreads hsome
    (Nat.le_succ_of_le (Nat.le_trans hlength
      (List.sublist_append_left _ (close.toList ++ '\x7d' :: rest)).length_le)) rest
  obtain ⟨cs, hcs⟩ := hquote
  rw [hcs] at htail
  rw [readTable?, skipBlanks_append hblank, htail, skipBlanks_cons (by decide)]
  rw [htail] at hmembers
  have htable := congrArg (Option.map fun result =>
    (Document.table (Table.ofList result.1).entries, result.2)) hmembers
  rw [Option.map_some, Table.entries_ofList _ hdistinct] at htable
  exact htable

end

/-! ## Documents -/

theorem writeItems_eq_map (level : Nat) (items : List Document) :
    writeItems level items = items.map (writeAt level) := by
  induction items with
  | nil => rw [writeItems, List.map_nil]
  | cons item items ih => rw [writeItems, ih, List.map_cons]

theorem writeFields_eq_map (level : Nat) (fields : List (String × Document)) :
    writeFields level fields = fields.map (writeMember (writeAt level)) := by
  induction fields with
  | nil => rw [writeFields, List.map_nil]
  | cons field fields ih =>
    obtain ⟨name, value⟩ := field
    rw [writeFields, ih, List.map_cons, writeMember]

/-- Whether a document can be read from its text: its numbers read back, no name occurs twice in a
table, and it is not nested too deeply. -/
inductive Legible : (depth : Nat) → Document → Prop
  | null {depth : Nat} : Legible depth .null
  | bool {depth : Nat} (value : Bool) : Legible depth (.bool value)
  | int {depth : Nat} {n : Int} (hword : IsWord n) : Legible depth (.int n)
  | float {depth : Nat} {value : Float} (hback : ReadsBack value) : Legible depth (.float value)
  | text {depth : Nat} (value : String) : Legible depth (.text value)
  | list {depth : Nat} {items : List Document} (hitems : ∀ item ∈ items, Legible depth item) :
    Legible (depth + 1) (.list items)
  | table {depth : Nat} {fields : List (String × Document)}
    (hdistinct : (fields.map Prod.fst).Nodup) (hfields : ∀ field ∈ fields, Legible depth field.2) :
    Legible (depth + 1) (.table fields)

namespace ReadsAt

variable {depth : Nat}

theorem list {items : List Document} {level : Nat}
    (hitems : ∀ item ∈ items, ReadsAt depth (writeAt (level + 1) item) item) :
    ReadsAt (depth + 1) (writeAt level (.list items)) (.list items) := by
  rw [writeAt, writeItems_eq_map]
  by_cases hsome : items = []
  · subst hsome
    have hempty : (writeBlock "[" "]" level []).toList = ['[', ']'] := by
      simp [writeBlock]
    rw [List.map_nil]
    exact ⟨⟨'[', by rw [hempty]; rfl, by decide⟩, fun rest _ => by rw [hempty]; rfl⟩
  · have htext := writeBlock_append "[" "]" level
      (mt (List.map_eq_nil_iff (f := writeAt (level + 1))).mp hsome)
    refine ⟨⟨'[', ?_, by decide⟩, fun rest _ => ?_⟩
    · rw [← List.append_nil (String.toList _), htext]
      rfl
    · rw [htext]
      exact readList?_intercalate (fun _ => isBlank_of_mem_lineBreak)
        (fun _ => isBlank_of_mem_lineBreak) hitems hsome rest

theorem table {fields : List (String × Document)} {level : Nat}
    (hdistinct : (fields.map Prod.fst).Nodup)
    (hfields : ∀ field ∈ fields, ReadsAt depth (writeAt (level + 1) field.2) field.2) :
    ReadsAt (depth + 1) (writeAt level (.table fields)) (.table fields) := by
  rw [writeAt, writeFields_eq_map]
  by_cases hsome : fields = []
  · subst hsome
    have hempty : (writeBlock "\x7b" "\x7d" level []).toList = ['\x7b', '\x7d'] := by
      simp [writeBlock]
    rw [List.map_nil]
    exact ⟨⟨'\x7b', by rw [hempty]; rfl, by decide⟩, fun rest _ => by rw [hempty]; rfl⟩
  · have htext := writeBlock_append "\x7b" "\x7d" level
      (mt (List.map_eq_nil_iff (f := writeMember (writeAt (level + 1)))).mp hsome)
    refine ⟨⟨'\x7b', ?_, by decide⟩, fun rest _ => ?_⟩
    · rw [← List.append_nil (String.toList _), htext]
      rfl
    · rw [htext]
      exact readTable?_intercalate (fun _ => isBlank_of_mem_lineBreak)
        (fun _ => isBlank_of_mem_lineBreak) hfields hdistinct hsome rest

end ReadsAt

theorem readsAt_of_legible {depth : Nat} {document : Document} (hlegible : Legible depth document)
    (level : Nat) : ReadsAt depth (writeAt level document) document := by
  induction hlegible generalizing level with
  | null =>
    rw [writeAt]
    exact .null _
  | bool value =>
    rw [writeAt]
    exact .bool _ value
  | int hword =>
    rw [writeAt]
    exact .number _ (readNumber?_ofInt hword)
  | float hback =>
    rw [writeAt]
    exact .number _ hback
  | text value =>
    rw [writeAt]
    exact .text _ value
  | list _ ih => exact .list fun item hmem => ih item hmem (level + 1)
  | table hdistinct _ ih => exact .table hdistinct fun field hmem => ih field hmem (level + 1)

theorem read?_write {document : Document} (hlegible : Legible maxDepth document) :
    read? (write document) = some document := by
  have hreads := readsAt_of_legible hlegible 0
  have hread := hreads.read [] ends_nil
  have hskip := hreads.skipBlanks_append []
  rw [List.append_nil] at hread hskip
  rw [read?, write, hskip, hread]
  rfl

/-! ## What is read -/

/-- Whether a document is made of what JSON has, with numbers that it can give. -/
inductive Given : Document → Prop
  | null : Given .null
  | bool (value : Bool) : Given (.bool value)
  | text (value : String) : Given (.text value)
  | number {document : Document} (hnumber : IsNumber document) : Given document
  | list {items : List Document} (hitems : ∀ item ∈ items, Given item) : Given (.list items)
  | table {fields : List (String × Document)} (hfields : ∀ field ∈ fields, Given field.2) :
    Given (.table fields)

section

variable {value : List Char → Option (Document × List Char)}
  (hvalue : ∀ {cs left : List Char} {document : Document},
    value cs = some (document, left) → Given document)
include hvalue

theorem given_of_readItems? {fuel : Nat} {cs left : List Char} {items : List Document}
    (hread : readItems? value fuel cs = some (items, left)) : ∀ item ∈ items, Given item := by
  induction fuel generalizing cs left items with
  | zero => exact nomatch hread
  | succ fuel ih =>
    obtain ⟨⟨first, after⟩, hfirst, hread⟩ := Option.bind_eq_some_iff.mp hread
    dsimp only at hread
    split at hread
    · obtain ⟨⟨others, after⟩, hothers, heq⟩ := Option.bind_eq_some_iff.mp hread
      obtain ⟨rfl, -⟩ := Prod.mk.inj (Option.some.inj heq)
      exact List.forall_mem_cons.mpr ⟨hvalue hfirst, ih hothers⟩
    · obtain ⟨rfl, -⟩ := Prod.mk.inj (Option.some.inj hread)
      exact List.forall_mem_singleton.mpr (hvalue hfirst)
    · cases hread

theorem given_of_readMembers? {fuel : Nat} {cs left : List Char}
    {fields : List (String × Document)} (hread : readMembers? value fuel cs = some (fields, left)) :
    ∀ field ∈ fields, Given field.2 := by
  induction fuel generalizing cs left fields with
  | zero => exact nomatch hread
  | succ fuel ih =>
    obtain ⟨⟨name, after⟩, -, hread⟩ := Option.bind_eq_some_iff.mp hread
    dsimp only at hread
    split at hread
    · obtain ⟨⟨first, after⟩, hfirst, hread⟩ := Option.bind_eq_some_iff.mp hread
      dsimp only at hread
      split at hread
      · obtain ⟨⟨others, after⟩, hothers, heq⟩ := Option.bind_eq_some_iff.mp hread
        obtain ⟨rfl, -⟩ := Prod.mk.inj (Option.some.inj heq)
        exact List.forall_mem_cons.mpr ⟨hvalue hfirst, ih hothers⟩
      · obtain ⟨rfl, -⟩ := Prod.mk.inj (Option.some.inj hread)
        exact List.forall_mem_singleton.mpr (hvalue hfirst)
      · cases hread
    · cases hread

theorem given_of_readList? {cs left : List Char} {document : Document}
    (hread : readList? value cs = some (document, left)) : Given document := by
  rw [readList?] at hread
  split at hread
  · obtain ⟨rfl, -⟩ := Prod.mk.inj (Option.some.inj hread)
    exact .list nofun
  · obtain ⟨⟨items, after⟩, hitems, heq⟩ := Option.map_eq_some_iff.mp hread
    obtain ⟨rfl, -⟩ := Prod.mk.inj heq
    exact .list (given_of_readItems? hvalue hitems)

theorem given_of_readTable? {cs left : List Char} {document : Document}
    (hread : readTable? value cs = some (document, left)) : Given document := by
  rw [readTable?] at hread
  split at hread
  · obtain ⟨rfl, -⟩ := Prod.mk.inj (Option.some.inj hread)
    exact .table nofun
  · obtain ⟨⟨members, after⟩, hmembers, heq⟩ := Option.map_eq_some_iff.mp hread
    obtain ⟨rfl, -⟩ := Prod.mk.inj heq
    exact .table fun field hmem =>
      given_of_readMembers? hvalue hmembers field (Table.mem_of_mem_ofList hmem)

end

/-- A value is a list or a table one level deeper, or made of what JSON has. -/
theorem readValue?_cases {depth : Nat} {cs left : List Char} {document : Document}
    (hread : readValue? depth cs = some (document, left)) :
    Given document ∨ ∃ inner tail, depth = inner + 1 ∧
      (readList? (readValue? inner) tail = some (document, left) ∨
        readTable? (readValue? inner) tail = some (document, left)) := by
  rw [readValue?.eq_def] at hread
  dsimp only at hread
  split at hread
  · obtain ⟨result, -, heq⟩ := Option.map_eq_some_iff.mp hread
    obtain ⟨rfl, -⟩ := Prod.mk.inj heq
    exact .inl (.text _)
  · cases depth with
    | zero => cases hread
    | succ inner => exact .inr ⟨inner, _, rfl, .inl hread⟩
  · cases depth with
    | zero => cases hread
    | succ inner => exact .inr ⟨inner, _, rfl, .inr hread⟩
  · obtain ⟨rfl, -⟩ := Prod.mk.inj (Option.some.inj hread)
    exact .inl (.bool _)
  · obtain ⟨rfl, -⟩ := Prod.mk.inj (Option.some.inj hread)
    exact .inl (.bool _)
  · obtain ⟨rfl, -⟩ := Prod.mk.inj (Option.some.inj hread)
    exact .inl .null
  · exact .inl (.number (isNumber_of_readNumber? hread))

theorem given_of_readValue? {depth : Nat} {cs left : List Char} {document : Document}
    (hread : readValue? depth cs = some (document, left)) : Given document := by
  induction depth generalizing cs left document with
  | zero =>
    obtain hgiven | ⟨_, _, hdepth, -⟩ := readValue?_cases hread
    · exact hgiven
    · cases hdepth
  | succ depth ih =>
    obtain hgiven | ⟨_, _, hdepth, hlist | htable⟩ := readValue?_cases hread
    · exact hgiven
    · obtain rfl := Nat.succ.inj hdepth
      exact given_of_readList? ih hlist
    · obtain rfl := Nat.succ.inj hdepth
      exact given_of_readTable? ih htable

theorem given_of_read? {text : String} {document : Document}
    (hread : read? text = some document) : Given document := by
  obtain ⟨⟨value, left⟩, hvalue, hread⟩ := Option.bind_eq_some_iff.mp hread
  dsimp only at hread
  split at hread
  · obtain rfl := Option.some.inj hread
    exact given_of_readValue? hvalue
  · cases hread

theorem Given.isFinite {document : Document} (hgiven : Given document) {value : Float}
    (hvalue : document.toFloat? = some value) : value.isFinite = true := by
  cases hgiven with
  | number hnumber =>
    cases hnumber with
    | int hword =>
      obtain rfl := Option.some.inj hvalue
      exact Binary64.isFinite_ofInt hword
    | float hfinite =>
      obtain rfl := Option.some.inj hvalue
      exact hfinite
  | _ => cases hvalue

end Json

end ExposureControl
