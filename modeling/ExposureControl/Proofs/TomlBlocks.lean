import ExposureControl.Proofs.TomlValues

/-!
# Written tables read back

A written table is a header and a line for each plain field.  Tables written one below the other,
with a blank line between them, read back as blocks with the same headers and entries.
-/

namespace ExposureControl.Toml

/-! ## Keys -/

/-- Whether a key needs no quotes. -/
def bare (key : String) : Bool := !key.toList.isEmpty && key.toList.all isBareKeyChar

theorem isBareKeyChar_of_bare {key : String} (hkey : bare key = true) :
    ∃ c cs, key.toList = c :: cs ∧ isBareKeyChar c = true ∧
      ∀ d ∈ key.toList, isBareKeyChar d = true := by
  rw [bare, Bool.and_eq_true, List.all_eq_true] at hkey
  cases hcs : key.toList with
  | nil =>
    rw [hcs] at hkey
    exact nomatch hkey.1
  | cons c cs =>
    rw [hcs] at hkey
    exact ⟨c, cs, rfl, hkey.2 c List.mem_cons_self, hkey.2⟩

theorem readSimpleKey?_of_bare {key : String} (hkey : bare key = true) {c : Char}
    (hc : isBareKeyChar c = false) (rest : List Char) :
    readSimpleKey? (key.toList ++ c :: rest) = some (key, c :: rest) := by
  obtain ⟨d, ds, hds, hd, hall⟩ := isBareKeyChar_of_bare hkey
  have htake : (key.toList ++ c :: rest).takeWhile isBareKeyChar = key.toList := by
    rw [List.takeWhile_append_of_pos hall, List.takeWhile_cons_of_neg (by simp [hc]),
      List.append_nil]
  have hquote : ∀ {quote : Char} {after : List Char}, isBareKeyChar quote = false →
      key.toList ++ c :: rest ≠ quote :: after := by
    intro quote after hquote heq
    rw [hds, List.cons_append] at heq
    obtain ⟨rfl, -⟩ := List.cons.inj heq
    exact nomatch hquote.symm.trans hd
  rw [readSimpleKey?.eq_3 _ (fun _ => hquote (by decide)) fun _ => hquote (by decide), htake,
    List.drop_left, String.ofList_toList, hds]
  rfl

theorem skipBlanks_of_bare {key : String} (hkey : bare key = true) (rest : List Char) :
    skipBlanks (key.toList ++ rest) = key.toList ++ rest := by
  obtain ⟨c, cs, hcs, hc, -⟩ := isBareKeyChar_of_bare hkey
  have hblank : isBlank c = false := by
    rw [isBlank, Bool.or_eq_false_iff, decide_eq_false_iff_not, decide_eq_false_iff_not]
    constructor
    all_goals
      rintro rfl
      revert hc
      decide
  rw [hcs, List.cons_append, skipBlanks, List.dropWhile_cons_of_neg (by simp [hblank])]

/-- A path that is joined by points reads back in front of what is no part of a key. -/
theorem readKeys?_of_bare {path : List String} (hpath : ∀ key ∈ path, bare key = true) {c : Char}
    (hc : isBareKeyChar c = false) {rest : List Char}
    (hend : ∀ after, skipBlanks (c :: rest) ≠ '.' :: after) {fuel : Nat} (hne : path ≠ [])
    (hfuel : path.length ≤ fuel) :
    readKeys? fuel ((".".intercalate path).toList ++ c :: rest) =
      some (path, skipBlanks (c :: rest)) := by
  induction path generalizing fuel with
  | nil => exact absurd rfl hne
  | cons key path ih =>
    obtain ⟨fuel, rfl⟩ : ∃ less, fuel = less + 1 := ⟨fuel - 1, by simp at hfuel; omega⟩
    have hkey := hpath key List.mem_cons_self
    cases path with
    | nil =>
      rw [String.intercalate_singleton, readKeys?, skipBlanks_of_bare hkey,
        readSimpleKey?_of_bare hkey hc]
      refine Option.bind_eq_some_iff.mpr ⟨_, rfl, ?_⟩
      dsimp only
      split
      · next heq => exact absurd heq (hend _)
      · rfl
    | cons next path =>
      have hmore := ih (fun key h => hpath key (List.mem_cons_of_mem _ h))
        (List.cons_ne_nil _ _) (Nat.le_of_succ_le_succ hfuel)
      rw [String.intercalate_cons_cons, String.toList_append, String.toList_append,
        List.append_assoc, List.append_assoc, readKeys?, skipBlanks_of_bare hkey]
      refine Option.bind_eq_some_iff.mpr
        ⟨_, readSimpleKey?_of_bare hkey (c := '.') (by decide) _, ?_⟩
      exact Option.bind_eq_some_iff.mpr ⟨_, hmore, rfl⟩

theorem intercalate_eq_cons {path : List String} (hpath : ∀ key ∈ path, bare key = true)
    (hne : path ≠ []) :
    ∃ c cs, (".".intercalate path).toList = c :: cs ∧ isBareKeyChar c = true := by
  cases path with
  | nil => exact absurd rfl hne
  | cons key path =>
    obtain ⟨c, cs, hcs, hc, -⟩ := isBareKeyChar_of_bare (hpath key List.mem_cons_self)
    cases path with
    | nil => exact ⟨c, cs, by rw [String.intercalate_singleton, hcs], hc⟩
    | cons next path =>
      exact ⟨c, _, by
        rw [String.intercalate_cons_cons, String.toList_append, String.toList_append,
          hcs, List.cons_append, List.cons_append], hc⟩

/-! ## Lines -/

/-- Whether every way to begin reading the rest of a text, given the current block, has this
result. -/
def ReadsTo (block : Block) (cs : List Char) (result : Option (List Block)) : Prop :=
  ∀ fuel, cs.length < fuel → readBlocks? fuel block cs = result

namespace ReadsTo

variable {block : Block} {rest : List Char} {result : Option (List Block)}

theorem done (block : Block) : ReadsTo block [] (some [block]) := by
  intro fuel hfuel
  obtain ⟨fuel, rfl⟩ := Nat.exists_eq_succ_of_ne_zero (Nat.ne_of_gt hfuel)
  rfl

theorem blank (hrest : ReadsTo block rest result) : ReadsTo block ('\n' :: rest) result := by
  intro fuel hfuel
  obtain ⟨fuel, rfl⟩ := Nat.exists_eq_succ_of_ne_zero (Nat.ne_of_gt (Nat.zero_lt_of_lt hfuel))
  exact hrest fuel (Nat.lt_of_succ_lt_succ hfuel)

theorem entry {key written : String} {value : Document} (hkey : bare key = true)
    (hvalue : ReadsAs written value)
    (hrest : ReadsTo { block with entries := block.entries ++ [([key], value)] } rest result) :
    ReadsTo block (key.toList ++ ' ' :: '=' :: ' ' :: (written.toList ++ '\n' :: rest)) result := by
  intro fuel hfuel
  obtain ⟨fuel, rfl⟩ := Nat.exists_eq_succ_of_ne_zero (Nat.ne_of_gt (Nat.zero_lt_of_lt hfuel))
  have hless : rest.length < fuel := by
    simp only [List.length_append, List.length_cons] at hfuel
    omega
  have hentry : readEntry? (readValue? maxDepth)
      (key.toList ++ ' ' :: '=' :: ' ' :: (written.toList ++ '\n' :: rest)) =
      some (([key], value), '\n' :: rest) := by
    have hpath : readPath?
        ((".".intercalate [key]).toList ++ ' ' :: '=' :: ' ' :: (written.toList ++ '\n' :: rest)) =
        some ([key], '=' :: ' ' :: (written.toList ++ '\n' :: rest)) :=
      readKeys?_of_bare (by simpa using hkey) (by decide) (by exact nofun)
        (List.cons_ne_nil _ _) (Nat.succ_le_succ (Nat.zero_le _))
    rw [String.intercalate_singleton] at hpath
    exact Option.bind_eq_some_iff.mpr ⟨_, hpath, Option.bind_eq_some_iff.mpr
      ⟨_, rfl, Option.bind_eq_some_iff.mpr ⟨_, hvalue rest, rfl⟩⟩⟩
  obtain ⟨c, cs, hcs, hc, -⟩ := isBareKeyChar_of_bare hkey
  have hapart : ∀ {d : Char} {after : List Char}, isBareKeyChar d = false →
      key.toList ++ ' ' :: '=' :: ' ' :: (written.toList ++ '\n' :: rest) ≠ d :: after := by
    intro d after hd heq
    rw [hcs, List.cons_append] at heq
    obtain ⟨rfl, -⟩ := List.cons.inj heq
    exact nomatch hd.symm.trans hc
  rw [readBlocks?, skipBlanks_of_bare hkey]
  split
  · next heq => exact absurd heq (by simp)
  · next heq => exact absurd heq (hapart (by decide))
  · have hcomment : ∀ {d : Char}, isBareKeyChar d = false →
        (key.toList ++ ' ' :: '=' :: ' ' :: (written.toList ++ '\n' :: rest)).head? ≠ some d := by
      intro d hd heq
      obtain ⟨after, heq⟩ := List.head?_eq_some_iff.mp heq
      exact hapart hd heq
    rw [if_neg, hentry]
    · exact hrest fuel hless
    · rw [readNewline?.eq_3 _ (fun _ => hapart (by decide)) fun _ => hapart (by decide),
        decide_eq_false (hcomment (by decide))]
      decide

/-- A header opens a block. -/
theorem header {path : List String} (hpath : ∀ key ∈ path, bare key = true) (hne : path ≠ [])
    (hlength : path.length ≤ maxKeys) {blocks : List Block}
    (hrest : ReadsTo ⟨.table path, []⟩ rest (some blocks)) :
    ReadsTo block ('[' :: ((".".intercalate path).toList ++ ']' :: '\n' :: rest))
      (some (block :: blocks)) := by
  intro fuel hfuel
  obtain ⟨fuel, rfl⟩ := Nat.exists_eq_succ_of_ne_zero (Nat.ne_of_gt (Nat.zero_lt_of_lt hfuel))
  have hless : rest.length < fuel := by
    simp only [List.length_append, List.length_cons] at hfuel
    omega
  have hkeys : readPath? ((".".intercalate path).toList ++ ']' :: '\n' :: rest) =
      some (path, ']' :: '\n' :: rest) :=
    readKeys?_of_bare hpath (by decide) (by exact nofun) hne hlength
  have hheader : readHeader? ('[' :: ((".".intercalate path).toList ++ ']' :: '\n' :: rest)) =
      some (.table path, rest) := by
    rw [readHeader?.eq_2]
    · exact Option.bind_eq_some_iff.mpr ⟨_, hkeys, rfl⟩
    · intro after heq
      obtain ⟨c, cs, hcs, hc⟩ := intercalate_eq_cons hpath hne
      rw [hcs, List.cons_append] at heq
      obtain ⟨rfl, -⟩ := List.cons.inj heq
      exact nomatch hc
  refine Option.bind_eq_some_iff.mpr ⟨_, hheader, ?_⟩
  exact Option.bind_eq_some_iff.mpr ⟨_, hrest fuel hless, rfl⟩

end ReadsTo

/-! ## Tables -/

/-- A table of a text: where it is, and the fields of which the plain ones stand below its
header. -/
structure Part where
  path : List String
  fields : List (String × Document)

/-- Whether a value stands in a line of its own: it is there, and it is no table. -/
def isPlain : Document → Bool
  | .null => false
  | .table _ => false
  | _ => true

theorem writeEntries?_of_plain {key : String} {value : Document} (hplain : isPlain value = true)
    (rest : List (String × Document)) :
    writeEntries? ((key, value) :: rest) = (writePlain? value).bind fun written =>
      (writeEntries? rest).bind fun lines => some (key ++ " = " ++ written ++ "\n" ++ lines) := by
  cases value with
  | null => exact nomatch hplain
  | table => exact nomatch hplain
  | _ => rfl

theorem writeEntries?_of_not_plain {key : String} {value : Document}
    (hplain : ¬isPlain value = true) (rest : List (String × Document)) :
    writeEntries? ((key, value) :: rest) = writeEntries? rest := by
  cases value with
  | null => rfl
  | table => rfl
  | _ => exact absurd rfl hplain

theorem ne_empty_of_writeEntries? {key : String} {value : Document} (hplain : isPlain value = true)
    {rest : List (String × Document)} {text : String}
    (hwrite : writeEntries? ((key, value) :: rest) = some text) : text ≠ "" := by
  rw [writeEntries?_of_plain hplain] at hwrite
  obtain ⟨written, -, hwrite⟩ := Option.bind_eq_some_iff.mp hwrite
  obtain ⟨lines, -, htext⟩ := Option.bind_eq_some_iff.mp hwrite
  rw [← Option.some.inj htext, ne_eq, ← String.toList_inj]
  simp

theorem writeEntries?_eq_none_iff {fields : List (String × Document)} :
    writeEntries? fields = none ↔
      ∃ field ∈ fields, isPlain field.2 = true ∧ writePlain? field.2 = none := by
  induction fields with
  | nil => simp [writeEntries?]
  | cons field fields ih =>
    obtain ⟨key, value⟩ := field
    simp only [List.mem_cons, or_and_right, exists_or, exists_eq_left, ← ih]
    by_cases hplain : isPlain value = true
    · rw [writeEntries?_of_plain hplain]
      cases writePlain? value <;> cases writeEntries? fields <;> simp [hplain]
    · rw [writeEntries?_of_not_plain hplain]
      simp [hplain]

/-- Whether a field, if it is written, reads back in its line. -/
def Legible (field : String × Document) : Prop :=
  bare field.1 = true ∧ ∀ written, writePlain? field.2 = some written → ReadsAs written field.2

namespace Part

def plain (part : Part) : List (String × Document) :=
  part.fields.filter fun field => isPlain field.2

def write? (part : Part) : Option String := do
  return "[" ++ ".".intercalate part.path ++ "]\n" ++ (← writeEntries? part.fields)

def block (part : Part) : Block :=
  ⟨.table part.path, part.plain.map fun field => ([field.1], field.2)⟩

structure Legible (part : Part) : Prop where
  keys : ∀ key ∈ part.path, bare key = true
  nonempty : part.path ≠ []
  short : part.path.length ≤ maxKeys
  fields : ∀ field ∈ part.fields, Toml.Legible field

end Part

theorem Part.write?_eq_none_iff {part : Part} :
    part.write? = none ↔
      ∃ field ∈ part.fields, isPlain field.2 = true ∧ writePlain? field.2 = none := by
  rw [Part.write?, ← writeEntries?_eq_none_iff]
  cases writeEntries? part.fields <;> simp

theorem mapM_write?_cons (part : Part) (parts : List Part) :
    (part :: parts).mapM Part.write? =
      part.write?.bind fun own => (parts.mapM Part.write?).map (own :: ·) := by
  rw [List.mapM_cons]
  simp only [Option.map_eq_bind]
  rfl

theorem mapM_write?_eq_none_iff {parts : List Part} :
    parts.mapM Part.write? = none ↔ ∃ part ∈ parts, part.write? = none := by
  induction parts with
  | nil => simp
  | cons part parts ih =>
    simp only [mapM_write?_cons, List.mem_cons, or_and_right, exists_or, exists_eq_left, ← ih]
    cases part.write? <;> simp

/-- A table below the top with a plain field is written in front of its subtables. -/
theorem writeBlocks?_eq {path : List String} (hpath : path ≠ []) {key : String}
    {value : Document} (hplain : isPlain value = true) (fields : List (String × Document)) :
    writeBlocks? path (.table ((key, value) :: fields)) =
      (Part.write? ⟨path, (key, value) :: fields⟩).bind fun own =>
        (writeSubtables? path ((key, value) :: fields)).map (own :: ·) := by
  have hheader : path.isEmpty = false := List.isEmpty_eq_false_iff.mpr hpath
  rw [writeBlocks?, Part.write?]
  cases hentries : writeEntries? ((key, value) :: fields) with
  | none => rfl
  | some entries =>
    have hsome := ne_empty_of_writeEntries? hplain hentries
    cases writeSubtables? path ((key, value) :: fields) with
    | none => rfl
    | some below => simp [hheader, hsome]

theorem writeBlocks?_leaf {path : List String} (hpath : path ≠ []) {key : String}
    {value : Document} (hplain : isPlain value = true) {fields : List (String × Document)}
    (hleaf : writeSubtables? path ((key, value) :: fields) = some []) :
    writeBlocks? path (.table ((key, value) :: fields)) =
      (Part.write? ⟨path, (key, value) :: fields⟩).map fun own => [own] := by
  rw [writeBlocks?_eq hpath hplain, hleaf, Option.map_eq_bind]
  rfl

theorem writeBlocks?_top {fields : List (String × Document)}
    (hentries : writeEntries? fields = some "") :
    writeBlocks? [] (.table fields) = writeSubtables? [] fields := by
  rw [writeBlocks?, hentries]
  cases writeSubtables? [] fields <;> rfl

/-- A table among the fields of another is written before those of the fields behind it. -/
theorem writeSubtables?_table (path : List String) (key : String)
    (inner rest : List (String × Document)) :
    writeSubtables? path ((key, .table inner) :: rest) =
      (writeBlocks? (path ++ [key]) (.table inner)).bind fun below =>
        (writeSubtables? path rest).map (below ++ ·) := by
  rw [writeSubtables?]
  cases writeBlocks? (path ++ [key]) (.table inner) with
  | none => rfl
  | some below =>
    cases writeSubtables? path rest <;> rfl

theorem writeSubtables?_of_ne_table (path : List String) (key : String) {value : Document}
    (hvalue : ∀ inner, value ≠ .table inner) (rest : List (String × Document)) :
    writeSubtables? path ((key, value) :: rest) = writeSubtables? path rest := by
  rw [writeSubtables?.eq_3 _ _ _ _ hvalue]
  cases writeSubtables? path rest <;> rfl

namespace ReadsTo

variable {block : Block} {rest : List Char} {result : Option (List Block)}

theorem entries {fields : List (String × Document)} (hfields : ∀ field ∈ fields, Legible field)
    {text : String} (hwrite : writeEntries? fields = some text)
    (hrest : ReadsTo { block with
      entries := block.entries ++
        (fields.filter fun field => isPlain field.2).map fun field => ([field.1], field.2) }
      rest result) : ReadsTo block (text.toList ++ rest) result := by
  induction fields generalizing text block with
  | nil =>
    obtain rfl := Option.some.inj hwrite
    rw [List.filter_nil, List.map_nil, List.append_nil] at hrest
    exact hrest
  | cons field fields ih =>
    obtain ⟨key, value⟩ := field
    have hmore := fun field h => hfields field (List.mem_cons_of_mem _ h)
    by_cases hplain : isPlain value = true
    · rw [writeEntries?_of_plain hplain] at hwrite
      obtain ⟨written, hwritten, hwrite⟩ := Option.bind_eq_some_iff.mp hwrite
      obtain ⟨lines, hlines, htext⟩ := Option.bind_eq_some_iff.mp hwrite
      obtain ⟨hkey, hvalue⟩ := hfields _ List.mem_cons_self
      rw [List.filter_cons, if_pos hplain, List.map_cons, List.append_cons] at hrest
      have hline := entry hkey (hvalue written hwritten) (ih hmore hlines hrest)
      obtain rfl := Option.some.inj htext
      simpa using hline
    · rw [writeEntries?_of_not_plain hplain] at hwrite
      rw [List.filter_cons, if_neg hplain] at hrest
      exact ih hmore hwrite hrest

theorem parts {parts : List Part} (hparts : ∀ part ∈ parts, part.Legible) {texts : List String}
    (hwrite : parts.mapM Part.write? = some texts) (block : Block) :
    ReadsTo block ("\n".intercalate texts).toList (some (block :: parts.map Part.block)) := by
  induction parts generalizing texts block with
  | nil =>
    obtain rfl := Option.some.inj hwrite
    exact done block
  | cons part parts ih =>
    rw [List.mapM_cons] at hwrite
    obtain ⟨text, htext, hwrite⟩ := Option.bind_eq_some_iff.mp hwrite
    obtain ⟨texts, htexts, heq⟩ := Option.bind_eq_some_iff.mp hwrite
    obtain rfl := Option.some.inj heq
    obtain ⟨lines, hlines, heq⟩ := Option.bind_eq_some_iff.mp htext
    obtain rfl := Option.some.inj heq
    have hpart := hparts part List.mem_cons_self
    have hread : ∀ {rest : List Char},
        ReadsTo part.block rest (some (part.block :: parts.map Part.block)) →
        ReadsTo block (("[" ++ ".".intercalate part.path ++ "]\n" ++ lines).toList ++ rest)
          (some (block :: (part :: parts).map Part.block)) := by
      intro rest hrest
      have hblock : ReadsTo block _ _ := header hpart.keys hpart.nonempty hpart.short
        (entries hpart.fields hlines hrest)
      simpa using hblock
    cases parts with
    | nil =>
      obtain rfl := Option.some.inj htexts
      have hblock := hread (done part.block)
      rwa [List.append_nil] at hblock
    | cons next parts =>
      obtain ⟨first, more, rfl⟩ : ∃ first more, texts = first :: more := by
        rw [List.mapM_cons] at htexts
        obtain ⟨first, -, hwrite⟩ := Option.bind_eq_some_iff.mp htexts
        obtain ⟨more, -, heq⟩ := Option.bind_eq_some_iff.mp hwrite
        exact ⟨first, more, (Option.some.inj heq).symm⟩
      have hnext := ih (fun part h => hparts part (List.mem_cons_of_mem _ h)) htexts part.block
      rw [String.intercalate_cons_cons, String.toList_append, String.toList_append,
        List.append_assoc]
      exact hread hnext.blank

end ReadsTo

/-! ## Assembly -/

theorem get?_of_new {draft : Draft} {key : String} (hnew : key ∉ draft.fields.map Prod.fst) :
    draft.get? key = none := by
  rw [Draft.get?, List.lookup_eq_none_iff]
  intro field hfield
  rw [bne_iff_ne]
  rintro rfl
  exact hnew (List.mem_map_of_mem hfield)

theorem set_of_new {draft : Draft} {key : String} (hnew : key ∉ draft.fields.map Prod.fst)
    (node : Node) :
    draft.set key node = { draft with fields := draft.fields ++ [(key, node)] } := by
  rw [Draft.set, get?_of_new hnew]
  rfl

theorem assign_of_new {draft : Draft} {key : String} (hdotted : draft.dotted = false)
    (hnew : key ∉ draft.fields.map Prod.fst) (value : Document) :
    draft.assign [key] value =
      some { draft with fields := draft.fields ++ [(key, .value value)] } := by
  have hfree : ¬((decide (draft.dotted = true) || (draft.get? key).isSome) = true) := by
    rw [hdotted, get?_of_new hnew]
    decide
  rw [← set_of_new hnew]
  exact if_neg hfree

/-- Entries with new names of their own become the last fields of a table. -/
theorem assignAll_of_nodup {fields : List (String × Document)} {draft : Draft}
    (hdotted : draft.dotted = false)
    (hnodup : (draft.fields.map Prod.fst ++ fields.map Prod.fst).Nodup) :
    draft.assignAll (fields.map fun field => ([field.1], field.2)) =
      some { draft with
        fields := draft.fields ++ fields.map fun field => (field.1, .value field.2) } := by
  induction fields generalizing draft with
  | nil => simp [Draft.assignAll]
  | cons field fields ih =>
    rw [List.map_cons, List.append_cons] at hnodup
    have hnew : field.1 ∉ draft.fields.map Prod.fst := fun hmem =>
      (List.nodup_append.mp (List.nodup_append.mp hnodup).1).2.2 _ hmem _ List.mem_cons_self rfl
    have hmore := @ih { draft with fields := draft.fields ++ [(field.1, .value field.2)] } hdotted
      (by simpa using hnodup)
    rw [List.map_cons, List.map_cons, List.append_cons]
    exact Option.bind_eq_some_iff.mpr ⟨_, assign_of_new hdotted hnew field.2, hmore⟩

/-- What a table without subtables is assembled to. -/
def Part.node (part : Part) : Node :=
  .table false false (part.plain.map fun field => (field.1, .value field.2))

theorem Part.assignAll_block {part : Part} (hnodup : (part.plain.map Prod.fst).Nodup) :
    Draft.opened.assignAll part.block.entries =
      some ⟨false, false, part.plain.map fun field => (field.1, .value field.2)⟩ :=
  assignAll_of_nodup rfl hnodup

theorem addTable_of_new {part : Part} (hnodup : (part.plain.map Prod.fst).Nodup) (draft : Draft)
    {key : String} (hnew : key ∉ draft.fields.map Prod.fst) :
    draft.addTable [key] part.block.entries =
      some { draft with fields := draft.fields ++ [(key, part.node)] } := by
  rw [Draft.addTable, ← set_of_new hnew]
  simp only [List.getLast?_singleton, List.dropLast_singleton, Draft.changeAt,
    Option.bind_eq_bind, Option.bind_some, get?_of_new hnew, part.assignAll_block hnodup]
  rfl

/-- A table with a new name within the only field becomes the last field there. -/
theorem addTable_within {part : Part} (hnodup : (part.plain.map Prod.fst).Nodup)
    (outer : String) {key : String} {fields : List (String × Node)}
    (hnew : key ∉ fields.map Prod.fst) :
    Draft.addTable [outer, key] part.block.entries
        ⟨false, false, [(outer, .table false false fields)]⟩ =
      some ⟨false, false, [(outer, .table false false (fields ++ [(key, part.node)]))]⟩ := by
  have hget : Draft.get? ⟨false, false, [(outer, .table false false fields)]⟩ outer =
      some (.table false false fields) := by
    rw [Draft.get?, List.lookup_cons_self]
  have hset : ∀ node, Draft.set ⟨false, false, [(outer, .table false false fields)]⟩ outer node =
      ⟨false, false, [(outer, node)]⟩ := by
    intro node
    rw [Draft.set, hget]
    simp
  have hinner := addTable_of_new hnodup ⟨false, false, fields⟩ hnew
  have hpath : ∀ draft : Draft, draft.addTable [outer, key] part.block.entries =
      draft.changeAt false [outer] (Draft.addTable [key] part.block.entries) := fun _ => rfl
  rw [hpath, Draft.changeAt, hget]
  dsimp only
  rw [Draft.changeAt, hinner]
  exact congrArg some (hset _)

/-- Written tables read as what their blocks are assembled to. -/
theorem read?_intercalate {parts : List Part} (hparts : ∀ part ∈ parts, part.Legible)
    {texts : List String} (hwrite : parts.mapM Part.write? = some texts) :
    read? ("\n".intercalate texts) =
      ((parts.map Part.block).foldlM addBlock Draft.opened).map fun draft =>
        draft.node.toDocument := by
  have hmark : skipMark ("\n".intercalate texts).toList = ("\n".intercalate texts).toList := by
    cases parts with
    | nil =>
      obtain rfl := Option.some.inj hwrite
      rfl
    | cons part parts =>
      rw [List.mapM_cons] at hwrite
      obtain ⟨text, htext, hwrite⟩ := Option.bind_eq_some_iff.mp hwrite
      obtain ⟨more, -, heq⟩ := Option.bind_eq_some_iff.mp hwrite
      obtain ⟨lines, -, heq'⟩ := Option.bind_eq_some_iff.mp htext
      obtain rfl := Option.some.inj heq
      obtain rfl := Option.some.inj heq'
      cases more <;> simp [skipMark]
  have hblocks := ReadsTo.parts hparts hwrite ⟨.none, []⟩ _
    (Nat.lt_add_of_pos_right (Nat.zero_lt_succ 1))
  rw [read?, hmark, hblocks, Option.map_eq_bind]
  rfl

end ExposureControl.Toml
