import ExposureControl.Proofs.GivenSettings
import ExposureControl.Proofs.TomlBlocks

/-!
# Saved settings load

Settings are saved section by section, with a line for each field but an absent seed.  The text
reads back to a document that gives every field its value, so loading it gives the settings that
were saved.  Nothing can be saved exactly if a count needs 64 bits.
-/

namespace ExposureControl.Settings

open Toml

/-! ## What is written -/

/-- The fields of a section, in the order in which they are written. -/
def Section.fields : Section → List Field
  | whole => []
  | selection => [.selectionEnabled, .policy, .pullRetentionDays, .seed]
  | decay => [.halfLifeDays]
  | reward => [.rewardCap, .slippagePenalty, .feesPenalty]
  | canary => [.maxTradesPerDay, .maxSharePerDay]
  | shadow => [.shadowEnabled, .divergenceThreshold, .divergenceMinTrades, .closedRetentionDays]
  | drift =>
    [.driftEnabled, .windowTrades, .maxDrop, .maxDrawdown, .expectedProfitFactor,
      .expectedWinRate, .autoDowngrade, .tradeRetentionDays]
  | costs => [.costsEnabled, .historySize, .sampleRetentionDays, .pendingMinutes]

/-- The sections that are written, in order. -/
def Section.written : List Section := [selection, decay, reward, canary, shadow, drift, costs]

def Kind.write : (kind : Kind) → kind.Value → Document
  | flag => .bool
  | count => .nat
  | period => .int
  | number => .float
  | policy => policyDocument
  | seed => .ofOption .nat

def part (settings : Settings) (home : Section) : Part where
  path := home.path
  fields := home.fields.map fun field => (field.name, field.kind.write (settings.get field))

def parts (settings : Settings) : List Part := Section.written.map settings.part

theorem write_ne_table {kind : Kind} {value : kind.Value} {inner : List (String × Document)} :
    kind.write value ≠ .table inner := by
  cases kind
  case seed => cases value <;> exact nofun
  all_goals exact nofun

theorem writeSubtables?_fields (path : List String) (fields : List Field) (settings : Settings) :
    writeSubtables? path
      (fields.map fun field => (field.name, field.kind.write (settings.get field))) = some [] := by
  induction fields with
  | nil => rfl
  | cons field fields ih =>
    rw [List.map_cons, writeSubtables?_of_ne_table _ _ fun _ => write_ne_table, ih]

theorem writeBlocks?_part {settings : Settings} {home : Section} {key : String}
    {value : Document} {fields : List (String × Document)} (hpath : home.path ≠ [])
    (hfields : (settings.part home).fields = (key, value) :: fields)
    (hplain : isPlain value = true) :
    writeBlocks? home.path (.table (settings.part home).fields) =
      (settings.part home).write?.map fun own => [own] := by
  have hleaf := writeSubtables?_fields home.path home.fields settings
  have hpart : (settings.part home).fields =
    home.fields.map fun field => (field.name, field.kind.write (settings.get field)) := rfl
  rw [← hpart, hfields] at hleaf
  rw [hfields, writeBlocks?_leaf hpath hplain hleaf, ← hfields]
  rfl

/-- The blocks of the tables among the fields of a section. -/
theorem writeSubtables?_cons {settings : Settings} {home : Section} {key : String}
    {value : Document} {fields : List (String × Document)} {path : List String} {name : String}
    (hpath : home.path = path ++ [name])
    (hfields : (settings.part home).fields = (key, value) :: fields)
    (hplain : isPlain value = true) (rest : List (String × Document)) :
    writeSubtables? path ((name, .table (settings.part home).fields) :: rest) =
      (settings.part home).write?.bind fun own => (writeSubtables? path rest).map (own :: ·) := by
  rw [writeSubtables?_table, ← hpath,
    writeBlocks?_part (by simp [hpath]) hfields hplain, Option.bind_map]
  rfl

theorem writeBlocks?_selection (settings : Settings) :
    writeBlocks? ["bandit"] settings.selection.toDocument =
      ([Section.selection, .decay, .reward, .canary].map settings.part).mapM Part.write? := by
  have hbelow : writeSubtables? ["bandit"]
      [("enabled", .bool settings.selection.enabled),
        ("algorithm", policyDocument settings.selection.policy),
        ("decay", .table (settings.part .decay).fields),
        ("reward", .table (settings.part .reward).fields),
        ("canary", .table (settings.part .canary).fields),
        ("pull_retention_days", .int settings.selection.pullRetentionDays),
        ("rng_seed", .ofOption .nat settings.selection.seed)] =
      ([Section.decay, .reward, .canary].map settings.part).mapM Part.write? := by
    rw [writeSubtables?_of_ne_table, writeSubtables?_of_ne_table]
    · rw [writeSubtables?_cons rfl rfl rfl, writeSubtables?_cons rfl rfl rfl,
        writeSubtables?_cons rfl rfl rfl, writeSubtables?_of_ne_table,
        writeSubtables?_of_ne_table]
      · simp only [List.map_cons, List.map_nil, mapM_write?_cons]
        rfl
      · exact fun _ => @write_ne_table .seed _ _
      · exact nofun
    · exact nofun
    · exact nofun
  rw [Selection.toDocument, writeBlocks?_eq (List.cons_ne_nil _ _) rfl]
  have hown : Part.write? ⟨["bandit"], [("enabled", .bool settings.selection.enabled),
      ("algorithm", policyDocument settings.selection.policy),
      ("decay", settings.selection.decay.toDocument),
      ("reward", settings.selection.reward.toDocument),
      ("canary", settings.selection.canary.toDocument),
      ("pull_retention_days", .int settings.selection.pullRetentionDays),
      ("rng_seed", .ofOption .nat settings.selection.seed)]⟩ =
      (settings.part .selection).write? := rfl
  rw [hown, List.map_cons, mapM_write?_cons, ← hbelow]
  rfl

theorem writeBlocks?_toDocument (settings : Settings) :
    writeBlocks? [] settings.toDocument = settings.parts.mapM Part.write? := by
  have hsections : writeSubtables? [] [("shadow", .table (settings.part .shadow).fields),
      ("drift", .table (settings.part .drift).fields),
      ("tca", .table (settings.part .costs).fields)] =
      ([Section.shadow, .drift, .costs].map settings.part).mapM Part.write? := by
    rw [writeSubtables?_cons rfl rfl rfl, writeSubtables?_cons rfl rfl rfl,
      writeSubtables?_cons rfl rfl rfl]
    simp only [List.map_cons, List.map_nil, mapM_write?_cons]
    rfl
  have htop : writeBlocks? [] settings.toDocument =
      (writeBlocks? ["bandit"] settings.selection.toDocument).bind fun below =>
        (([Section.shadow, .drift, .costs].map settings.part).mapM Part.write?).map
          (below ++ ·) := by
    rw [← hsections]
    exact (writeBlocks?_top rfl).trans (writeSubtables?_table _ _ _ _)
  have hparts : settings.parts = [Section.selection, .decay, .reward, .canary].map settings.part ++
      [Section.shadow, .drift, .costs].map settings.part := rfl
  rw [htop, writeBlocks?_selection, hparts, List.mapM_append]
  simp only [Option.map_eq_bind]
  rfl

theorem save?_eq (settings : Settings) :
    save? settings = (settings.parts.mapM Part.write?).map ("\n".intercalate ·) := by
  rw [save?, write?, writeBlocks?_toDocument, Option.map_eq_bind]
  rfl

theorem plain_sublist (settings : Settings) (home : Section) :
    ((settings.part home).plain.map Prod.fst).Sublist (home.fields.map Field.name) := by
  have hnames : (settings.part home).fields.map Prod.fst = home.fields.map Field.name := by
    simp [part, Function.comp_def]
  rw [← hnames]
  exact List.filter_sublist.map Prod.fst

theorem nodup_plain (settings : Settings) (home : Section) :
    ((settings.part home).plain.map Prod.fst).Nodup := by
  refine (settings.plain_sublist home).nodup ?_
  cases home <;> decide

def nodes (settings : Settings) (home : Section) : List (String × Node) :=
  (settings.part home).plain.map fun field => (field.1, .value field.2)

/-- What saved settings are assembled to. -/
def saved (settings : Settings) : List (String × Node) :=
  [("bandit", .table false false (settings.nodes .selection ++
      [("decay", (settings.part .decay).node), ("reward", (settings.part .reward).node),
        ("canary", (settings.part .canary).node)])),
    ("shadow", (settings.part .shadow).node), ("drift", (settings.part .drift).node),
    ("tca", (settings.part .costs).node)]

theorem not_mem_nodes (settings : Settings) {home : Section} {name : String}
    (hname : name ∉ home.fields.map Field.name) : name ∉ (settings.nodes home).map Prod.fst := by
  intro hmem
  have hfst : (settings.nodes home).map Prod.fst = (settings.part home).plain.map Prod.fst := by
    simp [nodes, Function.comp_def]
  exact hname ((settings.plain_sublist home).subset (hfst ▸ hmem))

theorem foldlM_addBlock (settings : Settings) :
    (settings.parts.map Part.block).foldlM addBlock Draft.opened =
      some ⟨false, false, settings.saved⟩ := by
  have hsub : ∀ (inner : Section) {name : String} {more : List (String × Node)},
      inner.path = ["bandit", name] → name ∉ Section.selection.fields.map Field.name →
      name ∉ more.map Prod.fst →
      addBlock ⟨false, false, [("bandit", .table false false (settings.nodes .selection ++ more))]⟩
        (settings.part inner).block =
        some ⟨false, false, [("bandit", .table false false (settings.nodes .selection ++
          (more ++ [(name, (settings.part inner).node)])))]⟩ := by
    intro inner name more hpath hname hmore
    have hnew : name ∉ (settings.nodes .selection ++ more).map Prod.fst := by
      rw [List.map_append, List.mem_append, not_or]
      exact ⟨settings.not_mem_nodes hname, hmore⟩
    have hadd := addTable_within (settings.nodup_plain inner) "bandit" hnew
    rw [← hpath, List.append_assoc] at hadd
    exact hadd
  have htop : ∀ (home : Section) {name : String} {fields : List (String × Node)},
      home.path = [name] → name ∉ fields.map Prod.fst →
      addBlock ⟨false, false, fields⟩ (settings.part home).block =
        some ⟨false, false, fields ++ [(name, (settings.part home).node)]⟩ := by
    intro home name fields hpath hnew
    have hadd := addTable_of_new (settings.nodup_plain home) ⟨false, false, fields⟩ hnew
    rw [← hpath] at hadd
    exact hadd
  have hselection : addBlock .opened (settings.part .selection).block =
      some ⟨false, false, [("bandit", .table false false (settings.nodes .selection ++ []))]⟩ := by
    rw [List.append_nil]
    exact htop .selection rfl List.not_mem_nil
  simp only [parts, Section.written, List.map_cons, List.map_nil, List.foldlM_cons,
    List.foldlM_nil, Option.bind_eq_bind, Option.bind_some, Option.pure_def, hselection]
  rw [hsub .decay rfl (by decide) List.not_mem_nil, Option.bind_some,
    hsub .reward rfl (by decide) (by simp), Option.bind_some,
    hsub .canary rfl (by decide) (by simp), Option.bind_some,
    htop .shadow rfl (by simp), Option.bind_some,
    htop .drift rfl (by simp), Option.bind_some,
    htop .costs rfl (by simp), Option.bind_some]
  rfl

/-! ## What is read -/

/-- The fields that saved settings give: all but an absent seed. -/
def given (settings : Settings) : Given := fun field =>
  if isPlain (field.kind.write (settings.get field)) then some (settings.get field) else none

theorem replace_given (settings : Settings) : replace settings.given {} = settings := by
  obtain ⟨⟨enabled, policy, decay, reward, canary, pullDays, seed⟩, shadow, drift, costs⟩ :=
    settings
  cases seed <;> rfl

/-- A value that a kind can have in 64 bits. -/
def Kind.Fits : (kind : Kind) → kind.Value → Prop
  | count, value => Nat.lt value Word64.size
  | period, value => Word64.signed value = true
  | seed, none => True
  | seed, some value => Nat.lt value Word64.size
  | flag, _ => True
  | number, _ => True
  | policy, _ => True

instance : (kind : Kind) → (value : kind.Value) → Decidable (kind.Fits value)
  | .count, value => Nat.decLt value Word64.size
  | .period, value => inferInstanceAs (Decidable (Word64.signed value = true))
  | .seed, none => instDecidableTrue
  | .seed, some value => Nat.decLt value Word64.size
  | .flag, _ => instDecidableTrue
  | .number, _ => instDecidableTrue
  | .policy, _ => instDecidableTrue

theorem Kind.spells_write {kind : Kind} {value : kind.Value} (hfits : kind.Fits value) :
    kind.Spells .toml value (kind.write value) := by
  cases kind with
  | flag => rfl
  | count => exact ⟨rfl, hfits⟩
  | period => exact ⟨rfl, hfits⟩
  | number => exact .inl rfl
  | policy => exact .inl rfl
  | seed =>
    cases value with
    | none => rfl
    | some n => exact ⟨rfl, hfits⟩

theorem given_by (settings : Settings)
    (hfits : ∀ field : Field, field.kind.Fits (settings.get field)) :
    settings.given.By .toml (.table (fieldDocuments settings.saved)) := by
  obtain ⟨⟨enabled, policy, decay, reward, canary, pullDays, seed⟩, shadow, drift, costs⟩ :=
    settings
  cases seed with
  | none =>
    constructor
    · intro home part hpart
      cases home
      all_goals exact ⟨_, (Option.some.inj hpart).symm⟩
    · intro field
      cases field
      case seed => rfl
      all_goals exact ⟨_, rfl, Kind.spells_write (hfits _)⟩
  | some seed =>
    constructor
    · intro home part hpart
      cases home
      all_goals exact ⟨_, (Option.some.inj hpart).symm⟩
    · intro field
      cases field
      all_goals exact ⟨_, rfl, Kind.spells_write (hfits _)⟩

/-! ## The round trip -/

/-- Whether the text of a number reads back to it; nothing else is in question. -/
def Kind.ReadsBack : (kind : Kind) → kind.Value → Prop
  | number, value => Toml.ReadsBack value
  | flag, _ => True
  | count, _ => True
  | period, _ => True
  | policy, _ => True
  | seed, _ => True

instance : (kind : Kind) → (value : kind.Value) → Decidable (kind.ReadsBack value)
  | .number, value => decidableReadsBack value
  | .flag, _ => instDecidableTrue
  | .count, _ => instDecidableTrue
  | .period, _ => instDecidableTrue
  | .policy, _ => instDecidableTrue
  | .seed, _ => instDecidableTrue

/-- Whether a count needs more than 63 bits. -/
def Kind.Exceeds : (kind : Kind) → kind.Value → Prop
  | count, value => Nat.le (2 ^ 63) value
  | seed, none => False
  | seed, some value => Nat.le (2 ^ 63) value
  | flag, _ => False
  | period, _ => False
  | number, _ => False
  | policy, _ => False

instance : (kind : Kind) → (value : kind.Value) → Decidable (kind.Exceeds value)
  | .count, value => Nat.decLe (2 ^ 63) value
  | .seed, none => instDecidableFalse
  | .seed, some value => Nat.decLe (2 ^ 63) value
  | .flag, _ => instDecidableFalse
  | .period, _ => instDecidableFalse
  | .number, _ => instDecidableFalse
  | .policy, _ => instDecidableFalse

theorem readsAs_of_writePlain?_int {n : Int} {written : String}
    (hwrite : writePlain? (.int n) = some written) : ReadsAs written (.int n) := by
  rw [writePlain?] at hwrite
  split at hwrite
  · next hsigned =>
    obtain rfl := Option.some.inj hwrite
    exact readsAs_int hsigned
  · exact nomatch hwrite

theorem Kind.readsAs_write {kind : Kind} {value : kind.Value} (hback : kind.ReadsBack value)
    {written : String} (hwrite : writePlain? (kind.write value) = some written) :
    ReadsAs written (kind.write value) := by
  cases kind with
  | flag =>
    obtain rfl := Option.some.inj hwrite
    exact readsAs_bool value
  | count => exact readsAs_of_writePlain?_int hwrite
  | period => exact readsAs_of_writePlain?_int hwrite
  | number =>
    obtain rfl := Option.some.inj hwrite
    exact readsAs_float hback
  | policy =>
    obtain rfl := Option.some.inj hwrite
    exact readsAs_policy value
  | seed =>
    cases value with
    | none => exact nomatch hwrite
    | some n => exact readsAs_of_writePlain?_int hwrite

theorem writePlain?_int_eq_none_iff {n : Int} :
    writePlain? (.int n) = none ↔ Word64.signed n = false := by
  rw [writePlain?]
  split
  · next hsigned => simp [hsigned]
  · next hsigned => simpa using hsigned

theorem writePlain?_nat_eq_none_iff {n : Nat} : writePlain? (.nat n) = none ↔ 2 ^ 63 ≤ n := by
  rw [Document.nat, writePlain?_int_eq_none_iff, Bool.eq_false_iff, ne_eq, Word64.signed_iff]
  omega

theorem Kind.writePlain?_eq_none_iff {kind : Kind} {value : kind.Value} (hfits : kind.Fits value) :
    isPlain (kind.write value) = true ∧ writePlain? (kind.write value) = none ↔
      kind.Exceeds value := by
  cases kind with
  | flag => exact ⟨fun h => (nomatch h.2), False.elim⟩
  | count => exact (and_iff_right rfl).trans writePlain?_nat_eq_none_iff
  | period =>
    refine ⟨fun h => ?_, False.elim⟩
    exact nomatch (writePlain?_int_eq_none_iff.mp h.2).symm.trans hfits
  | number => exact ⟨fun h => (nomatch h.2), False.elim⟩
  | policy => exact ⟨fun h => (nomatch h.2), False.elim⟩
  | seed =>
    cases value with
    | none => exact ⟨fun h => (nomatch h.1), fun h => (nomatch h)⟩
    | some n => exact (and_iff_right rfl).trans writePlain?_nat_eq_none_iff

theorem bare_path (home : Section) : ∀ key ∈ home.path, bare key = true := by
  cases home <;> decide

theorem bare_name (field : Field) : bare field.name = true := by
  cases field <;> decide

theorem path_ne_nil {home : Section} (hhome : home ∈ Section.written) : home.path ≠ [] := by
  revert hhome
  cases home <;> simp [Section.written, Section.path]

theorem legible_part {settings : Settings}
    (hback : ∀ field : Field, field.kind.ReadsBack (settings.get field)) {home : Section}
    (hhome : home ∈ Section.written) : (settings.part home).Legible where
  keys := bare_path home
  nonempty := path_ne_nil hhome
  short := by
    have hlength : home.path.length ≤ 2 := by
      cases home <;> decide
    exact Nat.le_trans hlength (by decide)
  fields field hfield := by
    obtain ⟨inner, -, rfl⟩ := List.mem_map.mp hfield
    exact ⟨bare_name inner, fun written hwrite => Kind.readsAs_write (hback inner) hwrite⟩

theorem read?_of_save? {settings : Settings}
    (hback : ∀ field : Field, field.kind.ReadsBack (settings.get field)) {text : String}
    (hsave : save? settings = some text) :
    Toml.read? text = some (.table (fieldDocuments settings.saved)) := by
  rw [save?_eq, Option.map_eq_some_iff] at hsave
  obtain ⟨texts, hwrite, rfl⟩ := hsave
  have hlegible : ∀ part ∈ settings.parts, part.Legible := by
    intro part hpart
    obtain ⟨home, hhome, rfl⟩ := List.mem_map.mp hpart
    exact legible_part hback hhome
  rw [read?_intercalate hlegible hwrite, foldlM_addBlock]
  rfl

theorem mem_fields (field : Field) : field ∈ field.home.fields := by
  cases field <;> decide

theorem home_mem_written (field : Field) : field.home ∈ Section.written := by
  cases field <;> decide

theorem save?_eq_none_iff {settings : Settings}
    (hfits : ∀ field : Field, field.kind.Fits (settings.get field)) :
    save? settings = none ↔ ∃ field : Field, field.kind.Exceeds (settings.get field) := by
  rw [save?_eq, Option.map_eq_none_iff, mapM_write?_eq_none_iff]
  constructor
  · rintro ⟨part, hpart, hwrite⟩
    obtain ⟨home, -, rfl⟩ := List.mem_map.mp hpart
    obtain ⟨_, hmem, hfield⟩ := Part.write?_eq_none_iff.mp hwrite
    obtain ⟨field, -, rfl⟩ := List.mem_map.mp hmem
    exact ⟨field, (Kind.writePlain?_eq_none_iff (hfits field)).mp hfield⟩
  · rintro ⟨field, hexceeds⟩
    exact ⟨_, List.mem_map_of_mem (home_mem_written field), Part.write?_eq_none_iff.mpr
      ⟨_, List.mem_map_of_mem (mem_fields field),
        (Kind.writePlain?_eq_none_iff (hfits field)).mpr hexceeds⟩⟩

/-- Valid settings that can be saved load as themselves, and they can be saved unless a count
needs more than 63 bits. -/
theorem load_save? {settings : Settings}
    (hfits : ∀ field : Field, field.kind.Fits (settings.get field)) (hvalid : settings.Valid)
    (hback : ∀ field : Field, field.kind.ReadsBack (settings.get field)) :
    (∀ text, save? settings = some text → load (some text) = .ok settings) ∧
      (save? settings = none ↔ ∃ field : Field, field.kind.Exceeds (settings.get field)) := by
  refine ⟨fun text hsave => ?_, save?_eq_none_iff hfits⟩
  have hparse : parse? text = some settings := by
    rw [parse?, read?_of_save? hback hsave, Option.bind_some, (given_by settings hfits).readAll,
      replace_given]
  rw [load, hparse]
  dsimp only
  rw [hvalid]

/-- Settings with an undefined number, a policy of their own and the largest seed that can be
saved. -/
def undefinedPenalty : Settings where
  selection :=
    { policy := .ucbTuned
      reward := { slippagePenalty := Binary64.undefined }
      seed := some (2 ^ 63 - 1) }

theorem load_save?_undefinedPenalty :
    ∃ text, save? undefinedPenalty = some text ∧ load (some text) = .ok undefinedPenalty := by
  have hfits : ∀ field : Field, field.kind.Fits (undefinedPenalty.get field) := by
    rintro ⟨⟩ <;> decide
  have hvalid : undefinedPenalty.Valid := by decide +kernel
  have hback : ∀ field : Field, field.kind.ReadsBack (undefinedPenalty.get field) := by
    rintro ⟨⟩ <;> decide +kernel
  have hexceeds : ∀ field : Field, ¬field.kind.Exceeds (undefinedPenalty.get field) := by
    rintro ⟨⟩ <;> decide
  have hround := load_save? hfits hvalid hback
  cases hsave : save? undefinedPenalty with
  | none =>
    obtain ⟨field, hfield⟩ := hround.2.mp hsave
    exact absurd hfield (hexceeds field)
  | some text => exact ⟨text, rfl, hround.1 text hsave⟩

end ExposureControl.Settings
