import Mathlib
import ExposureControl.Settings.File

/-!
# Settings field by field

Settings have fields, each in a section and with a name there, and a document gives values for some
of them.  What is read from such a document are the defaults with exactly the given fields replaced,
whatever else the document holds; so a section that gives nothing may as well be missing.
-/

namespace ExposureControl

theorem bind_of_eq_some {α β : Type} {read : Option α} {next : α → Option β} {value : α}
    {result : Option β} (hread : read = some value) (hnext : next value = result) :
    read >>= next = result := by
  rw [hread]
  exact hnext

theorem bind_eq_bind {α β : Type} {read read' : Option α} {next next' : α → Option β}
    (hread : read = read') (hnext : ∀ value, next value = next' value) :
    read >>= next = read' >>= next' := by
  rw [hread, funext hnext]

namespace Document

def part? : (path : List String) → Document → Option Document
  | [], document => some document
  | name :: path, .table fields => (field? name fields).bind (part? path)
  | _ :: _, _ => none

theorem part?_concat (path : List String) (name : String) (document : Document) :
    document.part? (path ++ [name]) = (document.part? path).bind (part? [name]) := by
  induction path generalizing document with
  | nil => rfl
  | cons first path ih =>
    cases document with
    | table fields =>
      simp only [List.cons_append, part?]
      cases field? first fields with
      | none => rfl
      | some part => exact ih part
    | _ => rfl

/-- Whether a document becomes another one by an empty table at a path that led nowhere. -/
inductive Gains : List String → Document → Document → Prop
  | here (name : String) (before after : List (String × Document))
      (hmissing : field? name (before ++ after) = none) :
      Gains [name] (.table (before ++ after)) (.table (before ++ (name, .table []) :: after))
  | inside (name : String) (before after : List (String × Document)) {path : List String}
      {part gained : Document} (hpart : Gains path part gained) :
      Gains (name :: path) (.table (before ++ (name, part) :: after))
        (.table (before ++ (name, gained) :: after))

theorem Gains.tables {path : List String} {document gained : Document}
    (hgains : Gains path document gained) :
    ∃ fields more, document = .table fields ∧ gained = .table more := by
  cases hgains <;> exact ⟨_, _, rfl, rfl⟩

theorem fieldOr_of_none {α : Type} {fields : List (String × Document)} {name : String}
    (hmissing : field? name fields = none) (default : α) (read : Document → Option α) :
    fieldOr fields name default read = some default := by
  rw [fieldOr, hmissing]

theorem fieldOr_of_some {α : Type} {fields : List (String × Document)} {name : String}
    {part : Document} (hthere : field? name fields = some part) (default : α)
    (read : Document → Option α) : fieldOr fields name default read = read part := by
  rw [fieldOr, hthere]

theorem fieldOr_insert {α : Type} (name other : String) (part : Document)
    (before after : List (String × Document)) (default : α) (read : Document → Option α) :
    fieldOr (before ++ (name, part) :: after) other default read =
      if other = name ∧ field? name before = none then read part
      else fieldOr (before ++ after) other default read := by
  simp only [fieldOr, field?, List.lookup_append, List.lookup_cons]
  by_cases hname : other = name
  · subst hname
    rw [beq_self_eq_true]
    cases List.lookup other before <;> simp
  · rw [beq_false_of_ne hname, if_neg fun h => hname h.1]

/-- A field is read as before if the empty table stands for its default, or for nothing that the
field's reader looks at. -/
theorem Gains.fieldOr_eq {α : Type} {name other : String} {path : List String}
    {fields gained : List (String × Document)}
    (hgains : Gains (name :: path) (.table fields) (.table gained)) {default : α}
    {read : Document → Option α}
    (hempty : path = [] → other = name → read (.table []) = some default)
    (hinside : ∀ part within, Gains path part within → other = name →
      read within = read part) :
    fieldOr gained other default read = fieldOr fields other default read := by
  cases hgains with
  | here name before after hmissing =>
    rw [fieldOr_insert]
    split
    · next hother =>
      obtain ⟨rfl, -⟩ := hother
      exact (hempty rfl rfl).trans (fieldOr_of_none hmissing _ _).symm
    · rfl
  | inside name before after hpart =>
    rw [fieldOr_insert, fieldOr_insert]
    split
    · next hother => exact hinside _ _ hpart hother.1
    · rfl

end Document

namespace Settings

/-! ## Fields -/

/-- The sections of settings, the whole among them. -/
inductive Section
  | whole
  | selection
  | decay
  | reward
  | canary
  | shadow
  | drift
  | costs
deriving DecidableEq

def Section.path : Section → List String
  | whole => []
  | selection => ["bandit"]
  | decay => ["bandit", "decay"]
  | reward => ["bandit", "reward"]
  | canary => ["bandit", "canary"]
  | shadow => ["shadow"]
  | drift => ["drift"]
  | costs => ["tca"]

/-- What a field holds. -/
inductive Kind
  | flag
  | count
  | period
  | number
  | policy
  | seed

def Kind.Value : Kind → Type
  | flag => Bool
  | count => Nat
  | period => Int
  | number => Float
  | policy => Policy
  | seed => Option Nat

/-- Whether a document spells out a value.  A number may be spelled as an integer, and a policy as
the name of a table's only field, if that says nothing. -/
def Kind.Spells (dialect : Dialect) : (kind : Kind) → kind.Value → Document → Prop
  | flag, value, document => document = .bool value
  | count, value, document => document = .nat value ∧ Nat.lt value Word64.size
  | period, value, document => document = .int value ∧ Word64.signed value = true
  | number, value, document =>
    document = .float value ∨ ∃ n : Int, document = .int n ∧ value = Binary64.ofInt n
  | policy, value, document =>
    document = .text value.text ∨
      ∃ content, dialect.isVoid content = true ∧ document = .table [(value.text, content)]
  | seed, none, document => document = .null
  | seed, some value, document => document = .nat value ∧ Nat.lt value Word64.size

def Kind.read? (dialect : Dialect) : (kind : Kind) → Document → Option kind.Value
  | flag => Document.toBool?
  | count => Document.toNat?
  | period => Document.toInt?
  | number => Document.toFloat?
  | policy => policyOf? dialect
  | seed => Document.toOption? Document.toNat?

inductive Field
  | selectionEnabled
  | policy
  | halfLifeDays
  | rewardCap
  | slippagePenalty
  | feesPenalty
  | maxTradesPerDay
  | maxSharePerDay
  | pullRetentionDays
  | seed
  | shadowEnabled
  | divergenceThreshold
  | divergenceMinTrades
  | closedRetentionDays
  | driftEnabled
  | windowTrades
  | maxDrop
  | maxDrawdown
  | expectedProfitFactor
  | expectedWinRate
  | autoDowngrade
  | tradeRetentionDays
  | costsEnabled
  | historySize
  | sampleRetentionDays
  | pendingMinutes
deriving DecidableEq

namespace Field

def home : Field → Section
  | selectionEnabled | policy | pullRetentionDays | seed => .selection
  | halfLifeDays => .decay
  | rewardCap | slippagePenalty | feesPenalty => .reward
  | maxTradesPerDay | maxSharePerDay => .canary
  | shadowEnabled | divergenceThreshold | divergenceMinTrades | closedRetentionDays => .shadow
  | driftEnabled | windowTrades | maxDrop | maxDrawdown | expectedProfitFactor | expectedWinRate
  | autoDowngrade | tradeRetentionDays => .drift
  | costsEnabled | historySize | sampleRetentionDays | pendingMinutes => .costs

def name : Field → String
  | selectionEnabled | shadowEnabled | driftEnabled | costsEnabled => "enabled"
  | policy => "algorithm"
  | halfLifeDays => "half_life_days"
  | rewardCap => "cap_r"
  | slippagePenalty => "slippage_penalty_bps"
  | feesPenalty => "fees_penalty_bps"
  | maxTradesPerDay => "max_trades_per_day"
  | maxSharePerDay => "max_share_pct_per_day"
  | pullRetentionDays => "pull_retention_days"
  | seed => "rng_seed"
  | divergenceThreshold => "divergence_pct_threshold"
  | divergenceMinTrades => "divergence_min_trades"
  | closedRetentionDays => "closed_retention_days"
  | windowTrades => "window_trades"
  | maxDrop => "threshold_pf_drop"
  | maxDrawdown => "threshold_max_dd_pct"
  | expectedProfitFactor => "expected_profit_factor"
  | expectedWinRate => "expected_win_rate"
  | autoDowngrade => "auto_downgrade"
  | tradeRetentionDays | sampleRetentionDays => "retention_days"
  | historySize => "history_size"
  | pendingMinutes => "pending_ttl_minutes"

def kind : Field → Kind
  | selectionEnabled | shadowEnabled | driftEnabled | costsEnabled | autoDowngrade => .flag
  | policy => .policy
  | halfLifeDays | rewardCap | slippagePenalty | feesPenalty | maxSharePerDay
  | divergenceThreshold | maxDrop | maxDrawdown | expectedProfitFactor | expectedWinRate => .number
  | maxTradesPerDay | divergenceMinTrades | windowTrades | historySize => .count
  | pullRetentionDays | closedRetentionDays | tradeRetentionDays | sampleRetentionDays
  | pendingMinutes => .period
  | seed => .seed

def path (field : Field) : List String := field.home.path ++ [field.name]

/-- What a field stands for in a section that is there and leaves it out. -/
def missing : (field : Field) → field.kind.Value
  | selectionEnabled => Missing.switch
  | policy => Missing.policy
  | halfLifeDays => Missing.halfLifeDays
  | rewardCap => Missing.rewardCap
  | slippagePenalty => Missing.slippagePenalty
  | feesPenalty => Missing.feesPenalty
  | maxTradesPerDay => Missing.maxTradesPerDay
  | maxSharePerDay => Missing.maxSharePerDay
  | pullRetentionDays => Missing.pullRetentionDays
  | seed => Missing.seed
  | shadowEnabled => Missing.switch
  | divergenceThreshold => Missing.divergenceThreshold
  | divergenceMinTrades => Missing.divergenceMinTrades
  | closedRetentionDays => Missing.closedRetentionDays
  | driftEnabled => Missing.switch
  | windowTrades => Missing.windowTrades
  | maxDrop => Missing.maxDrop
  | maxDrawdown => Missing.maxDrawdown
  | expectedProfitFactor => Missing.expectedProfitFactor
  | expectedWinRate => Missing.expectedWinRate
  | autoDowngrade => Missing.switch
  | tradeRetentionDays => Missing.tradeRetentionDays
  | costsEnabled => Missing.switch
  | historySize => Missing.historySize
  | sampleRetentionDays => Missing.sampleRetentionDays
  | pendingMinutes => Missing.pendingMinutes

end Field

/-! ## Given fields -/

/-- Values for some of the fields. -/
abbrev Given := (field : Field) → Option field.kind.Value

/-- Whether a document gives exactly these values, possibly among fields that settings do not have:
each section that is there is a table, and each field that is there spells out its value. -/
structure Given.By (given : Given) (dialect : Dialect) (document : Document) : Prop where
  sections : ∀ (home : Section) (part : Document), document.part? home.path = some part →
    ∃ fields, part = .table fields
  fields : ∀ field,
    match given field with
    | none => document.part? field.path = none
    | some value => ∃ part, document.part? field.path = some part ∧
        field.kind.Spells dialect value part

def replace (given : Given) (settings : Settings) : Settings where
  selection :=
    { enabled := (given .selectionEnabled).getD settings.selection.enabled
      policy := (given .policy).getD settings.selection.policy
      decay :=
        { halfLifeDays := (given .halfLifeDays).getD settings.selection.decay.halfLifeDays }
      reward :=
        { cap := (given .rewardCap).getD settings.selection.reward.cap
          slippagePenalty :=
            (given .slippagePenalty).getD settings.selection.reward.slippagePenalty
          feesPenalty := (given .feesPenalty).getD settings.selection.reward.feesPenalty }
      canary :=
        { maxTradesPerDay :=
            (given .maxTradesPerDay).getD settings.selection.canary.maxTradesPerDay
          maxSharePerDay := (given .maxSharePerDay).getD settings.selection.canary.maxSharePerDay }
      pullRetentionDays := (given .pullRetentionDays).getD settings.selection.pullRetentionDays
      seed := (given .seed).getD settings.selection.seed }
  shadow :=
    { enabled := (given .shadowEnabled).getD settings.shadow.enabled
      divergenceThreshold :=
        (given .divergenceThreshold).getD settings.shadow.divergenceThreshold
      divergenceMinTrades :=
        (given .divergenceMinTrades).getD settings.shadow.divergenceMinTrades
      closedRetentionDays :=
        (given .closedRetentionDays).getD settings.shadow.closedRetentionDays }
  drift :=
    { enabled := (given .driftEnabled).getD settings.drift.enabled
      windowTrades := (given .windowTrades).getD settings.drift.windowTrades
      maxDrop := (given .maxDrop).getD settings.drift.maxDrop
      maxDrawdown := (given .maxDrawdown).getD settings.drift.maxDrawdown
      expectedProfitFactor :=
        (given .expectedProfitFactor).getD settings.drift.expectedProfitFactor
      expectedWinRate := (given .expectedWinRate).getD settings.drift.expectedWinRate
      autoDowngrade := (given .autoDowngrade).getD settings.drift.autoDowngrade
      retentionDays := (given .tradeRetentionDays).getD settings.drift.retentionDays }
  costs :=
    { enabled := (given .costsEnabled).getD settings.costs.enabled
      historySize := (given .historySize).getD settings.costs.historySize
      retentionDays := (given .sampleRetentionDays).getD settings.costs.retentionDays
      pendingMinutes := (given .pendingMinutes).getD settings.costs.pendingMinutes }

def get (settings : Settings) : (field : Field) → field.kind.Value
  | .selectionEnabled => settings.selection.enabled
  | .policy => settings.selection.policy
  | .halfLifeDays => settings.selection.decay.halfLifeDays
  | .rewardCap => settings.selection.reward.cap
  | .slippagePenalty => settings.selection.reward.slippagePenalty
  | .feesPenalty => settings.selection.reward.feesPenalty
  | .maxTradesPerDay => settings.selection.canary.maxTradesPerDay
  | .maxSharePerDay => settings.selection.canary.maxSharePerDay
  | .pullRetentionDays => settings.selection.pullRetentionDays
  | .seed => settings.selection.seed
  | .shadowEnabled => settings.shadow.enabled
  | .divergenceThreshold => settings.shadow.divergenceThreshold
  | .divergenceMinTrades => settings.shadow.divergenceMinTrades
  | .closedRetentionDays => settings.shadow.closedRetentionDays
  | .driftEnabled => settings.drift.enabled
  | .windowTrades => settings.drift.windowTrades
  | .maxDrop => settings.drift.maxDrop
  | .maxDrawdown => settings.drift.maxDrawdown
  | .expectedProfitFactor => settings.drift.expectedProfitFactor
  | .expectedWinRate => settings.drift.expectedWinRate
  | .autoDowngrade => settings.drift.autoDowngrade
  | .tradeRetentionDays => settings.drift.retentionDays
  | .costsEnabled => settings.costs.enabled
  | .historySize => settings.costs.historySize
  | .sampleRetentionDays => settings.costs.retentionDays
  | .pendingMinutes => settings.costs.pendingMinutes

theorem Field.missing_eq_get (field : Field) : field.missing = ({} : Settings).get field := by
  cases field <;> rfl

/-! ## Reading what is given -/

theorem Kind.read?_of_spells {dialect : Dialect} {kind : Kind} {value : kind.Value}
    {document : Document} (hspells : kind.Spells dialect value document) :
    kind.read? dialect document = some value := by
  have hcount : ∀ n : Nat, n < Word64.size → Document.toNat? (.nat n) = some n := fun n hn => by
    rw [Document.nat, Document.toNat?, if_pos ((Word64.unsigned_iff n).mpr ⟨by omega, by omega⟩),
      Int.toNat_natCast]
  cases kind with
  | flag =>
    obtain rfl := hspells
    rfl
  | count =>
    obtain ⟨rfl, hsize⟩ := hspells
    exact hcount value hsize
  | period =>
    obtain ⟨rfl, hsigned⟩ := hspells
    exact if_pos hsigned
  | number =>
    obtain rfl | ⟨n, rfl, rfl⟩ := hspells <;> rfl
  | policy =>
    obtain rfl | ⟨content, hvoid, rfl⟩ := hspells
    · exact Policy.ofText?_text value
    · have hword : dialect.wordOf? (.table [(value.text, content)]) = some value.text :=
        if_pos hvoid
      rw [read?, policyOf?, hword]
      exact Policy.ofText?_text value
  | seed =>
    cases value with
    | none =>
      obtain rfl := hspells
      rfl
    | some n =>
      obtain ⟨rfl, hsize⟩ := hspells
      have hread : Document.toOption? Document.toNat? (.nat n) =
          (Document.toNat? (.nat n)).map some := rfl
      rw [read?, hread, hcount n hsize]
      rfl

def fieldsOf (home : Section) (document : Document) : List (String × Document) :=
  match document.part? home.path with
  | some (.table fields) => fields
  | _ => []

variable {given : Given} {dialect : Dialect} {document : Document}

namespace Given.By

theorem field?_fieldsOf (hby : given.By dialect document) (home : Section) (name : String) :
    Document.field? name (fieldsOf home document) = document.part? (home.path ++ [name]) := by
  rw [Document.part?_concat, fieldsOf]
  cases hpart : document.part? home.path with
  | none => rfl
  | some part =>
    obtain ⟨fields, rfl⟩ := hby.sections home part hpart
    rw [Option.bind_some, Document.part?]
    cases Document.field? name fields <;> rfl

theorem read (hby : given.By dialect document) (field : Field) :
    Document.fieldOr (fieldsOf field.home document) field.name field.missing
      (field.kind.read? dialect) = some ((given field).getD (({} : Settings).get field)) := by
  rw [field.missing_eq_get]
  have hfield := hby.fields field
  have hfound := hby.field?_fieldsOf field.home field.name
  cases hgiven : given field with
  | none =>
    rw [hgiven] at hfield
    exact Document.fieldOr_of_none (hfound.trans hfield) _ _
  | some value =>
    rw [hgiven] at hfield
    obtain ⟨part, hpart, hspells⟩ := hfield
    rw [Document.fieldOr_of_some (hfound.trans hpart), Kind.read?_of_spells hspells]
    rfl

/-- A section is read from its fields, also where it is missing, if no fields give its defaults. -/
theorem readSection (hby : given.By dialect document) {α : Type} {home inner : Section}
    {name : String} {default value : α} {read : Document → Option α}
    (hread : read (.table (fieldsOf inner document)) = some value)
    (hpath : inner.path = home.path ++ [name]) (hempty : read (.table []) = some default) :
    Document.fieldOr (fieldsOf home document) name default read = some value := by
  have hfound := hby.field?_fieldsOf home name
  rw [← hpath] at hfound
  cases hpart : document.part? inner.path with
  | none =>
    rw [fieldsOf, hpart, hempty] at hread
    rw [Document.fieldOr_of_none (hfound.trans hpart), hread]
  | some part =>
    obtain ⟨fields, rfl⟩ := hby.sections inner part hpart
    rw [fieldsOf, hpart] at hread
    rw [Document.fieldOr_of_some (hfound.trans hpart), hread]

theorem nothing (dialect : Dialect) : Given.By (fun _ => none) dialect (.table []) where
  sections home part hpart := by
    cases home with
    | whole => exact ⟨[], (Option.some.inj hpart).symm⟩
    | _ => exact nomatch hpart
  fields field := by cases field <;> rfl

theorem readDecay (hby : given.By dialect document) :
    Decay.ofDocument? dialect (.table (fieldsOf .decay document)) =
      some (replace given {}).selection.decay :=
  bind_of_eq_some rfl <|
  bind_of_eq_some (hby.read .halfLifeDays) rfl

theorem readReward (hby : given.By dialect document) :
    Reward.ofDocument? dialect (.table (fieldsOf .reward document)) =
      some (replace given {}).selection.reward :=
  bind_of_eq_some rfl <|
  bind_of_eq_some (hby.read .rewardCap) <|
  bind_of_eq_some (hby.read .slippagePenalty) <|
  bind_of_eq_some (hby.read .feesPenalty) rfl

theorem readCanary (hby : given.By dialect document) :
    Canary.ofDocument? dialect (.table (fieldsOf .canary document)) =
      some (replace given {}).selection.canary :=
  bind_of_eq_some rfl <|
  bind_of_eq_some (hby.read .maxTradesPerDay) <|
  bind_of_eq_some (hby.read .maxSharePerDay) rfl

theorem readShadow (hby : given.By dialect document) :
    Shadow.ofDocument? dialect (.table (fieldsOf .shadow document)) =
      some (replace given {}).shadow :=
  bind_of_eq_some rfl <|
  bind_of_eq_some (hby.read .shadowEnabled) <|
  bind_of_eq_some (hby.read .divergenceThreshold) <|
  bind_of_eq_some (hby.read .divergenceMinTrades) <|
  bind_of_eq_some (hby.read .closedRetentionDays) rfl

theorem readDrift (hby : given.By dialect document) :
    Drift.ofDocument? dialect (.table (fieldsOf .drift document)) =
      some (replace given {}).drift :=
  bind_of_eq_some rfl <|
  bind_of_eq_some (hby.read .driftEnabled) <|
  bind_of_eq_some (hby.read .windowTrades) <|
  bind_of_eq_some (hby.read .maxDrop) <|
  bind_of_eq_some (hby.read .maxDrawdown) <|
  bind_of_eq_some (hby.read .expectedProfitFactor) <|
  bind_of_eq_some (hby.read .expectedWinRate) <|
  bind_of_eq_some (hby.read .autoDowngrade) <|
  bind_of_eq_some (hby.read .tradeRetentionDays) rfl

theorem readCosts (hby : given.By dialect document) :
    Costs.ofDocument? dialect (.table (fieldsOf .costs document)) =
      some (replace given {}).costs :=
  bind_of_eq_some rfl <|
  bind_of_eq_some (hby.read .costsEnabled) <|
  bind_of_eq_some (hby.read .historySize) <|
  bind_of_eq_some (hby.read .sampleRetentionDays) <|
  bind_of_eq_some (hby.read .pendingMinutes) rfl

end Given.By

section

variable (dialect)

theorem Decay.ofDocument?_empty : Decay.ofDocument? dialect (.table []) = some {} :=
  (Given.By.nothing dialect).readDecay

theorem Reward.ofDocument?_empty : Reward.ofDocument? dialect (.table []) = some {} :=
  (Given.By.nothing dialect).readReward

theorem Canary.ofDocument?_empty : Canary.ofDocument? dialect (.table []) = some {} :=
  (Given.By.nothing dialect).readCanary

theorem Shadow.ofDocument?_empty : Shadow.ofDocument? dialect (.table []) = some {} :=
  (Given.By.nothing dialect).readShadow

theorem Drift.ofDocument?_empty : Drift.ofDocument? dialect (.table []) = some {} :=
  (Given.By.nothing dialect).readDrift

theorem Costs.ofDocument?_empty : Costs.ofDocument? dialect (.table []) = some {} :=
  (Given.By.nothing dialect).readCosts

end

theorem Given.By.readSelection (hby : given.By dialect document) :
    Selection.ofDocument? dialect (.table (fieldsOf .selection document)) =
      some (replace given {}).selection :=
  bind_of_eq_some rfl <|
  bind_of_eq_some (hby.read .selectionEnabled) <|
  bind_of_eq_some (hby.read .policy) <|
  bind_of_eq_some (hby.readSection hby.readDecay rfl (Decay.ofDocument?_empty _)) <|
  bind_of_eq_some (hby.readSection hby.readReward rfl (Reward.ofDocument?_empty _)) <|
  bind_of_eq_some (hby.readSection hby.readCanary rfl (Canary.ofDocument?_empty _)) <|
  bind_of_eq_some (hby.read .pullRetentionDays) <|
  bind_of_eq_some (hby.read .seed) rfl

theorem Selection.ofDocument?_empty (dialect : Dialect) :
    Selection.ofDocument? dialect (.table []) = some {} :=
  (Given.By.nothing dialect).readSelection

theorem Given.By.readWhole (hby : given.By dialect document) :
    ofDocument? dialect (.table (fieldsOf .whole document)) = some (replace given {}) :=
  bind_of_eq_some rfl <|
  bind_of_eq_some (hby.readSection hby.readSelection rfl (Selection.ofDocument?_empty _)) <|
  bind_of_eq_some (hby.readSection hby.readShadow rfl (Shadow.ofDocument?_empty _)) <|
  bind_of_eq_some (hby.readSection hby.readDrift rfl (Drift.ofDocument?_empty _)) <|
  bind_of_eq_some (hby.readSection hby.readCosts rfl (Costs.ofDocument?_empty _)) rfl

theorem Given.By.readAll (hby : given.By dialect document) :
    ofDocument? dialect document = some (replace given {}) := by
  obtain ⟨fields, rfl⟩ := hby.sections .whole document rfl
  exact hby.readWhole

/-! ## Sections that give nothing -/

variable {gained : Document}

theorem Selection.ofDocument?_gains {name : String} (hname : name ∈ ["decay", "reward", "canary"])
    (hgains : document.Gains [name] gained) :
    Selection.ofDocument? dialect gained = Selection.ofDocument? dialect document := by
  obtain ⟨fields, more, rfl, rfl⟩ := hgains.tables
  have hsection : ∀ {α : Type} (inner : String) {default : α} {read : Document → Option α},
      read (.table []) = some default →
      Document.fieldOr more inner default read = Document.fieldOr fields inner default read :=
    fun _ _ _ hempty => hgains.fieldOr_eq (fun _ _ => hempty) fun _ _ hpart => nomatch hpart
  have hplain : ∀ {α : Type} {other : String} {default : α} {read : Document → Option α},
      other ∉ ["decay", "reward", "canary"] →
      Document.fieldOr more other default read = Document.fieldOr fields other default read :=
    fun hother => hgains.fieldOr_eq (fun _ heq => absurd (heq ▸ hname) hother)
      fun _ _ hpart => nomatch hpart
  refine (bind_of_eq_some rfl ?_).trans (bind_of_eq_some rfl rfl).symm
  exact bind_eq_bind (hplain (by decide)) fun _ =>
    bind_eq_bind (hplain (by decide)) fun _ =>
    bind_eq_bind (hsection "decay" (Decay.ofDocument?_empty _)) fun _ =>
    bind_eq_bind (hsection "reward" (Reward.ofDocument?_empty _)) fun _ =>
    bind_eq_bind (hsection "canary" (Canary.ofDocument?_empty _)) fun _ =>
    bind_eq_bind (hplain (by decide)) fun _ =>
    bind_eq_bind (hplain (by decide)) fun _ => rfl

theorem ofDocument?_gains {home : Section} (hgains : document.Gains home.path gained) :
    ofDocument? dialect gained = ofDocument? dialect document := by
  have hread : ∀ {name : String} {path : List String}, document.Gains (name :: path) gained →
      (name = "bandit" → path ∈ [[], ["decay"], ["reward"], ["canary"]]) →
      (name ≠ "bandit" → path = []) →
      ofDocument? dialect gained = ofDocument? dialect document := by
    intro name path hgains hselection hother
    obtain ⟨fields, more, rfl, rfl⟩ := hgains.tables
    have hplain : ∀ {α : Type} {inner : String} {default : α} {read : Document → Option α},
        read (.table []) = some default → inner ≠ "bandit" →
        Document.fieldOr more inner default read = Document.fieldOr fields inner default read := by
      intro α inner default read hempty hinner
      refine hgains.fieldOr_eq (fun _ _ => hempty) fun part within hpart heq => ?_
      rw [hother (heq ▸ hinner)] at hpart
      exact nomatch hpart
    have hbandit : ∀ part within, Document.Gains path part within → "bandit" = name →
        Selection.ofDocument? dialect within = Selection.ofDocument? dialect part := by
      intro part within hpart heq
      obtain rfl | rfl | rfl | rfl := by simpa using hselection heq.symm
      · exact nomatch hpart
      all_goals exact Selection.ofDocument?_gains (by decide) hpart
    refine (bind_of_eq_some rfl ?_).trans (bind_of_eq_some rfl rfl).symm
    have hempty := Selection.ofDocument?_empty dialect
    exact bind_eq_bind (hgains.fieldOr_eq (fun _ _ => hempty) hbandit) fun _ =>
      bind_eq_bind (hplain (Shadow.ofDocument?_empty _) (by decide)) fun _ =>
      bind_eq_bind (hplain (Drift.ofDocument?_empty _) (by decide)) fun _ =>
      bind_eq_bind (hplain (Costs.ofDocument?_empty _) (by decide)) fun _ => rfl
  cases home with
  | whole => exact nomatch hgains
  | _ => exact hread hgains (by decide) (by decide)

/-- Settings read from any document are the defaults with exactly the given fields replaced, also
from the text of a settings file; and an empty section is read as a missing one. -/
theorem given_fields_replace_defaults (dialect : Dialect) :
    (∀ (given : Given) (document : Document), given.By dialect document →
      ofDocument? dialect document = some (replace given {})) ∧
    (∀ (given : Given) (document : Document) (text : String), given.By .toml document →
      Toml.read? text = some document → parse? text = some (replace given {})) ∧
    (∀ (home : Section) (document gained : Document), document.Gains home.path gained →
      ofDocument? dialect gained = ofDocument? dialect document) := by
  refine ⟨fun _ _ hby => hby.readAll, fun given document text hby hread => ?_,
    fun _ _ _ hgains => ofDocument?_gains hgains⟩
  rw [parse?, hread]
  exact hby.readAll

/-- A settings file that gives two fields, among one that settings do not have. -/
def briefText : String :=
  "note = true\n[bandit]\nalgorithm = \"ucb1\"\n[bandit.decay]\nhalf_life_days = 7\n[tca]\n"

def briefDocument : Document :=
  .table [("note", .bool true),
    ("bandit", .table [("algorithm", .text "ucb1"),
      ("decay", .table [("half_life_days", .int 7)])]),
    ("tca", .table [])]

def briefGiven : Given
  | .policy => some Policy.ucb1
  | .halfLifeDays => some (Binary64.ofInt 7)
  | _ => none

theorem briefGiven_by (dialect : Dialect) : briefGiven.By dialect briefDocument where
  sections home part hpart := by
    cases home
    all_goals first
      | exact ⟨_, (Option.some.inj hpart).symm⟩
      | exact nomatch hpart
  fields field := by
    cases field
    case policy => exact ⟨_, rfl, .inl rfl⟩
    case halfLifeDays => exact ⟨_, rfl, .inr ⟨7, rfl, rfl⟩⟩
    all_goals rfl

theorem given_fields_replace_defaults_brief :
    ofDocument? .json briefDocument = some (replace briefGiven {}) ∧
    parse? briefText = some (replace briefGiven {}) ∧
    (replace briefGiven {}).selection =
      { policy := .ucb1, decay := { halfLifeDays := Binary64.ofInt 7 } } ∧
    ofDocument? .toml (.table [("shadow", .table []), ("tca", .table [])]) =
      ofDocument? .toml (.table [("tca", .table [])]) :=
  have hjson := given_fields_replace_defaults .json
  have htoml := given_fields_replace_defaults .toml
  ⟨hjson.1 briefGiven briefDocument (briefGiven_by .json),
    htoml.2.1 briefGiven briefDocument briefText (briefGiven_by .toml) (by cbv),
    rfl,
    htoml.2.2 .shadow _ _ (.here "shadow" [] [("tca", .table [])] rfl)⟩

end Settings

end ExposureControl
