import ExposureControl.Alert
import ExposureControl.Proofs.JsonText

/-!
# The text of an alert

An alert reads back from the text that is written for it, if its numbers are finite and read back
themselves.  Whatever text is read as an alert, its numbers are finite, so that the alert survives
being written and read again; and fields that nobody asks for, or that come in another order, do
not matter.
-/

namespace ExposureControl

namespace Document

variable {name : String} {value : Document} {fields : List (String × Document)}

theorem field?_of_mem {field : String × Document} (hdistinct : (fields.map Prod.fst).Nodup)
    (hmem : field ∈ fields) : field? field.1 fields = some field.2 := by
  induction fields with
  | nil => cases hmem
  | cons first rest ih =>
    obtain ⟨hnew, hrest⟩ := List.nodup_cons.mp hdistinct
    rw [field?, List.lookup_cons]
    obtain rfl | hmem := List.mem_cons.mp hmem
    · rw [beq_self_eq_true]
    · have hne : field.1 ≠ first.1 := fun heq => hnew (heq ▸ List.mem_map_of_mem hmem)
      rw [beq_false_of_ne hne]
      exact ih hrest hmem

theorem mem_of_field? (hfound : field? name fields = some value) : (name, value) ∈ fields := by
  induction fields with
  | nil => cases hfound
  | cons first rest ih =>
    rw [field?, List.lookup_cons] at hfound
    split at hfound
    · next hname =>
      obtain rfl := Option.some.inj hfound
      rw [eq_of_beq hname]
      exact List.mem_cons_self
    · exact List.mem_cons_of_mem _ (ih hfound)

end Document

namespace Alert

deriving instance DecidableEq for Alert

def write (alert : Alert) : String := Json.write alert.toDocument

def read? (text : String) : Option Alert := (Json.read? text).bind ofDocument?

def numbers : Alert → List Float
  | divergence _ live shadow percent => [live, shadow, percent]
  | _ => []

def fields (alert : Alert) : List (String × Document) :=
  match alert.toDocument with
  | .table fields => fields
  | _ => []

theorem toDocument_eq (alert : Alert) : alert.toDocument = .table alert.fields := by
  cases alert <;> rfl

theorem nodup_fields (alert : Alert) : (alert.fields.map Prod.fst).Nodup := by
  cases alert <;> simp [fields, toDocument]

theorem legible_toDocument {alert : Alert} (hback : ∀ number ∈ alert.numbers, Json.ReadsBack number)
    (depth : Nat) : Json.Legible (depth + 1) alert.toDocument := by
  rw [toDocument_eq]
  refine .table alert.nodup_fields ?_
  cases alert with
  | divergence symbol live shadow percent =>
    simp only [numbers, List.forall_mem_cons] at hback
    simp only [fields, toDocument, List.forall_mem_cons]
    exact ⟨.text _, .text _, .float hback.1, .float hback.2.1, .float hback.2.2.1, nofun⟩
  | escalated source target breaches =>
    simp only [fields, toDocument, List.forall_mem_cons]
    exact ⟨.text _, .text _, .text _, .bool _, .bool _, .bool _, nofun⟩
  | recovered source target =>
    simp only [fields, toDocument, List.forall_mem_cons]
    exact ⟨.text _, .text _, .text _, nofun⟩
  | halted reason =>
    simp only [fields, toDocument, List.forall_mem_cons]
    exact ⟨.text _, .text _, nofun⟩

theorem stageOf?_text (stage : Drift.Stage) : stageOf? (.text stage.text) = some stage :=
  Drift.Stage.ofText?_text stage

theorem ofDocument?_of_fields {alert : Alert} {given : List (String × Document)}
    (hgiven : ∀ field ∈ alert.fields, Document.field? field.1 given = some field.2) :
    ofDocument? (.table given) = some alert := by
  cases alert with
  | divergence symbol live shadow percent =>
    simp only [fields, toDocument, List.forall_mem_cons] at hgiven
    obtain ⟨hkind, hsymbol, hlive, hshadow, hpercent, -⟩ := hgiven
    simp only [ofDocument?, Document.required, hkind, hsymbol, hlive, hshadow, hpercent, ofFields?,
      Option.bind_some, Document.toText?, Document.toFloat?, Option.bind_eq_bind]
    rfl
  | escalated source target breaches =>
    simp only [fields, toDocument, List.forall_mem_cons] at hgiven
    obtain ⟨hkind, hsource, htarget, hprofit, hwin, hdrawdown, -⟩ := hgiven
    simp only [ofDocument?, Document.required, hkind, hsource, htarget, hprofit, hwin, hdrawdown,
      ofFields?, Option.bind_some, Document.toText?, Document.toBool?, stageOf?_text,
      Option.bind_eq_bind]
    rfl
  | recovered source target =>
    simp only [fields, toDocument, List.forall_mem_cons] at hgiven
    obtain ⟨hkind, hsource, htarget, -⟩ := hgiven
    simp only [ofDocument?, Document.required, hkind, hsource, htarget, ofFields?,
      Option.bind_some, Document.toText?, stageOf?_text, Option.bind_eq_bind]
    rfl
  | halted reason =>
    simp only [fields, toDocument, List.forall_mem_cons] at hgiven
    obtain ⟨hkind, hreason, -⟩ := hgiven
    simp only [ofDocument?, Document.required, hkind, hreason, ofFields?, Option.bind_some,
      Document.toText?, Option.bind_eq_bind]
    rfl

theorem ofDocument?_toDocument (alert : Alert) : ofDocument? alert.toDocument = some alert := by
  rw [toDocument_eq]
  exact ofDocument?_of_fields fun _ hmem => Document.field?_of_mem alert.nodup_fields hmem

theorem read?_write {alert : Alert} (hback : ∀ number ∈ alert.numbers, Json.ReadsBack number) :
    read? alert.write = some alert := by
  rw [read?, write, Json.read?_write (legible_toDocument hback _)]
  exact ofDocument?_toDocument alert

/-! ## Accepted texts -/

section

variable {fields : List (String × Document)} (hgiven : ∀ field ∈ fields, Json.Given field.2)
include hgiven

theorem isFinite_of_required {name : String} {value : Float}
    (hread : Document.required fields name Document.toFloat? = some value) :
    value.isFinite = true := by
  obtain ⟨document, hfound, hvalue⟩ := Option.bind_eq_some_iff.mp hread
  exact (hgiven _ (Document.mem_of_field? hfound)).isFinite hvalue

theorem isFinite_of_ofFields? {kind : String} {alert : Alert}
    (hread : ofFields? kind fields = some alert) :
    ∀ number ∈ alert.numbers, number.isFinite = true := by
  rw [ofFields?.eq_def] at hread
  split at hread
  · obtain ⟨symbol, -, hread⟩ := Option.bind_eq_some_iff.mp hread
    obtain ⟨live, hlive, hread⟩ := Option.bind_eq_some_iff.mp hread
    obtain ⟨shadow, hshadow, hread⟩ := Option.bind_eq_some_iff.mp hread
    obtain ⟨percent, hpercent, hread⟩ := Option.bind_eq_some_iff.mp hread
    obtain rfl := Option.some.inj hread
    simp only [numbers, List.forall_mem_cons]
    exact ⟨isFinite_of_required hgiven hlive, isFinite_of_required hgiven hshadow,
      isFinite_of_required hgiven hpercent, nofun⟩
  · obtain ⟨source, -, hread⟩ := Option.bind_eq_some_iff.mp hread
    obtain ⟨target, -, hread⟩ := Option.bind_eq_some_iff.mp hread
    obtain ⟨profitFactor, -, hread⟩ := Option.bind_eq_some_iff.mp hread
    obtain ⟨winRate, -, hread⟩ := Option.bind_eq_some_iff.mp hread
    obtain ⟨drawdown, -, hread⟩ := Option.bind_eq_some_iff.mp hread
    obtain rfl := Option.some.inj hread
    exact nofun
  · obtain ⟨source, -, hread⟩ := Option.bind_eq_some_iff.mp hread
    obtain ⟨target, -, hread⟩ := Option.bind_eq_some_iff.mp hread
    obtain rfl := Option.some.inj hread
    exact nofun
  · obtain ⟨reason, -, hread⟩ := Option.bind_eq_some_iff.mp hread
    obtain rfl := Option.some.inj hread
    exact nofun
  · cases hread

end

theorem isFinite_of_ofDocument? {document : Document} (hgiven : Json.Given document)
    {alert : Alert} (hread : ofDocument? document = some alert) :
    ∀ number ∈ alert.numbers, number.isFinite = true := by
  rw [ofDocument?.eq_def] at hread
  split at hread
  · obtain ⟨kind, -, hread⟩ := Option.bind_eq_some_iff.mp hread
    cases hgiven with
    | table hfields => exact isFinite_of_ofFields? hfields hread
    | number hnumber => cases hnumber
  · next kind items =>
    obtain ⟨given, hfields, hread⟩ := Option.bind_eq_some_iff.mp hread
    cases hgiven with
    | list hitems =>
      refine isFinite_of_ofFields? (fun field hmem => ?_) hread
      rw [Dialect.fieldsOf?] at hfields
      split at hfields
      · obtain rfl := Option.some.inj hfields
        exact hitems _ (List.mem_cons_of_mem _ (List.of_mem_zip hmem).2)
      · cases hfields
    | number hnumber => cases hnumber
  · cases hread

theorem isFinite_of_read? {text : String} {alert : Alert} (hread : read? text = some alert) :
    ∀ number ∈ alert.numbers, number.isFinite = true := by
  obtain ⟨document, hdocument, halert⟩ := Option.bind_eq_some_iff.mp hread
  exact isFinite_of_ofDocument? (Json.given_of_read? hdocument) halert

/-- Where finite numbers read back, an alert with such numbers reads back from its text, from any
other record that has its fields, and again from its text after it was read from any text. -/
theorem alerts_read_back {alert : Alert}
    (hback : ∀ number ∈ alert.numbers, number.isFinite = true → Json.ReadsBack number) :
    ((∀ number ∈ alert.numbers, number.isFinite = true) → read? alert.write = some alert) ∧
      (∀ given, (∀ field ∈ alert.fields, Document.field? field.1 given = some field.2) →
        ofDocument? (.table given) = some alert) ∧
      ∀ text, read? text = some alert → read? alert.write = some alert := by
  have hwrite : (∀ number ∈ alert.numbers, number.isFinite = true) →
      read? alert.write = some alert := fun hfinite =>
    read?_write fun number hmem => hback number hmem (hfinite number hmem)
  exact ⟨hwrite, fun _ => ofDocument?_of_fields, fun _ hread => hwrite (isFinite_of_read? hread)⟩

/-- A record with its fields in another order and with one more, whose symbol has escapes and whose
numbers are written in other ways. -/
theorem divergence_reads_back :
    let alert := divergence "a\"b\\\n\x01é" (-0.5) 12.0 2.5e-7
    let text := "\x7b\"extra\": [1, \x7b\"kind\": null\x7d], \"diff_pct\": 25E-8, " ++
      "\"shadow_pnl\": 12, \"symbol\": \"a\\u0022b\\\\\\n\\u0001\\u00e9\", " ++
      "\"kind\":\"divergence\",\"live_pnl\":-0.50\x7d"
    (∀ number ∈ alert.numbers, number.isFinite = true → Json.ReadsBack number) ∧
      read? text = some alert ∧ read? alert.write = some alert := by
  intro alert text
  have hback : ∀ number ∈ alert.numbers, number.isFinite = true → Json.ReadsBack number := by
    decide +kernel
  have htext : read? text = some alert := by decide +kernel
  exact ⟨hback, htext, (alerts_read_back hback).2.2 text htext⟩

end Alert

end ExposureControl
