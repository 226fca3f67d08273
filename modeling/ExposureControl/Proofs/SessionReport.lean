import ExposureControl.Proofs.SessionRun
import ExposureControl.Simulation.Report

/-!
# Session reports add up

A report gathers what the session counted and what its governor has in its books.  The presets of
different symbols are different, so that the selections by preset tell on which symbol each was
made; and on every symbol the arms and the shadow book tell of the same selections.
-/

namespace ExposureControl

/-! ## Traversals -/

theorem map_eq_of_forall₂ {α β γ : Type} {related : α → β → Prop} {f : α → γ} {g : β → γ}
    {items : List α} {others : List β} (hrelated : List.Forall₂ related items others)
    (hviews : ∀ item other, related item other → f item = g other) :
    items.map f = others.map g := by
  rw [← List.forall₂_eq_eq_eq, List.forall₂_map_left_iff, List.forall₂_map_right_iff]
  exact hrelated.imp hviews

theorem forall₂_of_mapM {ε α β : Type} {f : α → Except ε β} {items : List α}
    {results : List β} (hmap : items.mapM f = .ok results) :
    List.Forall₂ (fun item result => item ∈ items ∧ f item = .ok result) items results := by
  induction items generalizing results with
  | nil =>
    rw [List.mapM_nil, Fault.pure_eq_ok_iff] at hmap
    subst hmap
    exact .nil
  | cons item rest ih =>
    simp only [List.mapM_cons, Fault.bind_eq_ok_iff, Fault.pure_eq_ok_iff] at hmap
    obtain ⟨result, hitem, others, hrest, rfl⟩ := hmap
    exact .cons ⟨List.mem_cons_self, hitem⟩
      ((ih hrest).imp fun _ _ hdone => ⟨List.mem_cons_of_mem item hdone.1, hdone.2⟩)

theorem exists_mapM {ε α β : Type} {f : α → Except ε β} {items : List α}
    (hitems : ∀ item ∈ items, ∃ result, f item = .ok result) :
    ∃ results, items.mapM f = .ok results := by
  induction items with
  | nil => exact ⟨[], rfl⟩
  | cons item rest ih =>
    obtain ⟨⟨result, hitem⟩, hrest⟩ := List.forall_mem_cons.mp hitems
    obtain ⟨results, hresults⟩ := ih hrest
    refine ⟨result :: results, ?_⟩
    simp only [List.mapM_cons, Fault.bind_eq_ok_iff, Fault.pure_eq_ok_iff]
    exact ⟨result, hitem, results, hresults, rfl⟩

namespace Simulation

/-! ## The roster of a plan -/

/-- The symbols of a plan with their presets. -/
def Plan.roster (plan : Plan) : List (String × List Preset) :=
  (Lane.ofSymbols 0 plan.symbols).map Lane.listing

def presetIds (presets : List Preset) : List ObjectId :=
  presets.map fun preset => preset.offer.preset

theorem nodup_presetIds (place : Nat) : (presetIds (presetsAt place)).Nodup := by
  simp [presetIds, presetsAt]

theorem nodup_labels (place : Nat) : ((presetsAt place).map Preset.label).Nodup := by
  simp [presetsAt]

theorem place_eq_of_mem_presetIds {place other : Nat} {preset : ObjectId}
    (hplace : preset ∈ presetIds (presetsAt place))
    (hother : preset ∈ presetIds (presetsAt other)) : place = other := by
  simp only [presetIds, presetsAt, List.map_cons, List.map_nil, List.mem_cons, List.not_mem_nil,
    or_false] at hplace hother
  obtain rfl | rfl | rfl := hplace <;> simp [Word64.size] at hother <;> omega

theorem mem_listings_iff {first : Nat} {symbols : List String} {symbol : String}
    {presets : List Preset} :
    (symbol, presets) ∈ (Lane.ofSymbols first symbols).map Lane.listing ↔
      ∃ place, symbols[place]? = some symbol ∧ presets = presetsAt (first + place) := by
  induction symbols generalizing first with
  | nil => simp [Lane.ofSymbols]
  | cons head rest ih =>
    rw [Lane.ofSymbols, List.map_cons, List.mem_cons, ih]
    constructor
    · rintro (hhead | ⟨place, hplace, rfl⟩)
      · obtain ⟨rfl, rfl⟩ := Prod.mk.inj hhead
        exact ⟨0, rfl, rfl⟩
      · exact ⟨place + 1, hplace, by rw [Nat.add_assoc, Nat.add_comm 1]⟩
    · rintro ⟨place, hplace, rfl⟩
      cases place with
      | zero =>
        obtain rfl := Option.some.inj hplace
        exact .inl rfl
      | succ place => exact .inr ⟨place, hplace, by rw [Nat.add_assoc, Nat.add_comm 1]⟩

/-- A preset of one symbol is one of another exactly if the symbols are the same. -/
theorem Plan.mem_presetIds_iff {plan : Plan} (hdistinct : plan.symbols.Nodup)
    {symbol other : String} {presets others : List Preset}
    (hsymbol : (symbol, presets) ∈ plan.roster)
    (hother : (other, others) ∈ plan.roster) {preset : ObjectId}
    (hpreset : preset ∈ presetIds others) : preset ∈ presetIds presets ↔ other = symbol := by
  obtain ⟨place, hplace, rfl⟩ := mem_listings_iff.mp hsymbol
  obtain ⟨otherPlace, hotherPlace, rfl⟩ := mem_listings_iff.mp hother
  constructor
  · intro hshared
    have hsame := place_eq_of_mem_presetIds hshared hpreset
    rw [Nat.zero_add, Nat.zero_add] at hsame
    rw [hsame, hotherPlace] at hplace
    exact Option.some.inj hplace
  · rintro rfl
    have hlength : otherPlace < plan.symbols.length := (List.getElem?_eq_some_iff.mp hotherPlace).1
    rwa [← (List.getElem?_inj hlength hdistinct).mp (hotherPlace.trans hplace.symm)]

theorem Plan.map_fst_roster (plan : Plan) : plan.roster.map Prod.fst = plan.symbols := by
  have hsymbols : ∀ (first : Nat) (symbols : List String),
      ((Lane.ofSymbols first symbols).map Lane.listing).map Prod.fst = symbols := by
    intro first symbols
    induction symbols generalizing first with
    | nil => rfl
    | cons symbol rest ih =>
      rw [Lane.ofSymbols, List.map_cons, List.map_cons, ih]
      rfl
  exact hsymbols 0 plan.symbols

/-! ## The books at the end of a session -/

namespace Session.Stretch

variable {roster : List (String × List Preset)} {visits : Nat}
  {picked : List (Contest × Selection)} {asked : List String} {start session : Session}

theorem exists_listing (hstretch : Stretch roster visits picked asked start session)
    (hempty : start.governor.arena = .empty) {pick : Contest × Selection} (hpick : pick ∈ picked) :
    ∃ presets, (pick.1.symbol, presets) ∈ roster ∧ pick.2.preset ∈ presetIds presets := by
  obtain ⟨turns, hhistory, rfl, -, hserves⟩ := hstretch.calls
  obtain ⟨arm, hfound, hcontest, hpreset⟩ := hhistory.exists_arm_of_pick hempty
    (fun turn hturn => Command.bypasses_of_accountable (hserves turn hturn).accountable) hpick
  obtain ⟨turn, hturn, offers, hcommand, offer, hoffer, hsame⟩ := hhistory.exists_offer_of_arm
    hempty (fun turn hturn => Command.ne_restoreArm_of_accountable (hserves turn hturn).accountable)
    hfound
  obtain ⟨presets, hlisted, rfl⟩ := (hserves turn hturn).offers _ _ hcommand
  obtain ⟨preset, hmem, rfl⟩ := List.mem_map.mp hoffer
  exact ⟨presets, hcontest ▸ hlisted, List.mem_map.mpr ⟨preset, hmem, hsame.trans hpreset⟩⟩

/-- The selections of a symbol's presets are the selections on the symbol. -/
theorem sum_pullsOf {plan : Plan} (hstretch : Stretch plan.roster visits picked asked start session)
    (hempty : start.governor.arena = .empty) (hpulls : start.pulls = .empty)
    (hdistinct : plan.symbols.Nodup) {symbol : String} {presets : List Preset}
    (hlisted : (symbol, presets) ∈ plan.roster) :
    (presets.map fun preset => session.pullsOf preset.offer.preset).sum =
      picked.countP fun pick => pick.1.symbol = symbol := by
  have hids : (presetIds presets).Nodup := by
    obtain ⟨place, -, rfl⟩ := mem_listings_iff.mp hlisted
    exact nodup_presetIds _
  calc (presets.map fun preset => session.pullsOf preset.offer.preset).sum
      = ((presetIds presets).map fun id => picked.countP fun pick => pick.2.preset = id).sum := by
        rw [presetIds, List.map_map]
        refine congrArg List.sum (List.map_congr_left fun preset _ => ?_)
        rw [hstretch.pulls, pullsOf, hpulls, Table.find?_empty]
        exact Nat.zero_add _
    _ = picked.countP fun pick => pick.2.preset ∈ presetIds presets :=
        sum_countP_eq (fun pick => pick.2.preset) hids picked
    _ = picked.countP fun pick => pick.1.symbol = symbol :=
        List.countP_congr fun pick hpick => by
          obtain ⟨others, hother, hpreset⟩ := hstretch.exists_listing hempty hpick
          rw [decide_eq_true_eq, decide_eq_true_eq,
            Plan.mem_presetIds_iff hdistinct hlisted hother hpreset]

/-- The arms of a symbol count the selections on it, and no more rewards. -/
theorem of_overview (hstretch : Stretch roster visits picked asked start session)
    (hempty : start.governor.arena = .empty) {symbol : String} {overview : Overview}
    (hoverview : session.governor.overview symbol = .ok overview) :
    overview.pulls = picked.countP (fun pick => pick.1.symbol = symbol) ∧
      overview.observations ≤ overview.pulls := by
  obtain ⟨turns, hhistory, rfl, -, hserves⟩ := hstretch.calls
  exact hhistory.of_overview hempty (fun turn hturn => (hserves turn hturn).accountable) hoverview

/-- Where shadow positions were asked for beside selections only, no more are open or closed on a
symbol than were selected on it. -/
theorem positions_le
    (hstretch : Stretch roster visits picked (picked.map fun pick => pick.1.symbol) start session)
    (hempty : start.governor.shadow = .empty) (symbol : String) :
    (session.governor.shadow.status symbol).openPositions +
        (session.governor.shadow.status symbol).totals.closedTrades ≤
      picked.countP fun pick => pick.1.symbol = symbol := by
  obtain ⟨turns, hhistory, -, hasked, hserves⟩ := hstretch.calls
  have hbound := hhistory.openPositions_add_closedTrades_le hempty
    (fun turn hturn => (hserves turn hturn).accountable) symbol
  rw [hasked, List.count, List.countP_map] at hbound
  exact hbound

end Session.Stretch

/-! ## Reports -/

def SymbolReport.selected (part : SymbolReport) : Nat := part.pulls.values.sum

/-- Whether all that a report says of a symbol tells of the same selections. -/
structure SymbolReport.AddsUp (symbol : String) (part : SymbolReport) : Prop where
  overview : part.overview.symbol = symbol
  shadow : part.shadow.symbol = symbol
  pulls : part.selected = part.overview.pulls
  observations : part.overview.observations ≤ part.selected
  positions : part.shadow.openPositions + part.shadow.totals.closedTrades ≤ part.selected

/-- Whether a report on a plan adds up: every visit is a decision or was skipped, and the decisions
are the selections that it gives for the plan's symbols. -/
structure Report.AddsUp (plan : Plan) (report : Report) : Prop where
  visits : report.decisions + report.skipped = plan.steps * plan.symbols.length
  symbols : report.symbols.keys = plan.symbols
  decisions : (report.symbols.values.map SymbolReport.selected).sum = report.decisions
  parts : ∀ symbol part, report.symbols.find? symbol = some part → part.AddsUp symbol

namespace Session

variable {plan : Plan} {visits : Nat} {picked : List (Contest × Selection)}
  {start session : Session}

/-- Whether a session has counted nothing, and its governor has nothing in its books. -/
structure IsNew (session : Session) : Prop where
  arena : session.governor.arena = .empty
  shadow : session.governor.shadow = .empty
  decisions : session.decisions = 0
  skipped : session.skipped = 0
  pulls : session.pulls = .empty

/-- The report on a symbol gives the selections on it. -/
theorem of_reportOn
    (hstretch :
      Stretch plan.roster visits picked (picked.map fun pick => pick.1.symbol) start session)
    (hnew : start.IsNew) (hdistinct : plan.symbols.Nodup) {lane : Lane}
    (hlane : lane.listing ∈ plan.roster) {part : SymbolReport}
    (hreport : session.reportOn lane = .ok part) :
    part.selected = picked.countP (fun pick => pick.1.symbol = lane.symbol) ∧
      part.AddsUp lane.symbol := by
  simp only [reportOn, Fault.bind_eq_ok_iff, guarded_eq_ok_iff, Fault.pure_eq_ok_iff] at hreport
  obtain ⟨overview, hoverview, rfl⟩ := hreport
  have hlabels : ((lane.presets.map fun preset =>
      (preset.label, session.pullsOf preset.offer.preset)).map Prod.fst).Nodup := by
    obtain ⟨place, -, hplace⟩ := mem_listings_iff.mp hlane
    rw [List.map_map, hplace]
    exact nodup_labels _
  have hselected : (Table.ofList (lane.presets.map fun preset =>
      (preset.label, session.pullsOf preset.offer.preset))).values.sum =
        picked.countP fun pick => pick.1.symbol = lane.symbol := by
    rw [Table.values, Table.entries_ofList _ hlabels, List.map_map]
    exact hstretch.sum_pullsOf hnew.arena hnew.pulls hdistinct hlane
  obtain ⟨hcounted, hrewards⟩ := hstretch.of_overview hnew.arena hoverview
  have hsymbol : overview.symbol = lane.symbol := by
    simp only [Governor.overview, Arena.overview, Fault.bind_eq_ok_iff, Fault.pure_eq_ok_iff]
      at hoverview
    obtain ⟨_, -, _, -, rfl⟩ := hoverview
    rfl
  refine ⟨hselected, hsymbol, rfl, hselected.trans hcounted.symm, ?_, ?_⟩
  · exact hrewards.trans_eq (hcounted.trans hselected.symm)
  · exact (hstretch.positions_le hnew.shadow lane.symbol).trans_eq hselected.symm

/-- The report on a session whose visits are those of the plan adds up. -/
theorem addsUp_of_report
    (hstretch : Stretch plan.roster (plan.steps * plan.symbols.length) picked
      (picked.map fun pick => pick.1.symbol) start session)
    (hnew : start.IsNew) (hdistinct : plan.symbols.Nodup)
    (hlanes : session.lanes.map Lane.listing = plan.roster) {report : Report}
    (hreport : session.report plan = .ok report) : report.AddsUp plan := by
  simp only [Session.report, Fault.bind_eq_ok_iff, Fault.pure_eq_ok_iff] at hreport
  obtain ⟨entries, hentries, rfl⟩ := hreport
  have hparts : List.Forall₂ (fun (lane : Lane) (entry : String × SymbolReport) =>
      lane.symbol = entry.1 ∧
        picked.countP (fun pick => pick.1.symbol = lane.symbol) = entry.2.selected ∧
        entry.2.AddsUp entry.1) session.lanes entries := by
    refine (forall₂_of_mapM hentries).imp fun lane entry hentry => ?_
    simp only [Fault.bind_eq_ok_iff, Fault.pure_eq_ok_iff] at hentry
    obtain ⟨hlane, part, hpart, rfl⟩ := hentry
    have hlisted : lane.listing ∈ plan.roster := hlanes ▸ List.mem_map_of_mem hlane
    obtain ⟨hselected, haddsUp⟩ := of_reportOn hstretch hnew hdistinct hlisted hpart
    exact ⟨rfl, hselected.symm, haddsUp⟩
  have hsymbols : session.lanes.map Lane.symbol = plan.symbols := by
    have hfirst := congrArg (List.map Prod.fst) hlanes
    rw [List.map_map, Plan.map_fst_roster] at hfirst
    exact hfirst
  have hkeys : entries.map Prod.fst = plan.symbols :=
    (map_eq_of_forall₂ hparts fun _ _ hpart => hpart.1).symm.trans hsymbols
  have htable : (Table.ofList entries).entries = entries :=
    Table.entries_ofList entries (hkeys ▸ hdistinct)
  refine ⟨?_, ?_, ?_, fun symbol part hfound => ?_⟩
  · rw [hstretch.visits, hnew.decisions, hnew.skipped]
    exact Nat.zero_add _
  · rw [Table.keys, htable, hkeys]
  · rw [Table.values, htable, List.map_map]
    calc (entries.map (SymbolReport.selected ∘ Prod.snd)).sum
        = (session.lanes.map fun lane =>
            picked.countP fun pick => pick.1.symbol = lane.symbol).sum :=
          congrArg List.sum (map_eq_of_forall₂ hparts fun _ _ hpart => hpart.2.1).symm
      _ = (plan.symbols.map fun symbol =>
            picked.countP fun pick => pick.1.symbol = symbol).sum := by
          rw [← hsymbols, List.map_map]
          rfl
      _ = picked.countP fun pick => pick.1.symbol ∈ plan.symbols :=
          sum_countP_eq (fun pick => pick.1.symbol) hdistinct picked
      _ = picked.length := List.countP_eq_length.mpr fun pick hpick => by
          obtain ⟨presets, hlisted, -⟩ := hstretch.exists_listing hnew.arena hpick
          rw [← Plan.map_fst_roster, decide_eq_true_eq]
          exact List.mem_map_of_mem hlisted
      _ = session.decisions := by
          rw [hstretch.decisions, hnew.decisions, Nat.zero_add]
  · rw [← Table.mem_entries_iff, htable] at hfound
    clear * - hparts hfound
    generalize session.lanes = lanes at hparts
    induction hparts with
    | nil => cases hfound
    | cons hpart _ ih =>
      obtain rfl | hrest := List.mem_cons.mp hfound
      · exact hpart.2.2
      · exact ih hrest

/-- A session of fewer visits than a word can count ends with a report. -/
theorem exists_report
    (hstretch : Stretch plan.roster visits picked (picked.map fun pick => pick.1.symbol) start
      session)
    (hnew : start.IsNew) (hvisits : visits < Word64.size) :
    ∃ report, session.report plan = .ok report ∧ report.decisions = session.decisions := by
  have hpicked : picked.length < Word64.size := by
    have hdecisions := hstretch.decisions
    have htotal := hstretch.visits
    rw [hnew.decisions, hnew.skipped] at htotal
    omega
  obtain ⟨entries, hentries⟩ :
      ∃ entries, session.lanes.mapM (fun lane => do
        return (lane.symbol, ← session.reportOn lane)) = .ok entries := by
    refine exists_mapM fun lane _ => ?_
    obtain ⟨overview, hoverview⟩ : ∃ overview,
        session.governor.overview lane.symbol = .ok overview := by
      cases hoverview : session.governor.overview lane.symbol with
      | ok overview => exact ⟨overview, rfl⟩
      | error fault =>
        -- only a sum of more selections than were made stops an overview
        obtain ⟨turns, hhistory, rfl, -, hserves⟩ := hstretch.calls
        obtain ⟨hpulls, hobservations⟩ := hhistory.sum_stats hnew.arena
          (fun turn hturn => (hserves turn hturn).accountable) lane.symbol
        have hcount := List.countP_le_length
          (p := fun pick : Contest × Selection => decide (pick.1.symbol = lane.symbol))
          (l := picks turns)
        obtain ⟨-, hfull⟩ := Governor.sum_of_overview hoverview
        omega
    exact ⟨_, by simp only [reportOn, hoverview]; rfl⟩
  unfold Session.report
  rw [hentries]
  exact ⟨_, rfl, rfl⟩

end Session

/-! ## Simulations -/

/-- A simulation whose market noise and whose choices are drawn from any streams of words. -/
def simulateOn (seeding : Seeding) (noise : Generator) (plan : Plan) (settings : Settings) :
    Except Failure Report := do
  let governor ← Session.guarded
    (Governor.create (seeded plan settings) 0 (.recorder []) startOfSession)
  let session ← (Session.start plan { governor with seeding } noise).run plan
  session.report plan

theorem simulate_eq_simulateOn (plan : Plan) (settings : Settings) :
    simulate plan settings =
      simulateOn (.ofSeed (settings.selection.seed.getD plan.seed).toUInt64)
        (ChaCha.ofSeed plan.seed.toUInt64) plan settings := by
  unfold simulate simulateOn
  cases hcreate : Governor.create (seeded plan settings) 0 (.recorder []) startOfSession with
  | error fault => rfl
  | ok governor =>
    simp only [Governor.create, Fault.bind_eq_ok_iff, Fault.pure_eq_ok_iff] at hcreate
    obtain ⟨_, -, _, -, rfl⟩ := hcreate
    rfl

/-- A simulation is a run of the plan from a new session, and the report on where it ends. -/
theorem simulateOn_eq_ok_iff {seeding : Seeding} {noise : Generator} {plan : Plan}
    {settings : Settings} {report : Report} :
    simulateOn seeding noise plan settings = .ok report ↔
      ∃ governor, Governor.create (seeded plan settings) 0 (.recorder []) startOfSession =
          .ok governor ∧
        ∃ session, (Session.start plan { governor with seeding } noise).run plan = .ok session ∧
          session.report plan = .ok report := by
  simp only [simulateOn, Fault.bind_eq_ok_iff, Session.guarded_eq_ok_iff]

theorem Session.isNew_start {plan : Plan} {settings : Settings} {governor : Governor}
    (hcreate : Governor.create (seeded plan settings) 0 (.recorder []) startOfSession =
      .ok governor) (seeding : Seeding) (noise : Generator) :
    (Session.start plan { governor with seeding } noise).IsNew := by
  simp only [Governor.create, Fault.bind_eq_ok_iff, Fault.pure_eq_ok_iff] at hcreate
  obtain ⟨_, -, _, -, rfl⟩ := hcreate
  exact ⟨rfl, rfl, rfl, rfl, rfl⟩

/-- A run of a plan makes as many visits as it has steps and symbols. -/
theorem Session.keeps_run {plan : Plan} {governor : Governor} {noise : Generator}
    {session : Session} (hrun : (Session.start plan governor noise).run plan = .ok session) :
    session.lanes.map Lane.listing = plan.roster ∧
      Session.Keeps plan.roster (plan.steps * plan.symbols.length)
        (Session.start plan governor noise) session := by
  have hlength : plan.roster.length = plan.symbols.length := by
    rw [← plan.map_fst_roster, List.length_map]
  rw [← hlength]
  exact Session.keeps_runFrom rfl hrun

/-- A run of fewer visits than a word can count ends with a report. -/
theorem exists_simulateOn {seeding : Seeding} {noise : Generator} {plan : Plan}
    {settings : Settings} {governor : Governor} {session : Session}
    (hcreate : Governor.create (seeded plan settings) 0 (.recorder []) startOfSession =
      .ok governor)
    (hrun : (Session.start plan { governor with seeding } noise).run plan = .ok session)
    (hvisits : plan.steps * plan.symbols.length < Word64.size) :
    ∃ report, simulateOn seeding noise plan settings = .ok report ∧
      report.decisions = session.decisions := by
  obtain ⟨-, picked, hstretch⟩ := Session.keeps_run hrun
  obtain ⟨report, hreport, hdecisions⟩ :=
    Session.exists_report hstretch (Session.isNew_start hcreate _ noise) hvisits
  exact ⟨report, simulateOn_eq_ok_iff.mpr ⟨governor, hcreate, session, hrun, hreport⟩, hdecisions⟩

/-- Whatever streams of words a simulation draws from, `simulate`'s own among them, a report on
distinct symbols adds up. -/
theorem simulate_adds_up (plan : Plan) (settings : Settings) (hdistinct : plan.symbols.Nodup) :
    simulate plan settings =
        simulateOn (.ofSeed (settings.selection.seed.getD plan.seed).toUInt64)
          (ChaCha.ofSeed plan.seed.toUInt64) plan settings ∧
      ∀ seeding noise report, simulateOn seeding noise plan settings = .ok report →
        report.AddsUp plan := by
  refine ⟨simulate_eq_simulateOn plan settings, fun seeding noise report hreport => ?_⟩
  obtain ⟨governor, hcreate, session, hrun, hreport⟩ := simulateOn_eq_ok_iff.mp hreport
  obtain ⟨hlanes, picked, hstretch⟩ := Session.keeps_run hrun
  exact Session.addsUp_of_report hstretch (Session.isNew_start hcreate _ noise) hdistinct hlanes
    hreport

/-- One step on two symbols, with a selection on each. -/
theorem simulate_adds_up_one_step :
    let plan : Plan := { seed := 1, symbols := ["BTC", "ETH"], steps := 1, degradeAfter := 0 }
    let settings : Settings := { selection := { policy := .ucb1 } }
    let noise : Generator := ⟨fun _ => 9223372036854775808, 0⟩
    plan.symbols.Nodup ∧ ∃ report, simulateOn ⟨fun _ => noise⟩ noise plan settings = .ok report ∧
      report.decisions = 2 ∧ report.AddsUp plan := by
  intro plan settings noise
  let run : Except Failure Nat := do
    let governor ← Session.guarded
      (Governor.create (seeded plan settings) 0 (.recorder []) startOfSession)
    let seeding : Seeding := ⟨fun _ => noise⟩
    let session ← (Session.start plan { governor with seeding } noise).run plan
    return session.decisions
  have hrun : run.toOption = some 2 := by decide +kernel
  have hdone : run = .ok 2 := by
    cases hresult : run with
    | error failure => simp [hresult, Except.toOption] at hrun
    | ok decisions => simpa [hresult, Except.toOption] using hrun
  simp only [run, Fault.bind_eq_ok_iff, Session.guarded_eq_ok_iff, Fault.pure_eq_ok_iff]
    at hdone
  obtain ⟨governor, hcreate, session, hsession, hdecisions⟩ := hdone
  obtain ⟨report, hreport, hsame⟩ := exists_simulateOn hcreate hsession (by decide)
  have hdistinct : plan.symbols.Nodup := by decide
  exact ⟨hdistinct, report, hreport, hsame.trans hdecisions,
    (simulate_adds_up plan settings hdistinct).2 _ _ report hreport⟩

end Simulation

end ExposureControl
