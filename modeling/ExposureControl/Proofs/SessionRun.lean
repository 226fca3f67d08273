import ExposureControl.Proofs.SelectionTally
import ExposureControl.Simulation.Session

/-!
# Runs of a session

A session keeps counts of its own beside the books of its governor: what it decided and skipped,
and the selections by preset.  A stretch of a session is a history of its governor together with
what the session counted in it.  Stretches are put together like histories, so that a run is a
stretch of as many visits as it has steps and symbols.
-/

namespace ExposureControl

/-- Whether a command is one that a session on a roster of symbols and presets gives: arms are
provided for a symbol of the roster, and for all its presets. -/
structure Command.Serves (roster : List (String × List Simulation.Preset)) (command : Command) :
    Prop where
  accountable : command.accountable = true
  offers : ∀ contest offers, command = .ensureArms contest offers →
    ∃ presets, (contest.symbol, presets) ∈ roster ∧
      offers = presets.map Simulation.Preset.offer

/-- Whether a command is accountable and neither provides arms nor selects one. -/
def Command.plain : Command → Bool
  | .ensureArms .. | .select .. => false
  | command => command.accountable

namespace Simulation

/-- What a lane offers, whatever its price. -/
def Lane.listing (lane : Lane) : String × List Preset := (lane.symbol, lane.presets)

namespace Session

variable {α : Type} {roster : List (String × List Preset)} {plan : Plan} {step : Nat}
  {lane next : Lane} {side : Side}

/-! ## Answers -/

theorem guarded_eq_ok_iff {answer : Except Fault α} {value : α} :
    guarded answer = .ok value ↔ answer = .ok value := by
  cases answer <;> simp [guarded]

theorem exists_draw (session : Session) :
    ∃ z noise, session.draw = (z, { session with noise }) := by
  unfold draw
  generalize session.noise.standardNormal = drawn
  exact ⟨drawn.1, drawn.2, rfl⟩

theorem exists_pickSide (session : Session) :
    ∃ side noise, session.pickSide = (side, { session with noise }) := by
  unfold pickSide
  generalize session.noise.coin = tossed
  exact ⟨if tossed.1 then .buy else .sell, tossed.2, rfl⟩

/-! ## Stretches -/

/-- How often a session selected a preset. -/
def pullsOf (session : Session) (preset : ObjectId) : Nat :=
  (session.pulls.find? preset).getD 0

/-- Two sessions that counted the same. -/
structure SameCounts (before after : Session) : Prop where
  decisions : after.decisions = before.decisions
  skipped : after.skipped = before.skipped
  pulls : after.pulls = before.pulls

/-- A stretch of a session: its calls of the governor with the selections among them and the shadow
positions that they ask for, latest first, and what the session counted meanwhile. -/
structure Stretch (roster : List (String × List Preset)) (visits : Nat)
    (picked : List (Contest × Selection)) (asked : List String) (before after : Session) :
    Prop where
  calls : ∃ turns, History before.governor turns after.governor ∧ picks turns = picked ∧
    shadowed turns = asked ∧ ∀ turn ∈ turns, turn.command.Serves roster
  visits : after.decisions + after.skipped = before.decisions + before.skipped + visits
  decisions : after.decisions = before.decisions + picked.length
  pulls : ∀ preset, after.pullsOf preset =
    before.pullsOf preset + picked.countP fun pick => pick.2.preset = preset

namespace Stretch

variable {visits more : Nat} {picked morePicked : List (Contest × Selection)}
  {asked moreAsked : List String} {before middle after : Session} {command : Command}

theorem idle (hgovernor : after.governor = before.governor) (hcounts : SameCounts before after) :
    Stretch roster 0 [] [] before after := by
  obtain ⟨hdecisions, hskipped, hpulls⟩ := hcounts
  exact ⟨⟨[], hgovernor ▸ .start, rfl, rfl, fun _ => nofun⟩, by rw [hdecisions, hskipped]; rfl,
    hdecisions, fun preset => by rw [pullsOf, pullsOf, hpulls]; rfl⟩

theorem trans (hfirst : Stretch roster visits picked asked before middle)
    (hsecond : Stretch roster more morePicked moreAsked middle after) :
    Stretch roster (visits + more) (morePicked ++ picked) (moreAsked ++ asked) before after := by
  obtain ⟨past, hpast, rfl, rfl, hserved⟩ := hfirst.calls
  obtain ⟨later, hlater, rfl, rfl, hserves⟩ := hsecond.calls
  refine ⟨⟨later ++ past, hlater.append hpast, picks_append later past, shadowed_append later past,
    fun turn hturn => (List.mem_append.mp hturn).elim (hserves turn) (hserved turn)⟩, ?_, ?_,
    fun preset => ?_⟩
  · rw [hsecond.visits, hfirst.visits]
    omega
  · rw [hsecond.decisions, hfirst.decisions, List.length_append]
    omega
  · rw [hsecond.pulls, hfirst.pulls, List.countP_append]
    omega

/-- A call with which nothing is selected and nothing is counted. -/
theorem call {answer : Except Refusal Reply}
    (hstep : before.governor.step command = .ok (after.governor, answer))
    (hserves : command.Serves roster)
    (hunselected :
      Turn.selected? ⟨before.governor, command, answer, after.governor⟩ = none)
    (hcounts : SameCounts before after) :
    Stretch roster 0 [] command.shadowed?.toList before after := by
  obtain ⟨hdecisions, hskipped, hpulls⟩ := hcounts
  refine ⟨⟨[_], .turn .start hstep, picks_cons_of_none hunselected, ?_,
    List.forall_mem_singleton.mpr hserves⟩, by rw [hdecisions, hskipped]; rfl, hdecisions,
    fun preset => by rw [pullsOf, pullsOf, hpulls]; rfl⟩
  rw [shadowed, List.filterMap_cons, List.filterMap_nil]
  cases command.shadowed? <;> rfl

theorem plain (command : Command) {answer : Except Refusal Reply}
    (hstep : before.governor.step command = .ok (after.governor, answer))
    (hplain : command.plain = true) (hcounts : SameCounts before after) :
    Stretch roster 0 [] command.shadowed?.toList before after := by
  cases command with
  | ensureArms | select => cases hplain
  | _ => exact call hstep ⟨hplain, fun _ _ => nofun⟩ rfl hcounts

/-- The provision of a lane's arms. -/
theorem provided {lane : Lane} (hlane : lane.listing ∈ roster) {contest : Contest}
    (hcontest : contest.symbol = lane.symbol)
    (hgovernor : after.governor =
      (before.governor.ensureArms contest (lane.presets.map Preset.offer)).1)
    (hcounts : SameCounts before after) : Stretch roster 0 [] [] before after := by
  have hstep : ∃ answer, before.governor.step
      (.ensureArms contest (lane.presets.map Preset.offer)) = .ok (after.governor, answer) := by
    rw [hgovernor]
    exact ⟨_, rfl⟩
  obtain ⟨answer, hstep⟩ := hstep
  refine call hstep ⟨rfl, ?_⟩ rfl hcounts
  rintro _ _ ⟨rfl, rfl⟩
  exact ⟨lane.presets, hcontest ▸ hlane, rfl⟩

/-- A selection that the session counts. -/
theorem selected {contest : Contest} {context : Context} {selection : Selection}
    (hstep : before.governor.step (.select contest context) =
      .ok (after.governor, .ok (.selection selection)))
    (hdecisions : after.decisions = before.decisions + 1)
    (hskipped : after.skipped = before.skipped)
    (hpulls : after.pulls = before.pulls.update selection.preset 0 (· + 1)) :
    Stretch roster 1 [(contest, selection)] [] before after := by
  refine ⟨⟨[⟨before.governor, .select contest context, .ok (.selection selection),
    after.governor⟩], .turn .start hstep, rfl, rfl, List.forall_mem_singleton.mpr ⟨rfl, nofun⟩⟩,
    by omega, hdecisions, fun preset => ?_⟩
  rw [pullsOf, pullsOf, hpulls, Table.find?_update, List.countP_singleton]
  by_cases hpreset : preset = selection.preset
  · simp [hpreset]
  · simp [hpreset, Ne.symm hpreset]

theorem refused {contest : Contest} {context : Context} {refusal : Refusal}
    (hstep : before.governor.step (.select contest context) =
      .ok (after.governor, .error refusal))
    (hcounts : SameCounts before after) : Stretch roster 0 [] [] before after :=
  call hstep ⟨rfl, nofun⟩ rfl hcounts

theorem skipped (roster : List (String × List Preset)) (session : Session) :
    Stretch roster 1 [] [] session session.skip :=
  ⟨⟨[], .start, rfl, rfl, fun _ => nofun⟩, rfl, rfl, fun _ => rfl⟩

end Stretch

/-! ## What a session does in a stretch -/

variable {session after : Session}

theorem stretch_execute {slippage : Float}
    (hexecute : session.execute step lane side = .ok (slippage, after)) :
    Stretch roster 0 [] [] session after := by
  unfold execute at hexecute
  extract_lets governor now reference orderType order submitted at hexecute
  obtain ⟨noise, generator, hdraw⟩ := session.exists_draw
  simp only [hdraw, Fault.bind_eq_ok_iff, guarded_eq_ok_iff, Fault.pure_eq_ok_iff, Prod.mk.injEq,
    Prod.exists] at hexecute
  obtain ⟨filled, sample, hfill, -, rfl⟩ := hexecute
  have hsubmitted : Stretch roster 0 [] [] session { session with governor := submitted } :=
    .plain (.submit _) (rfl : session.governor.step _ = .ok (submitted, .ok .done)) rfl
      ⟨rfl, rfl, rfl⟩
  have hstep : submitted.step (.fill order _ _ _) = .ok (filled, .ok (.sample sample)) :=
    Fault.bind_eq_ok_iff.mpr ⟨_, hfill, rfl⟩
  have hfilled : Stretch roster 0 [] [] { session with governor := submitted }
      { session with governor := filled, noise := generator } :=
    .plain (.fill order _ _ _) hstep rfl ⟨rfl, rfl, rfl⟩
  exact hsubmitted.trans hfilled

theorem stretch_settle {decision : DecisionId} {result slippage : Float}
    (hsettle : session.settle lane decision result slippage = .ok after) :
    Stretch roster 0 [] [] session after := by
  simp only [settle, Fault.bind_eq_ok_iff, guarded_eq_ok_iff, Prod.exists] at hsettle
  obtain ⟨recorded, answer, hrecord, hsettle⟩ := hsettle
  cases answer with
  | error refusal => cases hsettle
  | ok pull =>
    have hstep : session.governor.step (.recordTrade decision _ _ _) =
        .ok (recorded, .ok (.pull pull)) := Fault.bind_eq_ok_iff.mpr ⟨_, hrecord, rfl⟩
    have hrecorded : Stretch roster 0 [] [] session { session with governor := recorded } :=
      .plain (.recordTrade decision _ _ _) hstep rfl ⟨rfl, rfl, rfl⟩
    dsimp only at hsettle
    split at hsettle
    · rw [Fault.pure_eq_ok_iff] at hsettle
      subst hsettle
      have hreported : Stretch roster 0 [] [] { session with governor := recorded }
          { session with
            governor := recorded.reportLive lane.symbol (result * recorded.sizing * 10.0) } :=
        .plain (.reportLive _ _) rfl rfl ⟨rfl, rfl, rfl⟩
      exact hrecorded.trans hreported
    · rw [Fault.pure_eq_ok_iff] at hsettle
      subst hsettle
      exact hrecorded

theorem stretch_moveMarket {degraded : Bool}
    (hmove : session.moveMarket degraded lane side = .ok (next, after)) :
    next.listing = lane.listing ∧ Stretch roster 0 [] [lane.symbol] session after := by
  unfold moveMarket at hmove
  obtain ⟨noise, generator, hdraw⟩ := session.exists_draw
  simp only [hdraw, Fault.bind_eq_ok_iff, guarded_eq_ok_iff, Fault.pure_eq_ok_iff, Prod.mk.injEq,
    Prod.exists] at hmove
  obtain ⟨moved, closed, htick, rfl, rfl⟩ := hmove
  let ticket := shadowTicket lane.symbol side lane.price
  let opened := (session.governor.registerShadow ticket).1
  have hopened : Stretch roster 0 [] [lane.symbol] session
      { session with governor := opened, noise := generator } :=
    .plain (.registerShadow ticket) rfl rfl ⟨rfl, rfl, rfl⟩
  have hstep : opened.step (.priceTick lane.symbol _) = .ok (moved, .ok (.positions closed)) :=
    Fault.bind_eq_ok_iff.mpr ⟨_, htick, rfl⟩
  have hmoved : Stretch roster 0 [] []
      { session with governor := opened, noise := generator }
      { session with governor := moved, noise := generator } :=
    .plain (.priceTick lane.symbol _) hstep rfl ⟨rfl, rfl, rfl⟩
  exact ⟨rfl, hopened.trans hmoved⟩

theorem stretch_trade {selection : Selection}
    (htrade : session.trade plan step lane side selection = .ok (next, after)) :
    next.listing = lane.listing ∧
      Stretch roster 0 [] [lane.symbol] (session.count selection.preset) after := by
  rw [trade, Fault.bind_eq_ok_iff] at htrade
  obtain ⟨⟨slippage, executed⟩, hexecute, htrade⟩ := htrade
  obtain ⟨noise, generator, hdraw⟩ := executed.exists_draw
  simp only [hdraw, Fault.bind_eq_ok_iff] at htrade
  obtain ⟨settled, hsettle, hmove⟩ := htrade
  have hdrawn : Stretch roster 0 [] [] executed { executed with noise := generator } :=
    .idle rfl ⟨rfl, rfl, rfl⟩
  obtain ⟨hlisting, hmoved⟩ := stretch_moveMarket hmove
  exact ⟨hlisting,
    (((stretch_execute hexecute).trans hdrawn).trans (stretch_settle hsettle)).trans hmoved⟩

/-- A stretch of so many visits, in which shadow positions are asked for beside every selection, and
nowhere else. -/
def Keeps (roster : List (String × List Preset)) (visits : Nat) (before after : Session) : Prop :=
  ∃ picked, Stretch roster visits picked (picked.map fun pick => pick.1.symbol) before after

theorem Keeps.trans {visits more : Nat} {before middle after : Session}
    (hfirst : Keeps roster visits before middle) (hsecond : Keeps roster more middle after) :
    Keeps roster (visits + more) before after := by
  obtain ⟨picked, hpicked⟩ := hfirst
  obtain ⟨morePicked, hmore⟩ := hsecond
  exact ⟨morePicked ++ picked, by simpa using hpicked.trans hmore⟩

theorem keeps_visit (hlane : lane.listing ∈ roster)
    (hvisit : session.visit plan step lane = .ok (next, after)) :
    next.listing = lane.listing ∧ Keeps roster 1 session after := by
  unfold visit at hvisit
  obtain ⟨side, noise, hside⟩ := session.exists_pickSide
  simp only [hside] at hvisit
  let contest := Contest.of lane.symbol (regimeAt step) side
  let provided := (session.governor.ensureArms contest (lane.presets.map Preset.offer)).1
  have hprovided : Stretch roster 0 [] [] session
      { session with governor := provided, noise } :=
    .provided hlane rfl rfl ⟨rfl, rfl, rfl⟩
  split at hvisit
  · simp only [Except.ok.injEq, Prod.mk.injEq] at hvisit
    obtain ⟨rfl, rfl⟩ := hvisit
    exact ⟨rfl, [], hprovided.trans (.skipped roster _)⟩
  · simp only [Fault.bind_eq_ok_iff, guarded_eq_ok_iff, Prod.exists] at hvisit
    obtain ⟨selected, answer, hselect, hvisit⟩ := hvisit
    have hstep : provided.step (.select contest _) = .ok (selected, answer.map .selection) :=
      Fault.bind_eq_ok_iff.mpr ⟨_, hselect, rfl⟩
    cases answer with
    | ok selection =>
      have hselected : Stretch roster 1 [(contest, selection)] []
          { session with governor := provided, noise }
          (count selection.preset { session with governor := selected, noise }) :=
        .selected hstep rfl rfl rfl
      obtain ⟨hlisting, htraded⟩ := stretch_trade hvisit
      exact ⟨hlisting, [(contest, selection)], (hprovided.trans hselected).trans htraded⟩
    | error refusal =>
      have hrefused : Stretch roster 0 [] [] { session with governor := provided, noise }
          { session with governor := selected, noise } := .refused hstep ⟨rfl, rfl, rfl⟩
      cases refusal with
      | noEligibleArm contest =>
        simp only [Except.ok.injEq, Prod.mk.injEq] at hvisit
        obtain ⟨rfl, rfl⟩ := hvisit
        exact ⟨rfl, [], (hprovided.trans hrefused).trans (.skipped roster _)⟩
      | _ => cases hvisit

/-! ## Runs -/

theorem keeps_visitAll {lanes nexts : List Lane} {session after : Session}
    (hlanes : ∀ lane ∈ lanes, lane.listing ∈ roster)
    (hvisits : visitAll plan step lanes session = .ok (nexts, after)) :
    nexts.map Lane.listing = lanes.map Lane.listing ∧ Keeps roster lanes.length session after := by
  induction lanes generalizing session nexts with
  | nil =>
    simp only [visitAll, Except.ok.injEq, Prod.mk.injEq] at hvisits
    obtain ⟨rfl, rfl⟩ := hvisits
    exact ⟨rfl, [], .idle rfl ⟨rfl, rfl, rfl⟩⟩
  | cons lane rest ih =>
    obtain ⟨hlane, hrest⟩ := List.forall_mem_cons.mp hlanes
    simp only [visitAll, Fault.bind_eq_ok_iff, Fault.pure_eq_ok_iff, Prod.mk.injEq, Prod.exists]
      at hvisits
    obtain ⟨next, visited, hvisit, others, _, hothers, rfl, rfl⟩ := hvisits
    obtain ⟨hlisting, hkeeps⟩ := keeps_visit hlane hvisit
    obtain ⟨hlistings, hrestKeeps⟩ := ih hrest hothers
    refine ⟨by rw [List.map_cons, hlisting, hlistings, List.map_cons], ?_⟩
    rw [List.length_cons, Nat.add_comm]
    exact Keeps.trans hkeeps hrestKeeps

theorem keeps_cleanUp {session after : Session} (hcleanUp : session.cleanUp = .ok after) :
    after.lanes = session.lanes ∧ Keeps roster 0 session after := by
  simp only [cleanUp, Fault.bind_eq_ok_iff, guarded_eq_ok_iff, Fault.pure_eq_ok_iff, Prod.exists]
    at hcleanUp
  obtain ⟨pruned, removals, hprune, rfl⟩ := hcleanUp
  have hstep : session.governor.step (.pruneExpired session.governor.clock) =
      .ok (pruned, .ok (.removals removals)) := Fault.bind_eq_ok_iff.mpr ⟨_, hprune, rfl⟩
  exact ⟨rfl, [], .plain (.pruneExpired _) hstep rfl ⟨rfl, rfl, rfl⟩⟩

/-- One step visits every lane once. -/
theorem keeps_advance {session after : Session}
    (hroster : session.lanes.map Lane.listing = roster)
    (hadvance : session.advance plan step = .ok after) :
    after.lanes.map Lane.listing = roster ∧ Keeps roster roster.length session after := by
  simp only [advance, Fault.bind_eq_ok_iff, guarded_eq_ok_iff, Prod.exists] at hadvance
  obtain ⟨advanced, hadvanced, lanes, visited, hvisits, hafter⟩ := hadvance
  have hstep : session.governor.step (.advance stepLength) = .ok (advanced, .ok .done) :=
    Fault.bind_eq_ok_iff.mpr ⟨_, hadvanced, rfl⟩
  have hclock : Stretch roster 0 [] [] session { session with governor := advanced } :=
    .plain (.advance stepLength) hstep rfl ⟨rfl, rfl, rfl⟩
  obtain ⟨hlistings, hkeeps⟩ := keeps_visitAll
    (fun lane hlane => hroster ▸ List.mem_map_of_mem hlane) hvisits
  rw [hroster] at hlistings
  -- to put the lanes back calls nothing and counts nothing
  have hput : Stretch roster 0 [] [] visited { visited with lanes } := .idle rfl ⟨rfl, rfl, rfl⟩
  have hvisited : Keeps roster roster.length session { visited with lanes } := by
    have hstretch := (Keeps.trans ⟨[], hclock⟩ hkeeps).trans ⟨[], hput⟩
    rw [Nat.zero_add, Nat.add_zero] at hstretch
    rwa [← hroster, List.length_map, hroster]
  split at hafter
  · obtain ⟨hlanes, hcleaned⟩ := keeps_cleanUp hafter
    exact ⟨hlanes ▸ hlistings, hvisited.trans hcleaned⟩
  · rw [Fault.pure_eq_ok_iff] at hafter
    subst hafter
    exact ⟨hlistings, hvisited⟩

/-- A run visits every lane once in each step. -/
theorem keeps_runFrom {remaining : Nat} {session after : Session}
    (hroster : session.lanes.map Lane.listing = roster)
    (hrun : session.runFrom plan step remaining = .ok after) :
    after.lanes.map Lane.listing = roster ∧
      Keeps roster (remaining * roster.length) session after := by
  induction remaining generalizing step session with
  | zero =>
    simp only [runFrom, Except.ok.injEq] at hrun
    subst hrun
    rw [Nat.zero_mul]
    exact ⟨hroster, [], .idle rfl ⟨rfl, rfl, rfl⟩⟩
  | succ remaining ih =>
    simp only [runFrom, Fault.bind_eq_ok_iff] at hrun
    obtain ⟨advanced, hadvance, hrest⟩ := hrun
    obtain ⟨hlistings, hkeeps⟩ := keeps_advance hroster hadvance
    obtain ⟨hfinal, hrestKeeps⟩ := ih hlistings hrest
    refine ⟨hfinal, ?_⟩
    rw [Nat.succ_mul, Nat.add_comm]
    exact hkeeps.trans hrestKeeps

end Session

end Simulation

end ExposureControl
