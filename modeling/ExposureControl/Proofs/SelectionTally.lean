import ExposureControl.Proofs.ArmListing
import ExposureControl.Proofs.Attribution
import ExposureControl.Proofs.ClosedTrades
import ExposureControl.Proofs.CounterBounds
import ExposureControl.Proofs.Counting

/-!
# What the books say of selections

Arms, shadow book and totals are kept apart from one another.  Along a history that puts nothing on
record past the governor's own calls, and clears nothing, they all agree with the selections that
were made: on every symbol the arms count its selections, the rewards among them are no more, and
the shadow positions that were opened are those that were asked for at most.
-/

namespace ExposureControl

variable {turns past later : List Turn} {turn : Turn} {start governor : Governor}

/-! ## The selections of a history -/

def picks (turns : List Turn) : List (Contest × Selection) := turns.filterMap Turn.selected?

theorem selections_eq_map_picks (turns : List Turn) :
    selections turns = (picks turns).map Prod.snd := by
  rw [picks, List.map_filterMap]
  rfl

@[simp]
theorem picks_append (later past : List Turn) : picks (later ++ past) = picks later ++ picks past :=
  List.filterMap_append

theorem picks_cons_of_none (hselected : turn.selected? = none) :
    picks (turn :: turns) = picks turns :=
  List.filterMap_cons_none hselected

theorem picks_cons_of_some {pick : Contest × Selection} (hselected : turn.selected? = some pick) :
    picks (turn :: turns) = pick :: picks turns :=
  List.filterMap_cons_some hselected

/-- Whether a command puts nothing on record past the governor's own calls, and clears no
statistics. -/
def Command.accountable (command : Command) : Bool :=
  !command.bypasses &&
    match command with
    | .resetArms _ | .restorePosition _ => false
    | _ => true

namespace Command

variable {command : Command}

theorem bypasses_of_accountable (haccountable : command.accountable = true) :
    command.bypasses = false := by
  cases command <;> first | rfl | cases haccountable

theorem ne_restoreArm_of_accountable (haccountable : command.accountable = true) (arm : Arm) :
    command ≠ .restoreArm arm := by
  rintro rfl
  cases haccountable

end Command

theorem Turn.resets_of_accountable (haccountable : turn.command.accountable = true)
    (contest : Contest) : turn.resets contest = false := by
  obtain ⟨before, command, answer, after⟩ := turn
  cases command with
  | resetArms => cases haccountable
  | _ => rfl

/-- Where nothing is cleared, the selections since the last reset are all selections. -/
theorem selectionsSince_eq_countP (haccountable : ∀ turn ∈ turns, turn.command.accountable = true)
    (contest : Contest) (id : ObjectId) :
    selectionsSince contest id turns = (picks turns).countP fun pick => pick.2.arm = id := by
  induction turns with
  | nil => rfl
  | cons turn past ih =>
    obtain ⟨hturn, hpast⟩ := List.forall_mem_cons.mp haccountable
    rw [selectionsSince, Turn.resets_of_accountable hturn, if_neg Bool.false_ne_true, ih hpast,
      Turn.picksArm]
    cases hselected : turn.selected? with
    | none => rw [picks_cons_of_none hselected, Option.any_none, Bool.toNat_false, Nat.add_zero]
    | some pick =>
      rw [picks_cons_of_some hselected, List.countP_cons, Option.any_some]
      by_cases harm : pick.2.arm = id <;> simp [harm]

/-! ## Rewards and selections -/

theorem Turn.selected?_of_accepted {pull : Pull} (haccepted : turn.accepted? = some pull) :
    turn.selected? = none := by
  apply Turn.selected?_of_not_select
  intro contest context hcommand
  rw [Turn.accepted?, hcommand] at haccepted
  cases haccepted

theorem creditsSince_le_accepted (contest : Contest) (id : ObjectId) (turns : List Turn) :
    creditsSince contest id turns ≤ (selections turns).countP fun selection =>
      selection.arm = id ∧ selection.decision ∈ acceptedDecisions turns := by
  induction turns with
  | nil => exact Nat.le_refl 0
  | cons turn past ih =>
    have hselections : (selections past).Sublist (selections (turn :: past)) :=
      (List.sublist_cons_self turn past).filterMap _
    have haccepted : acceptedDecisions past ⊆ acceptedDecisions (turn :: past) :=
      ((List.sublist_cons_self turn past).filterMap _).subset
    have hmore : ∀ items : List Selection,
        items.countP (fun selection =>
            selection.arm = id ∧ selection.decision ∈ acceptedDecisions past) ≤
          items.countP fun selection =>
            selection.arm = id ∧ selection.decision ∈ acceptedDecisions (turn :: past) := by
      refine fun items => List.countP_mono_left fun selection _ hcounts => ?_
      simp only [decide_eq_true_eq] at hcounts ⊢
      exact ⟨hcounts.1, haccepted hcounts.2⟩
    rw [creditsSince]
    split
    · exact Nat.zero_le _
    · cases hcredits : turn.creditsArm id past with
      | false => exact (ih.trans (hmore _)).trans hselections.countP_le
      | true =>
        obtain ⟨pull, hpull, hnew, selection, hselection, hdecision, harm⟩ :=
          Turn.creditsArm_iff.mp hcredits
        obtain ⟨newer, older, hsplit⟩ := List.append_of_mem hselection
        -- the credited selection did not count before, and it does now
        rw [selections_cons_of_none (Turn.selected?_of_accepted hpull)]
        rw [hsplit] at ih ⊢
        have hnewer := hmore newer
        have holder := hmore older
        rw [List.countP_append, List.countP_cons_of_neg (by simp [hdecision, hnew])] at ih
        rw [List.countP_append, List.countP_cons_of_pos (by
          simp [harm, hdecision, acceptedDecisions_cons_of_some hpull])]
        simp only [Bool.toNat_true]
        omega

/-- Where nothing is cleared, an arm is credited for no more decisions than were selected for
it. -/
theorem creditsSince_le_selectionsSince
    (haccountable : ∀ turn ∈ turns, turn.command.accountable = true) (contest : Contest)
    (id : ObjectId) : creditsSince contest id turns ≤ selectionsSince contest id turns := by
  calc creditsSince contest id turns
      ≤ (selections turns).countP fun selection =>
          selection.arm = id ∧ selection.decision ∈ acceptedDecisions turns :=
        creditsSince_le_accepted contest id turns
    _ ≤ (selections turns).countP fun selection => selection.arm = id :=
        List.countP_mono_left fun selection _ hcounts => by
          simp only [decide_eq_true_eq] at hcounts ⊢
          exact hcounts.1
    _ = selectionsSince contest id turns := by
        rw [selectionsSince_eq_countP haccountable, selections_eq_map_picks, List.countP_map]
        rfl

/-! ## The arms of selections -/

namespace History

/-- Every selection was made of an arm of its contest, which is still on record. -/
theorem exists_arm_of_pick (hhistory : History start turns governor)
    (hempty : start.arena = .empty) (hcommands : ∀ turn ∈ turns, turn.command.bypasses = false)
    {pick : Contest × Selection} (hpick : pick ∈ picks turns) :
    ∃ arm, governor.registry.arms.find? pick.2.arm = some arm ∧ arm.contest = pick.1 ∧
      arm.preset = pick.2.preset := by
  induction hhistory with
  | start => cases hpick
  | @turn turns before after command answer past step ih =>
    obtain ⟨hcommand, hpast⟩ := List.forall_mem_cons.mp hcommands
    have hgrounded := (past.sound hempty fun turn hturn =>
      Turn.restoresFaithfully_of_not_bypasses (hpast turn hturn)).grounded
    have hextends := (Governor.arenaStep_of_step step).1.roster.extended hgrounded fun arm => by
      rintro rfl
      cases hcommand
    -- an arm that was on record before the turn is on record after it
    have hkept : ∀ {arm : Arm}, before.registry.arms.find? pick.2.arm = some arm →
        arm.contest = pick.1 → arm.preset = pick.2.preset →
        ∃ arm, after.registry.arms.find? pick.2.arm = some arm ∧ arm.contest = pick.1 ∧
          arm.preset = pick.2.preset := by
      intro arm hfound hcontest hpreset
      obtain ⟨kept, hkept, hidentity⟩ := hextends.kept hfound
      exact ⟨kept, hkept, (Arm.contest_eq_of_identity hidentity).trans hcontest,
        (Arm.preset_eq_of_identity hidentity).trans hpreset⟩
    cases hselected : (⟨before, command, answer, after⟩ : Turn).selected? with
    | none =>
      rw [picks_cons_of_none hselected] at hpick
      obtain ⟨arm, hfound, hcontest, hpreset⟩ := ih hpast hpick
      exact hkept hfound hcontest hpreset
    | some selected =>
      rw [picks_cons_of_some hselected, List.mem_cons] at hpick
      obtain rfl | hpick := hpick
      · cases ((past.turn step).creditStep hempty hcommands) _ List.mem_cons_self with
        | kept hnone => cases hnone.symm.trans hselected
        | pruned _ hnone => cases hnone.symm.trans hselected
        | again _ _ _ _ hnone => cases hnone.symm.trans hselected
        | credited _ _ _ _ _ _ hnone => cases hnone.symm.trans hselected
        | selected generator arm context hfound hsame =>
          obtain rfl := Option.some.inj (hsame.symm.trans hselected)
          exact hkept hfound rfl rfl
      · obtain ⟨arm, hfound, hcontest, hpreset⟩ := ih hpast hpick
        exact hkept hfound hcontest hpreset

/-- Every arm on record was provided for an offer to its contest. -/
theorem exists_offer_of_arm (hhistory : History start turns governor)
    (hempty : start.arena = .empty)
    (hrestores : ∀ turn ∈ turns, ∀ arm, turn.command ≠ .restoreArm arm) {id : ObjectId} {arm : Arm}
    (hfound : governor.registry.arms.find? id = some arm) :
    ∃ turn ∈ turns, ∃ offers, turn.command = .ensureArms arm.contest offers ∧
      ∃ offer ∈ offers, offer.preset = arm.preset := by
  induction hhistory generalizing arm with
  | start =>
    rw [Governor.registry, hempty] at hfound
    cases hfound
  | @turn turns before after command answer past step ih =>
    obtain ⟨hcommand, hpast⟩ := List.forall_mem_cons.mp hrestores
    have hknown : ∀ {known : Arm}, before.registry.arms.find? id = some known →
        arm.identity = known.identity →
        ∃ turn ∈ ⟨before, command, answer, after⟩ :: turns, ∃ offers,
          turn.command = .ensureArms arm.contest offers ∧
          ∃ offer ∈ offers, offer.preset = arm.preset := by
      intro known hknown hidentity
      obtain ⟨turn, hturn, hoffered⟩ := ih hpast hknown
      rw [Arm.contest_eq_of_identity hidentity, Arm.preset_eq_of_identity hidentity]
      exact ⟨turn, List.mem_cons_of_mem _ hturn, hoffered⟩
    obtain hsame | ⟨contest, offers, rfl, hafter⟩ | ⟨restored, rfl, -⟩ :=
      (Governor.arenaStep_of_step step).1.roster.identity_cases
    · have harm : (after.registry.arms.find? id).map Arm.identity = _ := hsame.arms id
      rw [hfound, Option.map_some] at harm
      obtain ⟨known, hbefore, hidentity⟩ := Option.map_eq_some_iff.mp harm.symm
      exact hknown hbefore hidentity.symm
    · obtain ⟨-, hsupplied⟩ := Registry.ensureArms_supplied
        (past.sound_of_not_restores hempty hpast).grounded contest offers before.clock
      rw [← hafter] at hsupplied
      cases hbefore : before.registry.arms.find? id with
      | none =>
        obtain ⟨rfl, hoffered, -⟩ := hsupplied.fresh hbefore hfound
        exact ⟨_, List.mem_cons_self, offers, rfl, hoffered⟩
      | some known =>
        obtain ⟨kept, hkept, hidentity⟩ := hsupplied.kept hbefore
        obtain rfl := Option.some.inj (hkept.symm.trans hfound)
        exact hknown hbefore hidentity
    · exact absurd rfl (hcommand restored)

theorem sum_stats (hhistory : History start turns governor) (hempty : start.arena = .empty)
    (haccountable : ∀ turn ∈ turns, turn.command.accountable = true) (symbol : String) :
    let arms := governor.registry.allArms.filter fun arm => arm.contest.symbol = symbol
    (arms.map fun arm => arm.stats.pulls).sum =
        (picks turns).countP (fun pick => pick.1.symbol = symbol) ∧
      (arms.map fun arm => arm.stats.observations).sum ≤
        (picks turns).countP fun pick => pick.1.symbol = symbol := by
  intro arms
  have hcommands : ∀ turn ∈ turns, turn.command.bypasses = false := fun turn hturn =>
    Command.bypasses_of_accountable (haccountable turn hturn)
  have hsound := hhistory.sound_of_not_restores hempty fun turn hturn =>
    Command.ne_restoreArm_of_accountable (haccountable turn hturn)
  obtain ⟨-, hcounted⟩ := hhistory.recorded_counted hempty hcommands
  have hdistinct : (arms.map Arm.id).Nodup :=
    (List.filter_sublist.map Arm.id).nodup (Registry.nodup_allArms hsound)
  have hfound : ∀ arm ∈ arms, governor.registry.arms.find? arm.id = some arm := fun arm harm =>
    ((Registry.mem_armsOf_iff hsound _ arm).mp
      ((Registry.mem_allArms_iff hsound arm).mp (List.mem_filter.mp harm).1)).1
  -- an arm of a selection is listed with those of the symbol exactly if the contest is of it
  have hlisted : ∀ pick ∈ picks turns,
      pick.2.arm ∈ arms.map Arm.id ↔ pick.1.symbol = symbol := by
    intro pick hpick
    obtain ⟨arm, harm, hcontest, -⟩ := hhistory.exists_arm_of_pick hempty hcommands hpick
    rw [List.mem_map]
    constructor
    · rintro ⟨other, hother, hid⟩
      have hsame := hfound other hother
      rw [hid, harm] at hsame
      obtain rfl := Option.some.inj hsame
      rw [← hcontest]
      exact of_decide_eq_true (List.mem_filter.mp hother).2
    · intro hsymbol
      have hid := hsound.id_eq harm
      refine ⟨arm, List.mem_filter.mpr ⟨?_, ?_⟩, hid⟩
      · rw [← hid] at harm
        exact (Registry.mem_allArms_iff hsound arm).mpr
          ((Registry.mem_armsOf_iff hsound _ arm).mpr ⟨harm, rfl⟩)
      · rw [hcontest]
        exact decide_eq_true hsymbol
  have hpulls : (arms.map fun arm => arm.stats.pulls).sum =
      (picks turns).countP fun pick => pick.1.symbol = symbol := by
    calc (arms.map fun arm => arm.stats.pulls).sum
        = ((arms.map Arm.id).map fun id =>
            (picks turns).countP fun pick => pick.2.arm = id).sum := by
          rw [List.map_map]
          refine congrArg List.sum (List.map_congr_left fun arm harm => ?_)
          rw [(hcounted.stats arm.id arm (hfound arm harm)).1,
            selectionsSince_eq_countP haccountable]
          rfl
      _ = (picks turns).countP fun pick => pick.2.arm ∈ arms.map Arm.id :=
          sum_countP_eq (fun pick => pick.2.arm) hdistinct (picks turns)
      _ = (picks turns).countP fun pick => pick.1.symbol = symbol :=
          List.countP_congr fun pick hpick => by
            rw [decide_eq_true_eq, decide_eq_true_eq, hlisted pick hpick]
  refine ⟨hpulls, hpulls ▸ List.sum_le_sum fun arm harm => ?_⟩
  obtain ⟨hselected, hcredited⟩ := hcounted.stats arm.id arm (hfound arm harm)
  rw [hselected, hcredited]
  exact creditsSince_le_selectionsSince haccountable _ _

/-- What an overview says of a symbol's selections. -/
theorem of_overview (hhistory : History start turns governor) (hempty : start.arena = .empty)
    (haccountable : ∀ turn ∈ turns, turn.command.accountable = true) {symbol : String}
    {overview : Overview} (hoverview : governor.overview symbol = .ok overview) :
    overview.pulls = (picks turns).countP (fun pick => pick.1.symbol = symbol) ∧
      overview.observations ≤ overview.pulls := by
  simp only [Governor.overview, Arena.overview, Counter.fullWord, Fault.bind_eq_ok_iff,
    Fault.pure_eq_ok_iff, ite_eq_iff, Except.ok.injEq, reduceCtorEq, and_false, or_false]
    at hoverview
  obtain ⟨_, ⟨-, rfl⟩, _, ⟨-, rfl⟩, rfl⟩ := hoverview
  obtain ⟨hpulls, hobservations⟩ := hhistory.sum_stats hempty haccountable symbol
  exact ⟨hpulls, hobservations.trans_eq hpulls.symm⟩

end History

/-! ## Shadow positions -/

namespace Shadow

/-- Whether a call opens a position of a symbol. -/
def Call.opens (settings : Settings.Shadow) (symbol : String) : Call → Bool
  | .register ticket _ => settings.enabled && Engine.acceptable ticket && ticket.symbol = symbol
  | _ => false

variable {settings : Settings.Shadow}

/-- A call that puts no record on file adds the position that it opens, and takes away those that it
discards. -/
theorem Call.length_revise {call : Call} (hrestores : ∀ position, call ≠ .restore position)
    (drawn : Nat) (symbol : String) (positions : List Position) :
    (call.revise settings drawn symbol positions).length +
        positions.countP (call.discards settings) =
      positions.length + (call.opens settings symbol).toNat := by
  have hkeeps : ∀ keeping : Call, (∀ position, keeping.discards settings position = false) →
      positions.countP (keeping.discards settings) = 0 := fun keeping hkeeping =>
    List.countP_eq_zero.mpr fun position _ => by simp [hkeeping position]
  cases call with
  | register ticket now =>
    rw [hkeeps _ fun _ => rfl, revise, opens]
    split
    · next hopens => rw [List.length_append, hopens]; rfl
    · next hopens => rw [Bool.eq_false_iff.mpr hopens]; rfl
  | tick ticked price now =>
    rw [hkeeps _ fun _ => rfl, revise]
    split
    · rw [List.length_map]; rfl
    · rfl
  | restore position => exact absurd rfl (hrestores position)
  | bookLive | bookShadow => rw [hkeeps _ fun _ => rfl]; rfl
  | prune now =>
    dsimp only [revise, opens, Bool.toNat_false]
    cases hcutoff : cutoff settings now with
    | error fault => rw [hkeeps _ fun position => by rw [discards, hcutoff]]
    | ok limit =>
      have hdiscards : (Call.prune now).discards settings =
          fun position => !Book.outlives limit position := by
        funext position
        rw [discards, hcutoff]
      rw [hdiscards, ← List.countP_eq_length_filter, Nat.add_zero]
      simpa using (List.length_eq_countP_add_countP (Book.outlives limit)).symm

/-- Every position that was opened is open, or its close was counted. -/
theorem openCount_add_closedTrades {events : List Event} {engine : Engine}
    (htrace : Trace (Engine.perform settings) .empty events engine)
    (hrestores : ∀ event ∈ events, ∀ position, event.call ≠ .restore position)
    (symbol : String) :
    engine.book.openCount symbol + (engine.totalsOf symbol).closedTrades =
      (events.map Event.call).countP (Call.opens settings symbol) := by
  have hlength : (engine.book.ofSymbol symbol).length + prunedCount settings symbol events =
      (events.map Event.call).countP (Call.opens settings symbol) := by
    induction htrace with
    | start => rfl
    | @event events before next call answer past done ih =>
      obtain ⟨hevent, hpast⟩ := List.forall_mem_cons.mp hrestores
      have hrevised : (call.revise settings before.positionsDrawn symbol _).length + _ = _ :=
        Call.length_revise hevent before.positionsDrawn symbol (before.book.ofSymbol symbol)
      have hbefore := ih hpast
      rw [Engine.ofSymbol_perform done, prunedCount, List.map_cons, List.countP_cons, ← hbefore]
      cases hopens : call.opens settings symbol <;> simp [hopens] at hrevised ⊢ <;> omega
  have hreopens : ∀ event ∈ events, event.reopens = false := by
    intro event hevent
    have hcall := hrestores event hevent
    rw [Event.reopens]
    cases hcalled : event.call with
    | restore position => exact absurd hcalled (hcall position)
    | _ => rfl
  have hsplit := List.length_eq_countP_add_countP Position.isOpen
    (l := engine.book.ofSymbol symbol)
  rw [closedTrades_eq htrace hreopens symbol, Book.openCount, Book.closedCount, ← hlength, hsplit]
  simp only [Bool.not_eq_true, Bool.decide_eq_false]
  omega

end Shadow

/-- The symbol on which a command asks for a shadow position, if it asks for one. -/
def Command.shadowed? : Command → Option String
  | .registerShadow ticket => some ticket.symbol
  | _ => none

/-- The symbols on which shadow positions were asked for, latest first. -/
def shadowed (turns : List Turn) : List String :=
  turns.filterMap fun turn => turn.command.shadowed?

@[simp]
theorem shadowed_append (later past : List Turn) :
    shadowed (later ++ past) = shadowed later ++ shadowed past :=
  List.filterMap_append

/-- On no symbol are more positions open, or counted as closed, than were asked for. -/
theorem History.openPositions_add_closedTrades_le (hhistory : History start turns governor)
    (hempty : start.shadow = .empty)
    (haccountable : ∀ turn ∈ turns, turn.command.accountable = true) (symbol : String) :
    (governor.shadow.status symbol).openPositions +
        (governor.shadow.status symbol).totals.closedTrades ≤
      (shadowed turns).count symbol := by
  obtain ⟨events, htrace, hcalls⟩ := hhistory.exists_shadow_trace
  rw [hempty] at htrace
  have hcall : ∀ call ∈ events.map Event.call, ∀ position, call ≠ .restore position := by
    rw [hcalls]
    rintro call hcall position rfl
    obtain ⟨turn, hturn, hmakes⟩ := List.mem_filterMap.mp hcall
    have hcommand := haccountable turn hturn
    obtain ⟨before, command, answer, after⟩ := turn
    cases command with
    | restorePosition => cases hcommand
    | _ => cases hmakes
  have hopen : (governor.shadow.status symbol).openPositions =
      governor.shadow.book.openCount symbol :=
    (List.mergeSort_perm _ _).countP_eq _
  have hasked : (turns.filterMap Turn.shadowCall?).countP
      (Shadow.Call.opens start.settings.shadow symbol) ≤ (shadowed turns).count symbol := by
    rw [List.countP_filterMap, shadowed, List.count, List.countP_filterMap]
    refine List.countP_mono_left fun turn _ hopens => ?_
    obtain ⟨before, command, answer, after⟩ := turn
    cases command with
    | registerShadow ticket =>
      have hsymbol : ticket.symbol = symbol := of_decide_eq_true (Bool.and_eq_true_iff.mp hopens).2
      exact beq_iff_eq.mpr hsymbol
    | _ => cases hopens
  rw [hopen]
  calc governor.shadow.book.openCount symbol +
        (governor.shadow.totalsOf symbol).closedTrades
      = (events.map Event.call).countP (Shadow.Call.opens start.settings.shadow symbol) :=
        Shadow.openCount_add_closedTrades htrace
          (fun event hevent => hcall _ (List.mem_map_of_mem hevent)) symbol
    _ ≤ (shadowed turns).count symbol := hcalls ▸ hasked

end ExposureControl
