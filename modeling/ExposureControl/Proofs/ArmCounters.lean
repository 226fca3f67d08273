import ExposureControl.Proofs.PullProvenance

/-!
# The counters of arms

An arm counts the selections that were made of it and the decisions for which it was credited with
a reward, in both cases since the statistics of its contest were last cleared.
-/

namespace ExposureControl

variable {turns : List Turn} {turn : Turn} {arena : Arena}

namespace Turn

def picksArm (id : ObjectId) (turn : Turn) : Bool :=
  turn.selected?.any fun selected => selected.2.arm = id

/-- Whether a turn is the first, after the turns of `past`, to accept an outcome for some decision
that was selected for an arm. -/
def creditsArm (id : ObjectId) (past : List Turn) (turn : Turn) : Bool :=
  turn.accepted?.any fun pull =>
    !(acceptedDecisions past).contains pull.decision &&
      (selections past).any fun selection =>
        selection.decision = pull.decision && selection.arm = id

theorem resets_of_selected {selected : Contest × Selection}
    (hselected : turn.selected? = some selected) (contest : Contest) :
    turn.resets contest = false := by
  obtain ⟨before, command, answer, after⟩ := turn
  cases command with
  | resetArms => cases hselected
  | _ => rfl

theorem resets_of_accepted {pull : Pull} (haccepted : turn.accepted? = some pull)
    (contest : Contest) : turn.resets contest = false := by
  obtain ⟨before, command, answer, after⟩ := turn
  cases command with
  | resetArms => cases haccepted
  | _ => rfl

theorem picksArm_of_none (hselected : turn.selected? = none) (id : ObjectId) :
    turn.picksArm id = false := by
  rw [picksArm, hselected, Option.any_none]

theorem creditsArm_of_none (haccepted : turn.accepted? = none) (id : ObjectId)
    (past : List Turn) : turn.creditsArm id past = false := by
  rw [creditsArm, haccepted, Option.any_none]

theorem picksArm_iff {id : ObjectId} :
    turn.picksArm id = true ↔
      ∃ contest selection, turn.selected? = some (contest, selection) ∧ selection.arm = id := by
  simp [picksArm, Option.any_eq_true]

theorem creditsArm_iff {id : ObjectId} {past : List Turn} :
    turn.creditsArm id past = true ↔
      ∃ pull, turn.accepted? = some pull ∧ pull.decision ∉ acceptedDecisions past ∧
        ∃ selection ∈ selections past, selection.decision = pull.decision ∧
          selection.arm = id := by
  simp [creditsArm, Option.any_eq_true]

end Turn

def selectionsSince (contest : Contest) (id : ObjectId) : List Turn → Nat
  | [] => 0
  | turn :: past =>
    if turn.resets contest then 0
    else selectionsSince contest id past + (turn.picksArm id).toNat

/-- The decisions of an arm whose first outcome was accepted since the last reset of its
contest. -/
def creditsSince (contest : Contest) (id : ObjectId) : List Turn → Nat
  | [] => 0
  | turn :: past =>
    if turn.resets contest then 0
    else creditsSince contest id past + (turn.creditsArm id past).toNat

/-- The counters of every arm are those of the history. -/
structure Counted (turns : List Turn) (arena : Arena) : Prop where
  /-- An arm that was selected is on record. -/
  arms : ∀ selection ∈ selections turns,
    ∃ arm, arena.registry.arms.find? selection.arm = some arm
  stats : ∀ id arm, arena.registry.arms.find? id = some arm →
    arm.stats.pulls = selectionsSince arm.contest id turns ∧
      arm.stats.observations = creditsSince arm.contest id turns

/-- Selections stay among the selections of a longer history. -/
theorem mem_selections_cons {selection : Selection} (hselection : selection ∈ selections turns)
    (turn : Turn) : selection ∈ selections (turn :: turns) := by
  cases hselected : turn.selected? with
  | none => rwa [selections_cons_of_none hselected]
  | some selected =>
    rw [selections_cons_of_some hselected]
    exact List.mem_cons_of_mem _ hselection

/-- Nothing is counted for an arm that was never selected. -/
theorem counts_eq_zero {id : ObjectId}
    (hunselected : ∀ selection ∈ selections turns, selection.arm ≠ id) (contest : Contest) :
    selectionsSince contest id turns = 0 ∧ creditsSince contest id turns = 0 := by
  induction turns with
  | nil => exact ⟨rfl, rfl⟩
  | cons turn past ih =>
    have hpast : ∀ selection ∈ selections past, selection.arm ≠ id :=
      fun selection hselection => hunselected selection (mem_selections_cons hselection turn)
    have hpicks : turn.picksArm id = false := by
      rw [Bool.eq_false_iff, ne_eq, Turn.picksArm_iff]
      rintro ⟨contest, selection, hselected, harm⟩
      rw [selections_cons_of_some hselected] at hunselected
      exact hunselected selection List.mem_cons_self harm
    have hcredits : turn.creditsArm id past = false := by
      rw [Bool.eq_false_iff, ne_eq, Turn.creditsArm_iff]
      rintro ⟨-, -, -, selection, hselection, -, harm⟩
      exact hpast selection hselection harm
    obtain ⟨hselections, hrewards⟩ := ih hpast
    simp only [selectionsSince, creditsSince, hselections, hrewards, hpicks, hcredits,
      Bool.toNat_false, Nat.add_zero, ite_self, and_self]

/-- A turn that is no reset adds what it selects and credits itself. -/
theorem counts_cons_of_not_resets {contest : Contest} (hresets : turn.resets contest = false)
    (id : ObjectId) (turns : List Turn) :
    selectionsSince contest id (turn :: turns) =
        selectionsSince contest id turns + (turn.picksArm id).toNat ∧
      creditsSince contest id (turn :: turns) =
        creditsSince contest id turns + (turn.creditsArm id turns).toNat := by
  simp only [selectionsSince, creditsSince, hresets, Bool.false_eq_true, if_false, and_self]

namespace Counted

theorem empty : Counted [] .empty := by
  refine ⟨fun _ => nofun, fun id arm hfound => ?_⟩
  cases hfound

/-- Where nothing is selected and nothing accepted, counters stay unless they are reset. -/
theorem keep (hcounted : Counted turns turn.before.arena) (hselected : turn.selected? = none)
    (haccepted : turn.accepted? = none) (hstats : turn.KeepsStats) :
    Counted (turn :: turns) turn.after.arena := by
  have hselections : selections (turn :: turns) = selections turns :=
    selections_cons_of_none hselected
  refine ⟨fun selection hselection => ?_, fun id arm hafter => ?_⟩
  · rw [hselections] at hselection
    obtain ⟨arm, hfound⟩ := hcounted.arms selection hselection
    obtain ⟨kept, hkept, -⟩ := hstats.known hfound
    exact ⟨kept, hkept⟩
  · cases hbefore : turn.before.registry.arms.find? id with
    | none =>
      have hunselected : ∀ selection ∈ selections (turn :: turns), selection.arm ≠ id := by
        rw [hselections]
        rintro selection hselection rfl
        obtain ⟨known, hknown⟩ := hcounted.arms selection hselection
        cases hbefore.symm.trans hknown
      obtain ⟨hnone, hnoCredit⟩ := counts_eq_zero hunselected arm.contest
      rw [hstats.fresh hbefore hafter, hnone, hnoCredit]
      exact ⟨rfl, rfl⟩
    | some known =>
      obtain ⟨kept, hkept, hcontest, hkeptStats⟩ := hstats.known hbefore
      obtain rfl := Option.some.inj (hkept.symm.trans hafter)
      rw [hkeptStats, hcontest]
      cases hresets : turn.resets known.contest with
      | true =>
        simp only [selectionsSince, creditsSince, hresets, if_true]
        exact ⟨rfl, rfl⟩
      | false =>
        obtain ⟨hpulls, hobservations⟩ := hcounted.stats id known hbefore
        obtain ⟨hselections, hrewards⟩ := counts_cons_of_not_resets hresets id turns
        rw [hselections, hrewards, Turn.picksArm_of_none hselected,
          Turn.creditsArm_of_none haccepted]
        exact ⟨hpulls, hobservations⟩

/-- Counters stay in step with a turn that resets nothing, if arms gain what the turn adds. -/
theorem add (hcounted : Counted turns arena) {after : Arena}
    (hresets : ∀ contest, turn.resets contest = false)
    (harms : ∀ selection ∈ selections (turn :: turns),
      ∃ arm, after.registry.arms.find? selection.arm = some arm)
    (hgains : ∀ id arm, after.registry.arms.find? id = some arm →
      ∃ known, arena.registry.arms.find? id = some known ∧ known.contest = arm.contest ∧
        arm.stats.pulls = known.stats.pulls + (turn.picksArm id).toNat ∧
        arm.stats.observations = known.stats.observations + (turn.creditsArm id turns).toNat) :
    Counted (turn :: turns) after := by
  refine ⟨harms, fun id arm hafter => ?_⟩
  obtain ⟨known, hknown, hcontest, hpulls, hobservations⟩ := hgains id arm hafter
  obtain ⟨hselections, hcredits⟩ := counts_cons_of_not_resets (hresets arm.contest) id turns
  obtain ⟨hknownPulls, hknownObservations⟩ := hcounted.stats id known hknown
  rw [hselections, hcredits, hpulls, hobservations, hknownPulls, hknownObservations, hcontest]
  exact ⟨rfl, rfl⟩

/-- A selection counts for its arm. -/
theorem select (hcounted : Counted turns arena) {after : Arena} {generator : Generator}
    {arm : Arm} {context : Context} {settings : Settings.Selection} {now : Instant}
    (hfound : arena.registry.arms.find? arm.id = some arm)
    (hselected : turn.selected? = some (arm.contest, arena.selectionOf arm context))
    (haccepted : turn.accepted? = none)
    (hafter : after = (arena.withGenerator arm.contest.symbol generator).committed settings now
      arm.contest.symbol arm context) : Counted (turn :: turns) after := by
  have harms : ∀ id, after.registry.arms.find? id =
      if id = arm.id then some (arm.pulled settings.decay.halfLife now)
      else arena.registry.arms.find? id := by
    subst hafter
    exact fun id => Table.find?_insert arena.registry.arms arm.id id _
  apply hcounted.add (Turn.resets_of_selected hselected)
  · rw [selections_cons_of_some hselected]
    refine List.forall_mem_cons.mpr ⟨⟨_, (harms arm.id).trans (if_pos rfl)⟩, ?_⟩
    intro selection hselection
    rw [harms]
    split
    · exact ⟨_, rfl⟩
    · exact hcounted.arms selection hselection
  · intro id found hafter
    have hpicks : turn.picksArm id = decide (arm.id = id) := by
      rw [Turn.picksArm, hselected, Option.any_some]
      rfl
    rw [hpicks, Turn.creditsArm_of_none haccepted]
    rw [harms] at hafter
    split at hafter
    · next hid =>
      obtain rfl := Option.some.inj hafter
      subst hid
      rw [decide_eq_true rfl]
      exact ⟨arm, hfound, rfl, rfl, Stats.observations_fade _ _ _⟩
    · next hid =>
      rw [decide_eq_false (Ne.symm hid)]
      exact ⟨found, hafter, rfl, rfl, rfl⟩

theorem again (hcounted : Counted turns arena) {pull : Pull}
    (hselected : turn.selected? = none) (haccepted : turn.accepted? = some pull)
    (hearlier : pull.decision ∈ acceptedDecisions turns) : Counted (turn :: turns) arena := by
  apply hcounted.add (Turn.resets_of_accepted haccepted)
  · rw [selections_cons_of_none hselected]
    exact hcounted.arms
  · intro id found hafter
    have hcredits : turn.creditsArm id turns = false := by
      rw [Bool.eq_false_iff, ne_eq, Turn.creditsArm_iff]
      rintro ⟨other, hother, hnew, -⟩
      obtain rfl := Option.some.inj (haccepted.symm.trans hother)
      exact hnew hearlier
    rw [Turn.picksArm_of_none hselected, hcredits]
    exact ⟨found, hafter, rfl, rfl, rfl⟩

/-- The first outcome that is accepted for a decision counts for the arm that was selected. -/
theorem credit (hcounted : Counted turns arena) {after : Arena} (pull : Pull) {arm changed : Arm}
    (hfound : arena.registry.arms.find? pull.arm = some arm)
    (hselected : turn.selected? = none) (haccepted : turn.accepted? = some pull)
    (hfirst : pull.decision ∉ acceptedDecisions turns)
    (hmade : ∃ selection ∈ selections turns, selection.decision = pull.decision ∧
      selection.arm = pull.arm)
    (hdistinct : ((selections turns).map Selection.decision).Nodup)
    (harms : after.registry.arms = arena.registry.arms.insert pull.arm changed)
    (hcontest : changed.contest = arm.contest) (hpulls : changed.stats.pulls = arm.stats.pulls)
    (hobservations : changed.stats.observations = arm.stats.observations + 1) :
    Counted (turn :: turns) after := by
  apply hcounted.add (Turn.resets_of_accepted haccepted)
  · rw [selections_cons_of_none hselected, harms]
    intro selection hselection
    rw [Table.find?_insert]
    split
    · exact ⟨_, rfl⟩
    · exact hcounted.arms selection hselection
  · intro id found hafter
    have hcredits : turn.creditsArm id turns = decide (pull.arm = id) := by
      obtain ⟨made, hmem, hdecision, harm⟩ := hmade
      rw [Bool.eq_iff_iff, Turn.creditsArm_iff, decide_eq_true_eq]
      constructor
      · rintro ⟨other, hother, -, selection, hselection, hsame, rfl⟩
        obtain rfl := Option.some.inj (haccepted.symm.trans hother)
        -- decisions are distinct, so this is the selection of the pull
        have hunique := List.inj_on_of_nodup_map hdistinct hmem hselection
          (hdecision.trans hsame.symm)
        rw [← hunique, harm]
      · rintro rfl
        exact ⟨pull, haccepted, hfirst, made, hmem, hdecision, harm⟩
    rw [Turn.picksArm_of_none hselected, hcredits]
    rw [harms, Table.find?_insert] at hafter
    split at hafter
    · next hid =>
      obtain rfl := Option.some.inj hafter
      subst hid
      rw [decide_eq_true rfl]
      exact ⟨arm, hfound, hcontest.symm, hpulls, hobservations⟩
    · next hid =>
      rw [decide_eq_false (Ne.symm hid)]
      exact ⟨found, hafter, rfl, rfl, rfl⟩

theorem step (hcounted : Counted turns turn.before.arena)
    (hrecorded : Recorded turns turn.before.arena) (hstep : CreditStep turn) :
    Counted (turn :: turns) turn.after.arena := by
  cases hstep with
  | kept hselected haccepted hdrawn hpulls hstats =>
    exact hcounted.keep hselected haccepted hstats
  | pruned cutoff hselected haccepted hcutoff hstats harena =>
    exact hcounted.keep hselected haccepted hstats
  | selected generator arm context hfound hselected haccepted harena =>
    exact hcounted.select hfound hselected haccepted harena
  | again symbol pull reported usable hselected haccepted hreport husable hlocated hresolved
      harena =>
    obtain ⟨hpull, -⟩ := (hrecorded.filed.locate?_eq_some_iff pull.decision).mp hlocated
    rw [harena]
    exact hcounted.again hselected haccepted
      ((hrecorded.resolved_iff symbol pull hpull).mp hresolved)
  | credited symbol pull reported outcome arm stats hselected haccepted hreport husable hlocated
      hresolved hfound hstats harena =>
    obtain ⟨hpull, -⟩ := (hrecorded.filed.locate?_eq_some_iff pull.decision).mp hlocated
    have hfirst : pull.decision ∉ acceptedDecisions turns := by
      rw [← hrecorded.resolved_iff symbol pull hpull, hresolved]
      exact Bool.false_ne_true
    obtain ⟨hpulls, hobservations⟩ :=
      Stats.counts_of_recordReward (Outcome.usable?_spec husable).1.reward hstats
    have harms : turn.after.arena.registry.arms = turn.before.arena.registry.arms.insert pull.arm
        { arm with stats, updatedAt := turn.before.clock } := by
      rw [harena]
      rfl
    exact hcounted.credit { pull with outcome := some outcome } hfound hselected haccepted hfirst
      (hrecorded.selected symbol pull hpull) hrecorded.distinct harms rfl hpulls hobservations

end Counted

end ExposureControl
