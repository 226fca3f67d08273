import ExposureControl.Proofs.CreditStep

/-!
# Where pulls come from

Each selection draws a decision of its own and puts one pull on record under it, and a pull is
resolved as soon as an outcome is accepted for its decision.  So the pulls on record can be traced
back to the turns of the history.
-/

namespace ExposureControl

/-- The selections of a history, latest first. -/
def selections (turns : List Turn) : List Selection :=
  turns.filterMap fun turn => turn.selected?.map Prod.snd

/-- The decisions for which an outcome was accepted, latest first. -/
def acceptedDecisions (turns : List Turn) : List DecisionId :=
  turns.filterMap fun turn => turn.accepted?.map Pull.decision

variable {turns : List Turn} {turn : Turn} {arena : Arena}

theorem selections_cons_of_none (hselected : turn.selected? = none) :
    selections (turn :: turns) = selections turns := by
  simp [selections, hselected]

theorem selections_cons_of_some {contest : Contest} {selection : Selection}
    (hselected : turn.selected? = some (contest, selection)) :
    selections (turn :: turns) = selection :: selections turns := by
  simp [selections, hselected]

theorem acceptedDecisions_cons_of_none (haccepted : turn.accepted? = none) :
    acceptedDecisions (turn :: turns) = acceptedDecisions turns := by
  simp [acceptedDecisions, haccepted]

theorem acceptedDecisions_cons_of_some {pull : Pull} (haccepted : turn.accepted? = some pull) :
    acceptedDecisions (turn :: turns) = pull.decision :: acceptedDecisions turns := by
  simp [acceptedDecisions, haccepted]

/-- How the pulls on record belong to the turns of a history. -/
structure Recorded (turns : List Turn) (arena : Arena) : Prop where
  filed : arena.registry.Filed
  /-- Every pull is the record of a selection. -/
  selected : ∀ symbol, ∀ pull ∈ arena.registry.historyOf symbol,
    ∃ selection ∈ selections turns, selection.decision = pull.decision ∧
      selection.arm = pull.arm
  /-- The resolved pulls are those for which an outcome was accepted. -/
  resolved_iff : ∀ symbol, ∀ pull ∈ arena.registry.historyOf symbol,
    pull.resolved = true ↔ pull.decision ∈ acceptedDecisions turns
  finite : ∀ symbol, ∀ pull ∈ arena.registry.historyOf symbol, ∀ outcome,
    pull.outcome = some outcome → outcome.AllFinite
  /-- Decisions are drawn by selections, one for each. -/
  drawn : ∀ selection ∈ selections turns, ∃ serial, serial ≤ arena.decisionsDrawn ∧
    selection.decision = .drawn .decisions serial
  distinct : ((selections turns).map Selection.decision).Nodup
  accepted : ∀ decision ∈ acceptedDecisions turns,
    ∃ selection ∈ selections turns, selection.decision = decision

namespace Recorded

theorem empty : Recorded [] .empty := by
  have hnone : ∀ symbol pull, pull ∉ Arena.empty.registry.historyOf symbol :=
    fun _ _ => List.not_mem_nil
  exact ⟨Registry.filed_empty, fun symbol pull hpull => absurd hpull (hnone symbol pull),
    fun symbol pull hpull => absurd hpull (hnone symbol pull),
    fun symbol pull hpull => absurd hpull (hnone symbol pull), fun _ => nofun, List.nodup_nil,
    fun _ => nofun⟩

theorem nextDecision_ne (hrecorded : Recorded turns arena) {selection : Selection}
    (hselection : selection ∈ selections turns) : selection.decision ≠ arena.nextDecision := by
  obtain ⟨serial, hserial, hdecision⟩ := hrecorded.drawn selection hselection
  rw [hdecision, Arena.nextDecision]
  intro heq
  simp only [Identifier.drawn.injEq, true_and] at heq
  omega

/-- Fewer pulls, with the same selections and reports, are as well recorded. -/
theorem shrink (hrecorded : Recorded turns arena) {after : Arena}
    (hselected : turn.selected? = none) (haccepted : turn.accepted? = none)
    (hdrawn : after.decisionsDrawn = arena.decisionsDrawn) (hfiled : after.registry.Filed)
    (hpulls : ∀ symbol, ∀ pull ∈ after.registry.historyOf symbol,
      pull ∈ arena.registry.historyOf symbol) : Recorded (turn :: turns) after := by
  have hselections : selections (turn :: turns) = selections turns :=
    selections_cons_of_none hselected
  have hdecisions : acceptedDecisions (turn :: turns) = acceptedDecisions turns :=
    acceptedDecisions_cons_of_none haccepted
  refine ⟨hfiled, ?_, ?_, ?_, ?_, ?_, ?_⟩
  · rw [hselections]
    exact fun symbol pull hpull => hrecorded.selected symbol pull (hpulls symbol pull hpull)
  · rw [hdecisions]
    exact fun symbol pull hpull => hrecorded.resolved_iff symbol pull (hpulls symbol pull hpull)
  · exact fun symbol pull hpull => hrecorded.finite symbol pull (hpulls symbol pull hpull)
  · rw [hselections, hdrawn]
    exact hrecorded.drawn
  · rw [hselections]
    exact hrecorded.distinct
  · rw [hselections, hdecisions]
    exact hrecorded.accepted

/-- A selection records its pull under a decision of its own. -/
theorem select (hrecorded : Recorded turns arena) {after : Arena} {generator : Generator}
    {arm : Arm} {context : Context} {settings : Settings.Selection} {now : Instant}
    (hselected : turn.selected? = some (arm.contest, arena.selectionOf arm context))
    (haccepted : turn.accepted? = none)
    (hafter : after = (arena.withGenerator arm.contest.symbol generator).committed settings now
      arm.contest.symbol arm context) : Recorded (turn :: turns) after := by
  have hselections : selections (turn :: turns) =
      arena.selectionOf arm context :: selections turns := selections_cons_of_some hselected
  have hdecisions : acceptedDecisions (turn :: turns) = acceptedDecisions turns :=
    acceptedDecisions_cons_of_none haccepted
  have hunaccepted : arena.nextDecision ∉ acceptedDecisions turns := by
    intro haccepted
    obtain ⟨selection, hselection, hdecision⟩ := hrecorded.accepted _ haccepted
    exact hrecorded.nextDecision_ne hselection hdecision
  -- every pull was selected under a decision that was drawn before this one
  have hfresh : ∀ symbol, ∀ pull ∈ arena.registry.historyOf symbol,
      pull.decision ≠ arena.nextDecision := by
    intro symbol pull hpull hdecision
    obtain ⟨selection, hselection, hsame, -⟩ := hrecorded.selected symbol pull hpull
    exact hrecorded.nextDecision_ne hselection (hsame.trans hdecision)
  have hpulls : ∀ symbol pull, pull ∈ after.registry.historyOf symbol ↔
      pull ∈ arena.registry.historyOf symbol ∨
        symbol = arm.contest.symbol ∧ pull = arena.nextPull now arm context := by
    intro symbol pull
    rw [hafter]
    exact Arena.mem_historyOf_committed
  have hfiled : after.registry.Filed := by
    rw [hafter]
    exact Arena.filed_committed hrecorded.filed hfresh
  refine ⟨hfiled, ?_, ?_, ?_, ?_, ?_, ?_⟩
  · intro symbol pull hpull
    rw [hselections]
    obtain hold | ⟨-, rfl⟩ := (hpulls symbol pull).mp hpull
    · obtain ⟨selection, hselection, hsame⟩ := hrecorded.selected symbol pull hold
      exact ⟨selection, List.mem_cons_of_mem _ hselection, hsame⟩
    · exact ⟨_, List.mem_cons_self, rfl, rfl⟩
  · intro symbol pull hpull
    rw [hdecisions]
    obtain hold | ⟨-, rfl⟩ := (hpulls symbol pull).mp hpull
    · exact hrecorded.resolved_iff symbol pull hold
    · exact ⟨nofun, fun haccepted => absurd haccepted hunaccepted⟩
  · intro symbol pull hpull outcome houtcome
    obtain hold | ⟨-, rfl⟩ := (hpulls symbol pull).mp hpull
    · exact hrecorded.finite symbol pull hold outcome houtcome
    · cases houtcome
  · rw [hselections]
    refine List.forall_mem_cons.mpr ⟨⟨arena.decisionsDrawn + 1, ?_, rfl⟩, ?_⟩
    · rw [hafter]
      exact Nat.le_refl _
    · intro selection hselection
      obtain ⟨serial, hserial, hdecision⟩ := hrecorded.drawn selection hselection
      refine ⟨serial, ?_, hdecision⟩
      rw [hafter]
      exact Nat.le_succ_of_le hserial
  · rw [hselections, List.map_cons, List.nodup_cons]
    refine ⟨fun hmem => ?_, hrecorded.distinct⟩
    obtain ⟨selection, hselection, hdecision⟩ := List.mem_map.mp hmem
    exact hrecorded.nextDecision_ne hselection hdecision
  · rw [hselections, hdecisions]
    intro decision hdecision
    obtain ⟨selection, hselection, hsame⟩ := hrecorded.accepted decision hdecision
    exact ⟨selection, List.mem_cons_of_mem _ hselection, hsame⟩

/-- Accepting an outcome for a pull on record resolves it, if it was not resolved before. -/
theorem accept (hrecorded : Recorded turns arena) {after : Arena} {symbol : String}
    {pull : Pull} {outcome : Outcome} (hpull : pull ∈ arena.registry.historyOf symbol)
    (resolved : Pull) (hdecision : resolved.decision = pull.decision)
    (harm : resolved.arm = pull.arm)
    (houtcome : resolved.outcome = some outcome) (hfinite : outcome.AllFinite)
    (hselected : turn.selected? = none) (haccepted : turn.accepted? = some resolved)
    (hdrawn : after.decisionsDrawn = arena.decisionsDrawn) (hfiled : after.registry.Filed)
    (hpulls : ∀ other, ∀ found ∈ after.registry.historyOf other, found = resolved ∨
      found ∈ arena.registry.historyOf other ∧ found.decision ≠ pull.decision) :
    Recorded (turn :: turns) after := by
  have hselections : selections (turn :: turns) = selections turns :=
    selections_cons_of_none hselected
  have hdecisions : acceptedDecisions (turn :: turns) =
      pull.decision :: acceptedDecisions turns := by
    rw [acceptedDecisions_cons_of_some haccepted, hdecision]
  have hselection := hrecorded.selected symbol pull hpull
  refine ⟨hfiled, ?_, ?_, ?_, ?_, ?_, ?_⟩
  · intro other found hfound
    rw [hselections]
    obtain rfl | ⟨hold, -⟩ := hpulls other found hfound
    · rw [hdecision, harm]
      exact hselection
    · exact hrecorded.selected other found hold
  · intro other found hfound
    rw [hdecisions, List.mem_cons]
    obtain rfl | ⟨hold, hne⟩ := hpulls other found hfound
    · rw [Pull.resolved, houtcome, hdecision]
      exact ⟨fun _ => .inl rfl, fun _ => rfl⟩
    · rw [hrecorded.resolved_iff other found hold]
      exact ⟨.inr, fun hmem => hmem.resolve_left hne⟩
  · intro other found hfound recorded hrecordedOutcome
    obtain rfl | ⟨hold, -⟩ := hpulls other found hfound
    · obtain rfl := Option.some.inj (houtcome.symm.trans hrecordedOutcome)
      exact hfinite
    · exact hrecorded.finite other found hold recorded hrecordedOutcome
  · rw [hselections, hdrawn]
    exact hrecorded.drawn
  · rw [hselections]
    exact hrecorded.distinct
  · rw [hselections, hdecisions]
    refine List.forall_mem_cons.mpr ⟨?_, hrecorded.accepted⟩
    obtain ⟨selection, hmem, hsame, -⟩ := hselection
    exact ⟨selection, hmem, hsame⟩

theorem step (hrecorded : Recorded turns turn.before.arena) (hstep : CreditStep turn) :
    Recorded (turn :: turns) turn.after.arena := by
  cases hstep with
  | kept hselected haccepted hdrawn hpulls hstats =>
    apply hrecorded.shrink hselected haccepted hdrawn (hpulls.filed hrecorded.filed)
    intro symbol pull hpull
    exact hpulls.historyOf symbol ▸ hpull
  | pruned cutoff hselected haccepted hcutoff hstats harena =>
    rw [harena]
    refine hrecorded.shrink hselected haccepted rfl
      (Registry.filed_prunePulls hrecorded.filed cutoff) ?_
    exact fun symbol pull hpull =>
      ((Registry.mem_historyOf_prunePulls cutoff _ symbol pull).mp hpull).1
  | selected generator arm context hfound hselected haccepted harena =>
    exact hrecorded.select hselected haccepted harena
  | again symbol pull reported usable hselected haccepted hreport husable hlocated hresolved
      harena =>
    obtain ⟨hpull, -⟩ := (hrecorded.filed.locate?_eq_some_iff pull.decision).mp hlocated
    obtain ⟨outcome, houtcome⟩ := Option.isSome_iff_exists.mp hresolved
    have hfinite := hrecorded.finite symbol pull hpull outcome houtcome
    rw [harena]
    refine hrecorded.accept hpull pull rfl rfl houtcome hfinite hselected haccepted rfl
      hrecorded.filed fun other found hfound => ?_
    by_cases hdecision : found.decision = pull.decision
    · exact .inl (hrecorded.filed.unique hpull hfound hdecision).2
    · exact .inr ⟨hfound, hdecision⟩
  | credited symbol pull reported outcome arm stats hselected haccepted hreport husable hlocated
      hresolved hfound hstats harena =>
    obtain ⟨hpull, -⟩ := (hrecorded.filed.locate?_eq_some_iff pull.decision).mp hlocated
    have hfinite := (Outcome.usable?_spec husable).1
    let resolved : Pull := { pull with outcome := some outcome }
    have hfiled := Registry.filed_withOutcome hrecorded.filed hpull resolved rfl
    rw [harena]
    refine hrecorded.accept hpull resolved rfl rfl rfl hfinite hselected haccepted rfl
      ⟨hfiled.filed, hfiled.nodup⟩ fun other found hmem => ?_
    obtain ⟨-, hreplaced⟩ | hkept :=
      (Registry.mem_historyOf_withOutcome hrecorded.filed hpull resolved rfl other
        found).mp hmem
    · exact .inl hreplaced
    · exact .inr hkept

end Recorded

end ExposureControl
