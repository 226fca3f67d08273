import Mathlib
import ExposureControl.Proofs.CanaryBudget
import ExposureControl.Proofs.Course
import ExposureControl.Proofs.Faults
import ExposureControl.Proofs.RewardCredit
import ExposureControl.Proofs.ShadowBook

/-!
# Counters and the length of a run

As long as a run puts no record on file past the governor's own calls, no counter exceeds the
number of its turns, and open positions were never closed before.  So no counter is full until a
run is as long as a word is large.
-/

namespace ExposureControl

variable {turns : List Turn} {start governor : Governor}

/-! ## The arms -/

/-- What at most one of several arms gains in a turn adds at most one to their sum. -/
theorem sum_le_succ_of_unique {arms : List Arm} (hdistinct : (arms.map Arm.id).Nodup)
    {before after : Arm → Nat} {gains : ObjectId → Bool}
    (hunique : ∀ {a b}, gains a = true → gains b = true → a = b)
    (hstep : ∀ arm, after arm ≤ before arm + (gains arm.id).toNat) :
    (arms.map after).sum ≤ (arms.map before).sum + 1 := by
  have hsum : ∀ arms : List Arm, (arms.map fun arm => (gains arm.id).toNat).sum =
      (arms.map Arm.id).countP gains := by
    intro arms
    induction arms with
    | nil => rfl
    | cons arm rest ih =>
      rw [List.map_cons, List.sum_cons, ih, List.map_cons, List.countP_cons, Nat.add_comm]
      cases gains arm.id <;> rfl
  have hcount : (arms.map Arm.id).countP gains ≤ 1 := by
    by_cases hgains : ∃ id, gains id = true
    · obtain ⟨id, hid⟩ := hgains
      calc (arms.map Arm.id).countP gains
          ≤ (arms.map Arm.id).count id :=
            List.countP_mono_left fun other _ hother => beq_iff_eq.mpr (hunique hother hid)
        _ ≤ 1 := List.nodup_iff_count_le_one.mp hdistinct id
    · rw [List.countP_eq_zero.mpr fun id _ hid => hgains ⟨id, hid⟩]
      exact Nat.zero_le 1
  calc (arms.map after).sum
      ≤ (arms.map fun arm => before arm + (gains arm.id).toNat).sum :=
        List.sum_le_sum fun arm _ => hstep arm
    _ = (arms.map before).sum + (arms.map Arm.id).countP gains := by
        rw [List.sum_map_add, hsum]
    _ ≤ (arms.map before).sum + 1 := Nat.add_le_add_left hcount _

/-- Different arms are never selected in one turn, so that together they count no more selections
than there are turns. -/
theorem sum_selectionsSince_le {arms : List Arm} (hdistinct : (arms.map Arm.id).Nodup)
    (turns : List Turn) :
    (arms.map fun arm => selectionsSince arm.contest arm.id turns).sum ≤ turns.length := by
  induction turns with
  | nil => simp [selectionsSince]
  | cons turn past ih =>
    have hunique : ∀ {a b}, turn.picksArm a = true → turn.picksArm b = true → a = b := by
      intro a b ha hb
      obtain ⟨_, first, hfirst, rfl⟩ := Turn.picksArm_iff.mp ha
      obtain ⟨_, second, hsecond, rfl⟩ := Turn.picksArm_iff.mp hb
      rw [hfirst] at hsecond
      cases hsecond
      rfl
    refine Nat.le_trans (sum_le_succ_of_unique hdistinct hunique fun arm => ?_)
      (Nat.succ_le_succ ih)
    simp only [selectionsSince]
    split <;> omega

/-- Where every decision was drawn for one selection, a turn credits one arm at most. -/
theorem sum_creditsSince_le {arms : List Arm} (hdistinct : (arms.map Arm.id).Nodup)
    (hdecisions : ((selections turns).map Selection.decision).Nodup) :
    (arms.map fun arm => creditsSince arm.contest arm.id turns).sum ≤ turns.length := by
  induction turns with
  | nil => simp [creditsSince]
  | cons turn past ih =>
    have hpast : ((selections past).map Selection.decision).Nodup := by
      cases hselected : turn.selected? with
      | none => rwa [selections_cons_of_none hselected] at hdecisions
      | some selected =>
        rw [selections_cons_of_some hselected, List.map_cons, List.nodup_cons] at hdecisions
        exact hdecisions.2
    have hunique : ∀ {a b}, turn.creditsArm a past = true → turn.creditsArm b past = true →
        a = b := by
      intro a b ha hb
      obtain ⟨pull, hpull, -, first, hfirst, hfirstDecision, rfl⟩ := Turn.creditsArm_iff.mp ha
      obtain ⟨same, hsame, -, second, hsecond, hsecondDecision, rfl⟩ := Turn.creditsArm_iff.mp hb
      obtain rfl := Option.some.inj (hpull.symm.trans hsame)
      rw [List.inj_on_of_nodup_map hpast hfirst hsecond
        (hfirstDecision.trans hsecondDecision.symm)]
    refine Nat.le_trans (sum_le_succ_of_unique hdistinct hunique fun arm => ?_)
      (Nat.succ_le_succ (ih hpast))
    simp only [creditsSince]
    split <;> omega

theorem Registry.nodup_allArms {registry : Registry} (hsound : registry.Sound) :
    (registry.allArms.map Arm.id).Nodup := by
  have hsublist : ∀ ids : List ObjectId,
      ((ids.filterMap registry.arms.find?).map Arm.id).Sublist ids := by
    intro ids
    induction ids with
    | nil => exact .refl _
    | cons id rest ih =>
      cases hfound : registry.arms.find? id with
      | none =>
        rw [List.filterMap_cons_none hfound]
        exact ih.cons id
      | some arm =>
        rw [List.filterMap_cons_some hfound, List.map_cons, hsound.id_eq hfound]
        exact ih.cons_cons id
  rw [allArms, List.map_flatMap, List.nodup_flatMap]
  refine ⟨fun contest _ => (hsublist _).nodup (hsound.nodup_idsOf contest), ?_⟩
  have hkeys : (registry.index.keys.mergeSort Contest.precedes).Nodup :=
    (List.mergeSort_perm _ _).nodup_iff.mpr registry.index.distinct
  refine hkeys.imp fun hne => ?_
  -- an arm is listed for its own contest only
  intro id hfirst hsecond
  obtain ⟨first, hfirstListed, rfl⟩ := List.mem_map.mp hfirst
  obtain ⟨second, hsecondListed, hid⟩ := List.mem_map.mp hsecond
  obtain ⟨hfirstFound, rfl⟩ := (mem_armsOf_iff hsound _ first).mp hfirstListed
  obtain ⟨hsecondFound, rfl⟩ := (mem_armsOf_iff hsound _ second).mp hsecondListed
  rw [hid, hfirstFound] at hsecondFound
  exact hne (congrArg Arm.contest (Option.some.inj hsecondFound))

/-! ## The ledgers -/

/-- Whether no ledger counts more than `bound`. -/
def Registry.LedgersWithin (bound : Nat) (registry : Registry) : Prop :=
  ∀ symbol now, (registry.ledgerOn symbol now).total ≤ bound ∧
    (registry.ledgerOn symbol now).candidates ≤ bound

namespace Registry.LedgersWithin

variable {before after : Registry} {bound : Nat}

theorem mono (hbefore : before.LedgersWithin bound) {larger : Nat} (hlarger : bound ≤ larger) :
    before.LedgersWithin larger := fun symbol now =>
  ⟨(hbefore symbol now).1.trans hlarger, (hbefore symbol now).2.trans hlarger⟩

theorem insert (hbefore : before.LedgersWithin bound) {symbol : String} {ledger : Ledger}
    (hledgers : after.ledgers = before.ledgers.insert symbol ledger)
    (htotal : ledger.total ≤ bound) (hcandidates : ledger.candidates ≤ bound) :
    after.LedgersWithin bound := by
  intro other now
  rw [ledgerOn_of_insert hledgers]
  split
  · rw [Ledger.onDay]
    split
    · exact ⟨htotal, hcandidates⟩
    · exact ⟨Nat.zero_le _, Nat.zero_le _⟩
  · exact hbefore other now

end Registry.LedgersWithin

/-- A history in which only selections write ledgers counts at most its turns in them. -/
theorem History.ledgersWithin (hhistory : History start turns governor)
    (hempty : start.arena = .empty)
    (hwrites : ∀ turn ∈ turns, turn.command.writesLedgers = false) :
    governor.registry.LedgersWithin turns.length := by
  induction hhistory with
  | start =>
    intro symbol now
    rw [Governor.registry, hempty]
    exact ⟨Nat.le_refl 0, Nat.le_refl 0⟩
  | @turn turns before after command answer past step ih =>
    obtain ⟨hcommand, hpast⟩ := List.forall_mem_cons.mp hwrites
    have hbefore := ih hpast
    have hlarger := hbefore.mono (Nat.le_succ turns.length)
    rw [List.length_cons]
    obtain ⟨hledgers, -⟩ | ⟨contest, arm, -, -, -, -, hledgers, -⟩ :=
      (Governor.arenaStep_of_step step).1.ledgers_cases hcommand
    · intro symbol now
      rw [Registry.ledgerOn, hledgers]
      exact hlarger symbol now
    · obtain ⟨htotal, hcandidates⟩ := hbefore contest.symbol before.clock
      have hone := Bool.toNat_le (decide (arm.role = .candidate))
      apply hlarger.insert hledgers <;> dsimp only [Registry.nextLedger] <;> omega

/-! ## The positions -/

namespace Shadow.Book

/-- Whether no open position was ever closed. -/
def Fresh (book : Book) : Prop :=
  ∀ symbol, ∀ position ∈ book.ofSymbol symbol, position.isOpen = true → position.trades = 0

theorem fresh_empty : empty.Fresh := fun _ _ => nofun

theorem Fresh.insert {book : Book} (hfresh : book.Fresh) (id : ObjectId) (ticket : Ticket)
    (now : Instant) : (book.insert (.create id ticket now)).Fresh := by
  intro symbol position hposition hopen
  rw [ofSymbol_insert] at hposition
  split at hposition
  · cases List.mem_append.mp hposition with
    | inl hbefore => exact hfresh symbol position hbefore hopen
    | inr hnew =>
      rw [List.mem_singleton.mp hnew]
      rfl
  · exact hfresh symbol position hposition hopen

theorem Fresh.trigger {book next : Book} (hfresh : book.Fresh) {symbol : String} {price : Float}
    {now : Instant} {closed : List Position}
    (htrigger : book.trigger symbol price now = .ok (next, closed)) : next.Fresh := by
  intro other position hposition hopen
  rw [(of_trigger htrigger).1 other] at hposition
  split at hposition
  · obtain ⟨before, hbefore, rfl⟩ := List.mem_map.mp hposition
    have hsettled := settle_eq_of_isOpen hopen
    rw [hsettled] at hopen ⊢
    exact hfresh other before hbefore hopen
  · exact hfresh other position hposition hopen

theorem Fresh.pruneBefore {book : Book} (hfresh : book.Fresh) (cutoff : Instant) :
    (book.pruneBefore cutoff).1.Fresh := by
  intro symbol position hposition hopen
  rw [ofSymbol_pruneBefore] at hposition
  exact hfresh symbol position (List.mem_filter.mp hposition).1 hopen

end Shadow.Book

theorem BookStep.fresh {book next : Shadow.Book} (hstep : BookStep book next)
    (hfresh : book.Fresh) : next.Fresh := by
  cases hstep with
  | kept => exact hfresh
  | opened id ticket now => exact hfresh.insert id ticket now
  | triggered htrigger => exact hfresh.trigger htrigger
  | pruned cutoff => exact hfresh.pruneBefore cutoff

/-- A history that puts no position on file closes none twice. -/
theorem History.fresh (hhistory : History start turns governor)
    (hempty : start.shadow = .empty)
    (hrestores : ∀ turn ∈ turns, ∀ position, turn.command ≠ .restorePosition position) :
    governor.shadow.book.Fresh := by
  induction hhistory with
  | start =>
    rw [hempty]
    exact Shadow.Book.fresh_empty
  | turn past step ih =>
    obtain ⟨hcommand, hpast⟩ := List.forall_mem_cons.mp hrestores
    exact ((Governor.course_of_step step).book hcommand).fresh (ih hpast)

/-! ## Full counters -/

/-- Whether a command is a call of the governor's own, which puts nothing on file past it. -/
def Command.operates (command : Command) : Bool :=
  !command.bypasses && !command.writesLedgers &&
    match command with
    | .restorePosition _ => false
    | _ => true

namespace Command

variable {command : Command}

theorem bypasses_of_operates (hoperates : command.operates = true) :
    command.bypasses = false := by
  cases command <;> first | rfl | cases hoperates

theorem writesLedgers_of_operates (hoperates : command.operates = true) :
    command.writesLedgers = false := by
  cases command <;> first | rfl | cases hoperates

theorem ne_restorePosition_of_operates (hoperates : command.operates = true)
    (position : Shadow.Position) : command ≠ .restorePosition position := by
  rintro rfl
  cases hoperates

end Command

/-- The governor's own calls keep the registry sound, and pulls and counters in step with the
turns. -/
theorem History.sound_of_operates (hhistory : History start turns governor)
    (harena : start.arena = .empty)
    (hoperates : ∀ turn ∈ turns, turn.command.operates = true) :
    governor.registry.Sound ∧ Recorded turns governor.arena ∧ Counted turns governor.arena := by
  have hcommands : ∀ turn ∈ turns, turn.command.bypasses = false := fun turn hturn =>
    Command.bypasses_of_operates (hoperates turn hturn)
  exact ⟨hhistory.sound harena fun turn hturn =>
    Turn.restoresFaithfully_of_not_bypasses (hcommands turn hturn),
    hhistory.recorded_counted harena hcommands⟩

/-- A counter is full only after as many turns as a word can count. -/
theorem History.length_of_full (hhistory : History start turns governor)
    (harena : start.arena = .empty) (hshadow : start.shadow = .empty)
    (hoperates : ∀ turn ∈ turns, turn.command.operates = true)
    (hfull : governor.registry.Full ∨ governor.shadow.book.Full) :
    Word64.size ≤ turns.length + 1 := by
  obtain ⟨hsound, hrecorded, hcounted⟩ := hhistory.sound_of_operates harena hoperates
  have hledgers := hhistory.ledgersWithin harena fun turn hturn =>
    Command.writesLedgers_of_operates (hoperates turn hturn)
  have hfresh := hhistory.fresh hshadow fun turn hturn =>
    Command.ne_restorePosition_of_operates (hoperates turn hturn)
  obtain hregistry | ⟨symbol, position, hposition, hopen, hposFull⟩ := hfull
  · cases hregistry with
    | @pulls id arm hfound hfull =>
      obtain rfl := hsound.id_eq hfound
      have hone : ([arm].map Arm.id).Nodup := List.nodup_singleton _
      have hbound := sum_selectionsSince_le hone turns
      rw [List.map_singleton, List.sum_singleton, ← (hcounted.stats _ arm hfound).1] at hbound
      omega
    | @observations id arm hfound hfull =>
      obtain rfl := hsound.id_eq hfound
      have hone : ([arm].map Arm.id).Nodup := List.nodup_singleton _
      have hbound := sum_creditsSince_le hone hrecorded.distinct
      rw [List.map_singleton, List.sum_singleton, ← (hcounted.stats _ arm hfound).2] at hbound
      omega
    | @total symbol now hfull =>
      have hbound := (hledgers symbol now).1
      omega
    | @candidates symbol now hfull =>
      have hbound := (hledgers symbol now).2
      omega
  · rw [hfresh symbol position hposition hopen] at hposFull
    exact absurd hposFull (by decide)

theorem Governor.sum_of_overview {symbol : String} {fault : Fault}
    (hoverview : governor.overview symbol = .error fault) :
    let arms := governor.registry.allArms.filter fun arm => arm.contest.symbol = symbol
    fault = .counterOverflow ∧
      (Word64.size ≤ (arms.map fun arm => arm.stats.pulls).sum ∨
        Word64.size ≤ (arms.map fun arm => arm.stats.observations).sum) := by
  obtain hpulls | ⟨_, -, hrest⟩ := Fault.bind_eq_error_iff.mp hoverview
  · exact (Counter.fullWord_eq_error_iff.mp hpulls).imp_right .inl
  · have hobservations := Fault.eq_error_of_bind hrest
    exact (Counter.fullWord_eq_error_iff.mp hobservations).imp_right .inr

theorem History.length_of_overview (hhistory : History start turns governor)
    (harena : start.arena = .empty)
    (hoperates : ∀ turn ∈ turns, turn.command.operates = true) {symbol : String} {fault : Fault}
    (hoverview : governor.overview symbol = .error fault) : Word64.size ≤ turns.length := by
  obtain ⟨hsound, hrecorded, hcounted⟩ := hhistory.sound_of_operates harena hoperates
  obtain ⟨-, hsum⟩ := Governor.sum_of_overview hoverview
  have hdistinct : ((governor.registry.allArms.filter fun arm =>
      arm.contest.symbol = symbol).map Arm.id).Nodup :=
    (List.filter_sublist.map Arm.id).nodup (Registry.nodup_allArms hsound)
  have hstats : ∀ arm ∈ governor.registry.allArms.filter fun arm => arm.contest.symbol = symbol,
      arm.stats.pulls = selectionsSince arm.contest arm.id turns ∧
        arm.stats.observations = creditsSince arm.contest arm.id turns := by
    intro arm harm
    obtain ⟨contest, -, hlisted⟩ := List.mem_flatMap.mp (List.mem_filter.mp harm).1
    exact hcounted.stats arm.id arm ((Registry.mem_armsOf_iff hsound contest arm).mp hlisted).1
  obtain hpulls | hobservations := hsum
  · rw [List.map_congr_left fun arm harm => (hstats arm harm).1] at hpulls
    exact Nat.le_trans hpulls (sum_selectionsSince_le hdistinct turns)
  · rw [List.map_congr_left fun arm harm => (hstats arm harm).2] at hobservations
    exact Nat.le_trans hobservations (sum_creditsSince_le hdistinct hrecorded.distinct)

end ExposureControl
