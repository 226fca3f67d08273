import ExposureControl.Proofs.BinaryOrder
import ExposureControl.Proofs.Scoring

/-!
# The best arm

Where every eligible arm has a defined score, a policy chooses the first of the arms with the
highest score.  An optimistic policy gives an arm without weight an infinite score, so it tries
the first such arm before it returns to the others.
-/

namespace ExposureControl

namespace Policy

/-- At a place stands an eligible arm than which none has a higher score. -/
def Highest (policy : Policy) (arms : List Arm) (generator : Generator) (place : Nat) : Prop :=
  ∃ score, policy.scoreAt? arms generator place = some score ∧
    ∀ other value, policy.scoreAt? arms generator other = some value → value ≤ score

/-- Every score that an eligible arm gets is defined. -/
def Defined (policy : Policy) (arms : List Arm) (generator : Generator) : Prop :=
  ∀ place score, policy.scoreAt? arms generator place = some score → score.isNaN = false

theorem defined_of_all {policy : Policy} {arms : List Arm} {generator : Generator}
    (hall : ∀ place < arms.length,
      (policy.scoreAt? arms generator place).all (fun score => !score.isNaN) = true) :
    policy.Defined arms generator := by
  intro place score hscore
  obtain ⟨arm, harm, -⟩ := (policy.scoreAt?_eq_some_iff ..).mp hscore
  have hdefined := hall place (List.getElem?_eq_some_iff.mp harm).1
  rw [hscore] at hdefined
  simpa using hdefined

/-! ## The leader of scored places -/

/-- A scored place that leads others: none of them has a higher score, and those with as high a
score come later. -/
def Leads (best : Nat × Float) (scored : List (Nat × Float)) : Prop :=
  ∀ other ∈ scored, other.2 ≤ best.2 ∧ (best.2 ≤ other.2 → best.1 ≤ other.1)

/-- The running best leads all that was seen. -/
theorem foldl_better_leads {current : Nat × Float} {rest : List (Nat × Float)}
    (hdefined : ∀ entry ∈ current :: rest, entry.2.isNaN = false)
    (hsorted : (current :: rest).Pairwise fun one other => one.1 < other.1) :
    ∃ best ∈ current :: rest, rest.foldl better (some current) = some best ∧
      Leads best (current :: rest) := by
  induction rest generalizing current with
  | nil =>
    refine ⟨current, List.mem_singleton_self current, rfl, ?_⟩
    simp only [Leads, List.mem_singleton, forall_eq]
    exact ⟨Binary64.le_of_defined (hdefined current List.mem_cons_self), fun _ => Nat.le_refl _⟩
  | cons next rest ih =>
    obtain ⟨hcurrent, hnext, hrest⟩ : current.2.isNaN = false ∧ next.2.isNaN = false ∧
        ∀ entry ∈ rest, entry.2.isNaN = false := by
      simpa only [List.forall_mem_cons] using hdefined
    obtain ⟨hbefore, hlater⟩ := List.pairwise_cons.mp hsorted
    rw [List.foldl_cons, better]
    by_cases hkept : next.2 ≤ current.2
    · have hsublist : (current :: rest).Sublist (current :: next :: rest) :=
        (List.sublist_cons_self next rest).cons_cons current
      obtain ⟨best, hbest, hfold, hleads⟩ :=
        ih (List.forall_mem_cons.mpr ⟨hcurrent, hrest⟩) (hsorted.sublist hsublist)
      obtain ⟨habove, htie⟩ := hleads current List.mem_cons_self
      refine ⟨best, hsublist.subset hbest, by rw [if_pos hkept, hfold], ?_⟩
      -- the next place is no better than the kept one, and comes after it
      have hbeaten : next.2 ≤ best.2 ∧ (best.2 ≤ next.2 → best.1 ≤ next.1) :=
        ⟨Binary64.le_of_le_of_le hkept habove, fun hle =>
          (htie (Binary64.le_of_le_of_le hle hkept)).trans (hbefore next List.mem_cons_self).le⟩
      intro other hother
      obtain rfl | rfl | hmem := by simpa only [List.mem_cons] using hother
      · exact ⟨habove, htie⟩
      · exact hbeaten
      · exact hleads other (List.mem_cons_of_mem _ hmem)
    · obtain ⟨best, hbest, hfold, hleads⟩ := ih (List.forall_mem_cons.mpr ⟨hnext, hrest⟩) hlater
      obtain ⟨habove, -⟩ := hleads next List.mem_cons_self
      refine ⟨best, List.mem_cons_of_mem _ hbest, by rw [if_neg hkept, hfold], ?_⟩
      refine List.forall_mem_cons.mpr ⟨⟨?_, ?_⟩, hleads⟩
      · exact Binary64.le_of_le_of_le (Binary64.le_of_not_ge hcurrent hnext hkept) habove
      · -- the replaced place lies strictly below
        intro hle
        exact absurd (Binary64.le_of_le_of_le habove hle) hkept

theorem pairwise_scores (policy : Policy) (total : Float) (index : Nat) (arms : List Arm)
    (generator : Generator) :
    (policy.scores total index arms generator).1.Pairwise fun one other => one.1 < other.1 := by
  have hplaces : ((arms.zipIdx index).map Prod.snd).Pairwise (· < ·) := by
    rw [List.zipIdx_map_snd]
    exact List.pairwise_lt_range'
  have hscored := hplaces.sublist
    ((List.filter_sublist (p := fun entry => entry.1.eligible)).map Prod.snd)
  rw [← policy.map_fst_scores total index arms generator] at hscored
  exact List.pairwise_map.mp hscored

theorem isLeast_of_choose {policy : Policy} {arms : List Arm} {generator : Generator}
    (hdefined : policy.Defined arms generator) {place : Nat}
    (hchoose : (policy.choose arms generator).1 = some place) :
    IsLeast {place | policy.Highest arms generator place} place := by
  have hscores := policy.mem_scores_zero_iff arms generator
  have hsorted := policy.pairwise_scores (logTotal arms) 0 arms generator
  rw [choose_fst] at hchoose
  cases hscored : (policy.scores (logTotal arms) 0 arms generator).1 with
  | nil =>
    rw [hscored] at hchoose
    cases hchoose
  | cons first rest =>
    rw [hscored] at hscores hsorted hchoose
    obtain ⟨best, hbest, hfold, hleads⟩ := foldl_better_leads
      (fun entry hentry => hdefined entry.1 entry.2 ((hscores _ _).mp hentry)) hsorted
    obtain rfl : best.1 = place := by
      rw [leader, List.foldl_cons, show better none first = some first from rfl, hfold] at hchoose
      exact Option.some.inj hchoose
    have hscore := (hscores best.1 best.2).mp hbest
    refine ⟨⟨best.2, hscore, fun other value hvalue => ?_⟩, ?_⟩
    · exact (hleads (other, value) ((hscores _ _).mpr hvalue)).1
    · rintro other ⟨value, hvalue, hhighest⟩
      exact (hleads (other, value) ((hscores _ _).mpr hvalue)).2 (hhighest _ _ hscore)

theorem choose_eq_none_iff (policy : Policy) (arms : List Arm) (generator : Generator) :
    (policy.choose arms generator).1 = none ↔ ∀ arm ∈ arms, arm.eligible = false := by
  constructor
  · intro hnone arm hmem
    rw [← Bool.not_eq_true]
    intro heligible
    obtain ⟨place, _, hchoose, -⟩ := policy.choose_eligible generator ⟨arm, hmem, heligible⟩
    rw [hnone] at hchoose
    cases hchoose
  · exact policy.choose_of_no_eligible generator

theorem choose_eq_some_iff {policy : Policy} {arms : List Arm} {generator : Generator}
    (hdefined : policy.Defined arms generator) (place : Nat) :
    (policy.choose arms generator).1 = some place ↔
      IsLeast {place | policy.Highest arms generator place} place := by
  refine ⟨isLeast_of_choose hdefined, fun hleast => ?_⟩
  cases hchoose : (policy.choose arms generator).1 with
  | none =>
    -- an arm of highest score is eligible
    obtain ⟨score, hscore, -⟩ := hleast.1
    obtain ⟨arm, harm, heligible, -⟩ := (policy.scoreAt?_eq_some_iff ..).mp hscore
    rw [choose_eq_none_iff] at hchoose
    rw [hchoose arm (List.mem_of_getElem? harm)] at heligible
    cases heligible
  | some found => rw [(isLeast_of_choose hdefined hchoose).unique hleast]

/-! ## Arms without weight -/

/-- At a place stands an eligible arm whose faded count is not positive. -/
def Weightless (arms : List Arm) (place : Nat) : Prop :=
  ∃ arm, arms[place]? = some arm ∧ arm.eligible = true ∧ arm.stats.effectiveCount ≤ 0.0

/-- The score of every eligible arm with a positive count is finite. -/
def FiniteIfWeighted (policy : Policy) (arms : List Arm) (generator : Generator) : Prop :=
  ∀ place arm score, arms[place]? = some arm → 0.0 < arm.stats.effectiveCount →
    policy.scoreAt? arms generator place = some score → score.isFinite = true

section

variable {policy : Policy} (hoptimistic : policy ≠ .thompson) (total : Float)
  (generator : Generator)

include hoptimistic

theorem score_of_weightless {stats : Stats} (hcount : stats.effectiveCount ≤ 0.0) :
    (policy.score total stats generator).1 = Binary64.infinity := by
  cases policy with
  | ucb1 => exact if_pos hcount
  | ucbTuned => exact if_pos hcount
  | thompson => exact absurd rfl hoptimistic

theorem score_of_undefined {stats : Stats} (hcount : stats.effectiveCount.isNaN = true)
    (hnot : ¬ stats.effectiveCount ≤ 0.0) :
    (policy.score total stats generator).1.isNaN = true := by
  cases policy with
  | ucb1 =>
    simp only [score, Stats.ucb1Score, if_neg hnot]
    exact Binary64.isNaN_add_right (Binary64.isNaN_sqrt (Binary64.isNaN_div_right hcount _)) _
  | ucbTuned =>
    simp only [score, Stats.ucbTunedScore, if_neg hnot]
    exact Binary64.isNaN_add_right (Binary64.isNaN_sqrt
      (Binary64.isNaN_mul_left (Binary64.isNaN_div_right hcount _) _)) _
  | thompson => exact absurd rfl hoptimistic

end

theorem highest_iff_weightless {policy : Policy} (hoptimistic : policy ≠ .thompson)
    {arms : List Arm} {generator : Generator} (hdefined : policy.Defined arms generator)
    (hfinite : policy.FiniteIfWeighted arms generator) (hsome : ∃ place, Weightless arms place)
    (place : Nat) : policy.Highest arms generator place ↔ Weightless arms place := by
  have hinfinite : ∀ {place}, Weightless arms place →
      policy.scoreAt? arms generator place = some Binary64.infinity := by
    rintro place ⟨arm, harm, heligible, hcount⟩
    exact (policy.scoreAt?_eq_some_iff ..).mpr
      ⟨arm, harm, heligible, score_of_weightless hoptimistic _ _ hcount⟩
  constructor
  · rintro ⟨score, hscore, hhighest⟩
    obtain ⟨first, hfirst⟩ := hsome
    have hinfinity : Binary64.infinity ≤ score := hhighest first _ (hinfinite hfirst)
    obtain ⟨arm, harm, heligible, hvalue⟩ := (policy.scoreAt?_eq_some_iff ..).mp hscore
    refine ⟨arm, harm, heligible, ?_⟩
    by_contra hnot
    cases hcount : arm.stats.effectiveCount.isNaN with
    | true =>
      have hundefined := score_of_undefined hoptimistic (logTotal arms)
        (policy.drawsOver (logTotal arms) (arms.take place) generator) hcount hnot
      rw [hvalue, hdefined place score hscore] at hundefined
      cases hundefined
    | false =>
      have hpositive := Binary64.zero_lt_of_not_le hcount hnot
      exact Binary64.not_infinity_le (hfinite place arm score harm hpositive hscore) hinfinity
  · intro hweightless
    exact ⟨Binary64.infinity, hinfinite hweightless, fun other value hvalue =>
      Binary64.le_infinity (hdefined other value hvalue)⟩

/-- Where every eligible arm has a defined score, a policy chooses none exactly if no arm is
eligible, and otherwise the first eligible arm of highest score.  Hence an optimistic policy
chooses the first eligible arm without weight if there is one, provided that all eligible arms of
positive weight have finite scores. -/
theorem choose_first_highest (policy : Policy) (arms : List Arm) (generator : Generator)
    (hdefined : policy.Defined arms generator) :
    ((policy.choose arms generator).1 = none ↔ ∀ arm ∈ arms, arm.eligible = false) ∧
    (∀ place, (policy.choose arms generator).1 = some place ↔
      IsLeast {place | policy.Highest arms generator place} place) ∧
    (policy ≠ .thompson → policy.FiniteIfWeighted arms generator →
      (∃ place, Weightless arms place) →
      ∃ place, (policy.choose arms generator).1 = some place ∧
        IsLeast {place | Weightless arms place} place) := by
  refine ⟨policy.choose_eq_none_iff arms generator, choose_eq_some_iff hdefined, ?_⟩
  intro hoptimistic hfinite hsome
  have hsame : {place | policy.Highest arms generator place} = {place | Weightless arms place} :=
    Set.ext (highest_iff_weightless hoptimistic hdefined hfinite hsome)
  obtain ⟨first, arm, harm, heligible, -⟩ := hsome
  obtain ⟨place, _, hchoose, -⟩ :=
    policy.choose_eligible generator ⟨arm, List.mem_of_getElem? harm, heligible⟩
  refine ⟨place, hchoose, ?_⟩
  rw [← hsame]
  exact isLeast_of_choose hdefined hchoose

theorem choose_first_highest_samples :
    let generator : Generator := ⟨fun _ => 0x8000000000000001, 0⟩
    let arm (status : ArmStatus) (stats : Stats) : Arm :=
      { Arm.create (.given ⟨1⟩) ⟨"BTC", "UP", .buy⟩ ⟨.given ⟨9⟩, .baseline⟩ ⟨0⟩ with status, stats }
    let seen (mean : Float) : Stats := .ofMoments mean 0.25 4 ⟨0⟩
    -- a blocked arm has the highest mean, and two eligible ones tie for the next one
    let rivals := [arm .blocked (seen 9.0), arm .eligible (seen 1.0), arm .eligible (seen 3.0),
      arm .eligible (seen 3.0)]
    let unseen := [arm .blocked (seen 9.0), arm .blocked .empty, arm .eligible .empty,
      arm .eligible .empty]
    (thompson.Defined rivals generator ∧ (thompson.choose rivals generator).1 = some 2 ∧
      IsLeast {place | thompson.Highest rivals generator place} 2) ∧
    ucb1.Defined unseen generator ∧ ucb1.FiniteIfWeighted unseen generator ∧
      Weightless unseen 2 ∧ ∃ place, (ucb1.choose unseen generator).1 = some place ∧
        IsLeast {place | Weightless unseen place} place := by
  intro generator arm seen rivals unseen
  have hrivals : thompson.Defined rivals generator := defined_of_all (by decide +kernel)
  have hunseen : ucb1.Defined unseen generator := defined_of_all (by decide +kernel)
  have hchoose : (thompson.choose rivals generator).1 = some 2 := by decide +kernel
  have hweightless : Weightless unseen 2 := ⟨_, rfl, rfl, by decide +kernel⟩
  have hfinite : ucb1.FiniteIfWeighted unseen generator := by
    intro place arm score harm hpositive hscore
    match place with
    | 0 | 1 => cases hscore
    | 2 | 3 =>
      obtain rfl := Option.some.inj harm
      exact absurd hpositive (by decide +kernel)
    | _ + 4 => cases harm
  exact ⟨⟨hrivals, hchoose,
      ((choose_first_highest thompson rivals generator hrivals).2.1 2).mp hchoose⟩,
    hunseen, hfinite, hweightless,
    (choose_first_highest ucb1 unseen generator hunseen).2.2 (by decide) hfinite
      ⟨2, hweightless⟩⟩

end Policy

end ExposureControl
