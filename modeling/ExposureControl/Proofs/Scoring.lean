import ExposureControl.Proofs.Choice

/-!
# Which arm gets which score

A policy scores the eligible arms of a list one after the other, and each of them goes on with the
generator that the ones before it have left.  So an arm's score is a function of its place, and
what a policy works with is the list of those scores under the places of the eligible arms.
-/

namespace ExposureControl

namespace Policy

/-- The generator after the draws for the eligible arms of a list. -/
def drawsOver (policy : Policy) (total : Float) (arms : List Arm) (generator : Generator) :
    Generator :=
  arms.foldl (fun generator arm =>
    if arm.eligible then (policy.score total arm.stats generator).2 else generator) generator

/-- The score of the arm at a place, if there is one and it is eligible. -/
def scoreAt? (policy : Policy) (arms : List Arm) (generator : Generator) (place : Nat) :
    Option Float :=
  (arms[place]?.filter Arm.eligible).map fun arm =>
    (policy.score (logTotal arms) arm.stats
      (policy.drawsOver (logTotal arms) (arms.take place) generator)).1

theorem scores_snd (policy : Policy) (total : Float) (index : Nat) (arms : List Arm)
    (generator : Generator) :
    (policy.scores total index arms generator).2 = policy.drawsOver total arms generator := by
  induction arms generalizing index generator with
  | nil => rfl
  | cons arm rest ih =>
    cases heligible : arm.eligible with
    | true => simp [scores, drawsOver, heligible, ih]
    | false => simp [scores, drawsOver, heligible, ih]

theorem choose_fst (policy : Policy) (arms : List Arm) (generator : Generator) :
    (policy.choose arms generator).1 =
      leader (policy.scores (logTotal arms) 0 arms generator).1 := rfl

theorem choose_snd (policy : Policy) (arms : List Arm) (generator : Generator) :
    (policy.choose arms generator).2 = policy.drawsOver (logTotal arms) arms generator :=
  policy.scores_snd (logTotal arms) 0 arms generator

/-- Each scored place holds an eligible arm, and its score is drawn after the arms before it. -/
theorem mem_scores_iff (policy : Policy) (total : Float) (index : Nat) (arms : List Arm)
    (generator : Generator) (place : Nat) (value : Float) :
    (place, value) ∈ (policy.scores total index arms generator).1 ↔
      ∃ offset arm, place = index + offset ∧ arms[offset]? = some arm ∧ arm.eligible = true ∧
        (policy.score total arm.stats
          (policy.drawsOver total (arms.take offset) generator)).1 = value := by
  induction arms generalizing index generator with
  | nil => simp [scores]
  | cons first rest ih =>
    -- a later arm of the list stands one place further on than in the rest
    have hlater : ∀ drawn, policy.drawsOver total [first] generator = drawn →
        ((place, value) ∈ (policy.scores total (index + 1) rest drawn).1 ↔
          ∃ offset arm, place = index + (offset + 1) ∧ (first :: rest)[offset + 1]? = some arm ∧
            arm.eligible = true ∧
            (policy.score total arm.stats (policy.drawsOver total
              ((first :: rest).take (offset + 1)) generator)).1 = value) := by
      rintro drawn rfl
      rw [ih]
      simp only [List.getElem?_cons_succ, List.take_succ_cons, drawsOver, List.foldl_cons,
        List.foldl_nil, Nat.add_assoc, Nat.add_comm 1]
    cases heligible : first.eligible with
    | true =>
      simp only [scores, heligible, if_true, List.mem_cons, Prod.mk.injEq]
      rw [hlater _ (by simp [drawsOver, heligible])]
      constructor
      · rintro (⟨rfl, rfl⟩ | ⟨offset, arm, hfound⟩)
        · exact ⟨0, first, rfl, rfl, heligible, rfl⟩
        · exact ⟨offset + 1, arm, hfound⟩
      · rintro ⟨offset, arm, hplace, harm, hfound⟩
        cases offset with
        | zero =>
          obtain rfl : first = arm := Option.some.inj harm
          exact .inl ⟨hplace, hfound.2.symm⟩
        | succ offset => exact .inr ⟨offset, arm, hplace, harm, hfound⟩
    | false =>
      simp only [scores, heligible, Bool.false_eq_true, if_false]
      rw [hlater _ (by simp [drawsOver, heligible])]
      constructor
      · rintro ⟨offset, arm, hfound⟩
        exact ⟨offset + 1, arm, hfound⟩
      · rintro ⟨offset, arm, hplace, harm, hfound⟩
        cases offset with
        | zero =>
          obtain rfl : first = arm := Option.some.inj harm
          exact absurd hfound.1 (by simp [heligible])
        | succ offset => exact ⟨offset, arm, hplace, harm, hfound⟩

theorem scoreAt?_eq_some_iff (policy : Policy) (arms : List Arm) (generator : Generator)
    (place : Nat) (value : Float) :
    policy.scoreAt? arms generator place = some value ↔
      ∃ arm, arms[place]? = some arm ∧ arm.eligible = true ∧
        (policy.score (logTotal arms) arm.stats
          (policy.drawsOver (logTotal arms) (arms.take place) generator)).1 = value := by
  simp [scoreAt?, Option.filter_eq_some_iff, and_assoc]

theorem mem_scores_zero_iff (policy : Policy) (arms : List Arm) (generator : Generator)
    (place : Nat) (value : Float) :
    (place, value) ∈ (policy.scores (logTotal arms) 0 arms generator).1 ↔
      policy.scoreAt? arms generator place = some value := by
  rw [mem_scores_iff, scoreAt?_eq_some_iff]
  simp only [Nat.zero_add, exists_and_left, exists_eq_left']

end Policy

end ExposureControl
