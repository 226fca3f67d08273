import ExposureControl.Arms.Arena

/-!
# What a policy chooses

Whatever the scores are, a policy chooses one of the eligible arms that it is given, and it
chooses none only if there are none.  What it chooses depends on which arms are eligible and on
their statistics alone.
-/

namespace ExposureControl

namespace Policy

theorem map_fst_scores (policy : Policy) (total : Float) (index : Nat) (arms : List Arm)
    (generator : Generator) :
    (policy.scores total index arms generator).1.map Prod.fst =
      ((arms.zipIdx index).filter fun entry => entry.1.eligible).map Prod.snd := by
  induction arms generalizing index generator with
  | nil => rfl
  | cons arm rest ih =>
    cases heligible : arm.eligible with
    | true => simp [scores, heligible, ih]
    | false => simp [scores, heligible, ih]

theorem better_some (current next : Nat × Float) :
    better (some current) next = some current ∨ better (some current) next = some next := by
  dsimp only [better]
  split
  · exact .inl rfl
  · exact .inr rfl

theorem foldl_better_mem (current : Nat × Float) (scored : List (Nat × Float)) :
    ∃ best ∈ current :: scored, scored.foldl better (some current) = some best := by
  induction scored generalizing current with
  | nil => exact ⟨current, List.mem_singleton_self current, rfl⟩
  | cons next rest ih =>
    rw [List.foldl_cons]
    obtain hkept | hreplaced := better_some current next
    · obtain ⟨best, hbest, hfold⟩ := ih current
      rw [hkept]
      refine ⟨best, ?_, hfold⟩
      obtain rfl | hrest := List.mem_cons.mp hbest
      · exact List.mem_cons_self
      · exact List.mem_cons_of_mem _ (List.mem_cons_of_mem _ hrest)
    · obtain ⟨best, hbest, hfold⟩ := ih next
      rw [hreplaced]
      exact ⟨best, List.mem_cons_of_mem _ hbest, hfold⟩

theorem leader_mem {scored : List (Nat × Float)} (hscored : scored ≠ []) :
    ∃ place ∈ scored.map Prod.fst, leader scored = some place := by
  cases scored with
  | nil => exact absurd rfl hscored
  | cons first rest =>
    obtain ⟨best, hbest, hfold⟩ := foldl_better_mem first rest
    refine ⟨best.1, List.mem_map_of_mem hbest, ?_⟩
    rw [leader, List.foldl_cons]
    change (rest.foldl better (some first)).map Prod.fst = some best.1
    rw [hfold]
    rfl

theorem choose_eligible (policy : Policy) {arms : List Arm} (generator : Generator)
    (hsome : ∃ arm ∈ arms, arm.eligible = true) :
    ∃ place arm, (policy.choose arms generator).1 = some place ∧ arms[place]? = some arm ∧
      arm.eligible = true := by
  have hplaces := map_fst_scores policy (logTotal arms) 0 arms generator
  -- the scored places are those of the eligible arms, of which there is one at least
  have hscored : (policy.scores (logTotal arms) 0 arms generator).1 ≠ [] := by
    obtain ⟨arm, hmem, heligible⟩ := hsome
    obtain ⟨place, hplace⟩ := List.mem_iff_getElem?.mp hmem
    intro hnil
    rw [hnil, List.map_nil, eq_comm, List.map_eq_nil_iff, List.filter_eq_nil_iff] at hplaces
    exact hplaces (arm, place) (List.mk_mem_zipIdx_iff_getElem?.mpr hplace) heligible
  obtain ⟨place, hplace, hleader⟩ := leader_mem hscored
  rw [hplaces, List.mem_map] at hplace
  obtain ⟨⟨arm, found⟩, hentry, rfl⟩ := hplace
  rw [List.mem_filter] at hentry
  exact ⟨found, arm, hleader, List.mk_mem_zipIdx_iff_getElem?.mp hentry.1, hentry.2⟩

theorem choose_of_no_eligible (policy : Policy) {arms : List Arm} (generator : Generator)
    (hnone : ∀ arm ∈ arms, arm.eligible = false) :
    (policy.choose arms generator).1 = none := by
  have hplaces := map_fst_scores policy (logTotal arms) 0 arms generator
  have hfilter : ((arms.zipIdx 0).filter fun entry => entry.1.eligible) = [] := by
    rw [List.filter_eq_nil_iff]
    intro entry hentry
    rw [hnone entry.1 (List.mem_of_getElem? (List.mem_zipIdx_iff_getElem?.mp hentry))]
    exact Bool.false_ne_true
  rw [hfilter, List.map_nil, List.map_eq_nil_iff] at hplaces
  simp [choose, hplaces, leader]

/-! ## What a choice depends on -/

section

variable {change : Arm → Arm} (heligible : ∀ arm, (change arm).eligible = arm.eligible)
  (hstats : ∀ arm, (change arm).stats = arm.stats)

include heligible hstats

theorem logTotal_map (arms : List Arm) : logTotal (arms.map change) = logTotal arms := by
  have hfilter : (arms.map change).filter Arm.eligible =
      (arms.filter Arm.eligible).map change := by
    rw [List.filter_map]
    congr 2
    funext arm
    exact heligible arm
  simp only [logTotal, hfilter, List.map_map, Function.comp_def, hstats]

theorem scores_map (policy : Policy) (total : Float) (index : Nat) (arms : List Arm)
    (generator : Generator) :
    policy.scores total index (arms.map change) generator =
      policy.scores total index arms generator := by
  induction arms generalizing index generator with
  | nil => rfl
  | cons arm rest ih => simp only [List.map_cons, scores, heligible, hstats, ih]

theorem choose_map (policy : Policy) (arms : List Arm) (generator : Generator) :
    policy.choose (arms.map change) generator = policy.choose arms generator := by
  simp only [choose, logTotal_map heligible hstats, scores_map heligible hstats]

end

end Policy

namespace Arena

/-- An arena in which a symbol has another generator. -/
def withGenerator (symbol : String) (generator : Generator) (arena : Arena) : Arena :=
  { arena with generators := arena.generators.insert symbol generator }

/-- A choice among eligible arms gives one of them and moves the symbol's generator only. -/
theorem chooseFrom_eligible (policy : Policy) (seeding : Seeding) (symbol : String)
    {arms : List Arm} (arena : Arena) (hsome : arms ≠ [])
    (heligible : ∀ arm ∈ arms, arm.eligible = true) :
    ∃ generator, ∃ arm ∈ arms, arena.chooseFrom policy seeding symbol arms =
      (arena.withGenerator symbol generator, some arm) := by
  let drawn := (arena.generators.find? symbol).getD (seeding.start symbol)
  obtain ⟨first, hfirst⟩ := List.exists_mem_of_ne_nil arms hsome
  obtain ⟨place, arm, hchoose, hplace, -⟩ :=
    policy.choose_eligible drawn ⟨first, hfirst, heligible first hfirst⟩
  refine ⟨(policy.choose arms drawn).2, arm, List.mem_of_getElem? hplace, ?_⟩
  simp only [chooseFrom, withGenerator, drawn, hchoose, Option.bind_some, hplace]

end Arena

end ExposureControl
