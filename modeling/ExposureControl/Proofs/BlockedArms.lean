import ExposureControl.Proofs.Scoring

/-!
# Blocked arms

A policy passes blocked arms over: it chooses from a list what it chooses from the eligible arms
of that list, and it draws as much.  So whoever asks a policy may leave the blocked arms out or
leave them in.
-/

namespace ExposureControl

namespace Policy

/-- The places of the eligible arms of a list, in order: where each of them stands that has a place
in the list without the blocked ones. -/
def places (arms : List Arm) : List Nat :=
  (arms.zipIdx.filter fun entry => entry.1.eligible).map Prod.snd

def standing (arms : List Arm) (index : Nat) : Nat :=
  (places arms).getD index 0

theorem getElem?_places {arms : List Arm} {index : Nat} (hindex : index < (places arms).length) :
    (places arms)[index]? = some (standing arms index) := by
  rw [standing, List.getD_eq_getElem?_getD, List.getElem?_eq_getElem hindex, Option.getD_some]

/-! ## Scores without the blocked arms -/

theorem logTotal_filter_eligible (arms : List Arm) :
    logTotal (arms.filter Arm.eligible) = logTotal arms := by
  simp only [logTotal, List.filter_filter, Bool.and_self]

theorem drawsOver_filter_eligible (policy : Policy) (total : Float) (arms : List Arm)
    (generator : Generator) :
    policy.drawsOver total (arms.filter Arm.eligible) generator =
      policy.drawsOver total arms generator := by
  rw [drawsOver, List.foldl_filter, drawsOver]
  congr 1
  funext drawn arm
  cases arm.eligible <;> rfl

/-- The scores of the eligible arms in order, whatever places they stand at. -/
theorem map_snd_scores_filter_eligible (policy : Policy) (total : Float) (index base : Nat)
    (arms : List Arm) (generator : Generator) :
    (policy.scores total base (arms.filter Arm.eligible) generator).1.map Prod.snd =
      (policy.scores total index arms generator).1.map Prod.snd := by
  induction arms generalizing index base generator with
  | nil => rfl
  | cons arm rest ih =>
    cases heligible : arm.eligible with
    | true => simp [scores, heligible, ih (index + 1) (base + 1)]
    | false => simp [scores, heligible, ih (index + 1) base]

/-- Among eligible arms every place is scored. -/
theorem places_filter_eligible (arms : List Arm) :
    places (arms.filter Arm.eligible) = List.range (arms.filter Arm.eligible).length := by
  have hall : ∀ entry ∈ (arms.filter Arm.eligible).zipIdx, entry.1.eligible = true := by
    intro entry hentry
    exact (List.mem_filter.mp (List.mem_of_getElem? (List.mem_zipIdx_iff_getElem?.mp hentry))).2
  rw [places, List.filter_eq_self.mpr hall, List.zipIdx_map_snd, List.range_eq_range']

theorem length_places (arms : List Arm) :
    (places arms).length = (arms.filter Arm.eligible).length := by
  have hcount : ∀ index, ((arms.zipIdx index).filter fun entry => entry.1.eligible).length =
      (arms.filter Arm.eligible).length := by
    induction arms with
    | nil => exact fun _ => rfl
    | cons arm rest ih =>
      intro index
      cases heligible : arm.eligible with
      | true => simp [heligible, ih]
      | false => simp [heligible, ih]
  rw [places, List.length_map, hcount]

/-- With the blocked arms among them, the eligible arms have the scores that they have without,
and only their places differ. -/
theorem scores_relabelled (policy : Policy) (arms : List Arm) (generator : Generator) :
    (policy.scores (logTotal arms) 0 arms generator).1 =
      (policy.scores (logTotal arms) 0 (arms.filter Arm.eligible) generator).1.map
        (Prod.map (standing arms) id) := by
  let listed := (policy.scores (logTotal arms) 0 arms generator).1
  let filtered := (policy.scores (logTotal arms) 0 (arms.filter Arm.eligible) generator).1
  have hvalues : filtered.map Prod.snd = listed.map Prod.snd :=
    policy.map_snd_scores_filter_eligible _ 0 0 arms generator
  have hlisted : listed.map Prod.fst = places arms :=
    policy.map_fst_scores _ 0 arms generator
  have hfiltered : filtered.map Prod.fst = List.range (places arms).length := by
    rw [length_places, ← places_filter_eligible]
    exact policy.map_fst_scores _ 0 (arms.filter Arm.eligible) generator
  have hrelabelled : (filtered.map Prod.fst).map (standing arms) = listed.map Prod.fst := by
    rw [hfiltered, hlisted]
    refine List.ext_getElem (by simp) fun index _ hindex => ?_
    rw [List.getElem_map, List.getElem_range]
    exact Option.some.inj ((getElem?_places hindex).symm.trans (List.getElem?_eq_getElem hindex))
  change listed = filtered.map _
  have hzip : ∀ scored : List (Nat × Float),
      (scored.map Prod.fst).zip (scored.map Prod.snd) = scored := fun scored => by
    rw [List.zip_map', List.map_id'' (fun _ => rfl)]
  rw [← hzip listed, ← hzip (filtered.map _), List.map_map, List.map_map, ← hvalues,
    ← hrelabelled, List.map_map]
  rfl

/-! ## The leader under other places -/

theorem better_relabelled (label : Nat → Nat) (best : Option (Nat × Float))
    (next : Nat × Float) :
    better (best.map (Prod.map label id)) (Prod.map label id next) =
      (better best next).map (Prod.map label id) := by
  cases best with
  | none => rfl
  | some current =>
    simp only [Option.map_some, better, Prod.map_snd, id_eq]
    split <;> rfl

theorem foldl_better_relabelled (label : Nat → Nat) (scored : List (Nat × Float))
    (best : Option (Nat × Float)) :
    (scored.map (Prod.map label id)).foldl better (best.map (Prod.map label id)) =
      (scored.foldl better best).map (Prod.map label id) := by
  induction scored generalizing best with
  | nil => rfl
  | cons next rest ih => rw [List.map_cons, List.foldl_cons, better_relabelled, ih, List.foldl_cons]

theorem leader_relabelled (label : Nat → Nat) (scored : List (Nat × Float)) :
    leader (scored.map (Prod.map label id)) = (leader scored).map label := by
  have hfold := foldl_better_relabelled label scored none
  rw [Option.map_none] at hfold
  rw [leader, hfold, leader, Option.map_map, Option.map_map]
  rfl

/-! ## The choice without the blocked arms -/

theorem choose_fst_relabelled (policy : Policy) (arms : List Arm) (generator : Generator) :
    (policy.choose arms generator).1 =
      (policy.choose (arms.filter Arm.eligible) generator).1.map (standing arms) := by
  rw [choose_fst, scores_relabelled, leader_relabelled, choose_fst, logTotal_filter_eligible]

theorem choose_snd_filter_eligible (policy : Policy) (arms : List Arm) (generator : Generator) :
    (policy.choose (arms.filter Arm.eligible) generator).2 =
      (policy.choose arms generator).2 := by
  rw [choose_snd, choose_snd, logTotal_filter_eligible, drawsOver_filter_eligible]

theorem mem_places_of_choose {policy : Policy} {arms : List Arm} {generator : Generator}
    {place : Nat} (hchoose : (policy.choose arms generator).1 = some place) :
    place ∈ places arms := by
  rw [choose_fst] at hchoose
  have hscored : (policy.scores (logTotal arms) 0 arms generator).1 ≠ [] := by
    intro hnil
    rw [hnil] at hchoose
    cases hchoose
  obtain ⟨found, hfound, hleader⟩ := leader_mem hscored
  rw [hleader, Option.some.injEq] at hchoose
  rwa [map_fst_scores, hchoose] at hfound

theorem lt_length_places_of_choose {policy : Policy} {arms : List Arm} {generator : Generator}
    {index : Nat}
    (hchoose : (policy.choose (arms.filter Arm.eligible) generator).1 = some index) :
    index < (places arms).length := by
  have hmem := mem_places_of_choose hchoose
  rwa [places_filter_eligible, List.mem_range, ← length_places] at hmem

theorem choose_fst_translated (policy : Policy) (arms : List Arm) (generator : Generator) :
    (policy.choose arms generator).1 =
      (policy.choose (arms.filter Arm.eligible) generator).1.bind fun index =>
        (places arms)[index]? := by
  rw [choose_fst_relabelled]
  cases hchoose : (policy.choose (arms.filter Arm.eligible) generator).1 with
  | none => rfl
  | some index =>
    rw [Option.map_some, Option.bind_some, getElem?_places (lt_length_places_of_choose hchoose)]

theorem getElem?_of_places {arms : List Arm} {index place : Nat}
    (hplace : (places arms)[index]? = some place) :
    arms[place]? = (arms.filter Arm.eligible)[index]? := by
  rw [places, List.getElem?_map, Option.map_eq_some_iff] at hplace
  obtain ⟨⟨arm, found⟩, hentry, rfl⟩ := hplace
  have hfound : arms[found]? = some arm :=
    List.mk_mem_zipIdx_iff_getElem?.mp (List.mem_filter.mp (List.mem_of_getElem? hentry)).1
  have heligible : arms.filter Arm.eligible =
      (arms.zipIdx.filter fun entry => entry.1.eligible).map Prod.fst :=
    calc arms.filter Arm.eligible
      _ = (arms.zipIdx.map Prod.fst).filter Arm.eligible := by rw [List.zipIdx_map_fst]
      _ = (arms.zipIdx.filter fun entry => entry.1.eligible).map Prod.fst := List.filter_map
  rw [hfound, heligible, List.getElem?_map, hentry, Option.map_some]

theorem nodup_places (arms : List Arm) : (places arms).Nodup := by
  have hall : (arms.zipIdx.map Prod.snd).Nodup := by
    rw [List.zipIdx_map_snd]
    exact List.nodup_range'
  exact hall.sublist (List.filter_sublist.map Prod.snd)

theorem scoreAt?_of_places (policy : Policy) {arms : List Arm} (generator : Generator)
    {index place : Nat} (hplace : (places arms)[index]? = some place) :
    policy.scoreAt? arms generator place =
      policy.scoreAt? (arms.filter Arm.eligible) generator index := by
  ext value
  rw [← mem_scores_zero_iff, ← mem_scores_zero_iff, scores_relabelled, logTotal_filter_eligible,
    List.mem_map]
  constructor
  · rintro ⟨⟨other, found⟩, hscored, hfound⟩
    obtain ⟨hlabel, rfl⟩ := Prod.mk.inj hfound
    -- the place is that of one eligible arm only
    have hother : other < (places arms).length := by
      have hmem := List.mem_map_of_mem (f := Prod.fst) hscored
      rwa [map_fst_scores, ← places, places_filter_eligible, List.mem_range,
        ← length_places] at hmem
    have hsame : (places arms)[other]? = (places arms)[index]? := by
      rw [hplace, getElem?_places hother, hlabel]
    obtain rfl := (List.getElem?_inj hother (nodup_places arms)).mp hsame
    exact hscored
  · intro hscored
    refine ⟨(index, value), hscored, Prod.ext ?_ rfl⟩
    have hindex := (List.getElem?_eq_some_iff.mp hplace).1
    exact Option.some.inj ((getElem?_places hindex).symm.trans hplace)

theorem chosen_arm_filter_eligible (policy : Policy) (arms : List Arm) (generator : Generator) :
    ((policy.choose arms generator).1.bind fun place => arms[place]?) =
      (policy.choose (arms.filter Arm.eligible) generator).1.bind fun index =>
        (arms.filter Arm.eligible)[index]? := by
  rw [choose_fst_translated, Option.bind_assoc]
  cases hchoose : (policy.choose (arms.filter Arm.eligible) generator).1 with
  | none => rfl
  | some index =>
    have hplace := getElem?_places (lt_length_places_of_choose hchoose)
    rw [Option.bind_some, Option.bind_some, hplace, Option.bind_some, getElem?_of_places hplace]

end Policy

namespace Arena

/-! ## Selection without the filter of its own -/

def generatorOf (seeding : Seeding) (arena : Arena) (symbol : String) : Generator :=
  (arena.generators.find? symbol).getD (seeding.start symbol)

/-- All that later calls read of an arena. -/
def reading (seeding : Seeding) (arena : Arena) : Registry × (String → Generator) × Nat :=
  (arena.registry, arena.generatorOf seeding, arena.decisionsDrawn)

/-- What a selection does once the arms that it hands to the policy are given. -/
def selectAmong (settings : Settings.Selection) (seeding : Seeding) (now : Instant)
    (contest : Contest) (context : Context) (arena : Arena) (arms : List Arm) :
    Except Fault (Arena × Except Refusal Selection) :=
  if arms.isEmpty then .ok (arena, .error (.noEligibleArm contest))
  else
    let (chosen, arm?) := arena.chooseFrom settings.policy seeding contest.symbol arms
    match arm? with
    | none => .ok (chosen, .error (.noEligibleArm contest))
    | some arm => chosen.commit settings now contest.symbol arm context

/-- The arms of a contest, blocked ones among them, less the candidates if there is a candidate
and the budget shuts those out. -/
def listed (settings : Settings.Selection) (contest : Contest) (now : Instant) (arena : Arena) :
    List Arm :=
  let arms := arena.registry.armsOf contest
  if arms.any (fun arm => arm.role = .candidate) &&
      !arena.candidatesAllowed settings contest.symbol now then
    arms.filter fun arm => arm.role = .baseline
  else arms

/-- A selection that leaves it to the policy to pass blocked arms over. -/
def selectListed (settings : Settings.Selection) (seeding : Seeding) (now : Instant)
    (contest : Contest) (context : Context) (arena : Arena) :
    Except Fault (Arena × Except Refusal Selection) :=
  if !settings.enabled then .ok (arena, .error .selectionDisabled)
  else arena.selectAmong settings seeding now contest context (arena.listed settings contest now)

theorem select_eq_selectAmong (settings : Settings.Selection) (seeding : Seeding) (now : Instant)
    (contest : Contest) (context : Context) (arena : Arena) :
    arena.select settings seeding now contest context =
      if !settings.enabled then .ok (arena, .error .selectionDisabled)
      else arena.selectAmong settings seeding now contest context
        (arena.offered settings contest now) := rfl

theorem offered_eq_filter_listed (settings : Settings.Selection) (contest : Contest)
    (now : Instant) (arena : Arena) :
    arena.offered settings contest now =
      (arena.listed settings contest now).filter Arm.eligible := by
  let arms := arena.registry.armsOf contest
  have hcommute : (arms.filter fun arm => arm.role = .baseline).filter Arm.eligible =
      (arms.filter Arm.eligible).filter fun arm => arm.role = .baseline := by
    simp only [List.filter_filter, Bool.and_comm]
  cases hbudget : arena.candidatesAllowed settings contest.symbol now with
  | true => simp [offered, listed, hbudget]
  | false =>
    simp only [offered, listed, hbudget, Bool.not_false, Bool.and_true]
    cases hcandidate : (arms.filter Arm.eligible).any fun arm => arm.role = .candidate with
    | true =>
      obtain ⟨arm, hmem, hrole⟩ := List.any_eq_true.mp hcandidate
      have hlisted : (arms.any fun arm => arm.role = .candidate) = true :=
        List.any_eq_true.mpr ⟨arm, (List.mem_filter.mp hmem).1, hrole⟩
      rw [if_pos rfl, if_pos hlisted, hcommute]
    | false =>
      -- a blocked candidate may be among the arms, but all eligible ones are baselines
      have hbaseline : ((arms.filter Arm.eligible).filter fun arm => arm.role = .baseline) =
          arms.filter Arm.eligible := by
        refine List.filter_eq_self.mpr fun arm hmem => ?_
        have hrole := List.any_eq_false.mp hcandidate arm hmem
        cases hkind : arm.role with
        | baseline => rfl
        | candidate => exact absurd (decide_eq_true hkind) hrole
      rw [if_neg Bool.false_ne_true]
      split
      · rw [hcommute, hbaseline]
      · rfl

theorem chooseFrom_filter_eligible (policy : Policy) (seeding : Seeding) (symbol : String)
    (arms : List Arm) (arena : Arena) :
    arena.chooseFrom policy seeding symbol (arms.filter Arm.eligible) =
      arena.chooseFrom policy seeding symbol arms := by
  let drawn := arena.generatorOf seeding symbol
  refine Prod.ext ?_ (policy.chosen_arm_filter_eligible arms drawn).symm
  change arena.withGenerator symbol (policy.choose (arms.filter Arm.eligible) drawn).2 =
    arena.withGenerator symbol (policy.choose arms drawn).2
  rw [Policy.choose_snd_filter_eligible]

theorem chooseFrom_of_no_eligible (policy : Policy) (seeding : Seeding) (symbol : String)
    {arms : List Arm} (arena : Arena) (hnone : arms.filter Arm.eligible = []) :
    ∃ chosen, arena.chooseFrom policy seeding symbol arms = (chosen, none) ∧
      chosen.reading seeding = arena.reading seeding := by
  refine ⟨arena.withGenerator symbol (arena.generatorOf seeding symbol), ?_, ?_⟩
  · rw [← chooseFrom_filter_eligible, hnone]
    rfl
  refine Prod.ext rfl (Prod.ext ?_ rfl)
  funext other
  change ((arena.generators.insert symbol (arena.generatorOf seeding symbol)).find? other).getD
    (seeding.start other) = arena.generatorOf seeding other
  rw [Table.find?_insert]
  split
  · next hsame => rw [hsame, Option.getD_some]
  · rfl

/-- Whether the blocked arms were left out before matters neither to what a selection answers nor
to what it leaves to later calls. -/
theorem selectAmong_filter_eligible (settings : Settings.Selection) (seeding : Seeding)
    (now : Instant) (contest : Contest) (context : Context) (arena : Arena) (arms : List Arm) :
    (arena.selectAmong settings seeding now contest context arms).map
        (Prod.map (reading seeding) id) =
      (arena.selectAmong settings seeding now contest context (arms.filter Arm.eligible)).map
        (Prod.map (reading seeding) id) := by
  by_cases hnone : arms.filter Arm.eligible = []
  · obtain ⟨chosen, hchosen, hreading⟩ :=
      arena.chooseFrom_of_no_eligible settings.policy seeding contest.symbol hnone
    rw [selectAmong, selectAmong, hnone, hchosen]
    split
    · rfl
    · simp [Except.map, hreading]
  · have hsome : arms ≠ [] := fun hnil => hnone (by rw [hnil, List.filter_nil])
    rw [selectAmong, selectAmong, chooseFrom_filter_eligible,
      if_neg (by rwa [List.isEmpty_iff]), if_neg (by rwa [List.isEmpty_iff])]

/-- Blocked arms do not matter to a policy.  It chooses from a list what it chooses from the
eligible arms, in the place where that arm stands in the whole list, it leaves the generator where
the choice without the blocked arms leaves it, and it gives each eligible arm the score that it
has there.  Hence a selection that hands all its arms to the policy answers as the one that leaves
the blocked ones out, and later calls find the same. -/
theorem choice_without_blocked :
    (∀ (policy : Policy) (arms : List Arm) (generator : Generator),
      let eligible := arms.filter Arm.eligible
      (policy.choose arms generator).1 =
          ((policy.choose eligible generator).1.bind fun index => (Policy.places arms)[index]?) ∧
        ((policy.choose arms generator).1 = none ↔
          (policy.choose eligible generator).1 = none) ∧
        ((policy.choose arms generator).1.bind fun place => arms[place]?) =
          ((policy.choose eligible generator).1.bind fun index => eligible[index]?) ∧
        (policy.choose arms generator).2 = (policy.choose eligible generator).2 ∧
        ∀ index place, (Policy.places arms)[index]? = some place →
          arms[place]? = eligible[index]? ∧
            policy.scoreAt? arms generator place = policy.scoreAt? eligible generator index) ∧
    ∀ (settings : Settings.Selection) (seeding : Seeding) (now : Instant) (contest : Contest)
      (context : Context) (arena : Arena),
      (arena.select settings seeding now contest context).map (Prod.map (reading seeding) id) =
        (arena.selectListed settings seeding now contest context).map
          (Prod.map (reading seeding) id) := by
  refine ⟨fun policy arms generator => ⟨policy.choose_fst_translated arms generator, ?_,
    policy.chosen_arm_filter_eligible arms generator,
    (policy.choose_snd_filter_eligible arms generator).symm,
    fun _ _ hplace => ⟨Policy.getElem?_of_places hplace,
      policy.scoreAt?_of_places generator hplace⟩⟩, ?_⟩
  · rw [Policy.choose_fst_relabelled, Option.map_eq_none_iff]
  · intro settings seeding now contest context arena
    rw [select_eq_selectAmong, selectListed]
    split
    · rfl
    · rw [offered_eq_filter_listed, ← selectAmong_filter_eligible]

end Arena

end ExposureControl
