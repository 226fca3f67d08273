import ExposureControl.Proofs.ArmIndex
import Mathlib.Data.Prod.Lex
import Mathlib.Data.String.Basic

/-!
# The list of all arms

Contests are in a linear order, so that sorting them leaves one way to list all arms of a sound
registry: contest by contest in ascending order, and within a contest as the contest lists them.
-/

namespace ExposureControl

namespace Contest

/-- Contests are compared by symbol, then by regime, then by side. -/
def key (contest : Contest) : String ×ₗ String ×ₗ Nat :=
  toLex (contest.symbol, toLex (contest.regime, contest.side.rank))

theorem key_injective : Function.Injective key := by
  rintro ⟨symbol, regime, side⟩ ⟨symbol', regime', side'⟩ hkey
  simp only [key, EmbeddingLike.apply_eq_iff_eq, Prod.mk.injEq] at hkey
  obtain ⟨rfl, rfl, hside⟩ := hkey
  cases side <;> cases side' <;> first | rfl | cases hside

theorem precedes_iff (a b : Contest) : a.precedes b = true ↔ a.key ≤ b.key := by
  simp only [precedes, key, Prod.Lex.toLex_le_toLex]
  by_cases hsymbol : a.symbol = b.symbol
  · by_cases hregime : a.regime = b.regime
    · simp [hsymbol, hregime]
    · simp [hsymbol, hregime]
  · simp [hsymbol]

theorem pairwise_key_lt_mergeSort {contests : List Contest} (hdistinct : contests.Nodup) :
    (contests.mergeSort precedes).Pairwise fun a b => a.key < b.key := by
  have hsorted : (contests.mergeSort precedes).Pairwise fun a b => a.precedes b = true := by
    apply List.pairwise_mergeSort
    · intro a b c hab hbc
      rw [precedes_iff] at hab hbc ⊢
      exact hab.trans hbc
    · intro a b
      rw [Bool.or_eq_true, precedes_iff, precedes_iff]
      exact le_total a.key b.key
  have hnodup : (contests.mergeSort precedes).Nodup :=
    (List.mergeSort_perm contests precedes).nodup_iff.mpr hdistinct
  apply hsorted.imp₂ _ hnodup
  intro a b hle hne
  exact lt_of_le_of_ne ((precedes_iff a b).mp hle) fun hkey => hne (key_injective hkey)

end Contest

namespace Registry

variable {registry : Registry}

theorem map_id_armsOf (hsound : registry.Sound) (contest : Contest) :
    (registry.armsOf contest).map Arm.id = registry.idsOf contest := by
  have hlisted : ∀ id ∈ registry.idsOf contest,
      (registry.arms.find? id).map Arm.id = some id := by
    intro id hid
    obtain ⟨arm, hfound, -⟩ := (hsound.mem_idsOf_iff contest id).mp hid
    rw [hfound, Option.map_some, hsound.id_eq hfound]
  calc (registry.armsOf contest).map Arm.id
      = (registry.idsOf contest).filterMap fun id => (registry.arms.find? id).map Arm.id := by
        rw [armsOf, List.map_filterMap]
    _ = (registry.idsOf contest).filterMap some := List.filterMap_congr hlisted
    _ = registry.idsOf contest := List.filterMap_some

theorem mem_keys_of_mem_armsOf {contest : Contest} {arm : Arm}
    (hlisted : arm ∈ registry.armsOf contest) :
    contest ∈ registry.index.keys.mergeSort Contest.precedes := by
  rw [(List.mergeSort_perm _ _).mem_iff]
  cases hids : registry.index.find? contest with
  | none => simp [armsOf, idsOf, hids] at hlisted
  | some ids =>
    exact List.mem_map_of_mem ((Table.mem_entries_iff registry.index contest ids).mpr hids)

theorem mem_allArms_iff (hsound : registry.Sound) (arm : Arm) :
    arm ∈ registry.allArms ↔ arm ∈ registry.armsOf arm.contest := by
  rw [allArms, List.mem_flatMap]
  constructor
  · rintro ⟨contest, -, hlisted⟩
    obtain ⟨-, rfl⟩ := (mem_armsOf_iff hsound contest arm).mp hlisted
    exact hlisted
  · intro hlisted
    exact ⟨arm.contest, mem_keys_of_mem_armsOf hlisted, hlisted⟩

theorem exists_allArms_eq_flatMap (registry : Registry) :
    ∃ contests : List Contest, contests.Pairwise (fun a b => a.key < b.key) ∧
      registry.allArms = contests.flatMap registry.armsOf :=
  ⟨_, Contest.pairwise_key_lt_mergeSort registry.index.distinct, rfl⟩

/-- The arms of a symbol are listed in ascending order of its contests that have arms. -/
theorem exists_filter_allArms (hsound : registry.Sound) (symbol : String) :
    ∃ contests : List Contest, contests.Pairwise (fun a b => a.key < b.key) ∧
      (∀ contest, contest ∈ contests ↔
        contest.symbol = symbol ∧ registry.armsOf contest ≠ []) ∧
      (registry.allArms.filter fun arm => arm.contest.symbol = symbol) =
        contests.flatMap registry.armsOf := by
  let keep (contest : Contest) : Bool :=
    contest.symbol = symbol ∧ registry.armsOf contest ≠ []
  have hfilter (contests : List Contest) :
      (contests.flatMap registry.armsOf).filter (fun arm => arm.contest.symbol = symbol) =
        (contests.filter keep).flatMap registry.armsOf := by
    induction contests with
    | nil => rfl
    | cons contest rest ih =>
      have hcontest : ∀ arm ∈ registry.armsOf contest, arm.contest = contest :=
        fun arm harm => ((mem_armsOf_iff hsound contest arm).mp harm).2
      rw [List.flatMap_cons, List.filter_append, ih, List.filter_cons]
      by_cases hsymbol : contest.symbol = symbol
      · rw [List.filter_eq_self.mpr fun arm harm => by
          rw [hcontest arm harm, hsymbol, decide_eq_true rfl]]
        by_cases hnone : registry.armsOf contest = []
        · rw [if_neg (by simp [keep, hnone]), hnone, List.nil_append]
        · rw [if_pos (by simp [keep, hsymbol, hnone]), List.flatMap_cons]
      · rw [List.filter_eq_nil_iff.mpr fun arm harm => by
          rw [hcontest arm harm, decide_eq_true_eq]
          exact hsymbol]
        rw [if_neg (by simp [keep, hsymbol]), List.nil_append]
  refine ⟨(registry.index.keys.mergeSort Contest.precedes).filter keep,
    (Contest.pairwise_key_lt_mergeSort registry.index.distinct).filter keep, fun contest => ?_,
    hfilter _⟩
  rw [List.mem_filter, decide_eq_true_eq, and_iff_right_iff_imp]
  rintro ⟨-, hsome⟩
  obtain ⟨arm, harm⟩ := List.exists_mem_of_ne_nil _ hsome
  obtain ⟨-, rfl⟩ := (mem_armsOf_iff hsound contest arm).mp harm
  exact mem_keys_of_mem_armsOf harm

end Registry

end ExposureControl
