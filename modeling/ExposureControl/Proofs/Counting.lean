import Mathlib

/-!
# Counting

What is counted key by key adds up to what is counted at once, and what a filter drops is counted
by the length that it takes away.
-/

namespace ExposureControl

variable {α : Type}

theorem sum_countP_eq {κ : Type} [DecidableEq κ] (key : α → κ) {keys : List κ}
    (hdistinct : keys.Nodup) (items : List α) :
    (keys.map fun each => items.countP fun item => key item = each).sum =
      items.countP fun item => key item ∈ keys := by
  induction keys with
  | nil => simp
  | cons first rest ih =>
    obtain ⟨hfirst, hrest⟩ := List.nodup_cons.mp hdistinct
    rw [List.map_cons, List.sum_cons, ih hrest]
    clear ih
    induction items with
    | nil => rfl
    | cons item items ih =>
      -- an item has the first key or one of the rest, and not both
      have hone : (if key item = first then 1 else 0) + (if key item ∈ rest then 1 else 0) =
          if key item = first ∨ key item ∈ rest then 1 else 0 := by
        by_cases hkey : key item = first
        · rw [hkey]
          simp [hfirst]
        · simp [hkey]
      simp only [List.countP_cons, decide_eq_true_eq, List.mem_cons] at ih ⊢
      rw [← hone, ← ih]
      omega

theorem length_sub_length_filter (keep : α → Bool) (xs : List α) :
    xs.length - (xs.filter keep).length = xs.countP fun x => !keep x := by
  have hsplit := List.length_eq_countP_add_countP keep (l := xs)
  have hnot : (xs.countP fun x => !keep x) = xs.countP fun x => decide ¬ keep x = true :=
    List.countP_congr fun x _ => by simp
  rw [← List.countP_eq_length_filter, hnot]
  omega

theorem countP_not_filter (keep : α → Bool) (xs : List α) :
    ((xs.filter keep).countP fun x => !keep x) = 0 :=
  List.countP_eq_zero.mpr fun x hx => by simp [(List.mem_filter.mp hx).2]

end ExposureControl
