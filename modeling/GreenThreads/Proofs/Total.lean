import Mathlib.Algebra.GroupWithZero.Nat
import Mathlib.Data.List.Basic

/-!
# Totals over arrays

A total counts something over all carriers of an engine. When one of them changes, the total changes
by as much as that one does.
-/

namespace GreenThreads

variable {α : Type} {f g : α → Nat} {xs : Array α} {x y : α} {i j : Nat}

/-! ## Changes of one place -/

theorem modify_congr {h k : α → α} (hi : xs[i]? = some x) (hx : h x = k x) :
    xs.modify i h = xs.modify i k := by
  apply Array.ext_getElem?
  intro j
  simp only [Array.getElem?_modify]
  split
  · next hj =>
      subst hj
      rw [hi, Option.map_some, Option.map_some, hx]
  · rfl

theorem modify_eq_self {h : α → α} (hi : xs[i]? = some x) (hx : h x = x) : xs.modify i h = xs := by
  rw [modify_congr (k := id) hi hx]
  apply Array.ext_getElem?
  intro j
  rw [Array.getElem?_modify, Option.map_id, id, ite_self]

theorem modify_modify (xs : Array α) (i : Nat) (h k : α → α) :
    (xs.modify i h).modify i k = xs.modify i fun x => k (h x) := by
  apply Array.ext_getElem?
  intro j
  simp only [Array.getElem?_modify]
  split
  · rw [Option.map_map]
    rfl
  · rfl

/-! ## Totals -/

/-- The sum of `f` over an array. -/
def total (f : α → Nat) (xs : Array α) : Nat := (xs.toList.map f).sum

theorem sum_map_modify (l : List α) (i : Nat) (h : α → α) (hi : l[i]? = some x) :
    ((l.modify i h).map f).sum + f x = (l.map f).sum + f (h x) := by
  induction l generalizing i with
  | nil => cases hi
  | cons y l ih =>
      cases i with
      | zero =>
          cases hi
          simp only [List.modify_zero_cons, List.map_cons, List.sum_cons]
          omega
      | succ i =>
          have hrest := ih i hi
          simp only [List.modify_succ_cons, List.map_cons, List.sum_cons]
          omega

theorem total_modify (h : α → α) (hi : xs[i]? = some x) :
    total f (xs.modify i h) + f x = total f xs + f (h x) := by
  unfold total
  rw [Array.toList_modify]
  exact sum_map_modify xs.toList i h (by rw [Array.getElem?_toList]; exact hi)

/-- A change that `f` does not see leaves the total as it is. -/
theorem total_modify_of_eq (h : α → α) (heq : ∀ x, xs[i]? = some x → f (h x) = f x) :
    total f (xs.modify i h) = total f xs := by
  cases hi : xs[i]? with
  | none =>
      rw [Array.getElem?_eq_none_iff] at hi
      unfold total
      rw [Array.toList_modify, List.modify_eq_self (by simpa using hi)]
  | some x =>
      have hmod := total_modify (f := f) h hi
      have hsame := heq x hi
      omega

theorem total_congr (h : ∀ x ∈ xs, f x = g x) : total f xs = total g xs := by
  unfold total
  congr 1
  exact List.map_congr_left fun x hx => h x (Array.mem_toList_iff.mp hx)

theorem total_le_total (h : ∀ x, f x ≤ g x) (xs : Array α) : total f xs ≤ total g xs := by
  unfold total
  induction xs.toList with
  | nil => exact Nat.le_refl _
  | cons x l ih =>
      have hx := h x
      simp only [List.map_cons, List.sum_cons]
      omega

theorem total_add (xs : Array α) : total (fun x => f x + g x) xs = total f xs + total g xs := by
  unfold total
  induction xs.toList with
  | nil => rfl
  | cons x l ih =>
      simp only [List.map_cons, List.sum_cons]
      omega

theorem le_sum_map {l : List α} (hx : x ∈ l) : f x ≤ (l.map f).sum := by
  induction hx with
  | head l =>
      simp only [List.map_cons, List.sum_cons]
      omega
  | tail y _ ih =>
      simp only [List.map_cons, List.sum_cons]
      omega

theorem le_total (hi : xs[i]? = some x) : f x ≤ total f xs :=
  le_sum_map (Array.mem_toList_iff.mpr (Array.mem_of_getElem? hi))

theorem add_le_sum_map (l : List α) (i j : Nat) (hi : l[i]? = some x) (hj : l[j]? = some y)
    (hij : i ≠ j) : f x + f y ≤ (l.map f).sum := by
  induction l generalizing i j with
  | nil => cases hi
  | cons z l ih =>
      simp only [List.map_cons, List.sum_cons]
      cases i with
      | zero =>
          cases hi
          cases j with
          | zero => exact absurd rfl hij
          | succ j =>
              have hy : f y ≤ (l.map f).sum := le_sum_map (List.mem_of_getElem? hj)
              omega
      | succ i =>
          cases j with
          | zero =>
              cases hj
              have hx : f x ≤ (l.map f).sum := le_sum_map (List.mem_of_getElem? hi)
              omega
          | succ j =>
              have hrest := ih i j hi hj (by omega)
              omega

/-- Two different elements contribute both. -/
theorem add_le_total (hi : xs[i]? = some x) (hj : xs[j]? = some y) (hij : i ≠ j) :
    f x + f y ≤ total f xs :=
  add_le_sum_map xs.toList i j (by rw [Array.getElem?_toList]; exact hi)
    (by rw [Array.getElem?_toList]; exact hj) hij

/-- A positive total has a positive element. -/
theorem exists_of_total_pos (h : 0 < total f xs) :
    ∃ (i : Nat) (x : α), xs[i]? = some x ∧ 0 < f x := by
  obtain ⟨n, hn, hpos⟩ := List.sum_pos_iff_exists_pos_nat.mp h
  obtain ⟨x, hx, rfl⟩ := List.mem_map.mp hn
  obtain ⟨i, hi⟩ := Array.mem_iff_getElem?.mp (Array.mem_toList_iff.mp hx)
  exact ⟨i, x, hi, hpos⟩

theorem total_eq_zero (h : ∀ x ∈ xs, f x = 0) : total f xs = 0 := by
  rcases Nat.eq_zero_or_pos (total f xs) with hzero | hpos
  · exact hzero
  · obtain ⟨i, x, hi, hx⟩ := exists_of_total_pos hpos
    have hnone := h x (Array.mem_of_getElem? hi)
    omega

end GreenThreads
