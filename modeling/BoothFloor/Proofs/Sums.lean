import Mathlib.Algebra.BigOperators.Group.List.Basic
import Mathlib.Algebra.GroupWithZero.Nat
import Mathlib.Algebra.Order.BigOperators.Group.List
import Mathlib.Algebra.Order.Group.Nat

/-!
# Sums over rows

What is counted by its senders and what is counted by its receivers adds up to the same number. The lemmas
here compare such sums.
-/

namespace BoothFloor

variable {α β : Type}

/-- A cost of one for some entries adds up to their number. -/
theorem sum_map_ite_one (p : α → Bool) (l : List α) : (l.map fun a => if p a then 1 else 0).sum = l.countP p := by
  induction l with
  | nil => rfl
  | cons a rest ih =>
    rw [List.map_cons, List.sum_cons, ih, List.countP_cons]
    exact Nat.add_comm _ _

/-- A sum over two rows may be taken in either order. -/
theorem sum_sum_comm (as : List α) (bs : List β) (f : α → β → Nat) :
    (as.map fun a => (bs.map fun b => f a b).sum).sum =
      (bs.map fun b => (as.map fun a => f a b).sum).sum := by
  induction as with
  | nil => simp
  | cons a rest ih => simp only [List.map_cons, List.sum_cons, ih, List.sum_map_add]

/-- Among distinct entries, what is counted for one of them is counted once at most. -/
theorem sum_ite_eq_le [DecidableEq α] {l : List α} (hnodup : l.Nodup) (a : α) (n : Nat) :
    (l.map fun x => if x = a then n else 0).sum ≤ n := by
  induction l with
  | nil => exact Nat.zero_le n
  | cons x rest ih =>
    obtain ⟨hfirst, hrest⟩ := List.nodup_cons.mp hnodup
    rw [List.map_cons, List.sum_cons]
    by_cases hx : x = a
    · have hnone : (rest.map fun y => if y = a then n else 0).sum = 0 := by
        refine List.sum_eq_zero fun k hk => ?_
        obtain ⟨y, hy, rfl⟩ := List.mem_map.mp hk
        exact if_neg fun heq : y = a => hfirst (hx.trans heq.symm ▸ hy)
      rw [if_pos hx, hnone]
      exact Nat.le_refl n
    · rw [if_neg hx, Nat.zero_add]
      exact ih hrest

/-- What some entries of a row stand for is counted for all of them. -/
theorem sum_filterMap_le {g : α → Option β} {f : β → Nat} {w : α → Nat}
    (hle : ∀ a b, g a = some b → f b ≤ w a) (l : List α) : ((l.filterMap g).map f).sum ≤ (l.map w).sum := by
  induction l with
  | nil => exact Nat.le_refl _
  | cons a rest ih =>
    rw [List.filterMap_cons, List.map_cons, List.sum_cons]
    cases hg : g a with
    | none => exact Nat.le_trans ih (Nat.le_add_left _ _)
    | some b =>
      rw [List.map_cons, List.sum_cons]
      exact Nat.add_le_add (hle a b hg) ih

/-- A sum over a row is at most the one over its parts, if each entry belongs to one of these. -/
theorem sum_le_sum_filter [DecidableEq β] (key : α → β) (w : α → Nat) {l : List α} {keys : List β}
    (hkeys : ∀ a ∈ l, key a ∈ keys) :
    (l.map w).sum ≤ (keys.map fun k => ((l.filter fun a => key a = k).map w).sum).sum := by
  have hfilter (k : β) : ((l.filter fun a => key a = k).map w).sum =
      (l.map fun a => if key a = k then w a else 0).sum := by
    rw [List.sum_map_ite]
    simp
  simp only [hfilter]
  rw [sum_sum_comm]
  refine List.sum_le_sum fun a ha => ?_
  have hown : (if key a = key a then w a else 0) ∈ keys.map fun k => if key a = k then w a else 0 :=
    List.mem_map_of_mem (f := fun k => if key a = k then w a else 0) (hkeys a ha)
  rw [if_pos rfl] at hown
  exact List.le_sum_of_mem hown

end BoothFloor
