import Mathlib.Data.List.Sort
import Mathlib.Data.List.Perm.Basic
import Mathlib.Data.Prod.Lex

/-!
# Sorting by a key, and the least element

The sort is stable. With distinct keys it does not depend on the order of its input.
-/
namespace Sorting

variable {α β κ : Type} [LinearOrder κ]

/-- The elements in ascending order of their keys. -/
def sortBy (key : α → κ) (l : List α) : List α := l.insertionSort fun a b => key a ≤ key b

/-- The first element with the least key. -/
def minBy (key : α → κ) : List α → Option α
  | [] => none
  | a :: l => some (l.foldl (fun m x => if key x < key m then x else m) a)

theorem sortBy_perm (key : α → κ) (l : List α) : (sortBy key l).Perm l :=
  List.perm_insertionSort _ l

theorem mem_sortBy {key : α → κ} {l : List α} {a : α} : a ∈ sortBy key l ↔ a ∈ l :=
  (sortBy_perm key l).mem_iff

theorem sortBy_pairwise (key : α → κ) (l : List α) :
    (sortBy key l).Pairwise fun a b => key a ≤ key b := by
  have : Std.Total fun a b : α => key a ≤ key b := ⟨fun a b => le_total (key a) (key b)⟩
  have : IsTrans α fun a b => key a ≤ key b := ⟨fun _ _ _ h h' => le_trans h h'⟩
  exact List.pairwise_insertionSort _ l

theorem sortBy_eq_self {key : α → κ} {l : List α} (h : l.Pairwise fun a b => key a ≤ key b) :
    sortBy key l = l := h.insertionSort_eq

theorem sortBy_nodup {key : α → κ} {l : List α} (h : (l.map key).Nodup) :
    ((sortBy key l).map key).Nodup :=
  ((sortBy_perm key l).map key).nodup_iff.mpr h

/-- With distinct keys the sorted list is strictly ascending. -/
theorem sortBy_strict {key : α → κ} {l : List α} (h : (l.map key).Nodup) :
    (sortBy key l).Pairwise fun a b => key a < key b := by
  have hdistinct : (sortBy key l).Pairwise fun a b => key a ≠ key b :=
    List.pairwise_map.mp (sortBy_nodup h)
  exact ((sortBy_pairwise key l).and hdistinct).imp fun hab => lt_of_le_of_ne hab.1 hab.2

/-- A list in ascending order of distinct keys is determined by its members. -/
theorem eq_of_perm_of_strict {key : α → κ} {l l' : List α} (hp : l.Perm l')
    (h : l.Pairwise fun a b => key a < key b) (h' : l'.Pairwise fun a b => key a < key b) :
    l = l' :=
  List.Perm.eq_of_pairwise (fun _ _ _ _ hab hba => absurd hab (lt_asymm hba)) h h' hp

theorem sortBy_congr {key : α → κ} {l l' : List α} (hp : l.Perm l') (h : (l.map key).Nodup) :
    sortBy key l = sortBy key l' := by
  have h' : (l'.map key).Nodup := (hp.map key).nodup_iff.mp h
  exact eq_of_perm_of_strict ((sortBy_perm key l).trans (hp.trans (sortBy_perm key l').symm))
    (sortBy_strict h) (sortBy_strict h')

theorem sortBy_map {κ' : Type} [LinearOrder κ'] {key : α → κ} {key' : β → κ'} {f : α → β} {l : List α}
    (h : ∀ a ∈ l, ∀ b ∈ l, key a ≤ key b ↔ key' (f a) ≤ key' (f b)) :
    (sortBy key l).map f = sortBy key' (l.map f) :=
  List.map_insertionSort (fun a b => key a ≤ key b) (fun a b => key' a ≤ key' b) f l h

/-- The scan for the least element keeps a lower bound of what it has seen. -/
theorem foldl_min (key : α → κ) (l : List α) (a : α) :
    let m := l.foldl (fun m x => if key x < key m then x else m) a
    m ∈ a :: l ∧ ∀ x ∈ a :: l, key m ≤ key x := by
  induction l generalizing a with
  | nil => simp
  | cons b l ih =>
    simp only [List.foldl_cons]
    by_cases hb : key b < key a
    · rw [if_pos hb]
      obtain ⟨hmem, hle⟩ := ih b
      refine ⟨List.mem_cons_of_mem a hmem, ?_⟩
      intro x hx
      rcases List.mem_cons.mp hx with rfl | hx
      · exact (hle b (by simp)).trans (le_of_lt hb)
      · exact hle x hx
    · rw [if_neg hb]
      obtain ⟨hmem, hle⟩ := ih a
      refine ⟨?_, ?_⟩
      · rcases List.mem_cons.mp hmem with h | h
        · rw [h]
          exact List.mem_cons_self
        · exact List.mem_cons_of_mem a (List.mem_cons_of_mem b h)
      · intro x hx
        rcases List.mem_cons.mp hx with rfl | hx
        · exact hle x (by simp)
        · rcases List.mem_cons.mp hx with rfl | hx
          · exact (hle a (by simp)).trans (not_lt.mp hb)
          · exact hle x (List.mem_cons_of_mem a hx)

theorem minBy_some {key : α → κ} {l : List α} {m : α} (h : minBy key l = some m) :
    m ∈ l ∧ ∀ x ∈ l, key m ≤ key x := by
  cases l with
  | nil => cases h
  | cons a l =>
    cases h
    exact foldl_min key l a

theorem minBy_ne_none {key : α → κ} {l : List α} (h : l ≠ []) : ∃ m, minBy key l = some m := by
  cases l with
  | nil => exact absurd rfl h
  | cons a l => exact ⟨_, rfl⟩

end Sorting
