import Mathlib.Data.List.Sort
import Mathlib.Order.Basic

/-!
# Insertion by bisection

Elements are inserted into a sorted list with a comparison that fails for some pairs. The
comparison orders by a key where it succeeds; a pair that clashes makes it fail.
-/
namespace Bisection

variable {ε α : Type}

section Insertion

variable (lessThan : α → α → Except ε Bool)

/-- The position after the elements that are not greater, between two positions. -/
def bisectRight (l : List α) (x : α) : Nat → Nat → Nat → Except ε Nat
  | 0, lo, _ => .ok lo
  | fuel + 1, lo, hi =>
    if lo < hi then
      match l[(lo + hi) / 2]? with
      | none => .ok lo
      | some y => do
        if (← lessThan x y) then bisectRight l x fuel lo ((lo + hi) / 2)
        else bisectRight l x fuel ((lo + hi) / 2 + 1) hi
    else .ok lo

/-- Every turn halves the range, so its length bounds the turns. -/
def insort (l : List α) (x : α) : Except ε (List α) := do
  let i ← bisectRight lessThan l x l.length 0 l.length
  pure (l.take i ++ x :: l.drop i)

end Insertion

/-- A comparison by a key that fails for clashing pairs. Elements between two that clash
clash with one of them. -/
structure Comparison {κ : Type} [LinearOrder κ] (lessThan : α → α → Except ε Bool) (key : α → κ)
    (clash : α → α → Prop) (failure : ε) : Prop where
  compares : ∀ x y, ¬ clash x y → lessThan x y = .ok (decide (key x < key y))
  fails : ∀ x y, clash x y → lessThan x y = .error failure
  below : ∀ x y z, clash x y → ¬ clash x z → key y ≤ key z → key z ≤ key x → clash y z
  above : ∀ x y z, clash x y → ¬ clash x z → key x ≤ key z → key z ≤ key y → clash z y

section Sorted

variable {κ : Type} [LinearOrder κ] {lessThan : α → α → Except ε Bool} {key : α → κ} {clash : α → α → Prop}
  {failure : ε} (C : Comparison lessThan key clash failure)

/-- What a search has found out: nothing before the range is greater, nothing behind it is not,
and the elements next to the range do not clash. -/
structure Found (key : α → κ) (clash : α → α → Prop) (l : List α) (x : α) (lo hi : Nat) : Prop where
  before : ∀ i, i < lo → ∀ y ∈ l[i]?, key y ≤ key x
  behind : ∀ i, hi ≤ i → ∀ y ∈ l[i]?, key x < key y
  left : ∀ i, i + 1 = lo → ∀ y ∈ l[i]?, ¬ clash x y
  right : ∀ y ∈ l[hi]?, ¬ clash x y

include C in
theorem bisectRight_spec {l : List α} (hl : l.Pairwise fun a b => key a ≤ key b) (x : α) (fuel lo hi : Nat)
    (hfuel : hi - lo ≤ fuel) (hle : lo ≤ hi) (hhi : hi ≤ l.length) (h : Found key clash l x lo hi) :
    (∃ i, bisectRight lessThan l x fuel lo hi = .ok i ∧ i ≤ l.length ∧ Found key clash l x i i) ∨
      (bisectRight lessThan l x fuel lo hi = .error failure ∧ ∃ y ∈ l, clash x y) := by
  have hmono : ∀ i j (hi : i < l.length) (hj : j < l.length), i ≤ j → key l[i] ≤ key l[j] := by
    intro i j hi hj hij
    rcases Nat.lt_or_eq_of_le hij with hlt | rfl
    · exact List.pairwise_iff_getElem.mp hl i j hi hj hlt
    · exact le_rfl
  induction fuel generalizing lo hi with
  | zero =>
    have : lo = hi := by omega
    subst this
    exact .inl ⟨lo, rfl, hhi, h⟩
  | succ fuel ih =>
    rw [bisectRight]
    by_cases hlt : lo < hi
    · have hmid : (lo + hi) / 2 < l.length := by omega
      rw [if_pos hlt, List.getElem?_eq_getElem hmid]
      by_cases hclash : clash x l[(lo + hi) / 2]
      · refine .inr ⟨?_, _, List.getElem_mem hmid, hclash⟩
        simp only [C.fails _ _ hclash]
        rfl
      · simp only [C.compares _ _ hclash]
        by_cases hkey : key x < key l[(lo + hi) / 2]
        · rw [decide_eq_true hkey]
          refine ih lo ((lo + hi) / 2) (by omega) (by omega) (by omega) ⟨h.before, ?_, h.left, ?_⟩
          · intro i hi y hy
            obtain ⟨hlen, rfl⟩ := List.getElem?_eq_some_iff.mp hy
            exact hkey.trans_le (hmono _ _ hmid hlen hi)
          · rw [List.getElem?_eq_getElem hmid]
            rintro y ⟨⟩
            exact hclash
        · rw [decide_eq_false hkey]
          refine ih ((lo + hi) / 2 + 1) hi (by omega) (by omega) hhi ⟨?_, h.behind, ?_, h.right⟩
          · intro i hi y hy
            obtain ⟨hlen, rfl⟩ := List.getElem?_eq_some_iff.mp hy
            exact (hmono _ _ hlen hmid (by omega)).trans (not_lt.mp hkey)
          · intro i hnext y hy
            obtain rfl : i = (lo + hi) / 2 := by omega
            rw [List.getElem?_eq_getElem hmid] at hy
            cases hy
            exact hclash
    · have : lo = hi := by omega
      subst this
      rw [if_neg hlt]
      exact .inl ⟨lo, rfl, hhi, h⟩

include C in
/-- Insertion fails exactly when a clashing element is there; otherwise the list stays sorted. -/
theorem insort_spec {l : List α} (hl : l.Pairwise fun a b => key a ≤ key b) (hclear : l.Pairwise fun a b => ¬ clash a b)
    (x : α) :
    ((∃ y ∈ l, clash x y) ∧ insort lessThan l x = .error failure) ∨
      ((∀ y ∈ l, ¬ clash x y) ∧ ∃ l', insort lessThan l x = .ok l' ∧ l'.Perm (x :: l) ∧
        l'.Pairwise fun a b => key a ≤ key b) := by
  have hstart : Found key clash l x 0 l.length := by
    refine ⟨fun i hi => absurd hi (Nat.not_lt_zero i), fun i hi y hy => ?_, fun i hi => absurd hi (Nat.succ_ne_zero i),
      fun y hy => ?_⟩
    · rw [List.getElem?_eq_none hi] at hy
      cases hy
    · rw [List.getElem?_eq_none le_rfl] at hy
      cases hy
  rcases bisectRight_spec C hl x l.length 0 l.length (by omega) (Nat.zero_le _) le_rfl hstart with
    ⟨i, hfound, hle, h⟩ | ⟨hfailed, hy⟩
  · right
    constructor
    · intro y hy hclash
      obtain ⟨j, hj, rfl⟩ := List.getElem_of_mem hy
      rcases Nat.lt_or_ge j i with hji | hij
      · have hlast : i - 1 < l.length := by omega
        have hnot := h.left (i - 1) (by omega) _ (List.getElem?_eq_getElem hlast)
        rcases Nat.lt_or_eq_of_le (show j ≤ i - 1 by omega) with hlt | rfl
        · exact List.pairwise_iff_getElem.mp hclear j (i - 1) hj hlast hlt
            (C.below _ _ _ hclash hnot (List.pairwise_iff_getElem.mp hl j (i - 1) hj hlast hlt)
              (h.before (i - 1) (by omega) _ (List.getElem?_eq_getElem hlast)))
        · exact hnot hclash
      · have hfirst : i < l.length := by omega
        have hnot := h.right _ (List.getElem?_eq_getElem hfirst)
        rcases Nat.lt_or_eq_of_le hij with hlt | rfl
        · exact List.pairwise_iff_getElem.mp hclear i j hfirst hj hlt
            (C.above _ _ _ hclash hnot (h.behind i le_rfl _ (List.getElem?_eq_getElem hfirst)).le
              (List.pairwise_iff_getElem.mp hl i j hfirst hj hlt))
        · exact hnot hclash
    · refine ⟨l.take i ++ x :: l.drop i, ?_, ?_, ?_⟩
      · rw [insort, hfound]
        rfl
      · exact List.perm_middle.trans (by rw [List.take_append_drop])
      · rw [List.pairwise_append, List.pairwise_cons]
        refine ⟨hl.sublist (List.take_sublist i l), ⟨?_, hl.sublist (List.drop_sublist i l)⟩, ?_⟩
        · intro y hy
          obtain ⟨j, hj, rfl⟩ := List.getElem_of_mem hy
          rw [List.getElem_drop]
          rw [List.length_drop] at hj
          exact (h.behind (i + j) (by omega) _ (List.getElem?_eq_getElem (by omega))).le
        · intro y hy z hz
          obtain ⟨j, hj, rfl⟩ := List.getElem_of_mem hy
          rw [List.length_take] at hj
          have hyx : key (l.take i)[j] ≤ key x := by
            rw [List.getElem_take]
            exact h.before j (by omega) _ (List.getElem?_eq_getElem (by omega))
          rcases List.mem_cons.mp hz with rfl | hz
          · exact hyx
          · obtain ⟨k, hk, rfl⟩ := List.getElem_of_mem hz
            rw [List.getElem_drop]
            rw [List.length_drop] at hk
            exact hyx.trans (h.behind (i + k) (by omega) _ (List.getElem?_eq_getElem (by omega))).le
  · left
    refine ⟨hy, ?_⟩
    rw [insort, hfailed]
    rfl

end Sorted

end Bisection
