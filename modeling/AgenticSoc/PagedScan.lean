import Mathlib.Data.List.TakeDrop
import Mathlib.Tactic.Common

/-!
# Scanning a list by pages

A list is read through a query with a limit and an offset, whose limit is capped
silently. The scan asks for pages up to a bound and takes a page shorter than asked for
as the end of the list, which is right as long as no page asked for exceeds the cap.
-/
namespace PagedScan

variable {α : Type}

/-- What the query returns. -/
def query (l : List α) (cap limit offset : Nat) : List α := (l.drop offset).take (min limit cap)

/-- The rows scanned and whether a short page was seen. -/
def scan (fetch : Nat → Nat → List α) (size bound : Nat) : Nat → List α → List α × Bool
  | 0, rows => (rows, false)
  | fuel + 1, rows =>
    if rows.length < bound then
      let limit := min size (bound - rows.length)
      let page := fetch limit rows.length
      if page.length < limit then (rows ++ page, true) else scan fetch size bound fuel (rows ++ page)
    else (rows, false)

/-- A bound that is not reached by the end of the list leaves rows if the next one exists. -/
def cutShort (fetch : Nat → Nat → List α) (out : List α × Bool) : Bool :=
  !out.2 && !(fetch 1 out.1.length).isEmpty

section Scans

variable {l : List α} {cap size bound : Nat}

theorem take_append_page (n limit : Nat) (hlimit : limit ≤ cap) :
    l.take n ++ query l cap limit n = l.take (n + limit) := by
  rw [query, Nat.min_eq_left hlimit, List.take_add]

theorem query_length (limit offset : Nat) :
    (query l cap limit offset).length = min (min limit cap) (l.length - offset) := by
  rw [query, List.length_take, List.length_drop]

/-- With pages below the cap the scan is the list up to the bound. -/
theorem scan_below (hsize : 0 < size) (hcap : min size bound ≤ cap) (fuel n : Nat) (hn : n ≤ l.length)
    (hnb : n ≤ bound) (hfuel : bound - n ≤ fuel) :
    scan (query l cap) size bound fuel (l.take n) = (l.take bound, decide (l.length < bound)) := by
  induction fuel generalizing n with
  | zero =>
    have hend : n = bound := by omega
    subst hend
    have hlong : ¬ l.length < n := by omega
    simp only [scan, hlong, decide_false]
  | succ fuel ih =>
    have hlen : (l.take n).length = n := by rw [List.length_take, Nat.min_eq_left hn]
    unfold scan
    rw [hlen]
    by_cases hmore : n < bound
    · rw [if_pos hmore]
      have hlimit : min size (bound - n) ≤ cap := by omega
      simp only [query_length, Nat.min_eq_left hlimit, take_append_page n _ hlimit]
      by_cases hshort : min (min size (bound - n)) (l.length - n) < min size (bound - n)
      · have hends : l.length < bound := by omega
        rw [if_pos hshort, List.take_of_length_le (by omega), List.take_of_length_le (Nat.le_of_lt hends)]
        simp only [hends, decide_true]
      · rw [if_neg hshort]
        exact ih (n + min size (bound - n)) (by omega) (by omega) (by omega)
    · have hend : n = bound := by omega
      subst hend
      have hlong : ¬ l.length < n := by omega
      rw [if_neg hmore]
      simp only [hlong, decide_false]

/-- A first page above the cap comes short whatever the list holds. -/
theorem scan_above (hcap : cap < min size bound) (fuel : Nat) :
    scan (query l cap) size bound (fuel + 1) [] = (l.take cap, true) := by
  have hmore : (([] : List α).length) < bound := by
    rw [List.length_nil]
    omega
  unfold scan
  rw [if_pos hmore]
  have hlimit : min size (bound - ([] : List α).length) = min size bound := by
    rw [List.length_nil, Nat.sub_zero]
  simp only [hlimit, query_length]
  rw [if_pos (by omega), query, Nat.min_eq_right (Nat.le_of_lt hcap)]
  rfl

theorem cutShort_below (hcap : 1 ≤ cap) :
    cutShort (query l cap) (l.take bound, decide (l.length < bound)) = decide (bound < l.length) := by
  unfold cutShort
  rw [Bool.eq_iff_iff, Bool.and_eq_true, Bool.not_eq_true', decide_eq_false_iff_not, decide_eq_true_iff,
    Bool.not_eq_true', List.isEmpty_eq_false_iff_exists_mem]
  have hpage : (∃ x, x ∈ query l cap 1 (l.take bound).length) ↔ (l.take bound).length < l.length := by
    rw [← List.length_pos_iff_exists_mem, query_length]
    omega
  rw [hpage, List.length_take]
  omega

end Scans

end PagedScan
