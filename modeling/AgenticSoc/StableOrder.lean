import AgenticSoc.Sorting

/-!
# Stable order

A list in ascending order of its keys is determined by what it has under each key. A merge
of sorted lists takes the least head, the first one on ties.
-/
namespace StableOrder

open Sorting

variable {α κ : Type} [LinearOrder κ] (key : α → κ)

def Ascending (l : List α) : Prop := l.Pairwise fun a b => key a ≤ key b

/-- The elements with the given key, in their order. -/
def under (k : κ) (l : List α) : List α := l.filter fun a => key a = k

variable {key}

theorem mem_under {k : κ} {l : List α} {a : α} : a ∈ under key k l ↔ a ∈ l ∧ key a = k := by
  simp [under]

theorem under_append (k : κ) (l l' : List α) : under key k (l ++ l') = under key k l ++ under key k l' :=
  List.filter_append ..

theorem under_cons (k : κ) (a : α) (l : List α) :
    under key k (a :: l) = if key a = k then a :: under key k l else under key k l := by
  simp [under, List.filter_cons]

/-- Lists with the same elements under each key have the same elements. -/
theorem mem_of_under {l l' : List α} (h : ∀ k, under key k l = under key k l') (a : α) : a ∈ l ↔ a ∈ l' := by
  have hl : ∀ l : List α, a ∈ l ↔ a ∈ under key (key a) l := fun l => by simp [mem_under]
  rw [hl l, hl l', h]

theorem head_least {a : α} {l : List α} (h : Ascending key (a :: l)) {b : α} (hb : b ∈ a :: l) : key a ≤ key b := by
  rcases List.mem_cons.mp hb with rfl | hb
  · exact le_refl _
  · exact (List.pairwise_cons.mp h).1 b hb

/-- Ascending lists with the same elements under each key are equal. -/
theorem eq_of_under {l l' : List α} (hl : Ascending key l) (hl' : Ascending key l')
    (h : ∀ k, under key k l = under key k l') : l = l' := by
  induction l generalizing l' with
  | nil =>
    cases l' with
    | nil => rfl
    | cons b l' => exact absurd ((mem_of_under h b).mpr (List.mem_cons_self ..)) List.not_mem_nil
  | cons a l ih =>
    cases l' with
    | nil => exact absurd ((mem_of_under h a).mp (List.mem_cons_self ..)) List.not_mem_nil
    | cons b l' =>
      have hab : key a = key b := le_antisymm
        (head_least hl ((mem_of_under h b).mpr (List.mem_cons_self ..)))
        (head_least hl' ((mem_of_under h a).mp (List.mem_cons_self ..)))
      have hheads : a :: under key (key a) l = b :: under key (key a) l' := by
        have hk := h (key a)
        rwa [under_cons, under_cons, if_pos rfl, if_pos hab.symm] at hk
      have hsame : a = b := (List.cons.inj hheads).1
      subst hsame
      have htails : ∀ k, under key k l = under key k l' := by
        intro k
        have hk := h k
        rw [under_cons, under_cons] at hk
        by_cases hak : key a = k
        · rw [if_pos hak, if_pos hak] at hk
          exact (List.cons.inj hk).2
        · rwa [if_neg hak, if_neg hak] at hk
      rw [ih hl.of_cons hl'.of_cons htails]

/-- Sorting leaves what is under each key in its order. -/
theorem under_sortBy (k : κ) (l : List α) : under key k (sortBy key l) = under key k l := by
  have hordered : (under key k l).Pairwise fun a b => key a ≤ key b := by
    refine List.pairwise_of_forall_mem_list fun a ha b hb => ?_
    rw [((mem_under).mp ha).2, ((mem_under).mp hb).2]
  have hsub : (under key k l).Sublist (sortBy key l) := by
    have : IsTrans α fun a b => key a ≤ key b := ⟨fun _ _ _ h h' => le_trans h h'⟩
    have : Std.Total fun a b : α => key a ≤ key b := ⟨fun a b => le_total (key a) (key b)⟩
    exact List.sublist_insertionSort hordered List.filter_sublist
  have hkept : under key k (under key k l) = under key k l := by simp [under]
  have hsub' : (under key k l).Sublist (under key k (sortBy key l)) := by
    have hfiltered := hsub.filter fun a => decide (key a = k)
    change (under key k (under key k l)).Sublist (under key k (sortBy key l)) at hfiltered
    rwa [hkept] at hfiltered
  have hlength : (under key k l).length = (under key k (sortBy key l)).length :=
    ((sortBy_perm key l).filter _).length_eq.symm
  exact (hsub'.eq_of_length hlength).symm

/-- The stable sort is the ascending list with the same elements under each key. -/
theorem eq_sortBy {l l' : List α} (hl' : Ascending key l') (h : ∀ k, under key k l' = under key k l) :
    l' = sortBy key l :=
  eq_of_under hl' (sortBy_pairwise key l) fun k => (h k).trans (under_sortBy k l).symm

/-! ## Merging -/

variable (key)

/-- The least head, of the first list on ties, and the lists without it. -/
def pick : List (List α) → Option (α × List (List α))
  | [] => none
  | [] :: lists => (pick lists).map fun p => (p.1, [] :: p.2)
  | (a :: l) :: lists =>
    match pick lists with
    | none => some (a, l :: lists)
    | some (b, rest) => if key b < key a then some (b, (a :: l) :: rest) else some (a, l :: lists)

variable {key}

theorem pick_length {lists rest : List (List α)} {a : α} (h : pick key lists = some (a, rest)) :
    lists.flatten.length = rest.flatten.length + 1 := by
  induction lists generalizing a rest with
  | nil => cases h
  | cons l lists ih =>
    cases l with
    | nil =>
      rw [pick] at h
      obtain ⟨⟨c, rest'⟩, hp, heq⟩ := Option.map_eq_some_iff.mp h
      cases heq
      have hlength := ih hp
      exact hlength
    | cons b l =>
      rw [pick] at h
      cases hp : pick key lists with
      | none =>
        rw [hp] at h
        cases h
        simp only [List.flatten_cons, List.length_append, List.length_cons]
        omega
      | some p =>
        rw [hp] at h
        have hlength : lists.flatten.length = p.2.flatten.length + 1 := ih hp
        simp only at h
        split at h <;> cases h <;> simp only [List.flatten_cons, List.length_append, List.length_cons] <;> omega

variable (key)

/-- All the elements of the lists, the least head first. -/
def merge (lists : List (List α)) : List α :=
  match _h : pick key lists with
  | none => []
  | some (a, rest) => a :: merge rest
termination_by lists.flatten.length
decreasing_by
  rw [pick_length _h]
  exact Nat.lt_succ_self _

variable {key}

theorem merge_some {lists rest : List (List α)} {a : α} (h : pick key lists = some (a, rest)) :
    merge key lists = a :: merge key rest := by
  rw [merge]
  split
  · rename_i h'
    rw [h] at h'
    cases h'
  · rename_i h'
    rw [h] at h'
    cases h'
    rfl

theorem merge_none {lists : List (List α)} (h : pick key lists = none) : merge key lists = [] := by
  rw [merge]
  split
  · rfl
  · rename_i h'
    rw [h] at h'
    cases h'

theorem pick_none {lists : List (List α)} (h : pick key lists = none) : lists.flatten = [] := by
  induction lists with
  | nil => rfl
  | cons l lists ih =>
    cases l with
    | nil => exact ih (Option.map_eq_none_iff.mp h)
    | cons b l =>
      rw [pick] at h
      cases hp : pick key lists with
      | none =>
        rw [hp] at h
        cases h
      | some p =>
        rw [hp] at h
        simp only at h
        split at h <;> cases h

/-- What is picked has the least key, is the first with that key, and leaves ascending lists. -/
structure Picked (key : α → κ) (lists rest : List (List α)) (a : α) : Prop where
  least : ∀ b ∈ lists.flatten, key a ≤ key b
  first : ∀ k, under key k lists.flatten = if key a = k then a :: under key k rest.flatten else under key k rest.flatten
  ascending : ∀ l ∈ rest, Ascending key l

theorem picked_head {a : α} {l : List α} {lists : List (List α)} (h : ∀ m ∈ (a :: l) :: lists, Ascending key m)
    (hleast : ∀ b ∈ lists.flatten, key a ≤ key b) : Picked key ((a :: l) :: lists) (l :: lists) a := by
  have hl := h (a :: l) (List.mem_cons_self ..)
  refine ⟨?_, fun k => ?_, ?_⟩
  · intro b hb
    rcases List.mem_append.mp hb with hb | hb
    · exact head_least hl hb
    · exact hleast b hb
  · rw [List.flatten_cons, List.cons_append, under_cons, List.flatten_cons]
  · intro m hm
    rcases List.mem_cons.mp hm with rfl | hm
    · exact hl.of_cons
    · exact h m (List.mem_cons_of_mem _ hm)

theorem picked_of_pick {lists rest : List (List α)} {a : α} (h : ∀ l ∈ lists, Ascending key l)
    (hp : pick key lists = some (a, rest)) : Picked key lists rest a := by
  induction lists generalizing a rest with
  | nil => cases hp
  | cons l lists ih =>
    have hmore : ∀ m ∈ lists, Ascending key m := fun m hm => h m (List.mem_cons_of_mem _ hm)
    cases l with
    | nil =>
      rw [pick] at hp
      obtain ⟨⟨c, rest'⟩, hp', heq⟩ := Option.map_eq_some_iff.mp hp
      cases heq
      have hpicked := ih hmore hp'
      exact ⟨hpicked.least, hpicked.first, List.forall_mem_cons.mpr ⟨List.Pairwise.nil, hpicked.ascending⟩⟩
    | cons b l =>
      have hb := h (b :: l) (List.mem_cons_self ..)
      rw [pick] at hp
      cases hnext : pick key lists with
      | none =>
        rw [hnext] at hp
        cases hp
        refine picked_head h ?_
        rw [pick_none hnext]
        exact fun c hc => absurd hc List.not_mem_nil
      | some p =>
        obtain ⟨c, rest'⟩ := p
        have hpicked := ih hmore hnext
        rw [hnext] at hp
        simp only at hp
        split at hp
        · rename_i hlt
          cases hp
          refine ⟨?_, fun k => ?_, List.forall_mem_cons.mpr ⟨hb, hpicked.ascending⟩⟩
          · intro d hd
            rcases List.mem_append.mp hd with hd | hd
            · exact (le_of_lt hlt).trans (head_least hb hd)
            · exact hpicked.least d hd
          · -- the first list has nothing under the key that is picked
            rw [List.flatten_cons, under_append, List.flatten_cons, under_append, hpicked.first]
            by_cases hk : key a = k
            · have hnone : under key k (b :: l) = [] := by
                refine List.filter_eq_nil_iff.mpr fun d hd => ?_
                have hbd := head_least hb hd
                rw [decide_eq_true_eq, ← hk]
                exact (lt_of_lt_of_le hlt hbd).ne'
              rw [if_pos hk, if_pos hk, hnone, List.nil_append, List.nil_append]
            · rw [if_neg hk, if_neg hk]
        · rename_i hle
          cases hp
          exact picked_head h fun d hd => (not_lt.mp hle).trans (hpicked.least d hd)

theorem under_merge (n : Nat) {lists : List (List α)} (hn : lists.flatten.length = n) (h : ∀ l ∈ lists, Ascending key l) :
    Ascending key (merge key lists) ∧ ∀ k, under key k (merge key lists) = under key k lists.flatten := by
  induction n generalizing lists with
  | zero =>
    have hempty : lists.flatten = [] := List.length_eq_zero_iff.mp hn
    cases hp : pick key lists with
    | none =>
      rw [merge_none hp, hempty]
      exact ⟨List.Pairwise.nil, fun _ => rfl⟩
    | some p =>
      have hlength : lists.flatten.length = p.2.flatten.length + 1 := pick_length hp
      omega
  | succ n ih =>
    cases hp : pick key lists with
    | none =>
      rw [pick_none hp] at hn
      cases hn
    | some p =>
      obtain ⟨a, rest⟩ := p
      have hpicked := picked_of_pick h hp
      have hlength := pick_length hp
      obtain ⟨hascending, hunder⟩ := ih (Nat.succ.inj (hlength.symm.trans hn)) hpicked.ascending
      rw [merge_some hp]
      constructor
      · refine List.pairwise_cons.mpr ⟨fun b hb => hpicked.least b ?_, hascending⟩
        have hb' : b ∈ under key (key b) rest.flatten := (mem_under).mpr ⟨(mem_of_under hunder b).mp hb, rfl⟩
        have hfirst := hpicked.first (key b)
        have hall : b ∈ under key (key b) lists.flatten := by
          rw [hfirst]
          split
          · exact List.mem_cons_of_mem _ hb'
          · exact hb'
        exact ((mem_under).mp hall).1
      · intro k
        rw [under_cons, hpicked.first, hunder]

/-- A merge of ascending lists is the stable sort of their concatenation. -/
theorem merge_eq {lists : List (List α)} (h : ∀ l ∈ lists, Ascending key l) :
    merge key lists = sortBy key lists.flatten := by
  obtain ⟨hascending, hunder⟩ := under_merge lists.flatten.length rfl h
  exact eq_sortBy hascending hunder

end StableOrder
