import Mathlib.Data.List.Sort

/-!
# Grouping a list by a key and taking the largest group

Groups are kept in order of first appearance and their members in list order, as
a dictionary of lists filled by appending does. The groups are then sorted by
descending size with a tie-break on the key; the first one is the largest.
-/
namespace Grouping

variable {β κ ρ : Type}

section Groups

variable [DecidableEq κ]

/-- Append `x` to the group of its key, opening the group when it is new. -/
def addTo (key : β → κ) (groups : List (κ × List β)) (x : β) : List (κ × List β) :=
  if groups.any (fun g => g.1 = key x) then
    groups.map fun g => if g.1 = key x then (g.1, g.2 ++ [x]) else g
  else groups ++ [(key x, [x])]

def groupOn (key : β → κ) (l : List β) : List (κ × List β) := l.foldl (addTo key) []

/-- What the groups opened so far have to do with the elements seen so far. -/
structure Covers (key : β → κ) (seen : List β) (groups : List (κ × List β)) : Prop where
  members : ∀ g ∈ groups, g.2 = seen.filter (fun x => key x = g.1)
  keyed : ∀ x ∈ seen, ∃ g ∈ groups, g.1 = key x
  nonempty : ∀ g ∈ groups, g.2 ≠ []

theorem covers_addTo (key : β → κ) {seen : List β} {groups : List (κ × List β)}
    (h : Covers key seen groups) (x : β) : Covers key (seen ++ [x]) (addTo key groups x) := by
  by_cases hany : groups.any (fun g => g.1 = key x) = true
  · have hadd : addTo key groups x =
        groups.map fun g => if g.1 = key x then (g.1, g.2 ++ [x]) else g := if_pos hany
    rw [hadd]
    refine ⟨?_, ?_, ?_⟩
    · intro g hg
      obtain ⟨g', hg', rfl⟩ := List.mem_map.mp hg
      by_cases hk : g'.1 = key x
      · simp [hk, List.filter_append, h.members g' hg']
      · have hk' : ¬ key x = g'.1 := fun he => hk he.symm
        simp [hk, hk', List.filter_append, h.members g' hg']
    · intro y hy
      have hsame : ∀ g ∈ groups, g.1 = key y →
          ∃ g' ∈ groups.map (fun g => if g.1 = key x then (g.1, g.2 ++ [x]) else g),
            g'.1 = key y := by
        intro g hg hk
        refine ⟨_, List.mem_map.mpr ⟨g, hg, rfl⟩, ?_⟩
        split <;> exact hk
      rcases List.mem_append.mp hy with hy | hy
      · obtain ⟨g, hg, hk⟩ := h.keyed y hy
        exact hsame g hg hk
      · rw [List.mem_singleton.mp hy] at hsame ⊢
        obtain ⟨g, hg, hk⟩ := List.any_eq_true.mp hany
        exact hsame g hg (by simpa using hk)
    · intro g hg
      obtain ⟨g', hg', rfl⟩ := List.mem_map.mp hg
      split
      · simp
      · exact h.nonempty g' hg'
  · have hadd : addTo key groups x = groups ++ [(key x, [x])] := if_neg hany
    have hnew : ∀ g ∈ groups, g.1 ≠ key x := by
      intro g hg hk
      exact hany (List.any_eq_true.mpr ⟨g, hg, by simpa using hk⟩)
    rw [hadd]
    refine ⟨?_, ?_, ?_⟩
    · intro g hg
      rcases List.mem_append.mp hg with hg | hg
      · have hk : ¬ key x = g.1 := fun he => hnew g hg he.symm
        simp [hk, List.filter_append, h.members g hg]
      · rw [List.mem_singleton.mp hg]
        have hnone : seen.filter (fun y => key y = key x) = [] := by
          rw [List.filter_eq_nil_iff]
          intro y hy hk
          obtain ⟨g', hg', hk'⟩ := h.keyed y hy
          exact hnew g' hg' (hk'.trans (by simpa using hk))
        simp [List.filter_append, hnone]
    · intro y hy
      rcases List.mem_append.mp hy with hy | hy
      · obtain ⟨g, hg, hk⟩ := h.keyed y hy
        exact ⟨g, List.mem_append_left _ hg, hk⟩
      · rw [List.mem_singleton.mp hy]
        exact ⟨(key x, [x]), by simp, rfl⟩
    · intro g hg
      rcases List.mem_append.mp hg with hg | hg
      · exact h.nonempty g hg
      · rw [List.mem_singleton.mp hg]; simp

/-- Each group holds exactly the elements of its key, and no element is left out. -/
theorem covers_groupOn (key : β → κ) (l : List β) : Covers key l (groupOn key l) := by
  have hfold : ∀ (l seen : List β) (groups : List (κ × List β)), Covers key seen groups →
      Covers key (seen ++ l) (l.foldl (addTo key) groups) := by
    intro l
    induction l with
    | nil => intro seen groups h; simpa using h
    | cons x l ih =>
      intro seen groups h
      have hx := ih (seen ++ [x]) _ (covers_addTo key h x)
      simpa using hx
  have hempty : Covers key ([] : List β) [] := ⟨by simp, by simp, by simp⟩
  have h := hfold l [] [] hempty
  rwa [List.nil_append] at h

theorem addTo_keys (key : β → κ) (groups : List (κ × List β)) (x : β) :
    (addTo key groups x).map Prod.fst =
      if key x ∈ groups.map Prod.fst then groups.map Prod.fst else groups.map Prod.fst ++ [key x] := by
  unfold addTo
  by_cases hany : groups.any (fun g => g.1 = key x) = true
  · have hmem : key x ∈ groups.map Prod.fst := by
      obtain ⟨g, hg, hk⟩ := List.any_eq_true.mp hany
      exact List.mem_map.mpr ⟨g, hg, by simpa using hk⟩
    rw [if_pos hany, if_pos hmem, List.map_map]
    apply List.map_congr_left
    intro g hg
    dsimp only [Function.comp_apply]
    split <;> rfl
  · have hmem : key x ∉ groups.map Prod.fst := by
      intro hmem
      obtain ⟨g, hg, hk⟩ := List.mem_map.mp hmem
      exact hany (List.any_eq_true.mpr ⟨g, hg, by simpa using hk⟩)
    rw [if_neg hany, if_neg hmem, List.map_append]
    rfl

/-- No key has two groups. -/
theorem groupOn_keys_nodup (key : β → κ) (l : List β) : ((groupOn key l).map Prod.fst).Nodup := by
  have hfold : ∀ (l : List β) (groups : List (κ × List β)), (groups.map Prod.fst).Nodup →
      ((l.foldl (addTo key) groups).map Prod.fst).Nodup := by
    intro l
    induction l with
    | nil => exact fun groups h => h
    | cons x l ih =>
      intro groups h
      apply ih
      rw [addTo_keys]
      split
      · exact h
      · rename_i hmem
        rw [List.nodup_append]
        refine ⟨h, List.nodup_singleton _, ?_⟩
        intro a ha b hb
        rw [List.mem_singleton.mp hb]
        exact ne_of_mem_of_not_mem ha hmem
  exact hfold l [] List.nodup_nil

/-- The keys of the groups are those of the elements. -/
theorem mem_groupOn_keys {key : β → κ} {l : List β} {k : κ} :
    k ∈ (groupOn key l).map Prod.fst ↔ ∃ x ∈ l, key x = k := by
  have hc := covers_groupOn key l
  constructor
  · intro hk
    obtain ⟨g, hg, rfl⟩ := List.mem_map.mp hk
    obtain ⟨x, hx⟩ := List.exists_mem_of_ne_nil _ (hc.nonempty g hg)
    rw [hc.members g hg, List.mem_filter, decide_eq_true_iff] at hx
    exact ⟨x, hx⟩
  · rintro ⟨x, hx, rfl⟩
    obtain ⟨g, hg, hk⟩ := hc.keyed x hx
    exact List.mem_map.mpr ⟨g, hg, hk⟩

end Groups

variable [LinearOrder ρ]

/-- Larger groups first, equal sizes by the tie-break. -/
def before (tie : κ → ρ) (a b : κ × List β) : Prop :=
  b.2.length < a.2.length ∨ (a.2.length = b.2.length ∧ tie a.1 ≤ tie b.1)

instance (tie : κ → ρ) : DecidableRel (before (β := β) tie) := fun a b =>
  inferInstanceAs (Decidable (b.2.length < a.2.length ∨
    (a.2.length = b.2.length ∧ tie a.1 ≤ tie b.1)))

def ordered (tie : κ → ρ) (groups : List (κ × List β)) : List (κ × List β) :=
  groups.insertionSort (before tie)

theorem before_total (tie : κ → ρ) (a b : κ × List β) : before tie a b ∨ before tie b a := by
  rcases Nat.lt_trichotomy a.2.length b.2.length with h | h | h
  · exact .inr (.inl h)
  · rcases le_total (tie a.1) (tie b.1) with ht | ht
    · exact .inl (.inr ⟨h, ht⟩)
    · exact .inr (.inr ⟨h.symm, ht⟩)
  · exact .inl (.inl h)

theorem before_trans (tie : κ → ρ) (a b c : κ × List β) (hab : before tie a b)
    (hbc : before tie b c) : before tie a c := by
  rcases hab with hab | ⟨hab, ht⟩ <;> rcases hbc with hbc | ⟨hbc, hu⟩
  · exact .inl (by omega)
  · exact .inl (by omega)
  · exact .inl (by omega)
  · exact .inr ⟨by omega, ht.trans hu⟩

/-- The first ordered group is one of the groups and none is larger. -/
theorem ordered_head (tie : κ → ρ) {groups rest : List (κ × List β)} {g : κ × List β}
    (h : ordered tie groups = g :: rest) :
    g ∈ groups ∧ ∀ g' ∈ groups, g'.2.length ≤ g.2.length := by
  have hmem : ∀ g', g' ∈ g :: rest ↔ g' ∈ groups := by
    intro g'
    rw [← h]
    exact List.mem_insertionSort _
  have : Std.Total (before (β := β) tie) := ⟨before_total tie⟩
  have : IsTrans _ (before (β := β) tie) := ⟨before_trans tie⟩
  have hsorted : List.Pairwise (before tie) (g :: rest) := by
    rw [← h]
    exact List.pairwise_insertionSort (before tie) groups
  refine ⟨(hmem g).mp (by simp), ?_⟩
  intro g' hg'
  rcases List.mem_cons.mp ((hmem g').mpr hg') with rfl | hr
  · exact Nat.le_refl _
  · rcases (List.pairwise_cons.mp hsorted).1 g' hr with hlt | ⟨he, -⟩ <;> omega

variable [DecidableEq κ]

/-- The largest group of a list: its members are all the elements of its key, and
every key has at most as many. -/
theorem largest_group {key : β → κ} {tie : κ → ρ} {l : List β} {g : κ × List β}
    {rest : List (κ × List β)} (h : ordered tie (groupOn key l) = g :: rest) :
    g.2 = l.filter (fun x => key x = g.1) ∧ g.2 ≠ [] ∧
      ∀ k, (l.filter (fun x => key x = k)).length ≤ g.2.length := by
  obtain ⟨hg, hmax⟩ := ordered_head tie h
  have hc := covers_groupOn key l
  refine ⟨hc.members g hg, hc.nonempty g hg, ?_⟩
  intro k
  by_cases hnone : l.filter (fun x => key x = k) = []
  · simp [hnone]
  · obtain ⟨x, hx⟩ := List.exists_mem_of_ne_nil _ hnone
    obtain ⟨hxl, hk⟩ := List.mem_filter.mp hx
    obtain ⟨g', hg', hk'⟩ := hc.keyed x hxl
    have he : g'.1 = k := hk'.trans (by simpa using hk)
    have hm := hc.members g' hg'
    rw [he] at hm
    rw [← hm]
    exact hmax g' hg'

theorem ordered_eq_nil (tie : κ → ρ) (key : β → κ) (l : List β) :
    ordered tie (groupOn key l) = [] ↔ l = [] := by
  constructor
  · intro h
    cases l with
    | nil => rfl
    | cons x l =>
      obtain ⟨g, hg, -⟩ := (covers_groupOn key (x :: l)).keyed x (by simp)
      have := (List.mem_insertionSort (before tie)).mpr hg
      rw [show (groupOn key (x :: l)).insertionSort (before tie) = [] from h] at this
      cases this
  · rintro rfl; rfl

end Grouping
