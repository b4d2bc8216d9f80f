import AgenticSoc.BlackboardFirewall

/-!
# The firewall of the orchestration messages

The walk collects the paths of forbidden keys, of collections with too many members
and of values that stand too deep, after what the shared walk finds. Values without
any of these pass.
-/
namespace OrchestrationFirewall

open PythonJson BlackboardFirewall

def orchestrationForbiddenKeys : List String :=
  ["label", "label1", "label2", "label3", "label4", "label_full", "is_attack", "attack",
    "attack_category", "attack_name", "attack_names", "target", "targets", "target_device",
    "whole_network_target", "ground_truth", "scenario_id", "scenario_name", "scenario_ids",
    "scenario_names", "filename"]

def maxCollectionItems : Nat := 500
def maxNestingDepth : Nat := 20

/-- The path joins the violations, which are a set. -/
def report (path : String) (out : List String) : List String :=
  if path ∈ out then out else out ++ [path]

section Walk

variable {F : Type} (fmt : PyFloats F) (lc : LowerCase)

def keyIsForbidden (key : String) : Bool := orchestrationForbiddenKeys.contains (normalKey lc key)

def reportKey (key : PyKey F) (path : String) (out : List String) : List String :=
  match key with
  | .str s => if keyIsForbidden lc s then report path out else out
  | _ => out

mutual

/-- The walk at a depth; it enters every list and dictionary once. -/
def walk : PyValue F → String → Nat → WalkState → WalkState
  | .list shared items, path, depth, st =>
    if maxNestingDepth < depth then
      { st with violations := report (path ++ ".__excessive_depth__") st.violations }
    else if st.entered shared then st
    else if maxCollectionItems < items.length then
      { st.enter shared with violations := report (path ++ ".__oversized_collection__") st.violations }
    else walkItems items path depth 0 (st.enter shared)
  | .dict shared entries, path, depth, st =>
    if maxNestingDepth < depth then
      { st with violations := report (path ++ ".__excessive_depth__") st.violations }
    else if st.entered shared then st
    else if maxCollectionItems < entries.length then
      { st.enter shared with violations := report (path ++ ".__oversized_collection__") st.violations }
    else walkEntries entries path depth (st.enter shared)
  | _, path, depth, st =>
    if maxNestingDepth < depth then
      { st with violations := report (path ++ ".__excessive_depth__") st.violations }
    else st

def walkItems : List (PyValue F) → String → Nat → Nat → WalkState → WalkState
  | [], _, _, _, st => st
  | v :: vs, path, depth, n, st =>
    walkItems vs path depth (n + 1) (walk v (path ++ "[" ++ Nat.repr n ++ "]") (depth + 1) st)

def walkEntries : List (PyKey F × PyValue F) → String → Nat → WalkState → WalkState
  | [], _, _, st => st
  | (k, v) :: es, path, depth, st =>
    let keyPath := path ++ "." ++ keyDisplay fmt k
    walkEntries es path depth
      (walk v keyPath (depth + 1) { st with violations := reportKey lc k keyPath st.violations })

end

/-- The shared walk's paths and this walk's, in order. -/
def findOrchestrationGroundTruth (value : PyValue F) : List String :=
  let shared := (findGroundTruthViolations fmt lc value "$").dedup
  Sorting.sortBy String.toList (walk fmt lc value "$" 0 ⟨shared, []⟩).violations

/-! ## Values that pass -/

/-- Neither walk objects to the key. -/
def keyPasses (key : String) : Bool := !keyHitsForbidden lc key && !keyIsForbidden lc key

/-- A value at a depth with nothing to report. -/
inductive Passes : Nat → PyValue F → Prop where
  | scalar {d : Nat} {v : PyValue F} : d ≤ maxNestingDepth → (∀ i items, v ≠ .list i items) →
      (∀ i entries, v ≠ .dict i entries) → Passes d v
  | list {d : Nat} {i : Option Nat} {items : List (PyValue F)} : d ≤ maxNestingDepth →
      items.length ≤ maxCollectionItems → (∀ v ∈ items, Passes (d + 1) v) → Passes d (.list i items)
  | dict {d : Nat} {i : Option Nat} {entries : List (PyKey F × PyValue F)} : d ≤ maxNestingDepth →
      entries.length ≤ maxCollectionItems →
      (∀ e ∈ entries, ∀ k, e.1 = .str k → keyPasses lc k = true) →
      (∀ e ∈ entries, Passes (d + 1) e.2) → Passes d (.dict i entries)

theorem passes_none {d : Nat} (h : d ≤ maxNestingDepth) : Passes lc d (.none : PyValue F) :=
  .scalar h (by intro _ _ he; cases he) (by intro _ _ he; cases he)

theorem passes_str {d : Nat} (h : d ≤ maxNestingDepth) (s : String) : Passes lc d (.str s : PyValue F) :=
  .scalar h (by intro _ _ he; cases he) (by intro _ _ he; cases he)

theorem passes_int {d : Nat} (h : d ≤ maxNestingDepth) (n : Int) : Passes lc d (.int n : PyValue F) :=
  .scalar h (by intro _ _ he; cases he) (by intro _ _ he; cases he)

theorem passes_clear {d : Nat} {v : PyValue F} (h : Passes lc d v) : Clear (keyHitsForbidden lc) v := by
  induction h with
  | scalar _ hl hd => exact clear_scalar hl hd
  | list _ _ _ ih => exact (clear_list).mpr fun v hv => ih v (List.mem_of_mem_take hv)
  | dict _ _ hkeys _ ih =>
    refine (clear_dict).mpr fun e he => ⟨?_, ih e he⟩
    obtain ⟨key, v⟩ := e
    cases key with
    | str k =>
      have hk := hkeys _ he k rfl
      simp only [keyPasses, Bool.and_eq_true, Bool.not_eq_true'] at hk
      simp [keyClear, hk.1]
    | none => rfl
    | bool b => rfl
    | int n => rfl
    | float x => rfl

theorem reportKey_passes {key : PyKey F} (h : ∀ k, key = .str k → keyPasses lc k = true) (path : String)
    (out : List String) : reportKey lc key path out = out := by
  cases key with
  | str k =>
    have hk := h k rfl
    simp only [keyPasses, Bool.and_eq_true, Bool.not_eq_true'] at hk
    simp [reportKey, hk.2]
  | none => rfl
  | bool b => rfl
  | int n => rfl
  | float x => rfl

theorem walkItems_passes {items : List (PyValue F)} {depth : Nat}
    (h : ∀ v ∈ items, ∀ path st, (walk fmt lc v path (depth + 1) st).violations = st.violations)
    (path : String) (n : Nat) (st : WalkState) :
    (walkItems fmt lc items path depth n st).violations = st.violations := by
  induction items generalizing n st with
  | nil => rfl
  | cons v vs ih =>
    rw [walkItems, ih (fun w hw => h w (List.mem_cons_of_mem v hw)), h v List.mem_cons_self]

theorem walkEntries_passes {entries : List (PyKey F × PyValue F)} {depth : Nat}
    (hkeys : ∀ e ∈ entries, ∀ k, e.1 = .str k → keyPasses lc k = true)
    (h : ∀ e ∈ entries, ∀ path st, (walk fmt lc e.2 path (depth + 1) st).violations = st.violations)
    (path : String) (st : WalkState) :
    (walkEntries fmt lc entries path depth st).violations = st.violations := by
  induction entries generalizing st with
  | nil => rfl
  | cons e es ih =>
    obtain ⟨k, v⟩ := e
    rw [walkEntries, ih (fun d hd => hkeys d (List.mem_cons_of_mem _ hd))
      (fun d hd => h d (List.mem_cons_of_mem _ hd))]
    have hv := h _ List.mem_cons_self
    rw [hv]
    exact reportKey_passes lc (hkeys _ List.mem_cons_self) _ _

/-- The walk adds nothing for a value that passes. -/
theorem walk_passes {d : Nat} {v : PyValue F} (h : Passes lc d v) (path : String) (st : WalkState) :
    (walk fmt lc v path d st).violations = st.violations := by
  induction h generalizing path st with
  | scalar hd hl hdict =>
    rename_i d v
    cases v with
    | list i items => exact absurd rfl (hl i items)
    | dict i entries => exact absurd rfl (hdict i entries)
    | none => simp [walk, Nat.not_lt.mpr hd]
    | bool b => simp [walk, Nat.not_lt.mpr hd]
    | int n => simp [walk, Nat.not_lt.mpr hd]
    | float x => simp [walk, Nat.not_lt.mpr hd]
    | str s => simp [walk, Nat.not_lt.mpr hd]
  | list hd hlen _ ih =>
    rw [walk, if_neg (Nat.not_lt.mpr hd)]
    split
    · rfl
    · rw [if_neg (Nat.not_lt.mpr hlen)]
      exact walkItems_passes fmt lc ih path 0 _
  | dict hd hlen hkeys _ ih =>
    rw [walk, if_neg (Nat.not_lt.mpr hd)]
    split
    · rfl
    · rw [if_neg (Nat.not_lt.mpr hlen)]
      exact walkEntries_passes fmt lc hkeys ih path _

theorem findOrchestrationGroundTruth_passes {v : PyValue F} (h : Passes lc 0 v) :
    findOrchestrationGroundTruth fmt lc v = [] := by
  have hshared : findGroundTruthViolations fmt lc v "$" = [] :=
    walk_clear fmt lc v "$" ⟨[], []⟩ (passes_clear lc h)
  have hown := walk_passes fmt lc h "$" ⟨[], []⟩
  unfold findOrchestrationGroundTruth
  simp only [hshared, show ([] : List String).dedup = [] from rfl, hown]
  rfl

/-! ## Values that are reported -/

/-- A value at a depth inside another. -/
inductive NodeAt : PyValue F → Nat → PyValue F → Prop where
  | root (v : PyValue F) : NodeAt v 0 v
  | item {i : Option Nat} {items : List (PyValue F)} {v w : PyValue F} {d : Nat} :
      v ∈ items → NodeAt v d w → NodeAt (.list i items) (d + 1) w
  | entry {i : Option Nat} {entries : List (PyKey F × PyValue F)} {e : PyKey F × PyValue F} {w : PyValue F}
      {d : Nat} : e ∈ entries → NodeAt e.2 d w → NodeAt (.dict i entries) (d + 1) w

/-- A tree: every value in it stands at one place. -/
def Unshared (v : PyValue F) : Prop := ∀ u, Within u v → u.shared = none

/-- The number of items of a list or of entries of a dictionary. -/
def members : PyValue F → Nat
  | .list _ items => items.length
  | .dict _ entries => entries.length
  | _ => 0

/-- Nothing of a value at this depth is to be reported. -/
structure Safe (depth : Nat) (v : PyValue F) : Prop where
  shallow : ∀ d w, NodeAt v d w → depth + d ≤ maxNestingDepth
  small : ∀ d w, NodeAt v d w → members w ≤ maxCollectionItems
  keys : ∀ k, KeyAt v k → keyIsForbidden lc k = false

theorem unshared_item {i : Option Nat} {items : List (PyValue F)} (h : Unshared (.list i items)) :
    i = none ∧ ∀ v ∈ items, Unshared v :=
  ⟨h _ (.self _), fun _ hv u hu => h u (.item hu hv)⟩

theorem unshared_entry {i : Option Nat} {entries : List (PyKey F × PyValue F)} (h : Unshared (.dict i entries)) :
    i = none ∧ ∀ e ∈ entries, Unshared e.2 :=
  ⟨h _ (.self _), fun _ he u hu => h u (.entry hu he)⟩

theorem safe_list {depth : Nat} {i : Option Nat} {items : List (PyValue F)} (hdepth : depth ≤ maxNestingDepth)
    (hsize : items.length ≤ maxCollectionItems) (hitems : ∀ v ∈ items, Safe lc (depth + 1) v) :
    Safe lc depth (.list i items) where
  shallow := by
    intro d w hw
    cases hw with
    | root => exact hdepth
    | item hv hw =>
      have hin := (hitems _ hv).shallow _ _ hw
      omega
  small := by
    intro d w hw
    cases hw with
    | root => exact hsize
    | item hv hw => exact (hitems _ hv).small _ _ hw
  keys := by
    intro k hk
    cases hk with
    | item hv hk => exact (hitems _ hv).keys k hk

theorem safe_dict {depth : Nat} {i : Option Nat} {entries : List (PyKey F × PyValue F)}
    (hdepth : depth ≤ maxNestingDepth) (hsize : entries.length ≤ maxCollectionItems)
    (hkeys : ∀ e ∈ entries, ∀ k, e.1 = .str k → keyIsForbidden lc k = false)
    (hentries : ∀ e ∈ entries, Safe lc (depth + 1) e.2) : Safe lc depth (.dict i entries) where
  shallow := by
    intro d w hw
    cases hw with
    | root => exact hdepth
    | entry he hw =>
      have hin := (hentries _ he).shallow _ _ hw
      omega
  small := by
    intro d w hw
    cases hw with
    | root => exact hsize
    | entry he hw => exact (hentries _ he).small _ _ hw
  keys := by
    intro k hk
    cases hk with
    | here he => exact hkeys _ he k rfl
    | entry he hk => exact (hentries _ he).keys k hk

theorem safe_scalar {depth : Nat} {v : PyValue F} (hdepth : depth ≤ maxNestingDepth)
    (hlist : ∀ i items, v ≠ .list i items) (hdict : ∀ i entries, v ≠ .dict i entries) : Safe lc depth v where
  shallow := by
    intro d w hw
    cases hw with
    | root => exact hdepth
    | item => exact absurd rfl (hlist _ _)
    | entry => exact absurd rfl (hdict _ _)
  small := by
    intro d w hw
    cases hw with
    | root =>
      cases v with
      | list i items => exact absurd rfl (hlist i items)
      | dict i entries => exact absurd rfl (hdict i entries)
      | none | bool | int | float | str => exact Nat.zero_le _
    | item => exact absurd rfl (hlist _ _)
    | entry => exact absurd rfl (hdict _ _)
  keys := by
    intro k hk
    cases hk with
    | here => exact absurd rfl (hdict _ _)
    | entry => exact absurd rfl (hdict _ _)
    | item => exact absurd rfl (hlist _ _)

theorem report_ne_nil (path : String) (out : List String) : report path out ≠ [] := by
  unfold report
  split
  · exact List.ne_nil_of_mem ‹_›
  · simp

theorem reportKey_nil {key : PyKey F} {path : String} {out : List String} (h : reportKey lc key path out = []) :
    out = [] ∧ ∀ k, key = .str k → keyIsForbidden lc k = false := by
  cases key with
  | str s =>
    cases hs : keyIsForbidden lc s with
    | true =>
      simp only [reportKey, hs, if_true] at h
      exact absurd h (report_ne_nil path out)
    | false =>
      simp only [reportKey, hs, Bool.false_eq_true, if_false] at h
      refine ⟨h, fun k hk => ?_⟩
      cases hk
      exact hs
  | none => exact ⟨h, nofun⟩
  | bool b => exact ⟨h, nofun⟩
  | int n => exact ⟨h, nofun⟩
  | float x => exact ⟨h, nofun⟩

theorem walkScalar_safe {v : PyValue F} {path : String} {depth : Nat} {st : WalkState}
    (hlist : ∀ i items, v ≠ .list i items) (hdict : ∀ i entries, v ≠ .dict i entries)
    (h : (walk fmt lc v path depth st).violations = []) : st.violations = [] ∧ Safe lc depth v := by
  have hwalk : walk fmt lc v path depth st = if maxNestingDepth < depth then
      { st with violations := report (path ++ ".__excessive_depth__") st.violations } else st := by
    cases v with
    | list i items => exact absurd rfl (hlist i items)
    | dict i entries => exact absurd rfl (hdict i entries)
    | none | bool | int | float | str => simp [walk]
  rw [hwalk] at h
  by_cases hdepth : maxNestingDepth < depth
  · rw [if_pos hdepth] at h
    exact absurd h (report_ne_nil _ _)
  · rw [if_neg hdepth] at h
    exact ⟨h, safe_scalar lc (Nat.not_lt.mp hdepth) hlist hdict⟩

mutual

/-- A walk over a tree that reports nothing has found nothing to report. -/
theorem walk_safe : ∀ (v : PyValue F) (path : String) (depth : Nat) (st : WalkState), Unshared v →
    (walk fmt lc v path depth st).violations = [] → st.violations = [] ∧ Safe lc depth v
  | .list i items, path, depth, st, hv, h => by
    obtain ⟨rfl, hitems⟩ := unshared_item hv
    rw [walk] at h
    split at h
    · exact absurd h (report_ne_nil _ _)
    rename_i hdepth
    rw [if_neg (by simp [WalkState.entered])] at h
    split at h
    · exact absurd h (report_ne_nil _ _)
    rename_i hsize
    obtain ⟨hbefore, hsafe⟩ := walkItems_safe items path depth 0 (st.enter none) hitems h
    exact ⟨hbefore, safe_list lc (Nat.not_lt.mp hdepth) (Nat.not_lt.mp hsize) hsafe⟩
  | .dict i entries, path, depth, st, hv, h => by
    obtain ⟨rfl, hentries⟩ := unshared_entry hv
    rw [walk] at h
    split at h
    · exact absurd h (report_ne_nil _ _)
    rename_i hdepth
    rw [if_neg (by simp [WalkState.entered])] at h
    split at h
    · exact absurd h (report_ne_nil _ _)
    rename_i hsize
    obtain ⟨hbefore, hkeys, hsafe⟩ := walkEntries_safe entries path depth (st.enter none) hentries h
    exact ⟨hbefore, safe_dict lc (Nat.not_lt.mp hdepth) (Nat.not_lt.mp hsize) hkeys hsafe⟩
  | .none, _, _, _, _, h => walkScalar_safe fmt lc nofun nofun h
  | .bool _, _, _, _, _, h => walkScalar_safe fmt lc nofun nofun h
  | .int _, _, _, _, _, h => walkScalar_safe fmt lc nofun nofun h
  | .float _, _, _, _, _, h => walkScalar_safe fmt lc nofun nofun h
  | .str _, _, _, _, _, h => walkScalar_safe fmt lc nofun nofun h

theorem walkItems_safe : ∀ (vs : List (PyValue F)) (path : String) (depth n : Nat) (st : WalkState),
    (∀ v ∈ vs, Unshared v) → (walkItems fmt lc vs path depth n st).violations = [] →
      st.violations = [] ∧ ∀ v ∈ vs, Safe lc (depth + 1) v
  | [], _, _, _, _, _, h => ⟨h, fun _ hv => absurd hv List.not_mem_nil⟩
  | v :: vs, path, depth, n, st, hvs, h => by
    rw [List.forall_mem_cons] at hvs
    rw [walkItems] at h
    obtain ⟨hfirst, hrest⟩ := walkItems_safe vs path depth (n + 1) _ hvs.2 h
    obtain ⟨hbefore, hsafe⟩ := walk_safe v _ (depth + 1) st hvs.1 hfirst
    exact ⟨hbefore, List.forall_mem_cons.mpr ⟨hsafe, hrest⟩⟩

theorem walkEntries_safe : ∀ (es : List (PyKey F × PyValue F)) (path : String) (depth : Nat) (st : WalkState),
    (∀ e ∈ es, Unshared e.2) → (walkEntries fmt lc es path depth st).violations = [] →
      st.violations = [] ∧ (∀ e ∈ es, ∀ k, e.1 = .str k → keyIsForbidden lc k = false) ∧
        ∀ e ∈ es, Safe lc (depth + 1) e.2
  | [], _, _, _, _, h => ⟨h, fun _ he => absurd he List.not_mem_nil, fun _ he => absurd he List.not_mem_nil⟩
  | (k, v) :: es, path, depth, st, hes, h => by
    rw [List.forall_mem_cons] at hes
    rw [walkEntries] at h
    obtain ⟨hfirst, hkeys, hrest⟩ := walkEntries_safe es path depth _ hes.2 h
    obtain ⟨hflag, hsafe⟩ := walk_safe v _ (depth + 1) _ hes.1 hfirst
    obtain ⟨hbefore, hkey⟩ := reportKey_nil lc hflag
    exact ⟨hbefore, List.forall_mem_cons.mpr ⟨hkey, hkeys⟩, List.forall_mem_cons.mpr ⟨hsafe, hrest⟩⟩

end

theorem safe_of_no_violation {v : PyValue F} (hv : Unshared v)
    (h : findOrchestrationGroundTruth fmt lc v = []) : Safe lc 0 v := by
  have hnone := (Sorting.sortBy_perm String.toList _).symm.trans (List.Perm.of_eq h)
  exact (walk_safe fmt lc v "$" 0 _ hv hnone.eq_nil).2

/-- A tree without violations has no forbidden key at any depth, and every tree with too many
members in one collection or nested too deep has a violation. -/
theorem firewall_sound {v : PyValue F} (hv : Unshared v) :
    (findOrchestrationGroundTruth fmt lc v = [] →
      ∀ k, KeyAt v k → normalKey lc k ∉ orchestrationForbiddenKeys) ∧
    ((∃ d w, NodeAt v d w ∧ (maxNestingDepth < d ∨ maxCollectionItems < members w)) →
      findOrchestrationGroundTruth fmt lc v ≠ []) := by
  constructor
  · intro h k hk
    have hkey := (safe_of_no_violation fmt lc hv h).keys k hk
    simpa [keyIsForbidden] using hkey
  · rintro ⟨d, w, hw, hout⟩ h
    have hsafe := safe_of_no_violation fmt lc hv h
    have hshallow := hsafe.shallow d w hw
    have hsmall := hsafe.small d w hw
    omega

/-- A list in a dictionary. -/
def devTree : PyValue Unit := .dict none [(.str "entity", .list none [.str "camera"])]

theorem devTree_unshared : Unshared devTree := by
  intro u hu
  cases hu with
  | self => rfl
  | entry hu he =>
    cases List.mem_singleton.mp he
    cases hu with
    | self => rfl
    | item hu hv =>
      cases List.mem_singleton.mp hv
      cases hu
      rfl

theorem firewall_sound_tree :
    (findOrchestrationGroundTruth nanOnly asciiLowerCase devTree = [] →
      ∀ k, KeyAt devTree k → normalKey asciiLowerCase k ∉ orchestrationForbiddenKeys) ∧
    ((∃ d w, NodeAt devTree d w ∧ (maxNestingDepth < d ∨ maxCollectionItems < members w)) →
      findOrchestrationGroundTruth nanOnly asciiLowerCase devTree ≠ []) :=
  firewall_sound nanOnly asciiLowerCase devTree_unshared

/-! ## Plain keys -/

/-- A key of ASCII characters is put in lower case character by character. -/
theorem normalKey_ascii {k : String} (h : ∀ c ∈ k.toList, c.toNat < 128) :
    normalKey lc k = normalKey asciiLowerCase k := by
  have hstrip : ∀ c ∈ (strip k).toList, c.toNat < 128 := fun c hc => h c (strip_subset k c hc)
  unfold normalKey
  rw [String.ext_iff, lc.lower_ascii _ hstrip, asciiLowerCase.lower_ascii _ hstrip]

theorem keyPasses_ascii {k : String} (h : ∀ c ∈ k.toList, c.toNat < 128) :
    keyPasses lc k = keyPasses asciiLowerCase k := by
  unfold keyPasses keyHitsForbidden keyIsForbidden
  rw [normalKey_ascii lc h]

end Walk

end OrchestrationFirewall
