import AgenticSoc.BlackboardRecord
import AgenticSoc.PythonJson

/-!
# The ground-truth firewall of the Blackboard

Two walks over a payload collect the paths of forbidden keys: the shared one, which
enters every list and dictionary once, and the one for the names that only the
Blackboard forbids. Both look at the first items of a list only.
-/
namespace BlackboardFirewall

open PythonJson

def forbiddenGroundTruthKeys : List String :=
  ["label", "label1", "label2", "label3", "label4", "label_full", "is_attack", "attack",
    "attack_category", "attack_name", "attack_names", "target", "targets", "target_device",
    "whole_network_target", "ground_truth"]

/-- The bare token `attack` stands in the names of model outputs. -/
def compoundForbiddenTokens : List String := forbiddenGroundTruthKeys.filter (· ≠ "attack")

def blackboardExtraForbiddenKeys : List String :=
  ["scenario_id", "scenario_name", "scenario_ids", "scenario_names", "filename"]

/-- The lower-case form of a text, plain for texts of ASCII characters. -/
structure LowerCase where
  lower : String → String
  lower_ascii : ∀ s : String, (∀ c ∈ s.toList, c.toNat < 128) → (lower s).toList = s.toList.map Char.toLower

def strip (s : String) : String :=
  String.ofList (((s.toList.dropWhile BlackboardRecord.isSpace).reverse.dropWhile
    BlackboardRecord.isSpace).reverse)

theorem strip_subset (s : String) : ∀ c ∈ (strip s).toList, c ∈ s.toList := by
  intro c hc
  unfold strip at hc
  rw [String.toList_ofList, List.mem_reverse] at hc
  have hc := (List.dropWhile_sublist _).subset hc
  rw [List.mem_reverse] at hc
  exact (List.dropWhile_sublist _).subset hc

def isTokenChar (c : Char) : Bool := ('a' ≤ c && c ≤ 'z') || c.isDigit

/-- The runs of lower-case letters and digits. -/
def keyTokens (s : String) : List String :=
  ((s.toList.splitOnP fun c => !isTokenChar c).filter (· ≠ [])).map String.ofList

section Walks

variable {F : Type} (fmt : PyFloats F) (lc : LowerCase)

/-- A key stripped and in lower case. -/
def normalKey (key : String) : String := lc.lower (strip key)

def keyHitsForbidden (key : String) : Bool :=
  forbiddenGroundTruthKeys.contains (normalKey lc key) ||
    (keyTokens (normalKey lc key)).any fun t => compoundForbiddenTokens.contains t

def keyIsExtra (key : String) : Bool := blackboardExtraForbiddenKeys.contains (normalKey lc key)

/-- A key as it stands in a path. -/
def keyDisplay : PyKey F → String
  | .none => "None"
  | .bool true => "True"
  | .bool false => "False"
  | .int n => String.ofList (JsonText.intText n)
  | .float x => String.ofList (fmt.repr x)
  | .str s => s

/-- The items of a list that a walk looks at. -/
def maxListItems : Nat := 500

structure WalkState where
  violations : List String
  seen : List Nat

/-- The walk has been in the list or dictionary with this identity. -/
def WalkState.entered (st : WalkState) (shared : Option Nat) : Bool :=
  shared.any st.seen.contains

def WalkState.enter (st : WalkState) (shared : Option Nat) : WalkState :=
  { st with seen := shared.toList ++ st.seen }

/-- The path of a key that the predicate holds of is added. -/
def flagKey (hits : String → Bool) (key : PyKey F) (path : String) (out : List String) : List String :=
  match key with
  | .str s => if hits s then out ++ [path] else out
  | _ => out

mutual

/-- The shared walk; it enters every list and dictionary once. -/
def walk : PyValue F → String → WalkState → WalkState
  | .list shared items, path, st =>
    if st.entered shared then st else walkItems items path 0 (st.enter shared)
  | .dict shared entries, path, st =>
    if st.entered shared then st else walkEntries entries path (st.enter shared)
  | _, _, st => st

def walkItems : List (PyValue F) → String → Nat → WalkState → WalkState
  | [], _, _, st => st
  | v :: vs, path, n, st =>
    if n < maxListItems then
      walkItems vs path (n + 1) (walk v (path ++ "[" ++ Nat.repr n ++ "]") st)
    else st

def walkEntries : List (PyKey F × PyValue F) → String → WalkState → WalkState
  | [], _, st => st
  | (k, v) :: es, path, st =>
    let keyPath := path ++ "." ++ keyDisplay fmt k
    walkEntries es path (walk v keyPath
      { st with violations := flagKey (keyHitsForbidden lc) k keyPath st.violations })

end

def findGroundTruthViolations (value : PyValue F) (path : String) : List String :=
  (walk fmt lc value path ⟨[], []⟩).violations

mutual

/-- The walk for the names that only the Blackboard forbids. -/
def walkExtraForbiddenKeys : PyValue F → String → List String → List String
  | .list _ items, path, out => walkExtraItems items path 0 out
  | .dict _ entries, path, out => walkExtraEntries entries path out
  | _, _, out => out

def walkExtraItems : List (PyValue F) → String → Nat → List String → List String
  | [], _, _, out => out
  | v :: vs, path, n, out =>
    if n < maxListItems then
      walkExtraItems vs path (n + 1)
        (walkExtraForbiddenKeys v (path ++ "[" ++ Nat.repr n ++ "]") out)
    else out

def walkExtraEntries : List (PyKey F × PyValue F) → String → List String → List String
  | [], _, out => out
  | (k, v) :: es, path, out =>
    let keyPath := path ++ "." ++ keyDisplay fmt k
    walkExtraEntries es path (walkExtraForbiddenKeys v keyPath (flagKey (keyIsExtra lc) k keyPath out))

end

/-- The shared set first, then the names of the Blackboard. -/
def findBlackboardFirewallViolations (value : PyValue F) : List String :=
  walkExtraForbiddenKeys fmt lc value "$" (findGroundTruthViolations fmt lc value "$")

/-! ## Keys of a value -/

/-- A key of a dictionary at any depth. -/
inductive KeyAt : PyValue F → String → Prop where
  | here {i : Option Nat} {entries : List (PyKey F × PyValue F)} {k : String} {v : PyValue F} :
      (.str k, v) ∈ entries → KeyAt (.dict i entries) k
  | entry {i : Option Nat} {entries : List (PyKey F × PyValue F)} {e : PyKey F × PyValue F}
      {k : String} : e ∈ entries → KeyAt e.2 k → KeyAt (.dict i entries) k
  | item {i : Option Nat} {items : List (PyValue F)} {v : PyValue F} {k : String} :
      v ∈ items → KeyAt v k → KeyAt (.list i items) k

/-- A key that only the first items of lists lead to. -/
inductive VisibleKey : PyValue F → String → Prop where
  | here {i : Option Nat} {entries : List (PyKey F × PyValue F)} {k : String} {v : PyValue F} :
      (.str k, v) ∈ entries → VisibleKey (.dict i entries) k
  | entry {i : Option Nat} {entries : List (PyKey F × PyValue F)} {e : PyKey F × PyValue F}
      {k : String} : e ∈ entries → VisibleKey e.2 k → VisibleKey (.dict i entries) k
  | item {i : Option Nat} {items : List (PyValue F)} {v : PyValue F} {k : String} :
      v ∈ items.take maxListItems → VisibleKey v k → VisibleKey (.list i items) k

/-- A key behind the first items of a list. -/
inductive HiddenKey : PyValue F → String → Prop where
  | behind {i : Option Nat} {items : List (PyValue F)} {v : PyValue F} {k : String} :
      v ∈ items.drop maxListItems → KeyAt v k → HiddenKey (.list i items) k
  | entry {i : Option Nat} {entries : List (PyKey F × PyValue F)} {e : PyKey F × PyValue F}
      {k : String} : e ∈ entries → HiddenKey e.2 k → HiddenKey (.dict i entries) k
  | item {i : Option Nat} {items : List (PyValue F)} {v : PyValue F} {k : String} :
      v ∈ items.take maxListItems → HiddenKey v k → HiddenKey (.list i items) k

theorem keyAt_iff {v : PyValue F} {k : String} : KeyAt v k ↔ VisibleKey v k ∨ HiddenKey v k := by
  constructor
  · intro h
    induction h with
    | here he => exact .inl (.here he)
    | entry he _ ih => exact ih.imp (.entry he) (.entry he)
    | item hv hk ih =>
      rename_i i items v k
      rw [← List.take_append_drop maxListItems items] at hv
      rcases List.mem_append.mp hv with hv | hv
      · exact ih.imp (.item hv) (.item hv)
      · exact .inr (.behind hv hk)
  · rintro (h | h)
    · induction h with
      | here he => exact .here he
      | entry he _ ih => exact .entry he ih
      | item hv _ ih => exact .item (List.mem_of_mem_take hv) ih
    · induction h with
      | behind hv hk => exact .item (List.mem_of_mem_drop hv) hk
      | entry he _ ih => exact .entry he ih
      | item hv _ ih => exact .item (List.mem_of_mem_take hv) ih

/-- No visible key has the predicate. -/
def Clear (hits : String → Bool) (v : PyValue F) : Prop := ∀ k, VisibleKey v k → hits k = false

/-- The entry's own key does not have the predicate. -/
def keyClear (hits : String → Bool) : PyKey F → Bool
  | .str k => !hits k
  | _ => true

theorem clear_list {hits : String → Bool} {i : Option Nat} {items : List (PyValue F)} :
    Clear hits (.list i items) ↔ ∀ v ∈ items.take maxListItems, Clear hits v := by
  constructor
  · intro h v hv k hk
    exact h k (.item hv hk)
  · intro h k hk
    cases hk with
    | item hv hk => exact h _ hv k hk

theorem clear_dict {hits : String → Bool} {i : Option Nat} {entries : List (PyKey F × PyValue F)} :
    Clear hits (.dict i entries) ↔ ∀ e ∈ entries, keyClear hits e.1 = true ∧ Clear hits e.2 := by
  constructor
  · intro h e he
    refine ⟨?_, fun k hk => h k (.entry he hk)⟩
    obtain ⟨key, v⟩ := e
    cases key with
    | str k => simpa [keyClear] using h k (.here he)
    | none => rfl
    | bool b => rfl
    | int n => rfl
    | float x => rfl
  · intro h k hk
    cases hk with
    | here he => simpa [keyClear] using (h _ he).1
    | entry he hk => exact (h _ he).2 k hk

theorem clear_scalar {hits : String → Bool} {v : PyValue F} (hl : ∀ i items, v ≠ .list i items)
    (hd : ∀ i entries, v ≠ .dict i entries) : Clear hits v := by
  intro k hk
  cases hk with
  | here he => exact absurd rfl (hd _ _)
  | entry he _ => exact absurd rfl (hd _ _)
  | item hv _ => exact absurd rfl (hl _ _)

theorem flagKey_nil {hits : String → Bool} {key : PyKey F} {path : String} {out : List String} :
    flagKey hits key path out = [] ↔ out = [] ∧ keyClear hits key = true := by
  cases key with
  | str k => by_cases hk : hits k = true <;> simp [flagKey, keyClear, hk]
  | none => simp [flagKey, keyClear]
  | bool b => simp [flagKey, keyClear]
  | int n => simp [flagKey, keyClear]
  | float x => simp [flagKey, keyClear]

/-! ## What the walks find -/

theorem take_succ_cons {α : Type} (v : α) (vs : List α) {n : Nat} (hn : n < maxListItems) :
    (v :: vs).take (maxListItems - n) = v :: vs.take (maxListItems - (n + 1)) := by
  have hsub : maxListItems - n = maxListItems - (n + 1) + 1 := by omega
  rw [hsub, List.take_succ_cons]

mutual

/-- The second walk finds nothing just when no visible key has one of its names. -/
theorem walkExtra_nil : ∀ (v : PyValue F) (path : String) (out : List String),
    walkExtraForbiddenKeys fmt lc v path out = [] ↔ out = [] ∧ Clear (keyIsExtra lc) v
  | .list i items, path, out => by
    rw [walkExtraForbiddenKeys, walkExtraItems_nil items path 0 out, clear_list]
    rfl
  | .dict i entries, path, out => by
    rw [walkExtraForbiddenKeys, walkExtraEntries_nil entries path out, clear_dict]
  | .none, _, _ => by simp [walkExtraForbiddenKeys, clear_scalar]
  | .bool _, _, _ => by simp [walkExtraForbiddenKeys, clear_scalar]
  | .int _, _, _ => by simp [walkExtraForbiddenKeys, clear_scalar]
  | .float _, _, _ => by simp [walkExtraForbiddenKeys, clear_scalar]
  | .str _, _, _ => by simp [walkExtraForbiddenKeys, clear_scalar]

theorem walkExtraItems_nil : ∀ (vs : List (PyValue F)) (path : String) (n : Nat) (out : List String),
    walkExtraItems fmt lc vs path n out = [] ↔
      out = [] ∧ ∀ v ∈ vs.take (maxListItems - n), Clear (keyIsExtra lc) v
  | [], _, _, _ => by simp [walkExtraItems]
  | v :: vs, path, n, out => by
    rw [walkExtraItems]
    by_cases hn : n < maxListItems
    · rw [if_pos hn, walkExtraItems_nil vs, walkExtra_nil v, take_succ_cons v vs hn,
        List.forall_mem_cons, and_assoc]
    · have hzero : maxListItems - n = 0 := by omega
      simp [hn, hzero]

theorem walkExtraEntries_nil : ∀ (es : List (PyKey F × PyValue F)) (path : String) (out : List String),
    walkExtraEntries fmt lc es path out = [] ↔
      out = [] ∧ ∀ e ∈ es, keyClear (keyIsExtra lc) e.1 = true ∧ Clear (keyIsExtra lc) e.2
  | [], _, _ => by simp [walkExtraEntries]
  | (k, v) :: es, path, out => by
    rw [walkExtraEntries, walkExtraEntries_nil es, walkExtra_nil v, flagKey_nil, List.forall_mem_cons]
    simp only [and_assoc]

end

theorem flagKey_clear {hits : String → Bool} {key : PyKey F} (h : keyClear hits key = true)
    (path : String) (out : List String) : flagKey hits key path out = out := by
  cases key with
  | str k =>
    have hk : hits k = false := by simpa [keyClear] using h
    simp [flagKey, hk]
  | none => rfl
  | bool b => rfl
  | int n => rfl
  | float x => rfl

mutual

/-- The shared walk adds nothing for a value without a visible key that hits. -/
theorem walk_clear : ∀ (v : PyValue F) (path : String) (st : WalkState),
    Clear (keyHitsForbidden lc) v → (walk fmt lc v path st).violations = st.violations
  | .list shared items, path, st, h => by
    rw [walk]
    split
    · rfl
    · exact walkItems_clear items path 0 _ ((clear_list).mp h)
  | .dict shared entries, path, st, h => by
    rw [walk]
    split
    · rfl
    · exact walkEntries_clear entries path _ ((clear_dict).mp h)
  | .none, _, _, _ => rfl
  | .bool _, _, _, _ => rfl
  | .int _, _, _, _ => rfl
  | .float _, _, _, _ => rfl
  | .str _, _, _, _ => rfl

theorem walkItems_clear : ∀ (vs : List (PyValue F)) (path : String) (n : Nat) (st : WalkState),
    (∀ v ∈ vs.take (maxListItems - n), Clear (keyHitsForbidden lc) v) →
      (walkItems fmt lc vs path n st).violations = st.violations
  | [], _, _, _, _ => rfl
  | v :: vs, path, n, st, h => by
    rw [walkItems]
    by_cases hn : n < maxListItems
    · rw [take_succ_cons v vs hn, List.forall_mem_cons] at h
      rw [if_pos hn, walkItems_clear vs _ _ _ h.2, walk_clear v _ _ h.1]
    · rw [if_neg hn]

theorem walkEntries_clear : ∀ (es : List (PyKey F × PyValue F)) (path : String) (st : WalkState),
    (∀ e ∈ es, keyClear (keyHitsForbidden lc) e.1 = true ∧ Clear (keyHitsForbidden lc) e.2) →
      (walkEntries fmt lc es path st).violations = st.violations
  | [], _, _, _ => rfl
  | (k, v) :: es, path, st, h => by
    rw [List.forall_mem_cons] at h
    rw [walkEntries, walkEntries_clear es _ _ h.2, walk_clear v _ _ h.1.2]
    exact flagKey_clear h.1.1 _ _

end

mutual

/-- What the walk has found it keeps. -/
theorem walk_keeps : ∀ (v : PyValue F) (path : String) (st : WalkState),
    (walk fmt lc v path st).violations = [] → st.violations = []
  | .list shared items, path, st, h => by
    rw [walk] at h
    split at h
    · exact h
    · exact walkItems_keeps items path 0 (st.enter shared) h
  | .dict shared entries, path, st, h => by
    rw [walk] at h
    split at h
    · exact h
    · exact walkEntries_keeps entries path (st.enter shared) h
  | .none, _, _, h => h
  | .bool _, _, _, h => h
  | .int _, _, _, h => h
  | .float _, _, _, h => h
  | .str _, _, _, h => h

theorem walkItems_keeps : ∀ (vs : List (PyValue F)) (path : String) (n : Nat) (st : WalkState),
    (walkItems fmt lc vs path n st).violations = [] → st.violations = []
  | [], _, _, _, h => h
  | v :: vs, path, n, st, h => by
    rw [walkItems] at h
    by_cases hn : n < maxListItems
    · rw [if_pos hn] at h
      exact walk_keeps v _ _ (walkItems_keeps vs _ _ _ h)
    · rw [if_neg hn] at h
      exact h

theorem walkEntries_keeps : ∀ (es : List (PyKey F × PyValue F)) (path : String) (st : WalkState),
    (walkEntries fmt lc es path st).violations = [] → st.violations = []
  | [], _, _, h => h
  | (k, v) :: es, path, st, h => by
    rw [walkEntries] at h
    have hflag := walk_keeps v _ _ (walkEntries_keeps es _ _ h)
    exact ((flagKey_nil).mp hflag).1

end

/-! ### Sharing -/

theorem within_sizeOf {u v : PyValue F} (h : Within u v) : sizeOf u ≤ sizeOf v := by
  induction h with
  | self => exact Nat.le_refl _
  | item _ hv ih =>
    have hlt := List.sizeOf_lt_of_mem hv
    rw [PyValue.list.sizeOf_spec]
    omega
  | @entry i entries e _ he ih =>
    have hlt := List.sizeOf_lt_of_mem he
    obtain ⟨k, v⟩ := e
    rw [Prod.mk.sizeOf_spec] at hlt
    rw [PyValue.dict.sizeOf_spec]
    change sizeOf u ≤ sizeOf v at ih
    omega

theorem within_trans {u v w : PyValue F} (h : Within u v) (h' : Within v w) : Within u w := by
  induction h' with
  | self => exact h
  | item _ hv ih => exact .item ih hv
  | entry _ he ih => exact .entry ih he

/-- Every value with this identity is clear. -/
def ClearId (lc : LowerCase) (root : PyValue F) (i : Nat) : Prop :=
  ∀ u, Within u root → u.shared = some i → Clear (keyHitsForbidden lc) u

/-- The values inside `v` that the walk has been in are clear. -/
def EnteredClear (lc : LowerCase) (v : PyValue F) (st : WalkState) : Prop :=
  ∀ u, Within u v → ∀ i ∈ st.seen, u.shared = some i → Clear (keyHitsForbidden lc) u

/-- Between two states of the walk only clear identities were entered. -/
def EntersClear (lc : LowerCase) (root : PyValue F) (st st' : WalkState) : Prop :=
  ∀ i ∈ st'.seen, i ∈ st.seen ∨ ClearId lc root i

theorem EntersClear.trans {root : PyValue F} {st st' st'' : WalkState} (h : EntersClear lc root st st')
    (h' : EntersClear lc root st' st'') : EntersClear lc root st st'' := by
  intro i hi
  rcases h' i hi with hi | hi
  · exact h i hi
  · exact .inr hi

theorem EnteredClear.later {root v : PyValue F} {st st' : WalkState} (h : EnteredClear lc v st)
    (hin : Within v root) (henters : EntersClear lc root st st') : EnteredClear lc v st' := by
  intro u hu i hi hshared
  rcases henters i hi with hi | hi
  · exact h u hu i hi hshared
  · exact hi u (within_trans hu hin) hshared

/-- A list or dictionary is not inside its own items. -/
theorem EnteredClear.inside {root v w : PyValue F} {st : WalkState} (hc : Coherent root)
    (hv : Within v root) (hw : Within w v) (hlt : sizeOf w < sizeOf v) (h : EnteredClear lc v st) :
    EnteredClear lc w (st.enter v.shared) := by
  intro u hu i hi hshared
  rcases List.mem_append.mp hi with hi | hi
  · have hsame : u = v := hc u v i (within_trans hu (within_trans hw hv)) hv hshared
      (by simpa using hi)
    have hle := within_sizeOf hu
    rw [hsame] at hle
    omega
  · exact h u (within_trans hu hw) i hi hshared

/-- A clear value's identity is clear. -/
theorem clearId_of_clear {root v : PyValue F} (hc : Coherent root) (hv : Within v root)
    (hclear : Clear (keyHitsForbidden lc) v) {i : Nat} (hi : v.shared = some i) : ClearId lc root i := by
  intro u hu hshared
  rw [hc u v i hu hv hshared hi]
  exact hclear

theorem entersClear_enter {root v : PyValue F} (hc : Coherent root) (hv : Within v root)
    (hclear : Clear (keyHitsForbidden lc) v) (st : WalkState) :
    EntersClear lc root st (st.enter v.shared) := by
  intro i hi
  rcases List.mem_append.mp hi with hi | hi
  · exact .inr (clearId_of_clear lc hc hv hclear (by simpa using hi))
  · exact .inl hi

theorem entered_mem {st : WalkState} {shared : Option Nat} (h : st.entered shared = true) :
    ∃ i ∈ st.seen, shared = some i := by
  cases shared with
  | none => cases h
  | some i => exact ⟨i, by simpa [WalkState.entered] using h, rfl⟩

mutual

/-- A walk that has found nothing has seen every visible key, or skipped what it had
seen before. -/
theorem walk_sound {root : PyValue F} (hc : Coherent root) : ∀ (v : PyValue F) (path : String)
    (st : WalkState), Within v root → EnteredClear lc v st → (walk fmt lc v path st).violations = [] →
    Clear (keyHitsForbidden lc) v ∧ EntersClear lc root st (walk fmt lc v path st)
  | .list shared items, path, st, hv, hentered, h => by
    rw [walk] at h ⊢
    split at h
    · rename_i hskip
      obtain ⟨i, hi, hshared⟩ := entered_mem hskip
      rw [if_pos hskip]
      exact ⟨hentered _ (.self _) i hi hshared, fun j hj => .inl hj⟩
    · rename_i hskip
      rw [if_neg hskip]
      have hinside : ∀ w ∈ items, Within w root ∧ EnteredClear lc w (st.enter shared) := by
        intro w hw
        have hlt := List.sizeOf_lt_of_mem hw
        have hin : Within w (.list shared items) := .item (.self w) hw
        refine ⟨within_trans hin hv, hentered.inside lc hc hv hin ?_⟩
        rw [PyValue.list.sizeOf_spec]
        omega
      obtain ⟨hclear, henters⟩ := walkItems_sound hc items path 0 _ hinside h
      have hall : Clear (keyHitsForbidden lc) (.list shared items) := (clear_list).mpr hclear
      exact ⟨hall, (entersClear_enter lc hc hv hall st).trans lc henters⟩
  | .dict shared entries, path, st, hv, hentered, h => by
    rw [walk] at h ⊢
    split at h
    · rename_i hskip
      obtain ⟨i, hi, hshared⟩ := entered_mem hskip
      rw [if_pos hskip]
      exact ⟨hentered _ (.self _) i hi hshared, fun j hj => .inl hj⟩
    · rename_i hskip
      rw [if_neg hskip]
      have hinside : ∀ e ∈ entries, Within e.2 root ∧ EnteredClear lc e.2 (st.enter shared) := by
        intro e he
        have hlt := List.sizeOf_lt_of_mem he
        have hin : Within e.2 (.dict shared entries) := .entry (.self e.2) he
        refine ⟨within_trans hin hv, hentered.inside lc hc hv hin ?_⟩
        obtain ⟨k, w⟩ := e
        rw [Prod.mk.sizeOf_spec] at hlt
        rw [PyValue.dict.sizeOf_spec]
        change sizeOf w < _
        omega
      obtain ⟨hclear, henters⟩ := walkEntries_sound hc entries path _ hinside h
      have hall : Clear (keyHitsForbidden lc) (.dict shared entries) := (clear_dict).mpr hclear
      exact ⟨hall, (entersClear_enter lc hc hv hall st).trans lc henters⟩
  | .none, _, _, _, _, _ => ⟨clear_scalar (by simp) (by simp), fun _ hi => .inl hi⟩
  | .bool _, _, _, _, _, _ => ⟨clear_scalar (by simp) (by simp), fun _ hi => .inl hi⟩
  | .int _, _, _, _, _, _ => ⟨clear_scalar (by simp) (by simp), fun _ hi => .inl hi⟩
  | .float _, _, _, _, _, _ => ⟨clear_scalar (by simp) (by simp), fun _ hi => .inl hi⟩
  | .str _, _, _, _, _, _ => ⟨clear_scalar (by simp) (by simp), fun _ hi => .inl hi⟩

theorem walkItems_sound {root : PyValue F} (hc : Coherent root) : ∀ (vs : List (PyValue F))
    (path : String) (n : Nat) (st : WalkState), (∀ v ∈ vs, Within v root ∧ EnteredClear lc v st) →
    (walkItems fmt lc vs path n st).violations = [] →
    (∀ v ∈ vs.take (maxListItems - n), Clear (keyHitsForbidden lc) v) ∧
      EntersClear lc root st (walkItems fmt lc vs path n st)
  | [], _, _, _, _, _ => ⟨by simp, fun _ hi => .inl hi⟩
  | v :: vs, path, n, st, hall, h => by
    rw [walkItems] at h ⊢
    by_cases hn : n < maxListItems
    · rw [if_pos hn] at h ⊢
      rw [List.forall_mem_cons] at hall
      obtain ⟨hclear, henters⟩ := walk_sound hc v _ st hall.1.1 hall.1.2
        (walkItems_keeps fmt lc vs _ _ _ h)
      obtain ⟨hrest, henters'⟩ := walkItems_sound hc vs path (n + 1) _
        (fun w hw => ⟨(hall.2 w hw).1, (hall.2 w hw).2.later lc (hall.2 w hw).1 henters⟩) h
      rw [take_succ_cons v vs hn, List.forall_mem_cons]
      exact ⟨⟨hclear, hrest⟩, henters.trans lc henters'⟩
    · have hzero : maxListItems - n = 0 := by omega
      rw [if_neg hn, hzero]
      exact ⟨by simp, fun i hi => .inl hi⟩

theorem walkEntries_sound {root : PyValue F} (hc : Coherent root) :
    ∀ (es : List (PyKey F × PyValue F)) (path : String) (st : WalkState),
    (∀ e ∈ es, Within e.2 root ∧ EnteredClear lc e.2 st) →
    (walkEntries fmt lc es path st).violations = [] →
    (∀ e ∈ es, keyClear (keyHitsForbidden lc) e.1 = true ∧ Clear (keyHitsForbidden lc) e.2) ∧
      EntersClear lc root st (walkEntries fmt lc es path st)
  | [], _, _, _, _ => ⟨by simp, fun _ hi => .inl hi⟩
  | (k, v) :: es, path, st, hall, h => by
    rw [walkEntries] at h ⊢
    rw [List.forall_mem_cons] at hall
    have hfirst := walkEntries_keeps fmt lc es _ _ h
    obtain ⟨hclear, henters⟩ := walk_sound hc v _
      { st with violations := flagKey (keyHitsForbidden lc) k (path ++ "." ++ keyDisplay fmt k) st.violations }
      hall.1.1 hall.1.2 hfirst
    have hkey := ((flagKey_nil).mp (walk_keeps fmt lc v _ _ hfirst)).2
    obtain ⟨hrest, henters'⟩ := walkEntries_sound hc es path _
      (fun w hw => ⟨(hall.2 w hw).1, (hall.2 w hw).2.later lc (hall.2 w hw).1 henters⟩) h
    rw [List.forall_mem_cons]
    exact ⟨⟨⟨hkey, hclear⟩, hrest⟩, henters.trans lc henters'⟩

end

/-! ## Soundness -/

theorem findGroundTruthViolations_nil {v : PyValue F} (hc : Coherent v) (path : String) :
    findGroundTruthViolations fmt lc v path = [] ↔ Clear (keyHitsForbidden lc) v := by
  constructor
  · intro h
    exact (walk_sound fmt lc hc v path ⟨[], []⟩ (.self v) (fun _ _ _ hi => nomatch hi) h).1
  · intro h
    exact walk_clear fmt lc v path ⟨[], []⟩ h

/-- The stripped lower-case key is one of the names of the two sets. -/
def forbiddenKey (key : String) : Bool :=
  forbiddenGroundTruthKeys.contains (normalKey lc key) || keyIsExtra lc key

/-- One of the two walks objects to the key. -/
def flaggedKey (key : String) : Bool := keyHitsForbidden lc key || keyIsExtra lc key

theorem flagged_of_forbidden {key : String} (h : forbiddenKey lc key = true) :
    flaggedKey lc key = true := by
  unfold forbiddenKey at h
  unfold flaggedKey keyHitsForbidden
  rcases (Bool.or_eq_true _ _).mp h with h | h
  · rw [h]
    rfl
  · rw [h, Bool.or_true]

theorem findBlackboardFirewallViolations_nil {v : PyValue F} (hc : Coherent v) :
    findBlackboardFirewallViolations fmt lc v = [] ↔ Clear (flaggedKey lc) v := by
  unfold findBlackboardFirewallViolations
  rw [walkExtra_nil, findGroundTruthViolations_nil fmt lc hc]
  constructor
  · rintro ⟨hshared, hextra⟩ k hk
    exact Bool.or_eq_false_iff.mpr ⟨hshared k hk, hextra k hk⟩
  · intro h
    exact ⟨fun k hk => (Bool.or_eq_false_iff.mp (h k hk)).1,
      fun k hk => (Bool.or_eq_false_iff.mp (h k hk)).2⟩

/-- A forbidden key of a value without violations stands behind the first items of a
list. -/
theorem hidden_of_accepted {v : PyValue F} (hclear : Clear (flaggedKey lc) v) {k : String}
    (hk : KeyAt v k) (hforbidden : forbiddenKey lc k = true) : HiddenKey v k := by
  rcases (keyAt_iff).mp hk with hvisible | hbehind
  · have hflag := flagged_of_forbidden lc hforbidden
    rw [hclear k hvisible] at hflag
    cases hflag
  · exact hbehind

/-- A value without violations has no forbidden key exactly when no forbidden key stands
behind the first items of a list, or a flagged key stands before. -/
theorem accepted_iff (v : PyObject fmt) :
    (findBlackboardFirewallViolations fmt lc v.value = [] →
      ∀ k, KeyAt v.value k → forbiddenKey lc k = false) ↔
    (∃ k, VisibleKey v.value k ∧ flaggedKey lc k = true) ∨
      ∀ k, HiddenKey v.value k → forbiddenKey lc k = false := by
  rw [findBlackboardFirewallViolations_nil fmt lc v.coherent]
  constructor
  · intro h
    by_cases hclear : Clear (flaggedKey lc) v.value
    · exact .inr fun k hk => h hclear k ((keyAt_iff).mpr (.inr hk))
    · unfold Clear at hclear
      push Not at hclear
      obtain ⟨k, hk, hflag⟩ := hclear
      exact .inl ⟨k, hk, by simpa using hflag⟩
  · rintro (⟨k, hk, hflag⟩ | hhidden) hclear k' hk'
    · rw [hclear k hk] at hflag
      cases hflag
    · by_contra hforbidden
      have hbehind := hidden_of_accepted lc hclear hk' (by simpa using hforbidden)
      exact hforbidden (hhidden k' hbehind)

theorem not_hidden_of_short {v : PyValue F}
    (h : ∀ i items, Within (.list i items) v → items.length ≤ maxListItems) (k : String) :
    ¬ HiddenKey v k := by
  intro hk
  induction hk with
  | behind hv _ =>
    rw [List.drop_eq_nil_of_le (h _ _ (.self _))] at hv
    cases hv
  | entry he _ ih => exact ih fun i items hin => h i items (within_trans hin (.entry (.self _) he))
  | item hv _ ih =>
    exact ih fun i items hin =>
      h i items (within_trans hin (.item (.self _) (List.mem_of_mem_take hv)))

/-- With short lists everywhere the firewall is sound. -/
theorem accepted_of_short (v : PyObject fmt)
    (hshort : ∀ i items, Within (.list i items) v.value → items.length ≤ maxListItems)
    (h : findBlackboardFirewallViolations fmt lc v.value = []) {k : String} (hk : KeyAt v.value k) :
    forbiddenKey lc k = false := by
  have hclear := (findBlackboardFirewallViolations_nil fmt lc v.coherent).mp h
  by_contra hforbidden
  have hbehind := hidden_of_accepted lc hclear hk (by simpa using hforbidden)
  exact not_hidden_of_short hshort k hbehind

end Walks

/-- Lower case for texts of ASCII characters. -/
def asciiLowerCase : LowerCase where
  lower s := String.ofList (s.toList.map Char.toLower)
  lower_ascii := fun _ _ => String.toList_ofList

/-- Rows with a label in the row after the last one that the walks look at. -/
def lateLabel : PyObject nanOnly :=
  PyObject.ofJson nanOnly (.obj [("rows", .arr (List.replicate 500 (.int 0) ++ [.obj [("label", .int 1)]]))])
    (.obj _ (by decide) (by
      simp only [List.mem_singleton, forall_eq]
      refine .arr _ fun x hx => ?_
      rcases List.mem_append.mp hx with hx | hx
      · rw [List.eq_of_mem_replicate hx]
        exact .int 0
      · rw [List.mem_singleton.mp hx]
        exact .obj _ (by decide) (by simpa using .int 1)))

theorem lateLabel_accepted :
    findBlackboardFirewallViolations nanOnly asciiLowerCase lateLabel.value = [] ∧
      KeyAt lateLabel.value "label" ∧ forbiddenKey asciiLowerCase "label" = true := by
  refine ⟨?_, ?_, by decide⟩
  · rw [findBlackboardFirewallViolations_nil nanOnly asciiLowerCase lateLabel.coherent]
    change Clear _ (.dict none [(.str "rows", .list none (decodeItems _))])
    rw [clear_dict]
    simp only [List.mem_singleton, forall_eq]
    refine ⟨by decide, (clear_list).mpr fun v hv => ?_⟩
    rw [decodeItems_eq, List.map_append, List.take_left' (by rw [List.length_map, List.length_replicate]; rfl)] at hv
    obtain ⟨j, hj, rfl⟩ := List.mem_map.mp hv
    rw [List.eq_of_mem_replicate hj]
    exact clear_scalar (by simp [decode]) (by simp [decode])
  · refine .entry List.mem_cons_self (.item (v := .dict none [(.str "label", .int 1)]) ?_ (.here List.mem_cons_self))
    rw [decodeItems_eq, List.map_append]
    exact List.mem_append_right _ List.mem_cons_self

end BlackboardFirewall
