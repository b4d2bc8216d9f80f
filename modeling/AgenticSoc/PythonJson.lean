import AgenticSoc.JsonText
import AgenticSoc.Sorting
import Mathlib.Algebra.Order.Field.Rat
import Mathlib.Data.Rat.Lemmas
import Mathlib.Data.List.Lex
import Mathlib.Data.Char

/-!
# Python values and their canonical JSON texts

The values that the JSON encoder takes: dictionaries with any keys it can write,
lists and tuples, numbers, texts. The encoder sorts the entries of a dictionary by
their keys before it writes the keys as texts, so numeric keys are put in numeric
order; after a reload every key is a text and is sorted as one.
-/
namespace PythonJson

open JsonText Sorting

/-- Floating-point numbers with the value that comparisons use. -/
structure PyFloats (F : Type) extends FloatFormat F where
  value : F → ℚ

inductive PyKey (F : Type) where
  | none
  | bool (b : Bool)
  | int (n : Int)
  | float (x : F)
  | str (s : String)

/-- A list or a dictionary that stands at several places has an identity; a value
that stands at one place only needs none. Tuples are lists here: the encoder writes
them alike. -/
inductive PyValue (F : Type) where
  | none
  | bool (b : Bool)
  | int (n : Int)
  | float (x : F)
  | str (s : String)
  | list (shared : Option Nat) (items : List (PyValue F))
  | dict (shared : Option Nat) (entries : List (PyKey F × PyValue F))

/-- Induction over the items of lists and the entries of dictionaries. -/
@[induction_eliminator]
theorem PyValue.induction {F : Type} {P : PyValue F → Prop} (none : P .none) (bool : ∀ b, P (.bool b))
    (int : ∀ n, P (.int n)) (float : ∀ x, P (.float x)) (str : ∀ s, P (.str s))
    (list : ∀ i items, (∀ v ∈ items, P v) → P (.list i items))
    (dict : ∀ i entries, (∀ e ∈ entries, P e.2) → P (.dict i entries)) (v : PyValue F) : P v :=
  @PyValue.rec F P (fun items => ∀ v ∈ items, P v) (fun entries => ∀ e ∈ entries, P e.2)
    (fun e => P e.2)
    none bool int float str list dict
    (fun _ h => nomatch h)
    (fun _ _ hv hvs w hw => by
      rcases List.mem_cons.mp hw with rfl | hw
      · exact hv
      · exact hvs w hw)
    (fun _ h => nomatch h)
    (fun _ _ he hes d hd => by
      rcases List.mem_cons.mp hd with rfl | hd
      · exact he
      · exact hes d hd)
    (fun _ _ h => h) v

def PyValue.shared {F : Type} : PyValue F → Option Nat
  | .list i _ => i
  | .dict i _ => i
  | _ => Option.none

/-- The values inside a value, itself among them. -/
inductive Within {F : Type} : PyValue F → PyValue F → Prop where
  | self (v : PyValue F) : Within v v
  | item {u v : PyValue F} {i : Option Nat} {items : List (PyValue F)} : Within u v → v ∈ items →
      Within u (.list i items)
  | entry {u : PyValue F} {i : Option Nat} {entries : List (PyKey F × PyValue F)}
      {e : PyKey F × PyValue F} : Within u e.2 → e ∈ entries → Within u (.dict i entries)

/-- One identity is the identity of one value. -/
def Coherent {F : Type} (root : PyValue F) : Prop :=
  ∀ u v i, Within u root → Within v root → u.shared = some i → v.shared = some i → u = v

/-- The longest run of digits that an integer is written with or read from. -/
def maxStrDigits : Nat := 4300

def printable (n : Int) : Bool := (Nat.toDigits 10 n.natAbs).length ≤ maxStrDigits

section Encoder

variable {F : Type} (fmt : PyFloats F)

/-! ## Keys -/

abbrev KeyRank := Nat ×ₗ ℚ ×ₗ List Char

/-- Equality and order of keys. Numbers compare by value whatever their type; the
encoder never compares keys of different ranks. -/
def keyRank : PyKey F → KeyRank
  | .none => toLex (0, toLex (0, []))
  | .bool b => toLex (1, toLex (if b then 1 else 0, []))
  | .int n => toLex (1, toLex (n, []))
  | .float x => toLex (1, toLex (fmt.value x, []))
  | .str s => toLex (2, toLex (0, s.toList))

def PyKey.isStr : PyKey F → Bool
  | .str _ => true
  | _ => false

def PyKey.isNumber : PyKey F → Bool
  | .bool _ | .int _ | .float _ => true
  | _ => false

/-- The value with the same text, for a key that is no text. -/
def PyKey.scalar : PyKey F → Json F
  | .none => .null
  | .bool b => .bool b
  | .int n => .int n
  | .float x => .float x
  | .str s => .str s

def keyText : PyKey F → List Char
  | .str s => s.toList
  | k => write fmt.toFloatFormat k.scalar

/-- The encoder can write the key. -/
def keyOk : PyKey F → Bool
  | .int n => printable n
  | .float x => fmt.finite x
  | _ => true

/-- Entries in key order. Two keys that have no order make the sort fail. -/
def sortEntries {α : Type} (entries : List (PyKey F × α)) : Option (List (PyKey F × α)) :=
  if entries.length ≤ 1 then some entries
  else if entries.all (fun e => e.1.isStr) || entries.all (fun e => e.1.isNumber) then
    some (sortBy (fun e => keyRank fmt e.1) entries)
  else none

/-! ## Encoding and decoding -/

mutual

/-- The JSON value that is written for a Python value, when there is one. -/
def encode : PyValue F → Option (Json F)
  | .none => some .null
  | .bool b => some (.bool b)
  | .int n => if printable n then some (.int n) else none
  | .float x => if fmt.finite x then some (.float x) else none
  | .str s => some (.str s)
  | .list _ items => (encodeItems items).map .arr
  | .dict _ entries =>
    match encodeEntries entries with
    | none => none
    | some es => (sortEntries fmt es).map fun es => .obj (es.map Prod.snd)

def encodeItems : List (PyValue F) → Option (List (Json F))
  | [] => some []
  | v :: vs =>
    match encode v, encodeItems vs with
    | some j, some js => some (j :: js)
    | _, _ => none

/-- Each key with its member. -/
def encodeEntries : List (PyKey F × PyValue F) → Option (List (PyKey F × String × Json F))
  | [] => some []
  | (k, v) :: es =>
    match encode v, encodeEntries es with
    | some j, some ms => if keyOk fmt k then some ((k, String.ofList (keyText fmt k), j) :: ms) else none
    | _, _ => none

end

mutual

/-- The fresh Python value that is made of a JSON value. -/
def decode : Json F → PyValue F
  | .null => .none
  | .bool b => .bool b
  | .int n => .int n
  | .float x => .float x
  | .str s => .str s
  | .arr items => .list none (decodeItems items)
  | .obj members => .dict none (decodeMembers members)

def decodeItems : List (Json F) → List (PyValue F)
  | [] => []
  | j :: js => decode j :: decodeItems js

def decodeMembers : List (String × Json F) → List (PyKey F × PyValue F)
  | [] => []
  | (k, j) :: ms => (.str k, decode j) :: decodeMembers ms

end

/-- Compact text with sorted keys and without numbers that are not finite. -/
def dumps (v : PyValue F) : Option String :=
  (encode fmt v).map fun j => String.ofList (write fmt.toFloatFormat j)

def loads (s : String) : Option (PyValue F) := (read fmt.toFloatFormat s.toList).map decode

/-- The keys of every dictionary are different keys. -/
inductive DistinctKeys : PyValue F → Prop where
  | none : DistinctKeys .none
  | bool (b : Bool) : DistinctKeys (.bool b)
  | int (n : Int) : DistinctKeys (.int n)
  | float (x : F) : DistinctKeys (.float x)
  | str (s : String) : DistinctKeys (.str s)
  | list (i : Option Nat) (items : List (PyValue F)) : (∀ v ∈ items, DistinctKeys v) →
      DistinctKeys (.list i items)
  | dict (i : Option Nat) (entries : List (PyKey F × PyValue F)) :
      (entries.map fun e => keyRank fmt e.1).Nodup → (∀ e ∈ entries, DistinctKeys e.2) →
      DistinctKeys (.dict i entries)

/-! ## What the encoder writes -/

/-- Entries whose keys have an order: one at most, or texts only, or numbers only. -/
def sortable {α : Type} (entries : List (PyKey F × α)) : Bool :=
  entries.length ≤ 1 || entries.all (fun e => e.1.isStr) || entries.all (fun e => e.1.isNumber)

theorem sortEntries_some {α : Type} {entries out : List (PyKey F × α)} :
    sortEntries fmt entries = some out ↔
      sortable entries = true ∧ out = sortBy (fun e => keyRank fmt e.1) entries := by
  unfold sortEntries sortable
  by_cases hlen : entries.length ≤ 1
  · have hself : sortBy (fun e => keyRank fmt e.1) entries = entries := by
      apply sortBy_eq_self
      match entries with
      | [] => exact .nil
      | [e] => exact List.pairwise_singleton _ e
    simp only [hlen, if_true, decide_true, Bool.true_or, true_and, hself, Option.some.injEq]
    exact eq_comm
  · simp only [hlen, if_false, decide_false, Bool.false_or]
    by_cases hall : (entries.all (fun e => e.1.isStr) || entries.all (fun e => e.1.isNumber)) = true
    · simp only [hall, if_true, Option.some.injEq, true_and]
      exact eq_comm
    · simp [hall]

theorem sortable_perm {α : Type} {entries entries' : List (PyKey F × α)}
    (h : entries.Perm entries') : sortable entries = sortable entries' := by
  unfold sortable
  rw [h.length_eq, h.all_eq, h.all_eq]

/-- The order in which the entries were put in does not matter. -/
theorem sortEntries_congr {α : Type} {entries entries' : List (PyKey F × α)}
    (hp : entries.Perm entries') (hd : (entries.map fun e => keyRank fmt e.1).Nodup) :
    sortEntries fmt entries = sortEntries fmt entries' := by
  have hsame : sortBy (fun e => keyRank fmt e.1) entries = sortBy (fun e => keyRank fmt e.1) entries' :=
    sortBy_congr hp hd
  ext out
  simp only [sortEntries_some, sortable_perm hp, hsame]

theorem encodeItems_some {items : List (PyValue F)} {js : List (Json F)} :
    encodeItems fmt items = some js ↔ List.Forall₂ (fun v j => encode fmt v = some j) items js := by
  induction items generalizing js with
  | nil => simp [encodeItems, eq_comm]
  | cons v vs ih =>
    rw [encodeItems]
    constructor
    · intro h
      split at h
      · rename_i j js' hj hjs
        cases h
        exact .cons hj (ih.mp hjs)
      · cases h
    · intro h
      cases h with
      | cons hj hrest => rw [hj, ih.mpr hrest]

/-- An entry and the member written for it. -/
def Written (e : PyKey F × PyValue F) (m : PyKey F × String × Json F) : Prop :=
  m.1 = e.1 ∧ keyOk fmt e.1 = true ∧ m.2.1 = String.ofList (keyText fmt e.1) ∧
    encode fmt e.2 = some m.2.2

theorem encodeEntries_some {entries : List (PyKey F × PyValue F)}
    {ms : List (PyKey F × String × Json F)} :
    encodeEntries fmt entries = some ms ↔ List.Forall₂ (Written fmt) entries ms := by
  induction entries generalizing ms with
  | nil => simp [encodeEntries, eq_comm]
  | cons e es ih =>
    obtain ⟨k, v⟩ := e
    rw [encodeEntries]
    constructor
    · intro h
      split at h
      · rename_i j ms' hj hms
        by_cases hk : keyOk fmt k = true
        · rw [if_pos hk] at h
          cases h
          exact .cons ⟨rfl, hk, rfl, hj⟩ (ih.mp hms)
        · rw [if_neg hk] at h
          cases h
      · cases h
    · intro h
      cases h with
      | cons hw hrest =>
        rename_i m ms'
        obtain ⟨hkey, hk, htext, hj⟩ := hw
        obtain ⟨key, text, j⟩ := m
        simp only at hkey hk htext hj
        subst hkey htext
        simp only [hj, ih.mpr hrest, hk, if_true]

/-- The members a dictionary is written with, by its entries. -/
theorem encode_dict {i : Option Nat} {entries : List (PyKey F × PyValue F)} {j : Json F} :
    encode fmt (.dict i entries) = some j ↔ ∃ ms, List.Forall₂ (Written fmt) entries ms ∧
      sortable ms = true ∧ j = .obj ((sortBy (fun m => keyRank fmt m.1) ms).map Prod.snd) := by
  rw [encode]
  constructor
  · intro h
    split at h
    · cases h
    · rename_i ms hms
      obtain ⟨out, hout, rfl⟩ := Option.map_eq_some_iff.mp h
      obtain ⟨hs, rfl⟩ := (sortEntries_some fmt).mp hout
      exact ⟨ms, (encodeEntries_some fmt).mp hms, hs, rfl⟩
  · rintro ⟨ms, hms, hs, rfl⟩
    rw [(encodeEntries_some fmt).mpr hms]
    simp only [(sortEntries_some fmt).mpr ⟨hs, rfl⟩, Option.map_some]

/-! ### Keys with one text are one key -/

theorem writable_scalar {k : PyKey F} (h : keyOk fmt k = true) :
    Writable fmt.toFloatFormat k.scalar := by
  cases k with
  | none => exact .null
  | bool b => exact .bool b
  | int n => exact .int n
  | float x => exact .float x h
  | str s => exact .str s

theorem keyText_scalar {k : PyKey F} (h : k.isStr = false) :
    keyText fmt k = write fmt.toFloatFormat k.scalar := by
  cases k with
  | str s => simp [PyKey.isStr] at h
  | none => rfl
  | bool b => rfl
  | int n => rfl
  | float x => rfl

theorem scalar_inj {k k' : PyKey F} (h : k.scalar = k'.scalar) : k = k' := by
  cases k <;> cases k' <;> cases h <;> rfl

theorem isStr_iff {k : PyKey F} : k.isStr = true ↔ ∃ s, k = .str s := by
  cases k <;> simp [PyKey.isStr]

theorem keyText_inj {k k' : PyKey F} (h : keyOk fmt k = true) (h' : keyOk fmt k' = true)
    (hkind : k.isStr = k'.isStr) (ht : keyText fmt k = keyText fmt k') : k = k' := by
  cases hk : k.isStr with
  | true =>
    obtain ⟨s, rfl⟩ := (isStr_iff).mp hk
    obtain ⟨t, rfl⟩ := (isStr_iff).mp (hkind.symm.trans hk)
    rw [String.toList_inj.mp ht]
  | false =>
    have hk' : k'.isStr = false := hkind.symm.trans hk
    rw [keyText_scalar fmt hk, keyText_scalar fmt hk'] at ht
    exact scalar_inj (write_injective (writable_scalar fmt h) (writable_scalar fmt h') ht)

/-! ### What was written -/

/-- JSON values that the encoder can have written. -/
inductive Dumped : Json F → Prop where
  | null : Dumped .null
  | bool (b : Bool) : Dumped (.bool b)
  | int (n : Int) : printable n = true → Dumped (.int n)
  | float (x : F) : fmt.finite x = true → Dumped (.float x)
  | str (s : String) : Dumped (.str s)
  | arr (items : List (Json F)) : (∀ x ∈ items, Dumped x) → Dumped (.arr items)
  | obj (members : List (String × Json F)) : (members.map Prod.fst).Nodup →
      (∀ m ∈ members, Dumped m.2) → Dumped (.obj members)

theorem Dumped.writable {j : Json F} (h : Dumped fmt j) : Writable fmt.toFloatFormat j := by
  induction h with
  | null => exact .null
  | bool b => exact .bool b
  | int n => exact .int n
  | float x hx => exact .float x hx
  | str s => exact .str s
  | arr items _ ih => exact .arr items ih
  | obj members hkeys _ ih => exact .obj members hkeys ih

theorem exists_left {α β : Type} {R : α → β → Prop} {l : List α} {l' : List β}
    (h : List.Forall₂ R l l') {b : β} (hb : b ∈ l') : ∃ a ∈ l, R a b := by
  induction h with
  | nil => cases hb
  | cons hab hrest ih =>
    rcases List.mem_cons.mp hb with rfl | hb
    · exact ⟨_, List.mem_cons_self, hab⟩
    · obtain ⟨a, ha, hr⟩ := ih hb
      exact ⟨a, List.mem_cons_of_mem _ ha, hr⟩

theorem exists_right {α β : Type} {R : α → β → Prop} {l : List α} {l' : List β}
    (h : List.Forall₂ R l l') {a : α} (ha : a ∈ l) : ∃ b ∈ l', R a b :=
  exists_left h.flip ha

theorem written_ranks {entries : List (PyKey F × PyValue F)} {ms : List (PyKey F × String × Json F)}
    (h : List.Forall₂ (Written fmt) entries ms) :
    (ms.map fun m => keyRank fmt m.1) = entries.map fun e => keyRank fmt e.1 := by
  induction h with
  | nil => rfl
  | cons hw hrest ih => rw [List.map_cons, List.map_cons, hw.1, ih]

/-- Sortable keys are all texts or all no texts, unless there is one only. -/
theorem sortable_kind {α : Type} {entries : List (PyKey F × α)} (h : sortable entries = true)
    {e e' : PyKey F × α} (he : e ∈ entries) (he' : e' ∈ entries) : e.1.isStr = e'.1.isStr := by
  unfold sortable at h
  rw [Bool.or_eq_true, Bool.or_eq_true, decide_eq_true_eq, List.all_eq_true, List.all_eq_true] at h
  rcases h with (hlen | hstr) | hnumber
  · match entries, hlen with
    | [x], _ =>
      rw [List.mem_singleton.mp he, List.mem_singleton.mp he']
  · rw [hstr e he, hstr e' he']
  · have hnot : ∀ x ∈ entries, x.1.isStr = false := by
      intro x hx
      have hxn := hnumber x hx
      cases hk : x.1 <;> rw [hk] at hxn <;> first | rfl | cases hxn
    rw [hnot e he, hnot e' he']

theorem written_texts_nodup {entries : List (PyKey F × PyValue F)}
    {ms : List (PyKey F × String × Json F)} (h : List.Forall₂ (Written fmt) entries ms)
    (hs : sortable ms = true) (hd : (entries.map fun e => keyRank fmt e.1).Nodup) :
    (ms.map fun m => m.2.1).Nodup := by
  have hranks : (ms.map fun m => keyRank fmt m.1).Nodup := by
    rw [written_ranks fmt h]
    exact hd
  refine List.Nodup.map_on ?_ hranks.of_map
  intro m hm m' hm' ht
  obtain ⟨e, -, hkey, hok, htext, -⟩ := exists_left h hm
  obtain ⟨e', -, hkey', hok', htext', -⟩ := exists_left h hm'
  rw [htext, htext', String.ofList_inj, ← hkey, ← hkey'] at ht
  rw [← hkey] at hok
  rw [← hkey'] at hok'
  have heq := keyText_inj fmt hok hok' (sortable_kind hs hm hm') ht
  exact List.inj_on_of_nodup_map hranks hm hm' (by rw [heq])

theorem encode_dumped {v : PyValue F} (hv : DistinctKeys fmt v) {j : Json F}
    (h : encode fmt v = some j) : Dumped fmt j := by
  induction hv generalizing j with
  | none => cases h; exact .null
  | bool b => cases h; exact .bool b
  | int n =>
    rw [encode] at h
    split at h
    · rename_i hn
      cases h
      exact .int n hn
    · cases h
  | float x =>
    rw [encode] at h
    split at h
    · rename_i hx
      cases h
      exact .float x hx
    · cases h
  | str s => cases h; exact .str s
  | list i items _ ih =>
    rw [encode, Option.map_eq_some_iff] at h
    obtain ⟨js, hjs, rfl⟩ := h
    refine .arr js ?_
    intro x hx
    obtain ⟨v, hv, hvx⟩ := exists_left ((encodeItems_some fmt).mp hjs) hx
    exact ih v hv hvx
  | dict i entries hkeys _ ih =>
    obtain ⟨ms, hms, hs, rfl⟩ := (encode_dict fmt).mp h
    refine .obj _ ?_ ?_
    · have hp := (sortBy_perm (fun m : PyKey F × String × Json F => keyRank fmt m.1) ms).map fun m => m.2.1
      rw [List.map_map]
      exact hp.nodup_iff.mpr (written_texts_nodup fmt hms hs hkeys)
    · intro x hx
      obtain ⟨m, hm, rfl⟩ := List.mem_map.mp hx
      obtain ⟨e, he, -, -, -, henc⟩ := exists_left hms ((mem_sortBy).mp hm)
      exact ih e he henc


/-! ### Writing a reloaded value -/

mutual

/-- The members of every object put in the order of their texts. -/
def inTextOrder : Json F → Json F
  | .arr items => .arr (itemsInTextOrder items)
  | .obj members => .obj (sortBy (fun m => m.1.toList) (membersInTextOrder members))
  | j => j

def itemsInTextOrder : List (Json F) → List (Json F)
  | [] => []
  | j :: js => inTextOrder j :: itemsInTextOrder js

def membersInTextOrder : List (String × Json F) → List (String × Json F)
  | [] => []
  | (k, j) :: ms => (k, inTextOrder j) :: membersInTextOrder ms

end

theorem itemsInTextOrder_eq (items : List (Json F)) :
    itemsInTextOrder items = items.map inTextOrder := by
  induction items with
  | nil => rfl
  | cons j js ih => rw [itemsInTextOrder, ih, List.map_cons]

theorem membersInTextOrder_eq (members : List (String × Json F)) :
    membersInTextOrder members = members.map fun m => (m.1, inTextOrder m.2) := by
  induction members with
  | nil => rfl
  | cons m ms ih =>
    obtain ⟨k, j⟩ := m
    rw [membersInTextOrder, ih, List.map_cons]

theorem decodeItems_eq (items : List (Json F)) : decodeItems items = items.map decode := by
  induction items with
  | nil => rfl
  | cons j js ih => rw [decodeItems, ih, List.map_cons]

theorem decodeMembers_eq (members : List (String × Json F)) :
    decodeMembers members = members.map fun m => (.str m.1, decode m.2) := by
  induction members with
  | nil => rfl
  | cons m ms ih =>
    obtain ⟨k, j⟩ := m
    rw [decodeMembers, ih, List.map_cons]

theorem keyRank_str_le (s t : String) : keyRank fmt (.str s) ≤ keyRank fmt (.str t) ↔
    s.toList ≤ t.toList := by
  simp [keyRank, Prod.Lex.toLex_le_toLex]

/-- A list of text-keyed members sorts by the texts. -/
theorem sortBy_text_keys {α : Type} (ms : List (String × α)) :
    (sortBy (fun m => keyRank fmt m.1) (ms.map fun m => (PyKey.str m.1, m))).map Prod.snd =
      sortBy (fun m => m.1.toList) ms := by
  rw [← sortBy_map (f := fun m : String × α => (PyKey.str m.1, m))
    fun a _ b _ => (keyRank_str_le fmt a.1 b.1).symm, List.map_map]
  exact List.map_id _

theorem Dumped.encode_decode {j : Json F} (h : Dumped fmt j) :
    encode fmt (decode j) = some (inTextOrder j) := by
  induction h with
  | null => rfl
  | bool b => rfl
  | int n hn => exact if_pos hn
  | float x hx => exact if_pos hx
  | str s => rfl
  | arr items _ ih =>
    have hitems : List.Forall₂ (fun v j => encode fmt v = some j) (items.map decode)
        (items.map inTextOrder) := by
      rw [List.forall₂_map_left_iff, List.forall₂_map_right_iff, List.forall₂_same]
      exact ih
    rw [decode, encode, decodeItems_eq, (encodeItems_some fmt).mpr hitems, inTextOrder,
      itemsInTextOrder_eq]
    rfl
  | obj members _ _ ih =>
    have hwritten : List.Forall₂ (Written fmt) (members.map fun m => (PyKey.str m.1, decode m.2))
        ((members.map fun m => (m.1, inTextOrder m.2)).map fun m => (PyKey.str m.1, m)) := by
      rw [List.map_map, List.forall₂_map_left_iff, List.forall₂_map_right_iff, List.forall₂_same]
      intro m hm
      exact ⟨rfl, rfl, by simp [keyText], ih m hm⟩
    have hsortable : sortable ((members.map fun m => (m.1, inTextOrder m.2)).map
        fun m => (PyKey.str (F := F) m.1, m)) = true := by
      simp [sortable, PyKey.isStr]
    rw [decode, decodeMembers_eq, inTextOrder, membersInTextOrder_eq, ← sortBy_text_keys fmt]
    exact (encode_dict fmt).mpr ⟨_, hwritten, hsortable, rfl⟩

/-- The members of every object stand in the order of their texts. -/
inductive TextSorted : Json F → Prop where
  | null : TextSorted .null
  | bool (b : Bool) : TextSorted (.bool b)
  | int (n : Int) : TextSorted (.int n)
  | float (x : F) : TextSorted (.float x)
  | str (s : String) : TextSorted (.str s)
  | arr (items : List (Json F)) : (∀ x ∈ items, TextSorted x) → TextSorted (.arr items)
  | obj (members : List (String × Json F)) : (members.Pairwise fun a b => a.1.toList < b.1.toList) →
      (∀ m ∈ members, TextSorted m.2) → TextSorted (.obj members)

theorem TextSorted.inTextOrder {j : Json F} (h : TextSorted j) : PythonJson.inTextOrder j = j := by
  induction h with
  | null => rfl
  | bool b => rfl
  | int n => rfl
  | float x => rfl
  | str s => rfl
  | arr items _ ih =>
    rw [PythonJson.inTextOrder, itemsInTextOrder_eq, List.map_congr_left ih, List.map_id']
  | obj members hsorted _ ih =>
    have hmembers : members.map (fun m => (m.1, PythonJson.inTextOrder m.2)) = members := by
      rw [List.map_congr_left (g := id) fun m hm => by rw [ih m hm]; rfl, List.map_id]
    rw [PythonJson.inTextOrder, membersInTextOrder_eq, hmembers,
      sortBy_eq_self (hsorted.imp fun h => le_of_lt h)]

theorem Dumped.textSorted {j : Json F} (h : Dumped fmt j) (hsame : inTextOrder j = j) :
    TextSorted j := by
  induction h with
  | null => exact .null
  | bool b => exact .bool b
  | int n => exact .int n
  | float x => exact .float x
  | str s => exact .str s
  | arr items _ ih =>
    rw [inTextOrder, itemsInTextOrder_eq, Json.arr.injEq] at hsame
    refine .arr items fun x hx => ih x hx ?_
    exact List.map_inj_left.mp (hsame.trans (List.map_id items).symm) x hx
  | obj members hkeys _ ih =>
    rw [inTextOrder, membersInTextOrder_eq, Json.obj.injEq] at hsame
    -- the rearranged members are the members, so both are sorted and nothing moved
    have hnodup : ((members.map fun m => (m.1, inTextOrder m.2)).map fun m => m.1.toList).Nodup := by
      have htexts := hkeys.map fun _ _ h => String.toList_injective h
      simpa only [List.map_map, Function.comp_def] using htexts
    have hsorted : members.Pairwise fun a b => a.1.toList < b.1.toList := by
      have hstrict := sortBy_strict hnodup
      rw [hsame] at hstrict
      exact hstrict
    have hself : sortBy (fun m => m.1.toList) (members.map fun m => (m.1, inTextOrder m.2)) =
        members.map fun m => (m.1, inTextOrder m.2) := by
      apply sortBy_eq_self
      rw [List.pairwise_map]
      exact hsorted.imp fun h => le_of_lt h
    rw [hself] at hsame
    refine .obj members hsorted fun m hm => ih m hm ?_
    have hm' := List.map_inj_left.mp (hsame.trans (List.map_id members).symm) m hm
    exact congrArg Prod.snd hm'

/-- In every dictionary the keys are in one order as keys and as texts. -/
inductive KeysInTextOrder : PyValue F → Prop where
  | none : KeysInTextOrder .none
  | bool (b : Bool) : KeysInTextOrder (.bool b)
  | int (n : Int) : KeysInTextOrder (.int n)
  | float (x : F) : KeysInTextOrder (.float x)
  | str (s : String) : KeysInTextOrder (.str s)
  | list (i : Option Nat) (items : List (PyValue F)) : (∀ v ∈ items, KeysInTextOrder v) →
      KeysInTextOrder (.list i items)
  | dict (i : Option Nat) (entries : List (PyKey F × PyValue F)) :
      (∀ e ∈ entries, ∀ e' ∈ entries, keyRank fmt e.1 < keyRank fmt e'.1 →
        keyText fmt e.1 < keyText fmt e'.1) →
      (∀ e ∈ entries, KeysInTextOrder e.2) → KeysInTextOrder (.dict i entries)

/-- A pair of the list that its order relates is in it in that order. -/
theorem pairwise_of_strict {α κ : Type} [LinearOrder κ] {key : α → κ} {R : α → α → Prop} {l : List α}
    (h : l.Pairwise fun a b => key a < key b) :
    l.Pairwise R ↔ ∀ a ∈ l, ∀ b ∈ l, key a < key b → R a b := by
  induction l with
  | nil => simp
  | cons x xs ih =>
    obtain ⟨hx, hxs⟩ := List.pairwise_cons.mp h
    rw [List.pairwise_cons, ih hxs]
    constructor
    · rintro ⟨hfirst, hrest⟩ a ha b hb hab
      rcases List.mem_cons.mp ha with rfl | ha'
      · rcases List.mem_cons.mp hb with rfl | hb'
        · exact absurd hab (lt_irrefl _)
        · exact hfirst b hb'
      · rcases List.mem_cons.mp hb with rfl | hb'
        · exact absurd hab (lt_asymm (hx a ha'))
        · exact hrest a ha' b hb' hab
    · intro hall
      refine ⟨fun b hb => ?_, fun a ha b hb => ?_⟩
      · exact hall x (by simp) b (List.mem_cons_of_mem x hb) (hx b hb)
      · exact hall a (List.mem_cons_of_mem x ha) b (List.mem_cons_of_mem x hb)

theorem textSorted_iff {v : PyValue F} (hv : DistinctKeys fmt v) {j : Json F}
    (h : encode fmt v = some j) : TextSorted j ↔ KeysInTextOrder fmt v := by
  induction hv generalizing j with
  | none => cases h; exact ⟨fun _ => .none, fun _ => .null⟩
  | bool b => cases h; exact ⟨fun _ => .bool b, fun _ => .bool b⟩
  | int n =>
    rw [encode] at h
    split at h <;> cases h
    exact ⟨fun _ => .int n, fun _ => .int n⟩
  | float x =>
    rw [encode] at h
    split at h <;> cases h
    exact ⟨fun _ => .float x, fun _ => .float x⟩
  | str s => cases h; exact ⟨fun _ => .str s, fun _ => .str s⟩
  | list i items _ ih =>
    rw [encode, Option.map_eq_some_iff] at h
    obtain ⟨js, hjs, rfl⟩ := h
    have hitems := (encodeItems_some fmt).mp hjs
    constructor
    · intro hsorted
      cases hsorted with
      | arr _ hall =>
        refine .list i items fun v hv => ?_
        obtain ⟨j, hj, henc⟩ := exists_right hitems hv
        exact (ih v hv henc).mp (hall j hj)
    · intro hordered
      cases hordered with
      | list _ _ hall =>
        refine .arr js fun j hj => ?_
        obtain ⟨v, hv, henc⟩ := exists_left hitems hj
        exact (ih v hv henc).mpr (hall v hv)
  | dict i entries hkeys _ ih =>
    obtain ⟨ms, hms, hs, rfl⟩ := (encode_dict fmt).mp h
    have hranks : (ms.map fun m => keyRank fmt m.1).Nodup := by
      rw [written_ranks fmt hms]
      exact hkeys
    have horder : ((sortBy (fun m => keyRank fmt m.1) ms).map Prod.snd).Pairwise
        (fun a b => a.1.toList < b.1.toList) ↔
        ∀ e ∈ entries, ∀ e' ∈ entries, keyRank fmt e.1 < keyRank fmt e'.1 →
          keyText fmt e.1 < keyText fmt e'.1 := by
      rw [List.pairwise_map, pairwise_of_strict (sortBy_strict hranks)]
      constructor
      · intro hall e he e' he' hlt
        obtain ⟨m, hm, hkey, -, htext, -⟩ := exists_right hms he
        obtain ⟨m', hm', hkey', -, htext', -⟩ := exists_right hms he'
        have hpair := hall m ((mem_sortBy).mpr hm) m' ((mem_sortBy).mpr hm') (by rw [hkey, hkey']; exact hlt)
        rw [htext, htext'] at hpair
        simpa using hpair
      · intro hall m hm m' hm' hlt
        obtain ⟨e, he, hkey, -, htext, -⟩ := exists_left hms ((mem_sortBy).mp hm)
        obtain ⟨e', he', hkey', -, htext', -⟩ := exists_left hms ((mem_sortBy).mp hm')
        rw [hkey, hkey'] at hlt
        have hpair := hall e he e' he' hlt
        rw [htext, htext']
        simpa using hpair
    constructor
    · intro hsorted
      cases hsorted with
      | obj _ hpairs hall =>
        refine .dict i entries (horder.mp hpairs) fun e he => ?_
        obtain ⟨m, hm, -, -, -, henc⟩ := exists_right hms he
        exact (ih e he henc).mp (hall m.2 (List.mem_map_of_mem ((mem_sortBy).mpr hm)))
    · intro hordered
      cases hordered with
      | dict _ _ hpairs hall =>
        refine .obj _ (horder.mpr hpairs) fun x hx => ?_
        obtain ⟨m, hm, rfl⟩ := List.mem_map.mp hx
        obtain ⟨e, he, -, -, -, henc⟩ := exists_left hms ((mem_sortBy).mp hm)
        exact (ih e he henc).mpr (hall e he)

/-! ### The texts -/

theorem dumps_some {v : PyValue F} {s : String} :
    dumps fmt v = some s ↔ ∃ j, encode fmt v = some j ∧
      s = String.ofList (write fmt.toFloatFormat j) := by
  unfold dumps
  rw [Option.map_eq_some_iff]
  constructor
  · rintro ⟨j, hj, rfl⟩
    exact ⟨j, hj, rfl⟩
  · rintro ⟨j, hj, rfl⟩
    exact ⟨j, hj, rfl⟩

/-- A text loads to the value that was written. -/
theorem loads_dumps {v : PyValue F} (hv : DistinctKeys fmt v) {j : Json F}
    (h : encode fmt v = some j) :
    loads fmt (String.ofList (write fmt.toFloatFormat j)) = some (decode j) := by
  unfold loads
  rw [String.toList_ofList, read_write (encode_dumped fmt hv h).writable]
  rfl

theorem keyRank_str_inj {s t : String} (h : keyRank fmt (.str s) = keyRank fmt (.str t)) : s = t := by
  have hle := (keyRank_str_le fmt s t).mp (le_of_eq h)
  have hge := (keyRank_str_le fmt t s).mp (ge_of_eq h)
  exact String.toList_injective (le_antisymm hle hge)

theorem Dumped.distinctMembers {j : Json F} (h : Dumped fmt j) : DistinctMembers j := by
  induction h with
  | null => exact .null
  | bool b => exact .bool b
  | int n _ => exact .int n
  | float x _ => exact .float x
  | str s => exact .str s
  | arr items _ ih => exact .arr items ih
  | obj members hkeys _ ih => exact .obj members hkeys ih

theorem decode_distinct {j : Json F} (h : DistinctMembers j) : DistinctKeys fmt (decode j) := by
  induction h with
  | null => exact .none
  | bool b => exact .bool b
  | int n => exact .int n
  | float x => exact .float x
  | str s => exact .str s
  | arr items _ ih =>
    rw [decode, decodeItems_eq]
    refine .list none _ fun v hv => ?_
    obtain ⟨j, hj, rfl⟩ := List.mem_map.mp hv
    exact ih j hj
  | obj members hkeys _ ih =>
    rw [decode, decodeMembers_eq]
    refine .dict none _ ?_ fun e he => ?_
    · have hranks := hkeys.map fun _ _ h => keyRank_str_inj fmt h
      simpa only [List.map_map, Function.comp_def] using hranks
    · obtain ⟨m, hm, rfl⟩ := List.mem_map.mp he
      exact ih m hm

theorem Dumped.inTextOrder {j : Json F} (h : Dumped fmt j) : Dumped fmt (PythonJson.inTextOrder j) :=
  encode_dumped fmt (decode_distinct fmt (h.distinctMembers fmt)) (h.encode_decode fmt)

/-- Members that stand in the order of their texts are written as they were. -/
theorem Dumped.write_inTextOrder {j : Json F} (h : Dumped fmt j) :
    write fmt.toFloatFormat (PythonJson.inTextOrder j) = write fmt.toFloatFormat j ↔ TextSorted j := by
  constructor
  · intro htext
    exact h.textSorted fmt (write_injective (h.inTextOrder fmt).writable h.writable htext)
  · intro hsorted
    rw [hsorted.inTextOrder]

/-! ## Objects -/

theorem decode_unshared {u : PyValue F} {j : Json F} (h : Within u (decode j)) : u.shared = none := by
  generalize hv : decode j = v at h
  induction h generalizing j with
  | self =>
    subst hv
    cases j <;> rfl
  | item _ hm ih =>
    cases j with
    | arr items =>
      rw [decode, decodeItems_eq] at hv
      injection hv with _ hitems
      subst hitems
      obtain ⟨x, _, rfl⟩ := List.mem_map.mp hm
      exact ih rfl
    | null => cases hv
    | bool b => cases hv
    | int n => cases hv
    | float x => cases hv
    | str s => cases hv
    | obj members => cases hv
  | entry _ hm ih =>
    cases j with
    | obj members =>
      rw [decode, decodeMembers_eq] at hv
      injection hv with _ hentries
      subst hentries
      obtain ⟨x, _, rfl⟩ := List.mem_map.mp hm
      exact ih rfl
    | null => cases hv
    | bool b => cases hv
    | int n => cases hv
    | float x => cases hv
    | str s => cases hv
    | arr items => cases hv

theorem decode_coherent (j : Json F) : Coherent (decode j) := by
  intro u v i hu _ hi _
  rw [decode_unshared hu] at hi
  cases hi

/-- A value as it can stand in memory. -/
structure PyObject where
  value : PyValue F
  coherent : Coherent value
  distinct : DistinctKeys fmt value

/-- The object that is made of a JSON value. -/
def PyObject.ofJson (j : Json F) (h : DistinctMembers j) : PyObject fmt :=
  ⟨decode j, decode_coherent j, decode_distinct fmt h⟩

/-- The object that is read from a text. -/
def PyObject.loads (s : String) : Option (PyObject fmt) :=
  match h : read fmt.toFloatFormat s.toList with
  | some j => some (.ofJson fmt j (read_distinct h))
  | none => none

theorem PyObject.loads_value (s : String) :
    (PyObject.loads fmt s).map PyObject.value = PythonJson.loads fmt s := by
  unfold PyObject.loads PythonJson.loads
  split
  · rename_i j h
    exact (congrArg (Option.map decode) h).symm
  · rename_i h
    exact (congrArg (Option.map decode) h).symm

/-- A dictionary whose own keys are texts. -/
def isTextDict : PyValue F → Bool
  | .dict _ entries => entries.all fun e => e.1.isStr
  | _ => false

/-- A dictionary with text keys as it can stand in memory. -/
structure PyDict extends PyObject fmt where
  textDict : isTextDict value = true

/-! ## Copies -/

mutual

/-- The value with every list and dictionary built afresh, as a model dump gives it. -/
def rebuilt : PyValue F → PyValue F
  | .list _ items => .list none (rebuiltItems items)
  | .dict _ entries => .dict none (rebuiltEntries entries)
  | v => v

def rebuiltItems : List (PyValue F) → List (PyValue F)
  | [] => []
  | v :: vs => rebuilt v :: rebuiltItems vs

def rebuiltEntries : List (PyKey F × PyValue F) → List (PyKey F × PyValue F)
  | [] => []
  | (k, v) :: es => (k, rebuilt v) :: rebuiltEntries es

end

mutual

/-- A copy is written as the value is. -/
theorem encode_rebuilt : ∀ v : PyValue F, encode fmt (rebuilt v) = encode fmt v
  | .list _ items => by rw [rebuilt, encode, encode, encodeItems_rebuilt items]
  | .dict _ entries => by rw [rebuilt, encode, encode, encodeEntries_rebuilt entries]
  | .none => rfl
  | .bool _ => rfl
  | .int _ => rfl
  | .float _ => rfl
  | .str _ => rfl

theorem encodeItems_rebuilt : ∀ vs : List (PyValue F),
    encodeItems fmt (rebuiltItems vs) = encodeItems fmt vs
  | [] => rfl
  | v :: vs => by rw [rebuiltItems, encodeItems, encodeItems, encode_rebuilt v, encodeItems_rebuilt vs]

theorem encodeEntries_rebuilt : ∀ es : List (PyKey F × PyValue F),
    encodeEntries fmt (rebuiltEntries es) = encodeEntries fmt es
  | [] => rfl
  | (k, v) :: es => by
    rw [rebuiltEntries, encodeEntries, encodeEntries, encode_rebuilt v, encodeEntries_rebuilt es]

end

/-- Every key at any depth is a text. -/
inductive TextKeys : PyValue F → Prop where
  | none : TextKeys .none
  | bool (b : Bool) : TextKeys (.bool b)
  | int (n : Int) : TextKeys (.int n)
  | float (x : F) : TextKeys (.float x)
  | str (s : String) : TextKeys (.str s)
  | list (i : Option Nat) (items : List (PyValue F)) : (∀ v ∈ items, TextKeys v) → TextKeys (.list i items)
  | dict (i : Option Nat) (entries : List (PyKey F × PyValue F)) : (∀ e ∈ entries, e.1.isStr = true) →
      (∀ e ∈ entries, TextKeys e.2) → TextKeys (.dict i entries)

end Encoder

/-- Floating-point numbers without a finite one. -/
def nanOnly : PyFloats Unit where
  finite _ := false
  repr _ := ['n', 'a', 'n']
  ofText _ := ()
  value _ := 0
  repr_text := by
    intro x h
    cases h
  ofText_repr := by
    intro x h
    cases h

end PythonJson
