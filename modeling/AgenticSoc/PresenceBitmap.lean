import Mathlib.Data.Finset.Sort
import Mathlib.Data.List.AList
import Mathlib.Data.Finset.Sigma
import Mathlib.Data.String.Basic

/-!
# The presence bitmap

Which windows of a device have been seen: one bit for a window, in an array of bytes that
grows on demand, and a set for the windows before the start. Together they are a set of
pairs of devices and windows.
-/
namespace Presence

/-! ## Arrays of bits -/

/-- The byte array with a byte at the index. -/
def grow (arr : List (BitVec 8)) (byteIndex : Nat) : List (BitVec 8) :=
  if arr.length ≤ byteIndex then arr ++ List.replicate (byteIndex - arr.length + 1) 0 else arr

def setBit (arr : List (BitVec 8)) (byteIndex bit : Nat) : List (BitVec 8) :=
  (grow arr byteIndex).modify byteIndex (· ||| 1#8 <<< bit)

def testBit (arr : List (BitVec 8)) (byteIndex bit : Nat) : Bool :=
  match arr[byteIndex]? with
  | none => false
  | some byte => byte &&& 1#8 <<< bit ≠ 0

theorem byte_test {bit : Nat} (h : bit < 8) (byte : BitVec 8) : (byte &&& 1#8 <<< bit ≠ 0) ↔ byte.getLsbD bit = true := by
  have hall : ∀ bit < 8, ∀ byte : BitVec 8, (byte &&& 1#8 <<< bit ≠ 0) ↔ byte.getLsbD bit = true := by decide
  exact hall bit h byte

/-- Setting one bit of a byte leaves the others. -/
theorem byte_set {bit bit' : Nat} (h : bit < 8) (h' : bit' < 8) (byte : BitVec 8) :
    ((byte ||| 1#8 <<< bit) &&& 1#8 <<< bit' ≠ 0) ↔ bit' = bit ∨ (byte &&& 1#8 <<< bit' ≠ 0) := by
  have hone : (1#8 <<< bit).getLsbD bit' = true ↔ bit' = bit := by
    have hall : ∀ bit < 8, ∀ bit' < 8, (1#8 <<< bit).getLsbD bit' = true ↔ bit' = bit := by decide
    exact hall bit h bit' h'
  rw [byte_test h', byte_test h', BitVec.getLsbD_or, Bool.or_eq_true, hone, or_comm]

theorem grow_length (arr : List (BitVec 8)) (byteIndex : Nat) : byteIndex < (grow arr byteIndex).length := by
  unfold grow
  split
  · rw [List.length_append, List.length_replicate]
    omega
  · omega

/-- The new bytes are zero. -/
theorem testBit_grow (arr : List (BitVec 8)) (byteIndex i bit : Nat) :
    testBit (grow arr byteIndex) i bit = testBit arr i bit := by
  unfold grow
  split
  · unfold testBit
    by_cases hi : i < arr.length
    · rw [List.getElem?_append_left hi]
    · rw [List.getElem?_append_right (by omega), List.getElem?_eq_none (l := arr) (by omega), List.getElem?_replicate]
      by_cases hlt : i - arr.length < byteIndex - arr.length + 1
      · rw [if_pos hlt]
        simp
      · rw [if_neg hlt]
  · rfl

theorem testBit_setBit {bit bit' : Nat} (h : bit < 8) (h' : bit' < 8) (arr : List (BitVec 8)) (byteIndex i : Nat) :
    testBit (setBit arr byteIndex bit) i bit' = true ↔ (i = byteIndex ∧ bit' = bit) ∨ testBit arr i bit' = true := by
  rw [← testBit_grow arr byteIndex i bit']
  have hlength := grow_length arr byteIndex
  unfold setBit testBit
  rw [List.getElem?_modify]
  by_cases hi : i = byteIndex
  · subst hi
    obtain ⟨byte, hbyte⟩ : ∃ byte, (grow arr i)[i]? = some byte := ⟨_, List.getElem?_eq_getElem hlength⟩
    simpa [hbyte] using byte_set h h' byte
  · cases (grow arr byteIndex)[i]? with
    | none => simp [hi, Ne.symm hi]
    | some byte => simp [hi, Ne.symm hi]

/-! ## The bitmap -/

structure PresenceBitmap where
  map : AList fun _ : String => List (BitVec 8)
  negative : Finset (String × Int)

namespace PresenceBitmap

def new : PresenceBitmap := ⟨∅, ∅⟩

/-- A window that is not negative is split into its byte and its bit. -/
def mark (p : PresenceBitmap) (device : String) (windowId : Int) : PresenceBitmap :=
  if windowId < 0 then { p with negative := insert (device, windowId) p.negative }
  else
    let arr := (p.map.lookup device).getD []
    { p with map := p.map.insert device (setBit arr (windowId / 8).toNat (windowId % 8).toNat) }

def has (p : PresenceBitmap) (device : String) (windowId : Int) : Bool :=
  if windowId < 0 then (device, windowId) ∈ p.negative
  else
    match p.map.lookup device with
    | none => false
    | some arr => testBit arr (windowId / 8).toNat (windowId % 8).toNat

def names (p : PresenceBitmap) : Finset String := p.map.keys.toFinset ∪ p.negative.image Prod.fst

def devices (p : PresenceBitmap) : List String := p.names.sort

theorem has_mark (p : PresenceBitmap) (device device' : String) (w w' : Int) :
    (p.mark device w).has device' w' = true ↔ (device', w') = (device, w) ∨ p.has device' w' = true := by
  rw [Prod.mk.injEq]
  unfold mark
  split
  · rename_i hw
    unfold has
    by_cases hw' : w' < 0
    · simp [hw']
    · have hne : w' ≠ w := by omega
      simp [hw', hne]
  · rename_i hw
    unfold has
    by_cases hw' : w' < 0
    · have hne : w' ≠ w := by omega
      simp [hw', hne]
    · rw [if_neg hw', if_neg hw']
      by_cases hd : device' = device
      · subst hd
        -- byte and bit determine the window
        have hsame : (w' / 8).toNat = (w / 8).toNat ∧ (w' % 8).toNat = (w % 8).toNat ↔ w' = w := by omega
        rw [AList.lookup_insert]
        simp only [testBit_setBit (show (w % 8).toNat < 8 by omega) (show (w' % 8).toNat < 8 by omega), hsame, true_and]
        cases p.map.lookup device' with
        | none => simp [testBit]
        | some arr => simp
      · rw [AList.lookup_insert_ne hd]
        simp [hd]

theorem mem_names_mark (p : PresenceBitmap) (device device' : String) (w : Int) :
    device' ∈ (p.mark device w).names ↔ device' = device ∨ device' ∈ p.names := by
  unfold mark names
  split
  · simp only [Finset.image_insert, Finset.union_insert, Finset.mem_insert]
  · simp only [AList.keys_insert, Finset.mem_union, List.mem_toFinset, List.mem_cons]
    by_cases hd : device' = device
    · simp [hd]
    · simp [hd, List.mem_erase_of_ne hd]

end PresenceBitmap

/-! ## The set of pairs -/

/-- The bitmap stands for the set of marked pairs. -/
structure Represents (p : PresenceBitmap) (marked : Set (String × Int)) : Prop where
  has : ∀ device w, p.has device w = true ↔ (device, w) ∈ marked
  names : ∀ device, device ∈ p.names ↔ ∃ w, (device, w) ∈ marked

theorem represents_new : Represents .new ∅ where
  has device w := by simp [PresenceBitmap.has, PresenceBitmap.new]
  names device := by simp [PresenceBitmap.names, PresenceBitmap.new]

theorem Represents.mark {p : PresenceBitmap} {marked : Set (String × Int)} (h : Represents p marked) (device : String) (w : Int) :
    Represents (p.mark device w) (insert (device, w) marked) where
  has device' w' := by rw [PresenceBitmap.has_mark, h.has, Set.mem_insert_iff]
  names device' := by
    rw [PresenceBitmap.mem_names_mark, h.names]
    constructor
    · rintro (rfl | ⟨w', hw'⟩)
      · exact ⟨w, .inl rfl⟩
      · exact ⟨w', .inr hw'⟩
    · rintro ⟨w', hw' | hw'⟩
      · exact .inl (Prod.mk.inj hw').1
      · exact .inr ⟨w', hw'⟩

def markAll (marks : List (String × Int)) : PresenceBitmap := marks.foldl (fun p m => p.mark m.1 m.2) .new

theorem represents_markAll (marks : List (String × Int)) : Represents (markAll marks) {m | m ∈ marks} := by
  suffices hall : ∀ p marked, Represents p marked →
      Represents (marks.foldl (fun p m => p.mark m.1 m.2) p) {m | m ∈ marks ∨ m ∈ marked} by
    have h := hall .new ∅ represents_new
    simp only [Set.mem_empty_iff_false, or_false] at h
    exact h
  induction marks with
  | nil =>
    intro p marked h
    simpa using h
  | cons m marks ih =>
    intro p marked h
    have hsame : {m' | m' ∈ m :: marks ∨ m' ∈ marked} = {m' | m' ∈ marks ∨ m' ∈ insert (m.1, m.2) marked} := by
      ext m'
      simp only [List.mem_cons, Set.mem_ofPred_eq, Set.mem_insert_iff]
      tauto
    rw [hsame]
    exact ih _ _ (h.mark m.1 m.2)

/-- After any marks a pair is present exactly when it was marked, and the devices are the
marked ones, sorted and without duplicates. -/
theorem marks_recorded (marks : List (String × Int)) :
    (∀ device w, (markAll marks).has device w = true ↔ (device, w) ∈ marks) ∧
      (markAll marks).devices.Pairwise (· < ·) ∧
      ∀ device, device ∈ (markAll marks).devices ↔ ∃ w, (device, w) ∈ marks := by
  have h := represents_markAll marks
  refine ⟨h.has, Finset.sortedLT_sort _ |>.pairwise, fun device => ?_⟩
  rw [PresenceBitmap.devices, Finset.mem_sort, h.names]
  rfl

end Presence
