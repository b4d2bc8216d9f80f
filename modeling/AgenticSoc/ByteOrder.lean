import Mathlib

/-!
# Byte orders

Words of a fixed width in either byte order, and layouts made of words and octets. A layout
takes the same room in both orders.
-/
namespace ByteOrder

inductive Order where
  | little | big
  deriving DecidableEq, Repr

/-- The lowest bytes of a number, the least significant first. -/
def littleBytes : Nat → Nat → List UInt8
  | 0, _ => []
  | w + 1, n => UInt8.ofNat n :: littleBytes w (n / 256)

def littleValue : List UInt8 → Nat
  | [] => 0
  | b :: bs => b.toNat + 256 * littleValue bs

def bytes : Order → Nat → Nat → List UInt8
  | .little, w, n => littleBytes w n
  | .big, w, n => (littleBytes w n).reverse

def value : Order → List UInt8 → Nat
  | .little, bs => littleValue bs
  | .big, bs => littleValue bs.reverse

@[simp] theorem littleBytes_length (w n : Nat) : (littleBytes w n).length = w := by
  induction w generalizing n with
  | zero => rfl
  | succ w ih => simp [littleBytes, ih]

@[simp] theorem bytes_length (o : Order) (w n : Nat) : (bytes o w n).length = w := by
  cases o <;> simp [bytes]

theorem littleValue_bytes (w n : Nat) : littleValue (littleBytes w n) = n % 256 ^ w := by
  induction w generalizing n with
  | zero => simp [littleBytes, littleValue, Nat.mod_one]
  | succ w ih =>
    have hbyte : (UInt8.ofNat n).toNat = n % 256 := UInt8.toNat_ofNat'
    rw [littleBytes, littleValue, hbyte, ih, pow_succ', Nat.mod_mul]

/-- A word read in the order it was written in. -/
theorem value_bytes (o : Order) (w n : Nat) : value o (bytes o w n) = n % 256 ^ w := by
  cases o with
  | little => exact littleValue_bytes w n
  | big => simp only [bytes, value, List.reverse_reverse, littleValue_bytes]

theorem value_word {o : Order} {w n : Nat} (h : n < 256 ^ w) : value o (bytes o w n) = n := by
  rw [value_bytes, Nat.mod_eq_of_lt h]

/-- A word read in the other order. -/
def swapped (w n : Nat) : Nat := value .big (bytes .little w n)

theorem value_other {o o' : Order} (h : o ≠ o') (w n : Nat) : value o (bytes o' w n) = swapped w n := by
  cases o <;> cases o' <;> first | exact absurd rfl h | rfl

/-! ## Layouts -/

inductive Field where
  | octets (data : List UInt8)
  | word (width number : Nat)

def Field.encode (o : Order) : Field → List UInt8
  | .octets data => data
  | .word w n => bytes o w n

def Field.size : Field → Nat
  | .octets data => data.length
  | .word w _ => w

@[simp] theorem Field.encode_length (o : Order) (f : Field) : (f.encode o).length = f.size := by
  cases f <;> simp [Field.encode, Field.size]

def encode (o : Order) (fields : List Field) : List UInt8 := fields.flatMap (Field.encode o)

def size (fields : List Field) : Nat := (fields.map Field.size).sum

@[simp] theorem encode_nil (o : Order) : encode o [] = [] := rfl

@[simp] theorem encode_cons (o : Order) (f : Field) (l : List Field) :
    encode o (f :: l) = f.encode o ++ encode o l := rfl

@[simp] theorem encode_append (o : Order) (l l' : List Field) : encode o (l ++ l') = encode o l ++ encode o l' :=
  List.flatMap_append

@[simp] theorem size_nil : size [] = 0 := rfl

@[simp] theorem size_cons (f : Field) (l : List Field) : size (f :: l) = f.size + size l := rfl

@[simp] theorem size_append (l l' : List Field) : size (l ++ l') = size l + size l' := by
  simp [size]

/-- The room a layout takes does not depend on the order. -/
@[simp] theorem encode_length (o : Order) (l : List Field) : (encode o l).length = size l := by
  induction l with
  | nil => rfl
  | cons f l ih => simp [ih]

/-! ## Unpacking -/

/-- The words of the given widths that the octets consist of. -/
def unpack (o : Order) : List Nat → List UInt8 → Option (List Nat)
  | [], [] => some []
  | [], _ :: _ => none
  | w :: ws, bs => if bs.length < w then none else (unpack o ws (bs.drop w)).map (value o (bs.take w) :: ·)

/-- Octets of the right number are unpacked, others are not. -/
theorem unpack_whole (o : Order) {widths : List Nat} {bs : List UInt8} (h : bs.length = widths.sum) :
    ∃ words, unpack o widths bs = some words ∧ words.length = widths.length := by
  induction widths generalizing bs with
  | nil =>
    rw [List.length_eq_zero_iff.mp h]
    exact ⟨[], rfl, rfl⟩
  | cons w widths ih =>
    rw [List.sum_cons] at h
    have hrest : (bs.drop w).length = widths.sum := by
      rw [List.length_drop]
      omega
    obtain ⟨words, hwords, hlength⟩ := ih hrest
    refine ⟨value o (bs.take w) :: words, ?_, by rw [List.length_cons, List.length_cons, hlength]⟩
    rw [unpack, if_neg (by omega), hwords, Option.map_some]

theorem unpack_short (o : Order) {widths : List Nat} {bs : List UInt8} (h : bs.length < widths.sum) :
    unpack o widths bs = none := by
  induction widths generalizing bs with
  | nil => exact absurd h (Nat.not_lt_zero _)
  | cons w widths ih =>
    rw [List.sum_cons] at h
    rw [unpack]
    split
    · rfl
    · rw [ih (by rw [List.length_drop]; omega), Option.map_none]

theorem unpack_word (o : Order) {w n : Nat} (ws : List Nat) (bs : List UInt8) (h : n < 256 ^ w) :
    unpack o (w :: ws) (bytes o w n ++ bs) = (unpack o ws bs).map (n :: ·) := by
  have hroom : ¬ (bytes o w n ++ bs).length < w := by simp
  rw [unpack, if_neg hroom, List.drop_left' (bytes_length o w n), List.take_left' (bytes_length o w n), value_word h]

/-- Words of their widths are read back. -/
theorem unpack_encode (o : Order) (words : List (Nat × Nat)) (h : ∀ p ∈ words, p.2 < 256 ^ p.1) :
    unpack o (words.map Prod.fst) (encode o (words.map fun p => .word p.1 p.2)) = some (words.map Prod.snd) := by
  induction words with
  | nil => rfl
  | cons p words ih =>
    rw [List.map_cons, List.map_cons, encode_cons, Field.encode, unpack_word o _ _ (h p (by simp)),
      ih fun q hq => h q (List.mem_cons_of_mem p hq)]
    rfl

end ByteOrder
