import AgenticSoc.JsonText

/-!
# SHA-256 and HMAC

The two digests over bytes, with words as naturals below `2 ^ 32`. A digest is written
in hexadecimal digits.
-/
namespace Sha256

abbrev Bytes := List UInt8

def word (n : Nat) : Nat := n % 4294967296

def rotr (n x : Nat) : Nat := (x >>> n) ||| word (x <<< (32 - n))

def roundConstants : List Nat :=
  [0x428a2f98, 0x71374491, 0xb5c0fbcf, 0xe9b5dba5, 0x3956c25b, 0x59f111f1, 0x923f82a4, 0xab1c5ed5,
    0xd807aa98, 0x12835b01, 0x243185be, 0x550c7dc3, 0x72be5d74, 0x80deb1fe, 0x9bdc06a7, 0xc19bf174,
    0xe49b69c1, 0xefbe4786, 0x0fc19dc6, 0x240ca1cc, 0x2de92c6f, 0x4a7484aa, 0x5cb0a9dc, 0x76f988da,
    0x983e5152, 0xa831c66d, 0xb00327c8, 0xbf597fc7, 0xc6e00bf3, 0xd5a79147, 0x06ca6351, 0x14292967,
    0x27b70a85, 0x2e1b2138, 0x4d2c6dfc, 0x53380d13, 0x650a7354, 0x766a0abb, 0x81c2c92e, 0x92722c85,
    0xa2bfe8a1, 0xa81a664b, 0xc24b8b70, 0xc76c51a3, 0xd192e819, 0xd6990624, 0xf40e3585, 0x106aa070,
    0x19a4c116, 0x1e376c08, 0x2748774c, 0x34b0bcb5, 0x391c0cb3, 0x4ed8aa4a, 0x5b9cca4f, 0x682e6ff3,
    0x748f82ee, 0x78a5636f, 0x84c87814, 0x8cc70208, 0x90befffa, 0xa4506ceb, 0xbef9a3f7, 0xc67178f2]

structure Working where
  a : Nat
  b : Nat
  c : Nat
  d : Nat
  e : Nat
  f : Nat
  g : Nat
  h : Nat

def initial : Working :=
  ⟨0x6a09e667, 0xbb67ae85, 0x3c6ef372, 0xa54ff53a, 0x510e527f, 0x9b05688c, 0x1f83d9ab, 0x5be0cd19⟩

/-- The next word of the schedule, from the sixteen before it. -/
def nextWord (window : List Nat) : Nat :=
  let w15 := window.getD 1 0
  let w2 := window.getD 14 0
  let s0 := rotr 7 w15 ^^^ rotr 18 w15 ^^^ (w15 >>> 3)
  let s1 := rotr 17 w2 ^^^ rotr 19 w2 ^^^ (w2 >>> 10)
  word (window.getD 0 0 + s0 + window.getD 9 0 + s1)

def round (k w : Nat) (v : Working) : Working :=
  let s1 := rotr 6 v.e ^^^ rotr 11 v.e ^^^ rotr 25 v.e
  let ch := (v.e &&& v.f) ^^^ ((4294967295 - v.e) &&& v.g)
  let t1 := v.h + s1 + ch + k + w
  let s0 := rotr 2 v.a ^^^ rotr 13 v.a ^^^ rotr 22 v.a
  let maj := (v.a &&& v.b) ^^^ (v.a &&& v.c) ^^^ (v.b &&& v.c)
  ⟨word (t1 + s0 + maj), v.a, v.b, v.c, word (v.d + t1), v.e, v.f, v.g⟩

/-- The rounds over the constants left, with the window of the schedule. -/
def rounds : List Nat → List Nat → Working → Working
  | [], _, v => v
  | k :: ks, window, v =>
    rounds ks (window.drop 1 ++ [nextWord window]) (round k (window.getD 0 0) v)

def compress (v : Working) (block : List Nat) : Working :=
  let out := rounds roundConstants block v
  ⟨word (v.a + out.a), word (v.b + out.b), word (v.c + out.c), word (v.d + out.d),
    word (v.e + out.e), word (v.f + out.f), word (v.g + out.g), word (v.h + out.h)⟩

/-- Words of four bytes, the first byte highest. -/
def toWords : Bytes → List Nat
  | b0 :: b1 :: b2 :: b3 :: rest =>
    (b0.toNat * 16777216 + b1.toNat * 65536 + b2.toNat * 256 + b3.toNat) :: toWords rest
  | _ => []

/-- The lowest bytes of a number, the highest of them first. -/
def toBytes : Nat → Nat → Bytes
  | 0, _ => []
  | count + 1, n => toBytes count (n / 256) ++ [UInt8.ofNat n]

def padding (message : Bytes) : Bytes :=
  message ++ [0x80] ++ List.replicate ((119 - message.length % 64) % 64) 0 ++ toBytes 8 (8 * message.length)

/-- The blocks of sixteen words, one after another. -/
def compressAll : Nat → Working → List Nat → Working
  | 0, v, _ => v
  | blocks + 1, v, words => compressAll blocks (compress v (words.take 16)) (words.drop 16)

def Working.words (v : Working) : List Nat := [v.a, v.b, v.c, v.d, v.e, v.f, v.g, v.h]

def digest (message : Bytes) : Working :=
  let padded := padding message
  compressAll (padded.length / 64) initial (toWords padded)

/-- The eight hexadecimal digits of a word. -/
def wordHex (n : Nat) : List Char :=
  [28, 24, 20, 16, 12, 8, 4, 0].map fun shift => JsonText.hexDigit ((n >>> shift) % 16)

def hexdigest (v : Working) : String := String.ofList (v.words.flatMap wordHex)

def encodeUtf8 (s : String) : Bytes := s.toList.flatMap String.utf8EncodeChar

def sha256Hex (s : String) : String := hexdigest (digest (encodeUtf8 s))

/-- A key of one block: a longer one is digested first. -/
def blockKey (key : Bytes) : Bytes :=
  let short := if 64 < key.length then (digest key).words.flatMap (toBytes 4) else key
  short ++ List.replicate (64 - short.length) 0

def hmacHex (key : Bytes) (s : String) : String :=
  let inner := digest ((blockKey key).map (· ^^^ 0x36) ++ encodeUtf8 s)
  hexdigest (digest ((blockKey key).map (· ^^^ 0x5c) ++ inner.words.flatMap (toBytes 4)))

theorem hexdigest_length (v : Working) : (hexdigest v).toList.length = 64 := by
  rw [hexdigest, String.toList_ofList]
  simp [Working.words, wordHex]

theorem hexdigest_digits (v : Working) :
    ∀ c ∈ (hexdigest v).toList, ∃ n < 16, c = JsonText.hexDigit n := by
  intro c hc
  rw [hexdigest, String.toList_ofList, List.mem_flatMap] at hc
  obtain ⟨w, -, hc⟩ := hc
  obtain ⟨shift, -, rfl⟩ := List.mem_map.mp hc
  exact ⟨(w >>> shift) % 16, Nat.mod_lt _ (by decide), rfl⟩

example : sha256Hex "abc" = "ba7816bf8f01cfea414140de5dae2223b00361a396177a9cb410ff61f20015ad" := by
  decide

example : hmacHex (encodeUtf8 "Jefe") "what do ya want for nothing?" =
    "5bdcc146bf60754e6a042426089575c75a003f089d2739839dec58b964ec3843" := by
  decide +kernel

end Sha256
