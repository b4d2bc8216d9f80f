import Mathlib.Data.List.Basic
import Mathlib.Tactic.Common

/-!
# JSON texts

JSON values with their compact text and a reader for texts. Floating-point numbers
are a type with a format: the text of a finite number, which has a fraction or an
exponent, and the number that a text stands for. The reader inverts the writer, so a
compact text determines its value.
-/
namespace JsonText

/-- Values as they stand in a text: the members of an object have an order. -/
inductive Json (F : Type) where
  | null
  | bool (b : Bool)
  | int (n : Int)
  | float (x : F)
  | str (s : String)
  | arr (items : List (Json F))
  | obj (members : List (String × Json F))

/-! ## Numbers -/

/-- A digit run that does not start with a superfluous zero. -/
def IsIntegerPart (ds : List Char) : Prop :=
  (∀ c ∈ ds, c.isDigit = true) ∧ ds ≠ [] ∧ (ds.head? = some '0' → ds = ['0'])

def IsFraction (t : List Char) : Prop :=
  ∃ ds, t = '.' :: ds ∧ ds ≠ [] ∧ ∀ c ∈ ds, c.isDigit = true

def IsExponent (t : List Char) : Prop :=
  ∃ mark sign ds, t = mark :: (sign ++ ds) ∧ (mark = 'e' ∨ mark = 'E') ∧
    (sign = [] ∨ sign = ['-'] ∨ sign = ['+']) ∧ ds ≠ [] ∧ ∀ c ∈ ds, c.isDigit = true

/-- The text of a number with a fraction or an exponent. -/
def IsFloatText (t : List Char) : Prop :=
  ∃ sign ds frac exp, t = sign ++ ds ++ frac ++ exp ∧ (sign = [] ∨ sign = ['-']) ∧
    IsIntegerPart ds ∧ (frac = [] ∨ IsFraction frac) ∧ (exp = [] ∨ IsExponent exp) ∧
    (frac ≠ [] ∨ exp ≠ [])

/-- Floating-point numbers: which are finite, their texts and what texts stand for. -/
structure FloatFormat (F : Type) where
  finite : F → Bool
  repr : F → List Char
  ofText : List Char → F
  repr_text : ∀ x, finite x = true → IsFloatText (repr x)
  ofText_repr : ∀ x, finite x = true → ofText (repr x) = x

def intText (n : Int) : List Char :=
  if n < 0 then '-' :: Nat.toDigits 10 n.natAbs else Nat.toDigits 10 n.natAbs

/-- The integer that a sign and digits stand for. -/
def ofIntText (t : List Char) : Int :=
  match t with
  | '-' :: ds => -(Nat.ofDigitChars 10 ds 0 : Int)
  | ds => (Nat.ofDigitChars 10 ds 0 : Int)

def scanDigits (cs : List Char) : List Char × List Char :=
  (cs.takeWhile Char.isDigit, cs.dropWhile Char.isDigit)

/-- The integer part of a number: one zero, or digits that do not start with it. -/
def scanInteger (cs : List Char) : Option (List Char × List Char) :=
  match cs with
  | [] => none
  | c :: rest =>
    if c = '0' then some (['0'], rest)
    else if c.isDigit then some (scanDigits cs) else none

/-- A fraction, when a digit follows the point. -/
def scanFraction (cs : List Char) : List Char × List Char :=
  match cs with
  | '.' :: rest =>
    let d := scanDigits rest
    if d.1 = [] then ([], cs) else ('.' :: d.1, d.2)
  | _ => ([], cs)

def scanMinus (cs : List Char) : List Char × List Char :=
  match cs with
  | '-' :: rest => (['-'], rest)
  | _ => ([], cs)

def scanSign (cs : List Char) : List Char × List Char :=
  match cs with
  | '-' :: rest => (['-'], rest)
  | '+' :: rest => (['+'], rest)
  | _ => ([], cs)

/-- An exponent, when a digit follows its mark and sign. -/
def scanExponent (cs : List Char) : List Char × List Char :=
  match cs with
  | c :: rest =>
    if c = 'e' ∨ c = 'E' then
      let s := scanSign rest
      let d := scanDigits s.2
      if d.1 = [] then ([], cs) else (c :: (s.1 ++ d.1), d.2)
    else ([], cs)
  | [] => ([], cs)

section Reader

variable {F : Type} (fmt : FloatFormat F)

/-- A number: an integer unless it has a fraction or an exponent. -/
def readNumber (cs : List Char) : Option (Json F × List Char) :=
  let sign := scanMinus cs
  match scanInteger sign.2 with
  | none => none
  | some (ds, rest) =>
    let frac := scanFraction rest
    let exp := scanExponent frac.2
    if frac.1 = [] ∧ exp.1 = [] then some (.int (ofIntText (sign.1 ++ ds)), exp.2)
    else some (.float (fmt.ofText (sign.1 ++ ds ++ frac.1 ++ exp.1)), exp.2)

/-! ## Strings -/

def hexDigit (n : Nat) : Char := if n < 10 then Char.ofNat (48 + n) else Char.ofNat (87 + n)

def hexValue (c : Char) : Option Nat :=
  if c.isDigit then some (c.toNat - 48)
  else if 'a' ≤ c ∧ c ≤ 'f' then some (c.toNat - 87)
  else if 'A' ≤ c ∧ c ≤ 'F' then some (c.toNat - 55)
  else none

/-- The value of four hexadecimal digits. -/
def hex4 (a b c d : Char) : Option Nat :=
  match hexValue a, hexValue b, hexValue c, hexValue d with
  | some x, some y, some z, some w => some (((x * 16 + y) * 16 + z) * 16 + w)
  | _, _, _, _ => none

/-- A character inside quotes; control characters are escaped, others stand as they
are. -/
def escapeChar (c : Char) : List Char :=
  if c = '"' then ['\\', '"']
  else if c = '\\' then ['\\', '\\']
  else if c = '\n' then ['\\', 'n']
  else if c = '\r' then ['\\', 'r']
  else if c = '\t' then ['\\', 't']
  else if c.toNat = 12 then ['\\', 'f']
  else if c.toNat = 8 then ['\\', 'b']
  else if c.toNat < 32 then ['\\', 'u', '0', '0', hexDigit (c.toNat / 16), hexDigit (c.toNat % 16)]
  else [c]

def quote (s : String) : List Char := '"' :: (s.toList.flatMap escapeChar ++ ['"'])

def isHighSurrogate (n : Nat) : Bool := 0xD800 ≤ n && n < 0xDC00
def isLowSurrogate (n : Nat) : Bool := 0xDC00 ≤ n && n < 0xE000

/-- The characters up to the closing quote. Two surrogate escapes make one
character; a surrogate on its own is no character and is not read. -/
def readString : List Char → Option (List Char × List Char)
  | [] => none
  | '"' :: cs => some ([], cs)
  | '\\' :: 'u' :: a :: b :: c :: d :: cs =>
    match hex4 a b c d with
    | none => none
    | some n =>
      if isHighSurrogate n then
        match cs with
        | '\\' :: 'u' :: e :: f :: g :: h :: cs =>
          match hex4 e f g h with
          | none => none
          | some m =>
            if isLowSurrogate m then (readString cs).map fun p =>
              (Char.ofNat (0x10000 + (n - 0xD800) * 0x400 + (m - 0xDC00)) :: p.1, p.2)
            else none
        | _ => none
      else if isLowSurrogate n then none
      else (readString cs).map fun p => (Char.ofNat n :: p.1, p.2)
  | '\\' :: c :: cs =>
    if c = '"' then (readString cs).map fun p => ('"' :: p.1, p.2)
    else if c = '\\' then (readString cs).map fun p => ('\\' :: p.1, p.2)
    else if c = '/' then (readString cs).map fun p => ('/' :: p.1, p.2)
    else if c = 'n' then (readString cs).map fun p => ('\n' :: p.1, p.2)
    else if c = 'r' then (readString cs).map fun p => ('\r' :: p.1, p.2)
    else if c = 't' then (readString cs).map fun p => ('\t' :: p.1, p.2)
    else if c = 'f' then (readString cs).map fun p => (Char.ofNat 12 :: p.1, p.2)
    else if c = 'b' then (readString cs).map fun p => (Char.ofNat 8 :: p.1, p.2)
    else none
  | c :: cs => if c.toNat < 32 then none else (readString cs).map fun p => (c :: p.1, p.2)

/-! ## Values -/

mutual

/-- The compact text. -/
def write : Json F → List Char
  | .null => ['n', 'u', 'l', 'l']
  | .bool true => ['t', 'r', 'u', 'e']
  | .bool false => ['f', 'a', 'l', 's', 'e']
  | .int n => intText n
  | .float x => fmt.repr x
  | .str s => quote s
  | .arr [] => ['[', ']']
  | .arr (x :: xs) => '[' :: (write x ++ writeItems xs)
  | .obj [] => ['\x7b', '\x7d']
  | .obj (m :: ms) => '\x7b' :: (writeMember m ++ writeMembers ms)

/-- The items after the first, with the closing bracket. -/
def writeItems : List (Json F) → List Char
  | [] => [']']
  | x :: xs => ',' :: (write x ++ writeItems xs)

def writeMember : String × Json F → List Char
  | (key, value) => quote key ++ ':' :: write value

/-- The members after the first, with the closing brace. -/
def writeMembers : List (String × Json F) → List Char
  | [] => ['\x7d']
  | m :: ms => ',' :: (writeMember m ++ writeMembers ms)

end

def isWhitespace (c : Char) : Bool := c = ' ' || c = '\t' || c = '\n' || c = '\r'

def skipWhitespace (cs : List Char) : List Char := cs.dropWhile isWhitespace

/-- Of members with one key the last gives the value and the first the place. -/
def setMember (members : List (String × Json F)) (m : String × Json F) : List (String × Json F) :=
  if members.any fun old => old.1 = m.1 then
    members.map fun old => if old.1 = m.1 then m else old
  else members ++ [m]

mutual

/-- One value; every nested value uses up some of the fuel. -/
def readValue : Nat → List Char → Option (Json F × List Char)
  | 0, _ => none
  | n + 1, cs =>
    match cs with
    | '"' :: cs => (readString cs).map fun p => (.str (String.ofList p.1), p.2)
    | '[' :: cs =>
      match skipWhitespace cs with
      | ']' :: cs => some (.arr [], cs)
      | cs => (readItems n cs).map fun p => (.arr p.1, p.2)
    | '\x7b' :: cs =>
      match skipWhitespace cs with
      | '\x7d' :: cs => some (.obj [], cs)
      | cs => (readMembers n cs).map fun p => (.obj (p.1.foldl setMember []), p.2)
    | 'n' :: 'u' :: 'l' :: 'l' :: cs => some (.null, cs)
    | 't' :: 'r' :: 'u' :: 'e' :: cs => some (.bool true, cs)
    | 'f' :: 'a' :: 'l' :: 's' :: 'e' :: cs => some (.bool false, cs)
    | 'N' :: 'a' :: 'N' :: cs => some (.float (fmt.ofText ['N', 'a', 'N']), cs)
    | 'I' :: 'n' :: 'f' :: 'i' :: 'n' :: 'i' :: 't' :: 'y' :: cs =>
      some (.float (fmt.ofText ['i', 'n', 'f']), cs)
    | '-' :: 'I' :: 'n' :: 'f' :: 'i' :: 'n' :: 'i' :: 't' :: 'y' :: cs =>
      some (.float (fmt.ofText ['-', 'i', 'n', 'f']), cs)
    | cs => readNumber fmt cs

/-- The items up to the closing bracket. -/
def readItems : Nat → List Char → Option (List (Json F) × List Char)
  | 0, _ => none
  | n + 1, cs =>
    match readValue n cs with
    | none => none
    | some (x, cs) =>
      match skipWhitespace cs with
      | ']' :: cs => some ([x], cs)
      | ',' :: cs => (readItems n (skipWhitespace cs)).map fun p => (x :: p.1, p.2)
      | _ => none

/-- The members up to the closing brace. -/
def readMembers : Nat → List Char → Option (List (String × Json F) × List Char)
  | 0, _ => none
  | n + 1, cs =>
    match cs with
    | '"' :: cs =>
      match readString cs with
      | none => none
      | some (key, cs) =>
        match skipWhitespace cs with
        | ':' :: cs =>
          match readValue n (skipWhitespace cs) with
          | none => none
          | some (x, cs) =>
            match skipWhitespace cs with
            | '\x7d' :: cs => some ([(String.ofList key, x)], cs)
            | ',' :: cs => (readMembers n (skipWhitespace cs)).map fun p =>
                ((String.ofList key, x) :: p.1, p.2)
            | _ => none
        | _ => none
    | _ => none

end

/-- A whole text: one value with nothing but white space around it. -/
def read (cs : List Char) : Option (Json F) :=
  match readValue fmt cs.length (skipWhitespace cs) with
  | some (j, rest) => if skipWhitespace rest = [] then some j else none
  | none => none

end Reader

/-! ## Reading back what was written -/

section RoundTrip

variable {F : Type} {fmt : FloatFormat F}

/-- What may follow a value inside a text: nothing, or a separator or closing mark. -/
def Closed (rest : List Char) : Prop := ∀ c r, rest = c :: r → c = ',' ∨ c = ']' ∨ c = '\x7d'

theorem closed_nil : Closed [] := by
  intro c r h
  cases h

theorem closed_cons {c : Char} {r : List Char} (h : c = ',' ∨ c = ']' ∨ c = '\x7d') :
    Closed (c :: r) := by
  intro c' r' he
  cases he
  exact h

/-- The text does not go on with a character of this kind. -/
def Stops (p : Char → Bool) (rest : List Char) : Prop := ∀ c r, rest = c :: r → p c = false

theorem Closed.stops {p : Char → Bool} {rest : List Char} (h : Closed rest)
    (hp : p ',' = false ∧ p ']' = false ∧ p '\x7d' = false) : Stops p rest := by
  intro c r he
  rcases h c r he with rfl | rfl | rfl
  · exact hp.1
  · exact hp.2.1
  · exact hp.2.2

theorem scanDigits_append {ds rest : List Char} (hd : ∀ c ∈ ds, c.isDigit = true)
    (hr : Stops Char.isDigit rest) : scanDigits (ds ++ rest) = (ds, rest) := by
  have htake : rest.takeWhile Char.isDigit = [] := by
    cases rest with
    | nil => rfl
    | cons c r => rw [List.takeWhile_cons_of_neg (by simp [hr c r rfl])]
  have hdrop : rest.dropWhile Char.isDigit = rest := by
    cases rest with
    | nil => rfl
    | cons c r => rw [List.dropWhile_cons_of_neg (by simp [hr c r rfl])]
  unfold scanDigits
  rw [List.takeWhile_append_of_pos hd, List.dropWhile_append_of_pos hd, htake, hdrop, List.append_nil]

theorem toDigits_head (n : Nat) : (Nat.toDigits 10 n).head? = some '0' → n = 0 := by
  induction n using Nat.strongRecOn with
  | ind n ih =>
    by_cases hn : n < 10
    · have hall : ∀ m < 10, [Nat.digitChar m].head? = some '0' → m = 0 := by decide
      rw [Nat.toDigits_of_lt_base hn]
      exact hall n hn
    · rw [Nat.toDigits_of_base_le (by decide) (by omega), List.head?_append]
      intro h
      cases hh : (Nat.toDigits 10 (n / 10)).head? with
      | none =>
        rw [List.head?_eq_none_iff] at hh
        exact absurd hh Nat.toDigits_ne_nil
      | some c =>
        rw [hh] at h
        have hc : c = '0' := by simpa using h
        have := ih (n / 10) (by omega) (by rw [hh, hc])
        omega

theorem toDigits_integerPart (n : Nat) : IsIntegerPart (Nat.toDigits 10 n) := by
  refine ⟨fun c hc => Nat.isDigit_of_mem_toDigits (by decide) (by decide) hc, Nat.toDigits_ne_nil, ?_⟩
  intro h
  rw [toDigits_head n h]
  rfl

theorem scanInteger_append {ds rest : List Char} (h : IsIntegerPart ds)
    (hr : Stops Char.isDigit rest) : scanInteger (ds ++ rest) = some (ds, rest) := by
  obtain ⟨hd, hne, hzero⟩ := h
  cases ds with
  | nil => exact absurd rfl hne
  | cons c cs =>
    by_cases hc : c = '0'
    · subst hc
      have hcs : '0' :: cs = ['0'] := hzero rfl
      cases hcs
      simp [scanInteger]
    · have hscan := scanDigits_append hd hr
      rw [List.cons_append] at hscan ⊢
      simp only [scanInteger, if_neg hc, hd c (by simp), if_true, hscan]

theorem scanFraction_stops {rest : List Char} (h : Stops (fun c => c = '.') rest) :
    scanFraction rest = ([], rest) := by
  cases rest with
  | nil => rfl
  | cons c r =>
    have hc : c ≠ '.' := by simpa using h c r rfl
    unfold scanFraction
    split
    · rename_i heq
      cases heq
      exact absurd rfl hc
    · rfl

theorem scanFraction_append {frac rest : List Char} (h : IsFraction frac)
    (hr : Stops Char.isDigit rest) : scanFraction (frac ++ rest) = (frac, rest) := by
  obtain ⟨ds, rfl, hne, hd⟩ := h
  simp only [List.cons_append, scanFraction, scanDigits_append hd hr, if_neg hne]

theorem scanExponent_stops {rest : List Char} (h : Stops (fun c => c = 'e' || c = 'E') rest) :
    scanExponent rest = ([], rest) := by
  cases rest with
  | nil => rfl
  | cons c r =>
    have hc := h c r rfl
    simp only [Bool.or_eq_false_iff, decide_eq_false_iff_not] at hc
    simp only [scanExponent, hc.1, hc.2, or_self, if_false]

theorem scanSign_append {sign ds rest : List Char} (h : sign = [] ∨ sign = ['-'] ∨ sign = ['+'])
    (hne : ds ≠ []) (hd : ∀ c ∈ ds, c.isDigit = true) :
    scanSign (sign ++ ds ++ rest) = (sign, ds ++ rest) := by
  rcases h with rfl | rfl | rfl
  · cases ds with
    | nil => exact absurd rfl hne
    | cons c cs =>
      have hc := hd c (by simp)
      simp only [List.nil_append, List.cons_append]
      unfold scanSign
      split
      · rename_i heq
        cases heq
        cases hc
      · rename_i heq
        cases heq
        cases hc
      · rfl
  · rfl
  · rfl

theorem scanExponent_append {exp rest : List Char} (h : IsExponent exp)
    (hr : Stops Char.isDigit rest) : scanExponent (exp ++ rest) = (exp, rest) := by
  obtain ⟨mark, sign, ds, rfl, hmark, hsign, hne, hd⟩ := h
  simp only [List.cons_append, scanExponent, if_pos hmark, scanSign_append hsign hne hd,
    scanDigits_append hd hr, if_neg hne]

theorem scanMinus_append {sign ds rest : List Char} (h : sign = [] ∨ sign = ['-'])
    (hds : IsIntegerPart ds) : scanMinus (sign ++ (ds ++ rest)) = (sign, ds ++ rest) := by
  rcases h with rfl | rfl
  · obtain ⟨hd, hne, -⟩ := hds
    cases ds with
    | nil => exact absurd rfl hne
    | cons c cs =>
      have hc := hd c (by simp)
      simp only [List.nil_append, List.cons_append]
      unfold scanMinus
      split
      · rename_i heq
        cases heq
        cases hc
      · rfl
  · rfl

theorem IsExponent.stops {p : Char → Bool} (hp : p 'e' = false ∧ p 'E' = false) {exp rest : List Char}
    (h : exp = [] ∨ IsExponent exp) (hr : Stops p rest) : Stops p (exp ++ rest) := by
  rcases h with rfl | ⟨mark, sign, ds, rfl, hmark, -⟩
  · exact hr
  · intro c r he
    cases he
    rcases hmark with rfl | rfl
    · exact hp.1
    · exact hp.2

theorem IsFraction.stops {p : Char → Bool} (hp : p '.' = false) {frac rest : List Char}
    (h : frac = [] ∨ IsFraction frac) (hr : Stops p rest) : Stops p (frac ++ rest) := by
  rcases h with rfl | ⟨ds, rfl, -⟩
  · exact hr
  · intro c r he
    cases he
    exact hp

/-- A number is read up to the end of its last part. -/
theorem readNumber_append {sign ds frac exp rest : List Char} (hsign : sign = [] ∨ sign = ['-'])
    (hds : IsIntegerPart ds) (hfrac : frac = [] ∨ IsFraction frac) (hexp : exp = [] ∨ IsExponent exp)
    (hr : Closed rest) :
    readNumber fmt (sign ++ (ds ++ (frac ++ (exp ++ rest)))) =
      if frac = [] ∧ exp = [] then some (.int (ofIntText (sign ++ ds)), rest)
      else some (.float (fmt.ofText (sign ++ ds ++ frac ++ exp)), rest) := by
  have hdigit : Stops Char.isDigit (exp ++ rest) :=
    IsExponent.stops (by decide) hexp (hr.stops (by decide))
  have hinteger := scanInteger_append hds (IsFraction.stops (by decide) hfrac hdigit)
  have hpoint : Stops (fun c => c = '.') (exp ++ rest) :=
    IsExponent.stops (by decide) hexp (hr.stops (by decide))
  have hmark : Stops (fun c => c = 'e' || c = 'E') rest := hr.stops (by decide)
  have hfraction : scanFraction (frac ++ (exp ++ rest)) = (frac, exp ++ rest) := by
    rcases hfrac with rfl | hfrac
    · exact scanFraction_stops hpoint
    · exact scanFraction_append hfrac hdigit
  have hexponent : scanExponent (exp ++ rest) = (exp, rest) := by
    rcases hexp with rfl | hexp
    · exact scanExponent_stops hmark
    · exact scanExponent_append hexp (hr.stops (by decide))
  unfold readNumber
  simp only [scanMinus_append hsign hds, hinteger, hfraction, hexponent]

theorem ofIntText_intText (n : Int) : ofIntText (intText n) = n := by
  unfold intText
  by_cases hn : n < 0
  · simp only [if_pos hn, ofIntText, Nat.ofDigitChars_ten_toDigits]
    omega
  · simp only [if_neg hn]
    unfold ofIntText
    split
    · rename_i ds heq
      have hminus := (toDigits_integerPart n.natAbs).1 '-' (by rw [heq]; simp)
      exact absurd hminus (by decide)
    · rw [Nat.ofDigitChars_ten_toDigits]
      omega

theorem intText_parts (n : Int) : ∃ sign ds, intText n = sign ++ ds ∧ (sign = [] ∨ sign = ['-']) ∧
    IsIntegerPart ds := by
  unfold intText
  by_cases hn : n < 0
  · exact ⟨['-'], _, if_pos hn, .inr rfl, toDigits_integerPart n.natAbs⟩
  · exact ⟨[], _, if_neg hn, .inl rfl, toDigits_integerPart n.natAbs⟩

theorem readNumber_int (n : Int) {rest : List Char} (hr : Closed rest) :
    readNumber fmt (intText n ++ rest) = some (.int n, rest) := by
  obtain ⟨sign, ds, ht, hsign, hds⟩ := intText_parts n
  have hread : readNumber fmt (sign ++ (ds ++ ([] ++ ([] ++ rest)))) = _ :=
    readNumber_append hsign hds (.inl rfl) (.inl rfl) hr
  have hof := ofIntText_intText n
  rw [ht] at hof ⊢
  simpa [hof] using hread

theorem readNumber_float {x : F} (hx : fmt.finite x = true) {rest : List Char} (hr : Closed rest) :
    readNumber fmt (fmt.repr x ++ rest) = some (.float x, rest) := by
  obtain ⟨sign, ds, frac, exp, ht, hsign, hds, hfrac, hexp, hne⟩ := fmt.repr_text x hx
  have hread : readNumber fmt (sign ++ (ds ++ (frac ++ (exp ++ rest)))) = _ :=
    readNumber_append hsign hds hfrac hexp hr
  have hparts : ¬ (frac = [] ∧ exp = []) := by
    rintro ⟨hf, he⟩
    exact hne.elim (fun h => h hf) (fun h => h he)
  rw [if_neg hparts, ← ht, fmt.ofText_repr x hx] at hread
  rw [ht]
  simpa using hread

/-! ### Strings -/

theorem hexValue_hexDigit : ∀ n < 16, hexValue (hexDigit n) = some n := by decide

/-- A character that is no quote, backslash or control character stands for itself. -/
theorem readString_plain {c : Char} (hquote : c ≠ '"') (hback : c ≠ '\\') (hcontrol : 32 ≤ c.toNat) (rest : List Char) :
    readString (c :: rest) = (readString rest).map fun p => (c :: p.1, p.2) := by
  rw [readString.eq_def]
  split
  · rename_i heq
    cases heq
  · rename_i heq
    exact absurd (List.cons.inj heq).1 hquote
  · rename_i heq
    exact absurd (List.cons.inj heq).1 hback
  · rename_i heq
    exact absurd (List.cons.inj heq).1 hback
  · rename_i heq
    obtain ⟨rfl, rfl⟩ := List.cons.inj heq
    rw [if_neg (by omega)]

theorem readString_escapeChar (c : Char) (rest : List Char) :
    readString (escapeChar c ++ rest) = (readString rest).map fun p => (c :: p.1, p.2) := by
  have hofNat : ∀ n, c.toNat = n → Char.ofNat n = c := by
    intro n hn
    rw [← hn, Char.ofNat_toNat]
  unfold escapeChar
  split
  · rename_i h; subst h; simp [readString]
  split
  · rename_i h; subst h; simp [readString]
  split
  · rename_i h; subst h; simp [readString]
  split
  · rename_i h; subst h; simp [readString]
  split
  · rename_i h; subst h; simp [readString]
  split
  · rename_i h; simp [readString, ← hofNat 12 h]
  split
  · rename_i h; simp [readString, ← hofNat 8 h]
  split
  · rename_i hlt
    have hhigh := hexValue_hexDigit (c.toNat / 16) (by omega)
    have hlow := hexValue_hexDigit (c.toNat % 16) (by omega)
    have hzero : hexValue '0' = some 0 := by decide
    have hvalue : hex4 '0' '0' (hexDigit (c.toNat / 16)) (hexDigit (c.toNat % 16)) = some c.toNat := by
      simp only [hex4, hhigh, hlow, hzero]
      congr 1
      omega
    have hnot : isHighSurrogate c.toNat = false ∧ isLowSurrogate c.toNat = false := by
      simp [isHighSurrogate, isLowSurrogate]
      omega
    simp only [List.cons_append, List.nil_append]
    rw [readString]
    simp only [hvalue, hnot.1, hnot.2, Bool.false_eq_true, if_false, Char.ofNat_toNat]
  · rename_i hquote hback h3 h4 h5 h6 h7 hcontrol
    exact readString_plain hquote hback (by omega) rest

theorem readString_quoted (cs rest : List Char) :
    readString (cs.flatMap escapeChar ++ '"' :: rest) = some (cs, rest) := by
  induction cs with
  | nil => simp [readString]
  | cons c cs ih => rw [List.flatMap_cons, List.append_assoc, readString_escapeChar, ih]; rfl

/-! ### Values -/

/-- Values with a text that reads back: finite numbers and distinct keys. -/
inductive Writable (fmt : FloatFormat F) : Json F → Prop where
  | null : Writable fmt .null
  | bool (b : Bool) : Writable fmt (.bool b)
  | int (n : Int) : Writable fmt (.int n)
  | float (x : F) : fmt.finite x = true → Writable fmt (.float x)
  | str (s : String) : Writable fmt (.str s)
  | arr (items : List (Json F)) : (∀ x ∈ items, Writable fmt x) → Writable fmt (.arr items)
  | obj (members : List (String × Json F)) : (members.map Prod.fst).Nodup →
      (∀ m ∈ members, Writable fmt m.2) → Writable fmt (.obj members)

/-- The first character of a value's text is no white space and closes nothing. -/
def Opens (t : List Char) : Prop :=
  ∃ c r, t = c :: r ∧ isWhitespace c = false ∧ c ≠ ']' ∧ c ≠ '\x7d'

theorem opens_cons {c : Char} (h : isWhitespace c = false ∧ c ≠ ']' ∧ c ≠ '\x7d') (r : List Char) :
    Opens (c :: r) := ⟨c, r, rfl, h⟩

theorem Opens.append {t : List Char} (h : Opens t) (rest : List Char) : Opens (t ++ rest) := by
  obtain ⟨c, r, rfl, hc⟩ := h
  exact opens_cons hc (r ++ rest)

theorem opens_digit {c : Char} (hc : c.isDigit = true) (r : List Char) : Opens (c :: r) := by
  apply opens_cons
  refine ⟨?_, ?_, ?_⟩
  · rw [Bool.eq_false_iff]
    intro h
    simp only [isWhitespace, Bool.or_eq_true, decide_eq_true_eq] at h
    rcases h with ((rfl | rfl) | rfl) | rfl <;> cases hc
  · rintro rfl
    cases hc
  · rintro rfl
    cases hc

theorem opens_number {sign ds : List Char} (hsign : sign = [] ∨ sign = ['-']) (hds : IsIntegerPart ds)
    (tail : List Char) : Opens (sign ++ (ds ++ tail)) := by
  obtain ⟨hd, hne, -⟩ := hds
  rcases hsign with rfl | rfl
  · cases ds with
    | nil => exact absurd rfl hne
    | cons c cs => exact opens_digit (hd c (by simp)) _
  · exact opens_cons (by decide) _

theorem opens_write {j : Json F} (h : Writable fmt j) : Opens (write fmt j) := by
  cases h with
  | null => exact opens_cons (by decide) _
  | bool b => cases b <;> exact opens_cons (by decide) _
  | int n =>
    obtain ⟨sign, ds, ht, hsign, hds⟩ := intText_parts n
    have hopen := opens_number hsign hds []
    rw [write, ht]
    simpa using hopen
  | float x hx =>
    obtain ⟨sign, ds, frac, exp, ht, hsign, hds, -⟩ := fmt.repr_text x hx
    have hopen := opens_number hsign hds (frac ++ exp)
    rw [write, ht]
    simpa using hopen
  | str s => exact opens_cons (by decide) _
  | arr items hitems => cases items <;> exact opens_cons (by decide) _
  | obj members hkeys hvalues => cases members <;> exact opens_cons (by decide) _

theorem skipWhitespace_opens {t : List Char} (h : Opens t) : skipWhitespace t = t := by
  obtain ⟨c, r, rfl, hc, -⟩ := h
  exact List.dropWhile_cons_of_neg (by simp [hc])

/-- A text that starts as a number is read as one. -/
theorem readValue_number {sign ds : List Char} (hsign : sign = [] ∨ sign = ['-'])
    (hds : IsIntegerPart ds) (tail : List Char) (n : Nat) :
    readValue fmt (n + 1) (sign ++ (ds ++ tail)) = readNumber fmt (sign ++ (ds ++ tail)) := by
  obtain ⟨hd, hne, -⟩ := hds
  cases ds with
  | nil => exact absurd rfl hne
  | cons c cs =>
    have hc := hd c (by simp)
    -- none of the other openings is a digit, or a minus with a digit after it
    rcases hsign with rfl | rfl
    · simp only [List.nil_append, List.cons_append]
      rw [readValue.eq_def]
      simp only
      split
      all_goals first
        | rfl
        | (rename_i heq
           obtain ⟨rfl, -⟩ := List.cons.inj heq
           cases hc)
    · simp only [List.nil_append, List.cons_append]
      rw [readValue.eq_def]
      simp only
      split
      all_goals first
        | rfl
        | (rename_i heq
           have hsecond := (List.cons.inj heq).2
           obtain ⟨rfl, -⟩ := List.cons.inj hsecond
           cases hc)
        | (rename_i heq
           exact absurd (List.cons.inj heq).1 (by decide))

/-- The value reads back before anything that may follow it. -/
def ReadsBack (fmt : FloatFormat F) (j : Json F) : Prop :=
  ∀ n rest, (write fmt j).length ≤ n → Closed rest →
    readValue fmt n (write fmt j ++ rest) = some (j, rest)

theorem closed_writeItems (items : List (Json F)) (rest : List Char) :
    Closed (writeItems fmt items ++ rest) := by
  cases items with
  | nil => exact closed_cons (by decide)
  | cons x xs => exact closed_cons (by decide)

theorem closed_writeMembers (members : List (String × Json F)) (rest : List Char) :
    Closed (writeMembers fmt members ++ rest) := by
  cases members with
  | nil => exact closed_cons (by decide)
  | cons x xs => exact closed_cons (by decide)

theorem readItems_write {x : Json F} {xs : List (Json F)} (hall : ∀ y ∈ x :: xs, Writable fmt y)
    (hback : ∀ y ∈ x :: xs, ReadsBack fmt y) (n : Nat) (rest : List Char)
    (hn : (write fmt x ++ writeItems fmt xs).length ≤ n) :
    readItems fmt n (write fmt x ++ (writeItems fmt xs ++ rest)) = some (x :: xs, rest) := by
  induction xs generalizing x n with
  | nil =>
    rw [List.length_append, writeItems, List.length_singleton] at hn
    obtain ⟨n, rfl⟩ : ∃ m, n = m + 1 := ⟨n - 1, by omega⟩
    have hread := hback x (by simp) n (']' :: rest) (by omega) (closed_cons (by decide))
    rw [writeItems, readItems, List.singleton_append, hread]
    rfl
  | cons y ys ih =>
    have hopen : Opens (write fmt y ++ (writeItems fmt ys ++ rest)) :=
      (opens_write (hall y (by simp))).append _
    rw [List.length_append, writeItems, List.length_cons] at hn
    obtain ⟨n, rfl⟩ : ∃ m, n = m + 1 := ⟨n - 1, by omega⟩
    have hread := hback x (by simp) n (',' :: (write fmt y ++ (writeItems fmt ys ++ rest))) (by omega)
      (closed_cons (by decide))
    have hrest := ih (fun z hz => hall z (List.mem_cons_of_mem _ hz))
      (fun z hz => hback z (List.mem_cons_of_mem _ hz)) n (by omega)
    rw [writeItems, readItems, List.cons_append, List.append_assoc, hread]
    have hskip : skipWhitespace (',' :: (write fmt y ++ (writeItems fmt ys ++ rest))) =
        ',' :: (write fmt y ++ (writeItems fmt ys ++ rest)) := skipWhitespace_opens (opens_cons (by decide) _)
    simp only [hskip, skipWhitespace_opens hopen, hrest, Option.map_some]

/-- The members from a first one on, by what follows its value. -/
theorem readMembers_member {m : String × Json F} (hm : Writable fmt m.2) (hback : ReadsBack fmt m.2)
    {n : Nat} {tail : List Char} (hn : (writeMember fmt m).length ≤ n + 1) (htail : Closed tail) :
    readMembers fmt (n + 1) (writeMember fmt m ++ tail) =
      match skipWhitespace tail with
      | '\x7d' :: cs => some ([m], cs)
      | ',' :: cs => (readMembers fmt n (skipWhitespace cs)).map fun p => (m :: p.1, p.2)
      | _ => none := by
  obtain ⟨key, x⟩ := m
  have hopen : Opens (write fmt x ++ tail) := (opens_write hm).append _
  have hkey := readString_quoted key.toList (':' :: (write fmt x ++ tail))
  have hcolon : skipWhitespace (':' :: (write fmt x ++ tail)) = ':' :: (write fmt x ++ tail) :=
    skipWhitespace_opens (opens_cons (by decide) _)
  have hlength : (write fmt x).length ≤ n := by
    simp only [writeMember, quote, List.length_append, List.length_cons] at hn
    omega
  have hread := hback n tail hlength htail
  have htext : writeMember fmt (key, x) ++ tail =
      '"' :: (key.toList.flatMap escapeChar ++ '"' :: ':' :: (write fmt x ++ tail)) := by
    simp [writeMember, quote]
  rw [htext, readMembers]
  simp only [hkey, hcolon, skipWhitespace_opens hopen, hread, String.ofList_toList]

theorem opens_writeMember (m : String × Json F) (tail : List Char) :
    Opens (writeMember fmt m ++ tail) := by
  obtain ⟨key, x⟩ := m
  exact opens_cons (by decide) _

theorem readMembers_write {m : String × Json F} {ms : List (String × Json F)}
    (hall : ∀ y ∈ m :: ms, Writable fmt y.2) (hback : ∀ y ∈ m :: ms, ReadsBack fmt y.2) (n : Nat)
    (rest : List Char) (hn : (writeMember fmt m ++ writeMembers fmt ms).length ≤ n) :
    readMembers fmt n (writeMember fmt m ++ (writeMembers fmt ms ++ rest)) = some (m :: ms, rest) := by
  induction ms generalizing m n with
  | nil =>
    rw [List.length_append, writeMembers, List.length_singleton] at hn
    obtain ⟨n, rfl⟩ : ∃ k, n = k + 1 := ⟨n - 1, by omega⟩
    rw [readMembers_member (hall m (by simp)) (hback m (by simp)) (by omega)
      (closed_writeMembers [] rest), writeMembers]
    rfl
  | cons m' ms ih =>
    rw [List.length_append, writeMembers, List.length_cons] at hn
    obtain ⟨n, rfl⟩ : ∃ k, n = k + 1 := ⟨n - 1, by omega⟩
    have hrest := ih (fun z hz => hall z (List.mem_cons_of_mem _ hz))
      (fun z hz => hback z (List.mem_cons_of_mem _ hz)) n (by omega)
    have hskip : skipWhitespace (',' :: (writeMember fmt m' ++ (writeMembers fmt ms ++ rest))) =
        ',' :: (writeMember fmt m' ++ (writeMembers fmt ms ++ rest)) :=
      skipWhitespace_opens (opens_cons (by decide) _)
    rw [readMembers_member (hall m (by simp)) (hback m (by simp)) (by omega)
      (closed_writeMembers (m' :: ms) rest), writeMembers, List.cons_append, List.append_assoc]
    simp only [hskip, skipWhitespace_opens (opens_writeMember m' _), hrest, Option.map_some]

theorem foldl_setMember (members old : List (String × Json F))
    (h : (old.map Prod.fst ++ members.map Prod.fst).Nodup) :
    members.foldl setMember old = old ++ members := by
  induction members generalizing old with
  | nil => rw [List.foldl_nil, List.append_nil]
  | cons m ms ih =>
    have hnew : (old.any fun o => o.1 = m.1) = false := by
      rw [List.any_eq_false]
      intro o ho heq
      rw [List.map_cons, List.nodup_append] at h
      exact h.2.2 o.1 (List.mem_map_of_mem ho) m.1 (by simp) (of_decide_eq_true heq)
    have hset : setMember old m = old ++ [m] := by
      unfold setMember
      rw [hnew]
      rfl
    rw [List.foldl_cons, hset, ih]
    · simp
    · simpa using h

theorem readValue_write {j : Json F} (h : Writable fmt j) : ReadsBack fmt j := by
  induction h with
  | null =>
    intro n rest hn hr
    obtain ⟨n, rfl⟩ : ∃ k, n = k + 1 := ⟨n - 1, by simp [write] at hn; omega⟩
    rw [write, readValue.eq_def]
    rfl
  | bool b =>
    intro n rest hn hr
    obtain ⟨n, rfl⟩ : ∃ k, n = k + 1 := ⟨n - 1, by cases b <;> simp [write] at hn <;> omega⟩
    cases b <;> rw [write, readValue.eq_def] <;> rfl
  | int i =>
    intro n rest hn hr
    obtain ⟨sign, ds, ht, hsign, hds⟩ := intText_parts i
    have hnumber : readNumber fmt (intText i ++ rest) = some (.int i, rest) := readNumber_int i hr
    rw [write] at hn ⊢
    obtain ⟨n, rfl⟩ : ∃ k, n = k + 1 := by
      refine ⟨n - 1, ?_⟩
      have hpos := List.length_pos_of_ne_nil hds.2.1
      rw [ht, List.length_append] at hn
      omega
    rw [ht, List.append_assoc] at hnumber ⊢
    rw [readValue_number hsign hds, hnumber]
  | float x hx =>
    intro n rest hn hr
    obtain ⟨sign, ds, frac, exp, ht, hsign, hds, -⟩ := fmt.repr_text x hx
    have hnumber := readNumber_float hx hr
    rw [write] at hn ⊢
    obtain ⟨n, rfl⟩ : ∃ k, n = k + 1 := by
      refine ⟨n - 1, ?_⟩
      have hpos := List.length_pos_of_ne_nil hds.2.1
      rw [ht, List.length_append, List.length_append, List.length_append] at hn
      omega
    rw [ht, List.append_assoc, List.append_assoc, List.append_assoc] at hnumber ⊢
    rw [readValue_number hsign hds, hnumber]
  | str s =>
    intro n rest hn hr
    obtain ⟨n, rfl⟩ : ∃ k, n = k + 1 := ⟨n - 1, by simp [write, quote] at hn; omega⟩
    have hkey := readString_quoted s.toList rest
    have htext : write fmt (.str s) ++ rest = '"' :: (s.toList.flatMap escapeChar ++ '"' :: rest) := by
      simp [write, quote]
    rw [htext, readValue.eq_def]
    simp only [hkey, Option.map_some, String.ofList_toList]
  | arr items hitems ih =>
    intro n rest hn hr
    cases items with
    | nil =>
      obtain ⟨n, rfl⟩ : ∃ k, n = k + 1 := ⟨n - 1, by simp [write] at hn; omega⟩
      rw [write, readValue.eq_def]
      rfl
    | cons x xs =>
      rw [write, List.length_cons] at hn
      obtain ⟨n, rfl⟩ : ∃ k, n = k + 1 := ⟨n - 1, by omega⟩
      have hread := readItems_write hitems ih n rest (by omega)
      have hopen : Opens (write fmt x ++ (writeItems fmt xs ++ rest)) :=
        (opens_write (hitems x (by simp))).append _
      rw [write, List.cons_append, List.append_assoc, readValue.eq_def]
      obtain ⟨c, r, hcr, -, hc, -⟩ := id hopen
      simp only [skipWhitespace_opens hopen]
      rw [hcr] at hread ⊢
      split
      · rename_i heq
        exact absurd (List.cons.inj heq).1 hc
      · rw [hread]
        rfl
  | obj members hkeys hvalues ih =>
    intro n rest hn hr
    cases members with
    | nil =>
      obtain ⟨n, rfl⟩ : ∃ k, n = k + 1 := ⟨n - 1, by simp [write] at hn; omega⟩
      rw [write, readValue.eq_def]
      rfl
    | cons m ms =>
      rw [write, List.length_cons] at hn
      obtain ⟨n, rfl⟩ : ∃ k, n = k + 1 := ⟨n - 1, by omega⟩
      have hread := readMembers_write hvalues ih n rest (by omega)
      have hopen : Opens (writeMember fmt m ++ (writeMembers fmt ms ++ rest)) := opens_writeMember m _
      have hfold := foldl_setMember (m :: ms) [] (by simpa using hkeys)
      rw [write, List.cons_append, List.append_assoc, readValue.eq_def]
      obtain ⟨c, r, hcr, -, -, hc⟩ := id hopen
      simp only [skipWhitespace_opens hopen]
      rw [hcr] at hread ⊢
      split
      · rename_i heq
        exact absurd (List.cons.inj heq).1 hc
      · rw [hread, Option.map_some, hfold]
        rfl

/-- The reader inverts the writer. -/
theorem read_write {j : Json F} (h : Writable fmt j) : read fmt (write fmt j) = some j := by
  have hread := readValue_write h (write fmt j).length [] (by omega) closed_nil
  rw [List.append_nil] at hread
  unfold read
  rw [skipWhitespace_opens (opens_write h), hread]
  rfl

/-- A compact text is the text of one value only. -/
theorem write_injective {j k : Json F} (hj : Writable fmt j) (hk : Writable fmt k)
    (h : write fmt j = write fmt k) : j = k := by
  have hread := read_write hj
  rw [h, read_write hk] at hread
  exact (Option.some.inj hread).symm

end RoundTrip
/-! ## The values that are read -/

section Distinct

variable {F : Type} {fmt : FloatFormat F}

/-- The members of every object have different keys. -/
inductive DistinctMembers : Json F → Prop where
  | null : DistinctMembers .null
  | bool (b : Bool) : DistinctMembers (.bool b)
  | int (n : Int) : DistinctMembers (.int n)
  | float (x : F) : DistinctMembers (.float x)
  | str (s : String) : DistinctMembers (.str s)
  | arr (items : List (Json F)) : (∀ x ∈ items, DistinctMembers x) → DistinctMembers (.arr items)
  | obj (members : List (String × Json F)) : (members.map Prod.fst).Nodup →
      (∀ m ∈ members, DistinctMembers m.2) → DistinctMembers (.obj members)

theorem setMember_cases {members : List (String × Json F)} {m x : String × Json F}
    (h : x ∈ setMember members m) : x = m ∨ x ∈ members := by
  unfold setMember at h
  split at h
  · obtain ⟨old, hold, rfl⟩ := List.mem_map.mp h
    split
    · exact .inl rfl
    · exact .inr hold
  · rcases List.mem_append.mp h with h | h
    · exact .inr h
    · exact .inl (List.mem_singleton.mp h)

theorem setMember_keys (members : List (String × Json F)) (m : String × Json F)
    (h : (members.map Prod.fst).Nodup) : ((setMember members m).map Prod.fst).Nodup := by
  unfold setMember
  split
  · have hkeys : (members.map fun old => if old.1 = m.1 then m else old).map Prod.fst =
        members.map Prod.fst := by
      rw [List.map_map]
      apply List.map_congr_left
      intro old _
      simp only [Function.comp_apply]
      split
      · rename_i he
        exact he.symm
      · rfl
    rw [hkeys]
    exact h
  · rename_i hnew
    rw [List.map_append, List.map_singleton]
    refine List.nodup_append.mpr ⟨h, List.pairwise_singleton _ m.1, ?_⟩
    rintro k hk k' hk' rfl
    obtain ⟨old, hold, rfl⟩ := List.mem_map.mp hk
    exact hnew (List.any_eq_true.mpr ⟨old, hold, by simpa using hk'⟩)

theorem foldl_setMember_distinct (ms old : List (String × Json F)) (hold : (old.map Prod.fst).Nodup)
    (hvalues : ∀ m ∈ old, DistinctMembers m.2) (hms : ∀ m ∈ ms, DistinctMembers m.2) :
    DistinctMembers (.obj (ms.foldl setMember old)) := by
  induction ms generalizing old with
  | nil => exact .obj old hold hvalues
  | cons m ms ih =>
    refine ih (setMember old m) (setMember_keys old m hold) ?_ fun x hx => hms x (List.mem_cons_of_mem m hx)
    intro x hx
    rcases setMember_cases hx with rfl | hx
    · exact hms x List.mem_cons_self
    · exact hvalues x hx

theorem readNumber_distinct {cs : List Char} {j : Json F} {rest : List Char}
    (h : readNumber fmt cs = some (j, rest)) : DistinctMembers j := by
  unfold readNumber at h
  simp only at h
  split at h
  · cases h
  · split at h <;> cases h
    · exact .int _
    · exact .float _

/-- What the three readers give with some fuel. -/
structure ReadsDistinct (fmt : FloatFormat F) (n : Nat) : Prop where
  value : ∀ cs j rest, readValue fmt n cs = some (j, rest) → DistinctMembers j
  items : ∀ cs js rest, readItems fmt n cs = some (js, rest) → ∀ j ∈ js, DistinctMembers j
  members : ∀ cs ms rest, readMembers fmt n cs = some (ms, rest) → ∀ m ∈ ms, DistinctMembers m.2

theorem readsDistinct (n : Nat) : ReadsDistinct fmt n := by
  induction n with
  | zero =>
    refine ⟨?_, ?_, ?_⟩
    · intro cs j rest h
      cases h
    · intro cs js rest h
      cases h
    · intro cs ms rest h
      cases h
  | succ n ih =>
    refine ⟨?_, ?_, ?_⟩
    · intro cs j rest h
      rw [readValue.eq_def] at h
      simp only at h
      split at h
      · obtain ⟨p, -, hp⟩ := Option.map_eq_some_iff.mp h
        cases hp
        exact .str _
      · split at h
        · cases h
          exact .arr [] nofun
        · obtain ⟨p, hp, he⟩ := Option.map_eq_some_iff.mp h
          cases he
          exact .arr _ (ih.items _ _ _ hp)
      · split at h
        · cases h
          exact .obj [] List.nodup_nil nofun
        · obtain ⟨p, hp, he⟩ := Option.map_eq_some_iff.mp h
          cases he
          exact foldl_setMember_distinct _ [] List.nodup_nil nofun (ih.members _ _ _ hp)
      · cases h; exact .null
      · cases h; exact .bool true
      · cases h; exact .bool false
      · cases h; exact .float _
      · cases h; exact .float _
      · cases h; exact .float _
      · exact readNumber_distinct h
    · intro cs js rest h
      rw [readItems] at h
      split at h
      · cases h
      · rename_i x cs' hx
        have hfirst := ih.value _ _ _ hx
        split at h
        · cases h
          simpa using hfirst
        · obtain ⟨p, hp, he⟩ := Option.map_eq_some_iff.mp h
          cases he
          exact List.forall_mem_cons.mpr ⟨hfirst, ih.items _ _ _ hp⟩
        · cases h
    · intro cs ms rest h
      rw [readMembers.eq_def] at h
      simp only at h
      split at h
      · split at h
        · cases h
        · split at h
          · split at h
            · cases h
            · rename_i x cs' hx
              have hfirst := ih.value _ _ _ hx
              split at h
              · cases h
                simpa using hfirst
              · obtain ⟨p, hp, he⟩ := Option.map_eq_some_iff.mp h
                cases he
                exact List.forall_mem_cons.mpr ⟨hfirst, ih.members _ _ _ hp⟩
              · cases h
          · cases h
      · cases h

/-- Of members with one key only one is read. -/
theorem read_distinct {cs : List Char} {j : Json F} (h : read fmt cs = some j) : DistinctMembers j := by
  unfold read at h
  split at h
  · rename_i j' rest hj
    split at h <;> cases h
    exact (readsDistinct _).value _ _ _ hj
  · cases h

end Distinct
end JsonText
