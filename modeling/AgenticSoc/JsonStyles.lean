import AgenticSoc.JsonText

/-!
# Laid-out JSON texts

A text may have blanks after its separators and may escape more characters than it
must. A style says which blanks and which escapes; the reader inverts the writer in
every style. The default style of the encoder keeps to printable characters, so its
texts have no line break.
-/
namespace JsonText

/-- The blanks after separators and the escapes inside quotes. -/
structure Style where
  comma : List Char
  colon : List Char
  escape : Char → List Char
  comma_blank : ∀ c ∈ comma, isWhitespace c = true
  colon_blank : ∀ c ∈ colon, isWhitespace c = true
  escape_reads : ∀ c rest, readString (escape c ++ rest) = (readString rest).map fun p => (c :: p.1, p.2)

section Writer

variable {F : Type} (fmt : FloatFormat F) (style : Style)

def Style.quote (s : String) : List Char := '"' :: (s.toList.flatMap style.escape ++ ['"'])

mutual

def writeIn : Json F → List Char
  | .null => ['n', 'u', 'l', 'l']
  | .bool true => ['t', 'r', 'u', 'e']
  | .bool false => ['f', 'a', 'l', 's', 'e']
  | .int n => intText n
  | .float x => fmt.repr x
  | .str s => style.quote s
  | .arr [] => ['[', ']']
  | .arr (x :: xs) => '[' :: (writeIn x ++ writeItemsIn xs)
  | .obj [] => ['\x7b', '\x7d']
  | .obj (m :: ms) => '\x7b' :: (writeMemberIn m ++ writeMembersIn ms)

def writeItemsIn : List (Json F) → List Char
  | [] => [']']
  | x :: xs => ',' :: (style.comma ++ (writeIn x ++ writeItemsIn xs))

def writeMemberIn : String × Json F → List Char
  | (key, value) => style.quote key ++ ':' :: (style.colon ++ writeIn value)

def writeMembersIn : List (String × Json F) → List Char
  | [] => ['\x7d']
  | m :: ms => ',' :: (style.comma ++ (writeMemberIn m ++ writeMembersIn ms))

end

end Writer

/-! ## Reading back -/

section RoundTrip

variable {F : Type} {fmt : FloatFormat F} {style : Style}

theorem skipWhitespace_blanks {blanks t : List Char} (hb : ∀ c ∈ blanks, isWhitespace c = true) (ht : Opens t) :
    skipWhitespace (blanks ++ t) = t := by
  unfold skipWhitespace
  rw [List.dropWhile_append_of_pos hb]
  exact skipWhitespace_opens ht

theorem readString_quotedIn (style : Style) (cs rest : List Char) :
    readString (cs.flatMap style.escape ++ '"' :: rest) = some (cs, rest) := by
  induction cs with
  | nil => simp [readString]
  | cons c cs ih => rw [List.flatMap_cons, List.append_assoc, style.escape_reads, ih]; rfl

theorem opens_writeIn (style : Style) {j : Json F} (h : Writable fmt j) : Opens (writeIn fmt style j) := by
  cases h with
  | null => exact opens_cons (by decide) _
  | bool b => cases b <;> exact opens_cons (by decide) _
  | int n =>
    obtain ⟨sign, ds, ht, hsign, hds⟩ := intText_parts n
    have hopen := opens_number hsign hds []
    rw [writeIn, ht]
    simpa using hopen
  | float x hx =>
    obtain ⟨sign, ds, frac, exp, ht, hsign, hds, -⟩ := fmt.repr_text x hx
    have hopen := opens_number hsign hds (frac ++ exp)
    rw [writeIn, ht]
    simpa using hopen
  | str s => exact opens_cons (by decide) _
  | arr items hitems => cases items <;> exact opens_cons (by decide) _
  | obj members hkeys hvalues => cases members <;> exact opens_cons (by decide) _

/-- The value reads back in this style, before anything that may follow it. -/
def ReadsBackIn (fmt : FloatFormat F) (style : Style) (j : Json F) : Prop :=
  ∀ n rest, (writeIn fmt style j).length ≤ n → Closed rest →
    readValue fmt n (writeIn fmt style j ++ rest) = some (j, rest)

theorem closed_writeMembersIn (members : List (String × Json F)) (rest : List Char) :
    Closed (writeMembersIn fmt style members ++ rest) := by
  cases members with
  | nil => exact closed_cons (by decide)
  | cons x xs => exact closed_cons (by decide)

theorem readItems_writeIn {x : Json F} {xs : List (Json F)} (hall : ∀ y ∈ x :: xs, Writable fmt y)
    (hback : ∀ y ∈ x :: xs, ReadsBackIn fmt style y) (n : Nat) (rest : List Char)
    (hn : (writeIn fmt style x ++ writeItemsIn fmt style xs).length ≤ n) :
    readItems fmt n (writeIn fmt style x ++ (writeItemsIn fmt style xs ++ rest)) = some (x :: xs, rest) := by
  induction xs generalizing x n with
  | nil =>
    rw [List.length_append, writeItemsIn, List.length_singleton] at hn
    obtain ⟨n, rfl⟩ : ∃ m, n = m + 1 := ⟨n - 1, by omega⟩
    have hread := hback x (by simp) n (']' :: rest) (by omega) (closed_cons (by decide))
    rw [writeItemsIn, readItems, List.singleton_append, hread]
    rfl
  | cons y ys ih =>
    have hopen : Opens (writeIn fmt style y ++ (writeItemsIn fmt style ys ++ rest)) :=
      (opens_writeIn style (hall y (by simp))).append _
    rw [List.length_append, writeItemsIn, List.length_cons, List.length_append] at hn
    obtain ⟨n, rfl⟩ : ∃ m, n = m + 1 := ⟨n - 1, by omega⟩
    have hread := hback x (by simp) n
      (',' :: (style.comma ++ (writeIn fmt style y ++ (writeItemsIn fmt style ys ++ rest)))) (by omega)
      (closed_cons (by decide))
    have hrest := ih (fun z hz => hall z (List.mem_cons_of_mem _ hz))
      (fun z hz => hback z (List.mem_cons_of_mem _ hz)) n (by omega)
    have hcomma : skipWhitespace
        (',' :: (style.comma ++ (writeIn fmt style y ++ (writeItemsIn fmt style ys ++ rest)))) =
        ',' :: (style.comma ++ (writeIn fmt style y ++ (writeItemsIn fmt style ys ++ rest))) :=
      skipWhitespace_opens (opens_cons (by decide) _)
    rw [writeItemsIn, readItems, List.cons_append, List.append_assoc, List.append_assoc, hread]
    simp only [hcomma, skipWhitespace_blanks style.comma_blank hopen, hrest, Option.map_some]

/-- A member is read up to what follows its value. -/
theorem readMembers_memberIn {m : String × Json F} (hm : Writable fmt m.2) (hback : ReadsBackIn fmt style m.2)
    {n : Nat} {tail : List Char} (hn : (writeMemberIn fmt style m).length ≤ n + 1) (htail : Closed tail) :
    (∀ cs, skipWhitespace tail = '\x7d' :: cs →
      readMembers fmt (n + 1) (writeMemberIn fmt style m ++ tail) = some ([m], cs)) ∧
    ∀ cs, skipWhitespace tail = ',' :: cs →
      readMembers fmt (n + 1) (writeMemberIn fmt style m ++ tail) =
        (readMembers fmt n (skipWhitespace cs)).map fun p => (m :: p.1, p.2) := by
  obtain ⟨key, x⟩ := m
  have hopen : Opens (writeIn fmt style x ++ tail) := (opens_writeIn style hm).append _
  have hkey := readString_quotedIn style key.toList (':' :: (style.colon ++ (writeIn fmt style x ++ tail)))
  have hcolon : skipWhitespace (':' :: (style.colon ++ (writeIn fmt style x ++ tail))) =
      ':' :: (style.colon ++ (writeIn fmt style x ++ tail)) := skipWhitespace_opens (opens_cons (by decide) _)
  have hlength : (writeIn fmt style x).length ≤ n := by
    simp only [writeMemberIn, Style.quote, List.length_append, List.length_cons] at hn
    omega
  have hread : readValue fmt n (writeIn fmt style x ++ tail) = some (x, tail) := hback n tail hlength htail
  have htext : writeMemberIn fmt style (key, x) ++ tail =
      '"' :: (key.toList.flatMap style.escape ++ '"' :: ':' :: (style.colon ++ (writeIn fmt style x ++ tail))) := by
    simp [writeMemberIn, Style.quote]
  rw [htext, readMembers]
  constructor <;> intro cs hcs
  · simp only [hkey, hcolon, skipWhitespace_blanks style.colon_blank hopen, hread, hcs, String.ofList_toList]
  · simp only [hkey, hcolon, skipWhitespace_blanks style.colon_blank hopen, hread, hcs, String.ofList_toList]

theorem opens_writeMemberIn (m : String × Json F) (tail : List Char) :
    Opens (writeMemberIn fmt style m ++ tail) := by
  obtain ⟨key, x⟩ := m
  exact opens_cons (by decide) _

theorem readMembers_writeIn {m : String × Json F} {ms : List (String × Json F)}
    (hall : ∀ y ∈ m :: ms, Writable fmt y.2) (hback : ∀ y ∈ m :: ms, ReadsBackIn fmt style y.2) (n : Nat)
    (rest : List Char) (hn : (writeMemberIn fmt style m ++ writeMembersIn fmt style ms).length ≤ n) :
    readMembers fmt n (writeMemberIn fmt style m ++ (writeMembersIn fmt style ms ++ rest)) = some (m :: ms, rest) := by
  induction ms generalizing m n with
  | nil =>
    rw [List.length_append, writeMembersIn, List.length_singleton] at hn
    obtain ⟨n, rfl⟩ : ∃ k, n = k + 1 := ⟨n - 1, by omega⟩
    exact (readMembers_memberIn (hall m (by simp)) (hback m (by simp)) (by omega)
      (closed_writeMembersIn [] rest)).1 rest (by rw [writeMembersIn]; rfl)
  | cons m' ms ih =>
    rw [List.length_append, writeMembersIn, List.length_cons, List.length_append] at hn
    obtain ⟨n, rfl⟩ : ∃ k, n = k + 1 := ⟨n - 1, by omega⟩
    have hrest := ih (fun z hz => hall z (List.mem_cons_of_mem _ hz))
      (fun z hz => hback z (List.mem_cons_of_mem _ hz)) n (by omega)
    have hcomma : skipWhitespace (writeMembersIn fmt style (m' :: ms) ++ rest) =
        ',' :: (style.comma ++ (writeMemberIn fmt style m' ++ (writeMembersIn fmt style ms ++ rest))) := by
      rw [writeMembersIn, List.cons_append, List.append_assoc, List.append_assoc]
      exact skipWhitespace_opens (opens_cons (by decide) _)
    rw [(readMembers_memberIn (hall m (by simp)) (hback m (by simp)) (by omega)
      (closed_writeMembersIn (m' :: ms) rest)).2 _ hcomma,
      skipWhitespace_blanks style.comma_blank (opens_writeMemberIn m' _), hrest, Option.map_some]

theorem writeIn_ne_nil {j : Json F} (h : Writable fmt j) : writeIn fmt style j ≠ [] := by
  obtain ⟨c, r, hcr, -⟩ := opens_writeIn style h
  rw [hcr]
  exact List.cons_ne_nil c r

theorem readValue_writeIn (style : Style) {j : Json F} (h : Writable fmt j) : ReadsBackIn fmt style j := by
  induction h with
  | null =>
    intro n rest hn hr
    obtain ⟨n, rfl⟩ : ∃ k, n = k + 1 := ⟨n - 1, by simp [writeIn] at hn; omega⟩
    rw [writeIn, readValue.eq_def]
    rfl
  | bool b =>
    intro n rest hn hr
    obtain ⟨n, rfl⟩ : ∃ k, n = k + 1 := ⟨n - 1, by cases b <;> simp [writeIn] at hn <;> omega⟩
    cases b <;> rw [writeIn, readValue.eq_def] <;> rfl
  | int i =>
    -- numbers are written alike in every style
    have hback : ReadsBack fmt (.int i) := readValue_write (.int i)
    intro n rest hn hr
    have hread := hback n rest
    rw [write] at hread
    rw [writeIn] at hn ⊢
    exact hread hn hr
  | float x hx =>
    have hback : ReadsBack fmt (.float x) := readValue_write (.float x hx)
    intro n rest hn hr
    have hread := hback n rest
    rw [write] at hread
    rw [writeIn] at hn ⊢
    exact hread hn hr
  | str s =>
    intro n rest hn hr
    obtain ⟨n, rfl⟩ : ∃ k, n = k + 1 := ⟨n - 1, by simp [writeIn, Style.quote] at hn; omega⟩
    have hkey := readString_quotedIn style s.toList rest
    have htext : writeIn fmt style (.str s) ++ rest = '"' :: (s.toList.flatMap style.escape ++ '"' :: rest) := by
      simp [writeIn, Style.quote]
    rw [htext, readValue.eq_def]
    simp only [hkey, Option.map_some, String.ofList_toList]
  | arr items hitems ih =>
    intro n rest hn hr
    cases items with
    | nil =>
      obtain ⟨n, rfl⟩ : ∃ k, n = k + 1 := ⟨n - 1, by simp [writeIn] at hn; omega⟩
      rw [writeIn, readValue.eq_def]
      rfl
    | cons x xs =>
      rw [writeIn, List.length_cons] at hn
      obtain ⟨n, rfl⟩ : ∃ k, n = k + 1 := ⟨n - 1, by omega⟩
      have hread := readItems_writeIn hitems ih n rest (by omega)
      have hopen : Opens (writeIn fmt style x ++ (writeItemsIn fmt style xs ++ rest)) :=
        (opens_writeIn style (hitems x (by simp))).append _
      rw [writeIn, List.cons_append, List.append_assoc, readValue.eq_def]
      obtain ⟨c, r, hcr, -, hc, -⟩ := id hopen
      simp only [skipWhitespace_opens hopen]
      rw [hcr] at hread ⊢
      split
      · rename_i heq
        exact absurd (List.cons.inj heq).1 hc
      · rw [hread]
        rfl
  | obj members hkeys hvalues ih =>
    intro n rest hn hr
    cases members with
    | nil =>
      obtain ⟨n, rfl⟩ : ∃ k, n = k + 1 := ⟨n - 1, by simp [writeIn] at hn; omega⟩
      rw [writeIn, readValue.eq_def]
      rfl
    | cons m ms =>
      rw [writeIn, List.length_cons] at hn
      obtain ⟨n, rfl⟩ : ∃ k, n = k + 1 := ⟨n - 1, by omega⟩
      have hread := readMembers_writeIn hvalues ih n rest (by omega)
      have hopen : Opens (writeMemberIn fmt style m ++ (writeMembersIn fmt style ms ++ rest)) :=
        opens_writeMemberIn m _
      have hfold := foldl_setMember (m :: ms) [] (by simpa using hkeys)
      rw [writeIn, List.cons_append, List.append_assoc, readValue.eq_def]
      obtain ⟨c, r, hcr, -, -, hc⟩ := id hopen
      simp only [skipWhitespace_opens hopen]
      rw [hcr] at hread ⊢
      split
      · rename_i heq
        exact absurd (List.cons.inj heq).1 hc
      · rw [hread, Option.map_some, hfold]
        rfl

/-- The reader inverts the writer in every style. -/
theorem read_writeIn (style : Style) {j : Json F} (h : Writable fmt j) : read fmt (writeIn fmt style j) = some j := by
  have hread := readValue_writeIn style h (writeIn fmt style j).length [] (by omega) closed_nil
  rw [List.append_nil] at hread
  unfold read
  rw [skipWhitespace_opens (opens_writeIn style h), hread]
  rfl

end RoundTrip

/-! ## The default style -/

def hexDigits (n : Nat) : List Char :=
  [hexDigit (n / 4096), hexDigit (n / 256 % 16), hexDigit (n / 16 % 16), hexDigit (n % 16)]

/-- Characters outside the printable ones of ASCII are escaped, the high ones as a
pair of surrogates. -/
def escapeAscii (c : Char) : List Char :=
  if c = '\\' then ['\\', '\\']
  else if c = '"' then ['\\', '"']
  else if c.toNat = 8 then ['\\', 'b']
  else if c.toNat = 12 then ['\\', 'f']
  else if c = '\n' then ['\\', 'n']
  else if c = '\r' then ['\\', 'r']
  else if c = '\t' then ['\\', 't']
  else if 32 ≤ c.toNat ∧ c.toNat ≤ 126 then [c]
  else if c.toNat < 0x10000 then '\\' :: 'u' :: hexDigits c.toNat
  else '\\' :: 'u' :: (hexDigits (0xD800 + (c.toNat - 0x10000) / 0x400) ++
    '\\' :: 'u' :: hexDigits (0xDC00 + (c.toNat - 0x10000) % 0x400))

theorem hex4_hexDigits {n : Nat} (h : n < 0x10000) :
    hex4 (hexDigit (n / 4096)) (hexDigit (n / 256 % 16)) (hexDigit (n / 16 % 16)) (hexDigit (n % 16)) = some n := by
  simp only [hex4, hexValue_hexDigit (n / 4096) (by omega), hexValue_hexDigit (n / 256 % 16) (by omega),
    hexValue_hexDigit (n / 16 % 16) (by omega), hexValue_hexDigit (n % 16) (by omega)]
  congr 1
  omega

/-- A character is no surrogate. -/
theorem toNat_valid (c : Char) : c.toNat < 0xD800 ∨ 0xDFFF < c.toNat ∧ c.toNat < 0x110000 := c.valid

theorem readString_escapeAscii (c : Char) (rest : List Char) :
    readString (escapeAscii c ++ rest) = (readString rest).map fun p => (c :: p.1, p.2) := by
  have hofNat : ∀ n, c.toNat = n → Char.ofNat n = c := by
    intro n hn
    rw [← hn, Char.ofNat_toNat]
  have hvalid := toNat_valid c
  unfold escapeAscii
  split
  · rename_i h; subst h; simp [readString]
  split
  · rename_i h; subst h; simp [readString]
  split
  · rename_i h; simp [readString, ← hofNat 8 h]
  split
  · rename_i h; simp [readString, ← hofNat 12 h]
  split
  · rename_i h; subst h; simp [readString]
  split
  · rename_i h; subst h; simp [readString]
  split
  · rename_i h; subst h; simp [readString]
  split
  · rename_i hback hquote h3 h4 h5 h6 h7 hprintable
    exact readString_plain hquote hback hprintable.1 rest
  split
  · rename_i hlt
    have hnot : isHighSurrogate c.toNat = false ∧ isLowSurrogate c.toNat = false := by
      simp only [isHighSurrogate, isLowSurrogate, Bool.and_eq_false_iff, decide_eq_false_iff_not]
      omega
    simp only [hexDigits, List.cons_append, List.nil_append]
    rw [readString]
    simp only [hex4_hexDigits hlt, hnot.1, hnot.2, Bool.false_eq_true, if_false, Char.ofNat_toNat]
  · rename_i hge
    have hhigh : isHighSurrogate (0xD800 + (c.toNat - 0x10000) / 0x400) = true := by
      simp only [isHighSurrogate, Bool.and_eq_true, decide_eq_true_eq]
      omega
    have hlow : isLowSurrogate (0xDC00 + (c.toNat - 0x10000) % 0x400) = true := by
      simp only [isLowSurrogate, Bool.and_eq_true, decide_eq_true_eq]
      omega
    have hvalue : 0x10000 + (0xD800 + (c.toNat - 0x10000) / 0x400 - 0xD800) * 0x400 +
        (0xDC00 + (c.toNat - 0x10000) % 0x400 - 0xDC00) = c.toNat := by omega
    simp only [hexDigits, List.cons_append, List.nil_append]
    rw [readString]
    simp only [hex4_hexDigits (show 0xD800 + (c.toNat - 0x10000) / 0x400 < 0x10000 by omega),
      hex4_hexDigits (show 0xDC00 + (c.toNat - 0x10000) % 0x400 < 0x10000 by omega), hhigh, hlow, hvalue, if_true,
      Char.ofNat_toNat]

def defaultStyle : Style where
  comma := [' ']
  colon := [' ']
  escape := escapeAscii
  comma_blank := List.all_eq_true.mp rfl
  colon_blank := List.all_eq_true.mp rfl
  escape_reads := readString_escapeAscii

/-- Printable, and of ASCII. -/
def Printable (c : Char) : Prop := 32 ≤ c.toNat ∧ c.toNat ≤ 126

instance (c : Char) : Decidable (Printable c) := @instDecidableAnd _ _ (Nat.decLe _ _) (Nat.decLe _ _)

/-- The members of a short text, one by one. -/
theorem printable_all {t : List Char} (h : t.all (fun c => decide (Printable c)) = true) : ∀ c ∈ t, Printable c :=
  fun c hc => of_decide_eq_true (List.all_eq_true.mp h c hc)

theorem printable_hexDigit : ∀ n < 16, Printable (hexDigit n) := by decide

theorem printable_hexDigits {n : Nat} (h : n < 0x10000) : ∀ c ∈ hexDigits n, Printable c := by
  intro c hc
  simp only [hexDigits, List.mem_cons, List.not_mem_nil, or_false] at hc
  rcases hc with rfl | rfl | rfl | rfl <;> exact printable_hexDigit _ (by omega)

theorem printable_escapeAscii (c : Char) : ∀ d ∈ escapeAscii c, Printable d := by
  have hvalid := toNat_valid c
  unfold escapeAscii
  split
  · exact printable_all rfl
  split
  · exact printable_all rfl
  split
  · exact printable_all rfl
  split
  · exact printable_all rfl
  split
  · exact printable_all rfl
  split
  · exact printable_all rfl
  split
  · exact printable_all rfl
  split
  · rename_i hprintable
    intro d hd
    rw [List.mem_singleton] at hd
    subst hd
    exact hprintable
  split
  · rename_i hlt
    simp only [List.forall_mem_cons]
    exact ⟨by decide, by decide, printable_hexDigits hlt⟩
  · simp only [List.forall_mem_cons, List.forall_mem_append]
    exact ⟨by decide, by decide, printable_hexDigits (by omega), by decide, by decide, printable_hexDigits (by omega)⟩

section Printable

variable {F : Type} {fmt : FloatFormat F}

theorem printable_digit {c : Char} (h : c.isDigit = true) : Printable c := by
  simp only [Char.isDigit, Bool.and_eq_true, decide_eq_true_eq] at h
  have h1 : 48 ≤ c.toNat := h.1
  have h2 : c.toNat ≤ 57 := h.2
  exact ⟨by omega, by omega⟩

theorem printable_sign {sign : List Char} (h : sign = [] ∨ sign = ['-']) : ∀ c ∈ sign, Printable c := by
  rcases h with rfl | rfl <;> exact printable_all rfl

theorem printable_intText (n : Int) : ∀ c ∈ intText n, Printable c := by
  obtain ⟨sign, ds, ht, hsign, hds⟩ := intText_parts n
  rw [ht, List.forall_mem_append]
  exact ⟨printable_sign hsign, fun c hc => printable_digit (hds.1 c hc)⟩

theorem printable_repr {x : F} (hx : fmt.finite x = true) : ∀ c ∈ fmt.repr x, Printable c := by
  obtain ⟨sign, ds, frac, exp, ht, hsign, hds, hfrac, hexp, -⟩ := fmt.repr_text x hx
  have hfrac' : ∀ c ∈ frac, Printable c := by
    rcases hfrac with rfl | ⟨ds, rfl, -, hd⟩
    · exact nofun
    · exact List.forall_mem_cons.mpr ⟨by decide, fun c hc => printable_digit (hd c hc)⟩
  have hexp' : ∀ c ∈ exp, Printable c := by
    rcases hexp with rfl | ⟨mark, sign, ds, rfl, hmark, hsign, -, hd⟩
    · exact nofun
    · refine List.forall_mem_cons.mpr ⟨?_, List.forall_mem_append.mpr ⟨?_, fun c hc => printable_digit (hd c hc)⟩⟩
      · rcases hmark with rfl | rfl <;> decide
      · rcases hsign with rfl | rfl | rfl <;> exact printable_all rfl
  rw [ht]
  simp only [List.forall_mem_append]
  exact ⟨⟨⟨printable_sign hsign, fun c hc => printable_digit (hds.1 c hc)⟩, hfrac'⟩, hexp'⟩

theorem printable_quote (s : String) : ∀ c ∈ defaultStyle.quote s, Printable c := by
  have hmiddle : ∀ c ∈ s.toList.flatMap escapeAscii, Printable c := by
    intro c hc
    obtain ⟨d, -, hd⟩ := List.mem_flatMap.mp hc
    exact printable_escapeAscii d c hd
  exact List.forall_mem_cons.mpr ⟨by decide, List.forall_mem_append.mpr ⟨hmiddle, printable_all rfl⟩⟩

theorem printable_items {xs : List (Json F)} (h : ∀ x ∈ xs, ∀ c ∈ writeIn fmt defaultStyle x, Printable c) :
    ∀ c ∈ writeItemsIn fmt defaultStyle xs, Printable c := by
  induction xs with
  | nil => rw [writeItemsIn]; exact printable_all rfl
  | cons x xs ih =>
    have hrest := ih fun y hy => h y (List.mem_cons_of_mem x hy)
    rw [writeItemsIn]
    exact List.forall_mem_cons.mpr ⟨by decide, List.forall_mem_append.mpr ⟨printable_all rfl,
      List.forall_mem_append.mpr ⟨h x List.mem_cons_self, hrest⟩⟩⟩

theorem printable_member {m : String × Json F} (h : ∀ c ∈ writeIn fmt defaultStyle m.2, Printable c) :
    ∀ c ∈ writeMemberIn fmt defaultStyle m, Printable c := by
  rw [writeMemberIn]
  exact List.forall_mem_append.mpr ⟨printable_quote m.1, List.forall_mem_cons.mpr ⟨by decide,
    List.forall_mem_append.mpr ⟨printable_all rfl, h⟩⟩⟩

theorem printable_members {ms : List (String × Json F)}
    (h : ∀ m ∈ ms, ∀ c ∈ writeIn fmt defaultStyle m.2, Printable c) :
    ∀ c ∈ writeMembersIn fmt defaultStyle ms, Printable c := by
  induction ms with
  | nil => rw [writeMembersIn]; exact printable_all rfl
  | cons m ms ih =>
    have hrest := ih fun y hy => h y (List.mem_cons_of_mem m hy)
    rw [writeMembersIn]
    exact List.forall_mem_cons.mpr ⟨by decide, List.forall_mem_append.mpr ⟨printable_all rfl,
      List.forall_mem_append.mpr ⟨printable_member (h m List.mem_cons_self), hrest⟩⟩⟩

/-- A text in the default style has printable characters only, so it is one line. -/
theorem printable_writeIn {j : Json F} (h : Writable fmt j) : ∀ c ∈ writeIn fmt defaultStyle j, Printable c := by
  induction h with
  | null => rw [writeIn]; exact printable_all rfl
  | bool b => cases b <;> rw [writeIn] <;> exact printable_all rfl
  | int n => rw [writeIn]; exact printable_intText n
  | float x hx => rw [writeIn]; exact printable_repr hx
  | str s => rw [writeIn]; exact printable_quote s
  | arr items hitems ih =>
    cases items with
    | nil => rw [writeIn]; exact printable_all rfl
    | cons x xs =>
      rw [writeIn]
      exact List.forall_mem_cons.mpr ⟨by decide, List.forall_mem_append.mpr ⟨ih x List.mem_cons_self,
        printable_items fun y hy => ih y (List.mem_cons_of_mem x hy)⟩⟩
  | obj members hkeys hvalues ih =>
    cases members with
    | nil => rw [writeIn]; exact printable_all rfl
    | cons m ms =>
      rw [writeIn]
      exact List.forall_mem_cons.mpr ⟨by decide, List.forall_mem_append.mpr
        ⟨printable_member (ih m List.mem_cons_self), printable_members fun y hy => ih y (List.mem_cons_of_mem m hy)⟩⟩

end Printable

end JsonText
