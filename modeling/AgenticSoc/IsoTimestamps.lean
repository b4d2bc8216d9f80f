import AgenticSoc.BlackboardFirewall
import AgenticSoc.Calendar

/-!
# ISO timestamps

Nanoseconds since 1970 are written as texts with milliseconds and read from texts with any
number of fractional digits. Reading back what was written gives the time without what lies
below its millisecond.
-/
namespace IsoTimestamps

open Calendar

def dayMicros : Nat := 86400000000

def totalMicros : Nat := totalDays * dayMicros

/-- From the start of year one to that of 1970. -/
def epochMicros : Nat := 719162 * dayMicros

/-- A date and time of a calendar in microseconds, with the offset from UTC when it has one. -/
structure DateTime where
  micros : Nat
  offset : Option Int
  inRange : micros < totalMicros
  offset_lt : ∀ o ∈ offset, o.natAbs < dayMicros

/-- `datetime.fromisoformat` for the texts that are not in the extended format. -/
structure IsoLibrary where
  otherFormats : List Char → Option DateTime

/-! ## Writing -/

def DateTime.hour (dt : DateTime) : Nat := dt.micros % dayMicros / 3600000000
def DateTime.minute (dt : DateTime) : Nat := dt.micros % dayMicros / 60000000 % 60
def DateTime.second (dt : DateTime) : Nat := dt.micros % dayMicros / 1000000 % 60
def DateTime.microsecond (dt : DateTime) : Nat := dt.micros % 1000000

/-- The format `%Y-%m-%dT%H:%M:%S.` -/
def DateTime.strftime (dt : DateTime) (rest : List Char) : List Char :=
  let date := Date.ofDays (dt.micros / dayMicros)
  pad 4 date.year ++ ('-' :: (pad 2 date.month ++ ('-' :: (pad 2 date.day ++ ('T' :: (pad 2 dt.hour ++
    (':' :: (pad 2 dt.minute ++ (':' :: (pad 2 dt.second ++ ('.' :: rest)))))))))))

/-- The epoch and a time delta; there is no result outside of the years one to 9999. -/
def fromEpoch (tsNs : Int) : Option DateTime :=
  let seconds := tsNs / 1000000000
  let remainder := tsNs % 1000000000
  let micros := (epochMicros : Int) + seconds * 1000000 + remainder / 1000
  if h : 0 ≤ micros ∧ micros < totalMicros then some ⟨micros.toNat, some 0, by omega, by decide⟩ else none

/-- The text of a time, or nothing when the date overflows. -/
def isoUtcFromNs (tsNs : Int) : Option String :=
  (fromEpoch tsNs).map fun dt => String.ofList (dt.strftime (pad 3 (dt.microsecond / 1000) ++ ['Z']))

/-! ## Reading -/

def expect (c : Char) : List Char → Option (List Char)
  | [] => none
  | d :: cs => if d = c then some cs else none

/-- The days before a date, and what follows it. -/
def readDate (cs : List Char) : Option (Nat × List Char) := do
  let (year, cs) ← readDigits 4 cs
  let cs ← expect '-' cs
  let (month, cs) ← readDigits 2 cs
  let cs ← expect '-' cs
  let (day, cs) ← readDigits 2 cs
  if (⟨year, month, day⟩ : Date).Valid then some ((⟨year, month, day⟩ : Date).days, cs) else none

/-- Microseconds from a run of fractional digits; what lies beyond the sixth is dropped. -/
def readFraction (cs : List Char) : Option (Nat × List Char) :=
  match cs with
  | '.' :: cs | ',' :: cs =>
    let digits := cs.takeWhile Char.isDigit
    if digits = [] then none
    else some (Nat.ofDigitChars 10 ((digits ++ List.replicate 6 '0').take 6) 0, cs.dropWhile Char.isDigit)
  | cs => some (0, cs)

/-- The microseconds of a clock time, and what follows it. -/
def readClock (cs : List Char) : Option (Nat × List Char) := do
  let (hour, cs) ← readDigits 2 cs
  let cs ← expect ':' cs
  let (minute, cs) ← readDigits 2 cs
  let cs ← expect ':' cs
  let (second, cs) ← readDigits 2 cs
  let (micros, cs) ← readFraction cs
  if hour < 24 ∧ minute < 60 ∧ second < 60 then some (1000000 * ((hour * 60 + minute) * 60 + second) + micros, cs)
  else none

/-- The offset from UTC at the end of a text, in microseconds. -/
def readOffset (cs : List Char) : Option (Option Int) :=
  match cs with
  | [] => some none
  | sign :: cs => do
    let (hour, cs) ← readDigits 2 cs
    let cs ← expect ':' cs
    let (minute, cs) ← readDigits 2 cs
    let micros : Int := ((hour * 60 + minute) * 60000000 : Nat)
    if hour < 24 ∧ minute < 60 ∧ cs = [] then
      if sign = '+' then some (some micros) else if sign = '-' then some (some (-micros)) else none
    else none

def DateTime.of (micros : Nat) (offset : Option Int) : Option DateTime :=
  if h : micros < totalMicros ∧ ∀ o ∈ offset, o.natAbs < dayMicros then some ⟨micros, offset, h.1, h.2⟩ else none

/-- Date and clock time with any character between them. -/
def readExtended (cs : List Char) : Option DateTime := do
  let (days, cs) ← readDate cs
  let (clock, cs) ← readClock (cs.drop 1)
  let offset ← readOffset cs
  DateTime.of (dayMicros * days + clock) offset

def fromIsoFormat (L : IsoLibrary) (cs : List Char) : Option DateTime := (readExtended cs).or (L.otherFormats cs)

/-- Nanoseconds from a text; without an offset the time is one of UTC. -/
def epochNsFromIso (L : IsoLibrary) (value : String) : Option Int :=
  let text := (BlackboardFirewall.strip value).toList
  let text := if text.getLast? = some 'Z' ∨ text.getLast? = some 'z' then text.dropLast ++ "+00:00".toList else text
  (fromIsoFormat L text).map fun dt => ((dt.micros : Int) - dt.offset.getD 0 - epochMicros) * 1000

/-! ## Reading what was written -/

@[simp] theorem expect_cons (c : Char) (cs : List Char) : expect c (c :: cs) = some cs := by simp [expect]

theorem readDate_written {d : Date} (h : d.Valid) (rest : List Char) :
    readDate (pad 4 d.year ++ ('-' :: (pad 2 d.month ++ ('-' :: (pad 2 d.day ++ rest))))) = some (d.days, rest) := by
  obtain ⟨year, month, day⟩ := d
  obtain ⟨hy, hy', hm, hm', hd, hd'⟩ := id h
  have hday : day ≤ 31 := by
    have hall : ∀ leap : Bool, ∀ m ≤ 12, daysBeforeMonth leap (m + 1) - daysBeforeMonth leap m ≤ 31 := by decide
    exact hd'.trans (hall _ _ hm')
  simp only [] at hy' hm'
  have hyear : year % 10 ^ 4 = year := Nat.mod_eq_of_lt (by omega)
  have hmonth : month % 10 ^ 2 = month := Nat.mod_eq_of_lt (by omega)
  have hdays : day % 10 ^ 2 = day := Nat.mod_eq_of_lt (by omega)
  simp only [readDate, readDigits_pad, expect_cons, Option.bind_eq_bind, Option.bind_some, hyear, hmonth, hdays]
  rw [if_pos h]

/-- Three fractional digits are milliseconds. -/
theorem readFraction_written (n : Nat) (rest : List Char) (h : ∀ c ∈ rest.head?, c.isDigit = false) :
    readFraction ('.' :: (pad 3 n ++ rest)) = some (1000 * (n % 1000), rest) := by
  have htake : (pad 3 n ++ rest).takeWhile Char.isDigit = pad 3 n := by
    rw [List.takeWhile_append_of_pos (pad_isDigit 3 n)]
    cases rest with
    | nil => simp
    | cons c rest => simp [h c rfl]
  have hdrop : (pad 3 n ++ rest).dropWhile Char.isDigit = rest := by
    rw [List.dropWhile_append_of_pos (pad_isDigit 3 n)]
    cases rest with
    | nil => rfl
    | cons c rest => simp [h c rfl]
  have hnil : pad 3 n ≠ [] := fun he => absurd (pad_length 3 n) (by rw [he]; decide)
  have hsix : (pad 3 n ++ List.replicate 6 '0').take 6 = pad 3 n ++ List.replicate 3 '0' := by
    rw [List.take_append, pad_length, List.take_of_length_le (by rw [pad_length]; omega)]
    rfl
  have hvalue : Nat.ofDigitChars 10 (pad 3 n ++ List.replicate 3 '0') 0 = 1000 * (n % 1000) := by
    rw [Nat.ofDigitChars_append, ofDigitChars_pad, Nat.ofDigitChars_replicate_zero,
      show (10 : Nat) ^ 3 = 1000 from by decide]
  simp only [readFraction, htake, hdrop, if_neg hnil, hsix, hvalue]

theorem readClock_written {hour minute second : Nat} (hh : hour < 24) (hm : minute < 60) (hs : second < 60) (n : Nat)
    (rest : List Char) (hrest : ∀ c ∈ rest.head?, c.isDigit = false) :
    readClock (pad 2 hour ++ (':' :: (pad 2 minute ++ (':' :: (pad 2 second ++ ('.' :: (pad 3 n ++ rest))))))) =
      some (1000000 * ((hour * 60 + minute) * 60 + second) + 1000 * (n % 1000), rest) := by
  have hhour : hour % 10 ^ 2 = hour := Nat.mod_eq_of_lt (by omega)
  have hminute : minute % 10 ^ 2 = minute := Nat.mod_eq_of_lt (by omega)
  have hsecond : second % 10 ^ 2 = second := Nat.mod_eq_of_lt (by omega)
  simp only [readClock, readDigits_pad, expect_cons, Option.bind_eq_bind, Option.bind_some, hhour, hminute, hsecond,
    readFraction_written n rest hrest]
  rw [if_pos ⟨hh, hm, hs⟩]

theorem isDigit_not_space {c : Char} (h : c.isDigit = true) : BlackboardRecord.isSpace c = false := by
  have hnat : 48 ≤ c.toNat ∧ c.toNat ≤ 57 := by
    simp only [Char.isDigit, Bool.and_eq_true, decide_eq_true_eq] at h
    exact ⟨h.1, h.2⟩
  unfold BlackboardRecord.isSpace
  simp only [Bool.or_eq_false_iff, Bool.and_eq_false_iff, decide_eq_false_iff_not]
  omega

/-- A text without blanks at its ends is left as it is. -/
theorem strip_bare {first last : Char} {middle : List Char} (hfirst : BlackboardRecord.isSpace first = false)
    (hlast : BlackboardRecord.isSpace last = false) :
    BlackboardFirewall.strip (String.ofList (first :: middle ++ [last])) = String.ofList (first :: middle ++ [last]) := by
  simp [BlackboardFirewall.strip, hfirst, hlast]

theorem pad_four (n : Nat) : ∃ c cs, pad 4 n = c :: cs ∧ c.isDigit = true := by
  cases hpad : pad 4 n with
  | nil => exact absurd (pad_length 4 n) (by rw [hpad]; decide)
  | cons c cs => exact ⟨c, cs, rfl, pad_isDigit 4 n c (by rw [hpad]; exact List.mem_cons_self)⟩

theorem readOffset_utc : readOffset "+00:00".toList = some (some 0) := by decide

theorem offset_zero : ∀ o ∈ (some 0 : Option Int), o.natAbs < dayMicros := by simp [dayMicros]

/-- Hours, minutes, seconds and milliseconds of a time of the day. -/
theorem clock_parts {t : Nat} (h : t < dayMicros) : t / 3600000000 < 24 ∧
    1000000 * ((t / 3600000000 * 60 + t / 60000000 % 60) * 60 + t / 1000000 % 60) + 1000 * (t % 1000000 / 1000 % 1000) =
      1000 * (t / 1000) := by
  simp only [dayMicros] at h
  omega

theorem day_parts (micros : Nat) : micros % dayMicros % 1000000 = micros % 1000000 ∧
    dayMicros * (micros / dayMicros) + 1000 * (micros % dayMicros / 1000) = 1000 * (micros / 1000) := by
  simp only [dayMicros]
  omega

theorem readExtended_parts {cs cs' cs'' : List Char} {days clock : Nat} {offset : Option Int} {sep : Char}
    (hdate : readDate cs = some (days, sep :: cs')) (hclock : readClock cs' = some (clock, cs''))
    (hoffset : readOffset cs'' = some offset) : readExtended cs = DateTime.of (dayMicros * days + clock) offset := by
  simp [readExtended, hdate, hclock, hoffset]

/-- The digits of a time with its milliseconds, read back. -/
theorem offset_sign : ∀ c ∈ "+00:00".toList.head?, c.isDigit = false := by
  rintro c ⟨⟩
  rfl

theorem readExtended_written (dt : DateTime) :
    ∃ read, readExtended (dt.strftime (pad 3 (dt.microsecond / 1000) ++ "+00:00".toList)) = some read ∧
      read.micros = 1000 * (dt.micros / 1000) ∧ read.offset = some 0 := by
  have hdays : dt.micros / dayMicros < totalDays := Nat.div_lt_of_lt_mul (by rw [Nat.mul_comm]; exact dt.inRange)
  obtain ⟨hvalid, hsame⟩ := ofDays_spec hdays
  obtain ⟨hhour, hclock⟩ := clock_parts (Nat.mod_lt dt.micros (show 0 < dayMicros by simp [dayMicros]))
  obtain ⟨hmod, htotal⟩ := day_parts dt.micros
  rw [hmod] at hclock
  have hbound : 1000 * (dt.micros / 1000) < totalMicros := (Nat.mul_div_le _ _).trans_lt dt.inRange
  refine ⟨⟨1000 * (dt.micros / 1000), some 0, hbound, offset_zero⟩, ?_, rfl, rfl⟩
  have hminute : dt.micros % dayMicros / 60000000 % 60 < 60 := Nat.mod_lt _ (by omega)
  have hsecond : dt.micros % dayMicros / 1000000 % 60 < 60 := Nat.mod_lt _ (by omega)
  have hread := readExtended_parts (readDate_written hvalid ('T' :: _))
    (readClock_written hhour hminute hsecond (dt.micros % 1000000 / 1000) "+00:00".toList offset_sign) readOffset_utc
  rw [hsame, hclock, htotal] at hread
  exact hread.trans (dif_pos ⟨hbound, offset_zero⟩)

theorem strftime_append (dt : DateTime) (rest : List Char) : dt.strftime rest = dt.strftime [] ++ rest := by
  simp [DateTime.strftime]

/-- The text of a time starts with a digit. -/
theorem strftime_digit (dt : DateTime) : ∃ c cs, dt.strftime [] = c :: cs ∧ c.isDigit = true := by
  obtain ⟨c, cs, hpad, hdigit⟩ := pad_four (Date.ofDays (dt.micros / dayMicros)).year
  exact ⟨c, _, by rw [DateTime.strftime, hpad, List.cons_append], hdigit⟩

/-- A time that was written is read back without what lies below its millisecond. -/
theorem epochNs_of_written (L : IsoLibrary) {tsNs : Int} {text : String} (h : isoUtcFromNs tsNs = some text) :
    epochNsFromIso L text = some (tsNs / 1000000 * 1000000) := by
  obtain ⟨dt, hdt, rfl⟩ := Option.map_eq_some_iff.mp h
  have hmicros : (dt.micros : Int) = epochMicros + tsNs / 1000 := by
    unfold fromEpoch at hdt
    simp only [] at hdt
    split at hdt
    · cases hdt
      simp only []
      omega
    · cases hdt
  obtain ⟨read, hread, hsame, hoffset⟩ := readExtended_written dt
  obtain ⟨c, cs, htext, hdigit⟩ := strftime_digit dt
  rw [strftime_append, htext, ← List.append_assoc] at hread
  have hstrip : BlackboardFirewall.strip (String.ofList (c :: cs ++ pad 3 (dt.microsecond / 1000) ++ ['Z'])) =
      String.ofList (c :: cs ++ pad 3 (dt.microsecond / 1000) ++ ['Z']) :=
    strip_bare (isDigit_not_space hdigit) (by decide)
  have hlast : (c :: cs ++ pad 3 (dt.microsecond / 1000) ++ ['Z']).getLast? = some 'Z' :=
    List.getLast?_append_of_ne_nil _ (by decide)
  simp only [epochNsFromIso]
  rw [strftime_append, htext, ← List.append_assoc, hstrip, String.toList_ofList, if_pos (.inl hlast), List.dropLast_concat,
    fromIsoFormat, hread, Option.some_or, Option.map_some, hoffset, Option.getD_some, hsame]
  have h1000 : epochMicros % 1000 = 0 := by decide
  push_cast
  rw [Option.some.injEq]
  omega

/-- Only times between the years one and 9999 can be written. -/
def Writable (tsNs : Int) : Prop :=
  0 ≤ (epochMicros : Int) + tsNs / 1000 ∧ (epochMicros : Int) + tsNs / 1000 < totalMicros

instance (tsNs : Int) : Decidable (Writable tsNs) := inferInstanceAs (Decidable (_ ∧ _))

theorem isoUtcFromNs_isSome (tsNs : Int) : (isoUtcFromNs tsNs).isSome ↔ Writable tsNs := by
  have hmicros : (epochMicros : Int) + tsNs / 1000000000 * 1000000 + tsNs % 1000000000 / 1000 = epochMicros + tsNs / 1000 := by omega
  unfold isoUtcFromNs fromEpoch Writable
  simp only [hmicros, Option.isSome_map]
  split <;> simp [*]

end IsoTimestamps
