import Mathlib

/-!
# Dates and clock times

Days of the Gregorian calendar, extended to the years before it, are numbered from the
first day of year one; the number of a date determines it. A moment is a number of
microseconds from the start of that day, up to the end of year 9999. Numbers are written
with a fixed count of digits.
-/
namespace Calendar

/-! ## Days and dates -/

def isLeap (year : Nat) : Bool := year % 4 = 0 && (year % 100 != 0 || year % 400 = 0)

def daysBeforeYear (year : Nat) : Nat :=
  let y := year - 1
  y * 365 + y / 4 - y / 100 + y / 400

def monthStarts : List Nat := [0, 31, 59, 90, 120, 151, 181, 212, 243, 273, 304, 334, 365]

/-- Days before a month, by the numbers one to twelve, and thirteen for the end of the year. -/
def daysBeforeMonth (leap : Bool) (month : Nat) : Nat :=
  monthStarts.getD (month - 1) 0 + if leap ∧ 2 < month then 1 else 0

structure Date where
  year : Nat
  month : Nat
  day : Nat
  deriving DecidableEq, Repr

def Date.Valid (d : Date) : Prop :=
  1 ≤ d.year ∧ d.year ≤ 9999 ∧ 1 ≤ d.month ∧ d.month ≤ 12 ∧ 1 ≤ d.day ∧
    d.day ≤ daysBeforeMonth (isLeap d.year) (d.month + 1) - daysBeforeMonth (isLeap d.year) d.month

instance (d : Date) : Decidable d.Valid := inferInstanceAs (Decidable (_ ∧ _))

/-- The days before a date. -/
def Date.days (d : Date) : Nat := daysBeforeYear d.year + daysBeforeMonth (isLeap d.year) d.month + (d.day - 1)

/-- The days until the end of year 9999. -/
def totalDays : Nat := 3652059

/-- Month and day of a day of the year. -/
def monthAndDay (leap : Bool) (dayOfYear : Nat) : Nat × Nat :=
  let guess := (dayOfYear + 50) / 32
  let month := if dayOfYear < daysBeforeMonth leap guess then guess - 1 else guess
  (month, dayOfYear - daysBeforeMonth leap month + 1)

/-- Year and day of the year, by cycles of 400, 100, 4 years and one year. -/
def yearAndDay (days : Nat) : Nat × Nat :=
  let n400 := days / 146097
  let n100 := days % 146097 / 36524
  let n4 := days % 146097 % 36524 / 1461
  let n1 := days % 146097 % 36524 % 1461 / 365
  let year := n400 * 400 + n100 * 100 + n4 * 4 + n1 + 1
  if n1 = 4 ∨ n100 = 4 then (year - 1, 365) else (year, days % 146097 % 36524 % 1461 % 365)

def Date.ofDays (days : Nat) : Date :=
  let (year, dayOfYear) := yearAndDay days
  let (month, day) := monthAndDay (isLeap year) dayOfYear
  ⟨year, month, day⟩

theorem monthAndDay_spec (leap : Bool) (n : Nat) (h : n < 365 + if leap then 1 else 0) :
    let md := monthAndDay leap n
    1 ≤ md.1 ∧ md.1 ≤ 12 ∧ 1 ≤ md.2 ∧ md.2 ≤ daysBeforeMonth leap (md.1 + 1) - daysBeforeMonth leap md.1 ∧
      daysBeforeMonth leap md.1 + (md.2 - 1) = n := by
  have hall : ∀ leap : Bool, ∀ n < 366, n < 365 + (if leap then 1 else 0) →
      let md := monthAndDay leap n
      1 ≤ md.1 ∧ md.1 ≤ 12 ∧ 1 ≤ md.2 ∧ md.2 ≤ daysBeforeMonth leap (md.1 + 1) - daysBeforeMonth leap md.1 ∧
        daysBeforeMonth leap md.1 + (md.2 - 1) = n := by
    decide +kernel
  exact hall leap n (by split at h <;> omega) h

theorem isLeap_iff (year : Nat) : isLeap year = true ↔ year % 4 = 0 ∧ (year % 100 ≠ 0 ∨ year % 400 = 0) := by
  simp [isLeap]

/-- The year after full cycles of 400, 100 and 4 years and some single years. -/
theorem cycles_leap (n400 : Nat) {n100 n4 n1 : Nat} (h100 : n100 ≤ 3) (h4 : n4 ≤ 24) (h1 : n1 ≤ 3) :
    isLeap (n400 * 400 + n100 * 100 + n4 * 4 + n1 + 1) = true ↔ n1 = 3 ∧ (n4 ≠ 24 ∨ n100 = 3) := by
  rw [isLeap_iff]
  omega

theorem cycles_days (n400 : Nat) {n100 n4 n1 : Nat} (h100 : n100 ≤ 3) (h4 : n4 ≤ 24) (h1 : n1 ≤ 3) :
    daysBeforeYear (n400 * 400 + n100 * 100 + n4 * 4 + n1 + 1) = n400 * 146097 + n100 * 36524 + n4 * 1461 + n1 * 365 := by
  have hfour : (n400 * 400 + n100 * 100 + n4 * 4 + n1) / 4 = n400 * 100 + n100 * 25 + n4 := by omega
  have hhundred : (n400 * 400 + n100 * 100 + n4 * 4 + n1) / 100 = n400 * 4 + n100 := by omega
  have hfourhundred : (n400 * 400 + n100 * 100 + n4 * 4 + n1) / 400 = n400 := by omega
  rw [daysBeforeYear, Nat.add_sub_cancel, hfour, hhundred, hfourhundred]
  omega

theorem yearAndDay_spec (days : Nat) : 1 ≤ (yearAndDay days).1 ∧
    daysBeforeYear (yearAndDay days).1 + (yearAndDay days).2 = days ∧
    (yearAndDay days).2 < 365 + if isLeap (yearAndDay days).1 then 1 else 0 := by
  have e400 := Nat.div_add_mod days 146097
  have l400 := Nat.mod_lt days (show 0 < 146097 by omega)
  have e100 := Nat.div_add_mod (days % 146097) 36524
  have l100 := Nat.mod_lt (days % 146097) (show 0 < 36524 by omega)
  have e4 := Nat.div_add_mod (days % 146097 % 36524) 1461
  have l4 := Nat.mod_lt (days % 146097 % 36524) (show 0 < 1461 by omega)
  have e1 := Nat.div_add_mod (days % 146097 % 36524 % 1461) 365
  have l1 := Nat.mod_lt (days % 146097 % 36524 % 1461) (show 0 < 365 by omega)
  unfold yearAndDay
  generalize days % 146097 % 36524 % 1461 % 365 = r at *
  generalize days % 146097 % 36524 % 1461 / 365 = n1 at *
  generalize days % 146097 % 36524 % 1461 = r1 at *
  generalize days % 146097 % 36524 / 1461 = n4 at *
  generalize days % 146097 % 36524 = r4 at *
  generalize days % 146097 / 36524 = n100 at *
  generalize days % 146097 = r100 at *
  generalize days / 146097 = n400 at *
  by_cases hlast : n1 = 4 ∨ n100 = 4
  · rw [if_pos hlast]
    rcases hlast with rfl | rfl
    · -- the last day of a leap year in a cycle of four years
      have h4 : n4 ≤ 24 := by omega
      have h100 : n100 ≤ 3 := by omega
      have hleap := (cycles_leap n400 h100 h4 (show 3 ≤ 3 by omega)).mpr (by omega)
      have hdays := cycles_days n400 h100 h4 (show 3 ≤ 3 by omega)
      simp only [show n400 * 400 + n100 * 100 + n4 * 4 + 4 + 1 - 1 = n400 * 400 + n100 * 100 + n4 * 4 + 3 + 1 by omega]
      rw [hleap, hdays]
      refine ⟨by omega, by omega, by decide⟩
    · -- the last day of a cycle of 400 years
      obtain ⟨rfl, rfl, rfl⟩ : n4 = 0 ∧ n1 = 0 ∧ r = 0 := by omega
      have hleap := (cycles_leap n400 (show 3 ≤ 3 by omega) (show 24 ≤ 24 by omega) (show 3 ≤ 3 by omega)).mpr (by omega)
      have hdays := cycles_days n400 (show 3 ≤ 3 by omega) (show 24 ≤ 24 by omega) (show 3 ≤ 3 by omega)
      simp only [show n400 * 400 + 4 * 100 + 0 * 4 + 0 + 1 - 1 = n400 * 400 + 3 * 100 + 24 * 4 + 3 + 1 by omega]
      rw [hleap, hdays]
      refine ⟨by omega, by omega, by decide⟩
  · rw [if_neg hlast]
    have h4 : n4 ≤ 24 := by omega
    have h100 : n100 ≤ 3 := by omega
    have hdays := cycles_days n400 h100 h4 (show n1 ≤ 3 by omega)
    refine ⟨by simp only []; omega, ?_, by simp only []; omega⟩
    simp only []
    rw [hdays]
    omega

theorem ofDays_spec {days : Nat} (h : days < totalDays) : (Date.ofDays days).Valid ∧ (Date.ofDays days).days = days := by
  obtain ⟨hyear, hdays, hlt⟩ := yearAndDay_spec days
  obtain ⟨hm, hm', hd, hd', hmd⟩ := monthAndDay_spec _ _ hlt
  refine ⟨⟨hyear, ?_, hm, hm', hd, hd'⟩, ?_⟩
  · have hbound : daysBeforeYear (yearAndDay days).1 < totalDays := by omega
    change (yearAndDay days).1 ≤ 9999
    simp only [daysBeforeYear, totalDays] at hbound
    omega
  · simp only [Date.days, Date.ofDays]
    omega

/-! ## Digits -/

/-- The last digits of a number, as many as asked for. -/
def pad : Nat → Nat → List Char
  | 0, _ => []
  | w + 1, n => pad w (n / 10) ++ [Nat.digitChar (n % 10)]

/-- A number of exactly so many digits, and what follows it. -/
def readDigits (w : Nat) (cs : List Char) : Option (Nat × List Char) :=
  if (cs.take w).length = w ∧ (cs.take w).all Char.isDigit then some (Nat.ofDigitChars 10 (cs.take w) 0, cs.drop w)
  else none

theorem pad_length (w n : Nat) : (pad w n).length = w := by
  induction w generalizing n with
  | zero => rfl
  | succ w ih => rw [pad, List.length_append, ih, List.length_singleton]

theorem digitChar_isDigit {n : Nat} (h : n < 10) : (Nat.digitChar n).isDigit = true := by
  have hall : ∀ n < 10, (Nat.digitChar n).isDigit = true := by decide
  exact hall n h

theorem pad_isDigit (w n : Nat) : ∀ c ∈ pad w n, c.isDigit = true := by
  induction w generalizing n with
  | zero => simp [pad]
  | succ w ih =>
    rw [pad, List.forall_mem_append]
    refine ⟨ih _, fun c hc => ?_⟩
    rw [List.mem_singleton.mp hc]
    exact digitChar_isDigit (Nat.mod_lt _ (by omega))

theorem ofDigitChars_pad (w n : Nat) : Nat.ofDigitChars 10 (pad w n) 0 = n % 10 ^ w := by
  induction w generalizing n with
  | zero => simp [pad, Nat.mod_one]
  | succ w ih =>
    rw [pad, Nat.ofDigitChars_append, ih, Nat.ofDigitChars_cons_digitChar_of_lt_ten (Nat.mod_lt _ (by omega)),
      Nat.ofDigitChars_nil, Nat.pow_succ', Nat.mod_mul]
    omega

theorem readDigits_pad (w n : Nat) (rest : List Char) : readDigits w (pad w n ++ rest) = some (n % 10 ^ w, rest) := by
  have htake : (pad w n ++ rest).take w = pad w n := by
    rw [List.take_append_of_le_length (Nat.le_of_eq (pad_length w n).symm), List.take_of_length_le (Nat.le_of_eq (pad_length w n))]
  have hdrop : (pad w n ++ rest).drop w = rest := by
    rw [List.drop_append_of_le_length (Nat.le_of_eq (pad_length w n).symm), List.drop_of_length_le (Nat.le_of_eq (pad_length w n)), List.nil_append]
  unfold readDigits
  rw [htake, hdrop, if_pos ⟨pad_length w n, List.all_eq_true.mpr (pad_isDigit w n)⟩, ofDigitChars_pad]

end Calendar
