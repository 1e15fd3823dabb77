import RoqHtx.Framework.Digits

/-!
# The civil calendar

Days since 1970-01-01 as dates (`Date.ofDays`), and back (`Date.days`). A date is
found through years that begin in March, so that the day that a leap year adds is
their last: centuries of 36524 days, four years of 1461 and years of 365, each
but the last of its kind.

`civil` has the days before 1970-01-01 too. `seconds?` reads a date and a time as
seconds since 1970-01-01, for dates of four digits (`seconds?_text`).
-/

namespace RoqHtx.Calendar

/-! ## Dates -/

structure Date where
  year : Nat
  month : Nat
  day : Nat
  deriving DecidableEq, Repr

def isLeap (year : Nat) : Bool := year % 4 = 0 && (year % 100 ≠ 0 || year % 400 = 0)

/-- The days of a year before a month. -/
def daysBefore (leap : Bool) (month : Nat) : Nat :=
  [0, 31, 59, 90, 120, 151, 181, 212, 243, 273, 304, 334].getD (month - 1) 0 +
    if leap && 2 < month then 1 else 0

def daysInMonth (leap : Bool) (month : Nat) : Nat :=
  if month = 2 && leap then 29
  else [31, 28, 31, 30, 31, 30, 31, 31, 30, 31, 30, 31].getD (month - 1) 0

/-- The days of the years up to a year, from year 1 on. -/
def daysUpTo (year : Nat) : Nat := 365 * year + year / 4 - year / 100 + year / 400

structure Date.Valid (d : Date) : Prop where
  month : 1 ≤ d.month ∧ d.month ≤ 12
  day : 1 ≤ d.day ∧ d.day ≤ daysInMonth (isLeap d.year) d.month

instance (d : Date) : Decidable d.Valid :=
  decidable_of_iff ((1 ≤ d.month ∧ d.month ≤ 12) ∧
    1 ≤ d.day ∧ d.day ≤ daysInMonth (isLeap d.year) d.month) ⟨fun h => ⟨h.1, h.2⟩, fun h => ⟨h.1, h.2⟩⟩

/-- Days since 1970-01-01, for a date that is not before. -/
def Date.days (d : Date) : Nat :=
  daysUpTo (d.year - 1) + daysBefore (isLeap d.year) d.month + (d.day - 1) - 719162

/-! ### From days -/

/-- A year that begins in March, and the day in it, from the days since 0000-03-01. -/
def marchYear (n : Nat) : Nat × Nat :=
  let century := min (n % 146097 / 36524) 3
  let inCentury := n % 146097 - century * 36524
  let year := min (inCentury % 1461 / 365) 3
  (n / 146097 * 400 + century * 100 + inCentury / 1461 * 4 + year, inCentury % 1461 - year * 365)

/-- Months that are counted from March, and the day in the month. -/
def monthDay (day : Nat) : Nat × Nat :=
  let month := (5 * day + 2) / 153
  (month, day - (153 * month + 2) / 5 + 1)

def Date.ofDays (days : Nat) : Date :=
  let (year, day) := marchYear (days + 719468)
  let (month, day) := monthDay day
  if month < 10 then ⟨year, month + 3, day⟩ else ⟨year + 1, month - 9, day⟩

/-- The year, the month and the day of a day that may be before 1970-01-01: the
calendar is the same every 400 years. -/
def civil (days : Int) : Int × Nat × Nat :=
  let cycles := ((-days).toNat + 146096) / 146097
  let date := Date.ofDays (days + 146097 * cycles).toNat
  (date.year - 400 * cycles, date.month, date.day)

theorem civil_natCast (n : Nat) :
    civil n = (((Date.ofDays n).year : Int), (Date.ofDays n).month, (Date.ofDays n).day) := by
  have hcycles : ((-(n : Int)).toNat + 146096) / 146097 = 0 := by omega
  rw [civil, hcycles]
  simp

example : [0, 11016, 19782, 2932896].map Date.ofDays =
    [⟨1970, 1, 1⟩, ⟨2000, 2, 29⟩, ⟨2024, 2, 29⟩, ⟨9999, 12, 31⟩] := by
  decide

example : [-1, -135081, -719529].map civil = [(1969, 12, 31), (1600, 2, 29), (-1, 12, 31)] := by
  decide

/-- Centuries, fours and years of a cycle of 400 years, and the day in the year; a
366th day there is in the last year of four, but not in the last of a century,
unless that ends the cycle. -/
theorem marchYear_cases (n : Nat) :
    ∃ cycle century four year day,
      marchYear n = (cycle * 400 + century * 100 + four * 4 + year, day) ∧
      n = 146097 * cycle + 36524 * century + 1461 * four + 365 * year + day ∧
      century ≤ 3 ∧ four ≤ 24 ∧ year ≤ 3 ∧ day ≤ 365 ∧
      (day = 365 → year = 3 ∧ (four ≤ 23 ∨ century = 3)) := by
  refine ⟨_, _, _, _, _, rfl, ?_⟩
  generalize hcentury : min (n % 146097 / 36524) 3 = century
  generalize hin : n % 146097 - century * 36524 = inCentury
  generalize hyear : min (inCentury % 1461 / 365) 3 = year
  omega

theorem daysUpTo_cycles {cycle century four year : Nat} (hcentury : century ≤ 3) (hfour : four ≤ 24)
    (hyear : year ≤ 3) :
    daysUpTo (cycle * 400 + century * 100 + four * 4 + year) =
      146097 * cycle + 36524 * century + 1461 * four + 365 * year := by
  have h4 : (cycle * 400 + century * 100 + four * 4 + year) / 4 =
      100 * cycle + 25 * century + four := by omega
  have h100 : (cycle * 400 + century * 100 + four * 4 + year) / 100 = 4 * cycle + century := by omega
  have h400 : (cycle * 400 + century * 100 + four * 4 + year) / 400 = cycle := by omega
  rw [daysUpTo, h4, h100, h400]
  omega

theorem marchYear_days (n : Nat) : daysUpTo (marchYear n).1 + (marchYear n).2 = n := by
  obtain ⟨cycle, century, four, year, day, hmarch, hn, hcentury, hfour, hyear, -, -⟩ :=
    marchYear_cases n
  rw [hmarch, daysUpTo_cycles hcentury hfour hyear]
  omega

/-- A 366th day, which is the 29th of February, is one of a leap year. -/
theorem marchYear_day (n : Nat) :
    (marchYear n).2 ≤ 365 ∧ ((marchYear n).2 = 365 → isLeap ((marchYear n).1 + 1) = true) := by
  obtain ⟨cycle, century, four, year, day, hmarch, -, hcentury, hfour, hyear, hday, hlast⟩ :=
    marchYear_cases n
  rw [hmarch]
  refine ⟨hday, fun h => ?_⟩
  obtain ⟨rfl, hleap⟩ := hlast h
  have h4 : (cycle * 400 + century * 100 + four * 4 + 3 + 1) % 4 = 0 := by omega
  have h100 : (cycle * 400 + century * 100 + four * 4 + 3 + 1) % 100 ≠ 0 ∨
      (cycle * 400 + century * 100 + four * 4 + 3 + 1) % 400 = 0 := by omega
  simpa [isLeap, h4] using h100

theorem daysUpTo_succ (year : Nat) :
    daysUpTo (year + 1) = daysUpTo year + 365 + if isLeap (year + 1) then 1 else 0 := by
  have hle : year / 100 ≤ year / 4 := Nat.div_le_div_left (by decide) (by decide)
  have hfour : (year + 1) / 4 = year / 4 + if (year + 1) % 4 = 0 then 1 else 0 := by
    split <;> omega
  have hcentury : (year + 1) / 100 = year / 100 + if (year + 1) % 100 = 0 then 1 else 0 := by
    split <;> omega
  have hcycle : (year + 1) / 400 = year / 400 + if (year + 1) % 400 = 0 then 1 else 0 := by
    split <;> omega
  have h100 : (year + 1) % 100 = 0 → (year + 1) % 4 = 0 := by omega
  have h400 : (year + 1) % 400 = 0 → (year + 1) % 100 = 0 := by omega
  rw [daysUpTo, daysUpTo, hfour, hcentury, hcycle, isLeap]
  generalize year / 4 = fours at *
  generalize year / 100 = centuries at *
  generalize year / 400 = cycles at *
  by_cases hd4 : (year + 1) % 4 = 0 <;> by_cases hd100 : (year + 1) % 100 = 0 <;>
    by_cases hd400 : (year + 1) % 400 = 0 <;> simp [hd4, hd100, hd400] at h100 h400 ⊢ <;> omega

/-- What is said of a day of a year that begins in March, as a day of a month: the
month of the civil year, and the days of that year before it. -/
def MonthDay (day : Nat) (leap : Bool) (month dayOfMonth : Nat) : Prop :=
  1 ≤ dayOfMonth ∧
  if month < 10 then
    day < 306 ∧ month + 3 ≤ 12 ∧ dayOfMonth ≤ daysInMonth leap (month + 3) ∧
      daysBefore leap (month + 3) + (dayOfMonth - 1) = day + 59 + if leap then 1 else 0
  else
    1 ≤ month - 9 ∧ month - 9 ≤ 12 ∧
      ((day = 365 → leap = true) → dayOfMonth ≤ daysInMonth leap (month - 9)) ∧
      daysBefore leap (month - 9) + (dayOfMonth - 1) + 306 = day

instance (day : Nat) (leap : Bool) (month dayOfMonth : Nat) :
    Decidable (MonthDay day leap month dayOfMonth) :=
  inferInstanceAs (Decidable (_ ∧ ite _ _ _))

theorem monthDay_spec : ∀ day < 366, ∀ leap : Bool,
    MonthDay day leap (monthDay day).1 (monthDay day).2 := by
  decide +kernel

/-- The civil year of a day, which is known by the year that begins in March. -/
theorem ofDays_cases (n : Nat) :
    ∃ year day, daysUpTo year + day = n + 719468 ∧ day < 366 ∧
      ((MonthDay day (isLeap year) (monthDay day).1 (monthDay day).2 ∧ (monthDay day).1 < 10 ∧
        Date.ofDays n = ⟨year, (monthDay day).1 + 3, (monthDay day).2⟩) ∨
      (MonthDay day (isLeap (year + 1)) (monthDay day).1 (monthDay day).2 ∧
        ¬(monthDay day).1 < 10 ∧ (day = 365 → isLeap (year + 1) = true) ∧
        Date.ofDays n = ⟨year + 1, (monthDay day).1 - 9, (monthDay day).2⟩)) := by
  obtain ⟨hday, hlast⟩ := marchYear_day (n + 719468)
  refine ⟨_, _, marchYear_days (n + 719468), by omega, ?_⟩
  by_cases hmonth : (monthDay (marchYear (n + 719468)).2).1 < 10
  · refine .inl ⟨monthDay_spec _ (by omega) _, hmonth, ?_⟩
    simp only [Date.ofDays, if_pos hmonth]
  · refine .inr ⟨monthDay_spec _ (by omega) _, hmonth, hlast, ?_⟩
    simp only [Date.ofDays, if_neg hmonth]

/-- The date of a day is that day's. -/
theorem days_ofDays (n : Nat) : (Date.ofDays n).days = n := by
  obtain ⟨year, day, hn, hday, ⟨⟨hpos, hspec⟩, hmonth, hdate⟩ | ⟨⟨hpos, hspec⟩, hmonth, -, hdate⟩⟩ :=
    ofDays_cases n
  · rw [if_pos hmonth] at hspec
    have hyear : year ≠ 0 := by
      rintro rfl
      have : daysUpTo 0 = 0 := rfl
      omega
    obtain ⟨before, rfl⟩ : ∃ before, year = before + 1 := ⟨year - 1, by omega⟩
    have hsucc := daysUpTo_succ before
    rw [hdate]
    show daysUpTo before + daysBefore (isLeap (before + 1)) ((monthDay day).1 + 3) +
      ((monthDay day).2 - 1) - 719162 = n
    omega
  · rw [if_neg hmonth] at hspec
    rw [hdate]
    show daysUpTo year + daysBefore (isLeap (year + 1)) ((monthDay day).1 - 9) +
      ((monthDay day).2 - 1) - 719162 = n
    omega

theorem valid_ofDays (n : Nat) : (Date.ofDays n).Valid := by
  obtain ⟨year, day, -, -, ⟨⟨hpos, hspec⟩, hmonth, hdate⟩ |
    ⟨⟨hpos, hspec⟩, hmonth, hlast, hdate⟩⟩ := ofDays_cases n
  · rw [if_pos hmonth] at hspec
    rw [hdate]
    exact ⟨⟨Nat.le_add_left 1 _, hspec.2.1⟩, hpos, hspec.2.2.1⟩
  · rw [if_neg hmonth] at hspec
    rw [hdate]
    exact ⟨⟨hspec.1, hspec.2.1⟩, hpos, hspec.2.2.1 hlast⟩

theorem daysUpTo_mono {year later : Nat} (h : year ≤ later) : daysUpTo year ≤ daysUpTo later := by
  induction h with
  | refl => exact Nat.le_refl _
  | step _ ih =>
    rw [daysUpTo_succ]
    omega

/-- Up to the end of the year 9999, years have four digits. -/
theorem year_ofDays {n : Nat} (h : n < 2932897) : (Date.ofDays n).year < 10000 := by
  have hlate : daysUpTo 9999 = 3652059 ∧ daysUpTo 10000 = 3652425 := by decide
  obtain ⟨year, day, hn, -, ⟨-, -, hdate⟩ | ⟨⟨-, hspec⟩, hmonth, -, hdate⟩⟩ := ofDays_cases n
  · rw [hdate]
    show year < 10000
    by_contra hyear
    have := daysUpTo_mono (Nat.not_lt.mp hyear)
    omega
  · rw [if_neg hmonth] at hspec
    rw [hdate]
    show year + 1 < 10000
    by_contra hyear
    have := daysUpTo_mono (show 9999 ≤ year by omega)
    omega

/-- Dates are not before 1970-01-01. -/
theorem le_year_ofDays (n : Nat) : 1970 ≤ (Date.ofDays n).year := by
  have hearly : daysUpTo 1969 = 719162 ∧ daysUpTo 1968 = 718797 := by decide
  obtain ⟨year, day, hn, hday, ⟨⟨-, hspec⟩, hmonth, hdate⟩ | ⟨-, hmonth, -, hdate⟩⟩ := ofDays_cases n
  · rw [if_pos hmonth] at hspec
    rw [hdate]
    show 1970 ≤ year
    by_contra hyear
    have := daysUpTo_mono (show year ≤ 1969 by omega)
    omega
  · rw [hdate]
    show 1970 ≤ year + 1
    by_contra hyear
    have := daysUpTo_mono (show year ≤ 1968 by omega)
    omega

theorem daysInMonth_le : ∀ leap : Bool, ∀ month ≤ 12, daysInMonth leap month ≤ 31 := by decide

/-! ## Dates and times -/

open RoqHtx.Digits (padded readFixed)

/-- So many digits, and the character that ends them. -/
def readBefore (width : Nat) (c : Char) (s : List Char) : Option (Nat × List Char) := do
  let (n, s) ← readFixed width s
  if s.head? = some c then some (n, s.tail) else none

/-- A date and a time, as `2024-02-29T23:59:59`. -/
def seconds? (s : List Char) : Option Nat := do
  let (year, s) ← readBefore 4 '-' s
  let (month, s) ← readBefore 2 '-' s
  let (day, s) ← readBefore 2 'T' s
  let (hour, s) ← readBefore 2 ':' s
  let (minute, s) ← readBefore 2 ':' s
  let (second, s) ← readFixed 2 s
  let date : Date := ⟨year, month, day⟩
  if s = [] ∧ 1970 ≤ year ∧ date.Valid ∧ hour < 24 ∧ minute < 60 ∧ second < 60 then
    some (date.days * 86400 + hour * 3600 + minute * 60 + second)
  else none

theorem readBefore_padded {width n : Nat} (h : (padded width n).length = width) (c : Char)
    (rest : List Char) : readBefore width c (padded width n ++ c :: rest) = some (n, rest) := by
  rw [readBefore, Digits.readFixed_padded h]
  exact if_pos rfl

theorem seconds?_text {date : Date} (hyear : 1970 ≤ date.year ∧ date.year < 10000)
    (hdate : date.Valid) {hour minute second : Nat} (hhour : hour < 24) (hminute : minute < 60)
    (hsecond : second < 60) :
    seconds? (padded 4 date.year ++ '-' :: (padded 2 date.month ++ '-' :: (padded 2 date.day ++
      'T' :: (padded 2 hour ++ ':' :: (padded 2 minute ++ ':' :: padded 2 second))))) =
      some (date.days * 86400 + hour * 3600 + minute * 60 + second) := by
  have hmonth : date.month < 100 := by
    have := hdate.month
    omega
  have hday : date.day < 100 := by
    have := daysInMonth_le (isLeap date.year) date.month hdate.month.2
    have := hdate.day
    omega
  have htwo : ∀ {n : Nat} (c : Char) (rest : List Char), n < 100 →
      readBefore 2 c (padded 2 n ++ c :: rest) = some (n, rest) := fun c rest h =>
    readBefore_padded (Digits.length_padded_two h) c rest
  have hlast : readFixed 2 (padded 2 second) = some (second, []) := by
    simpa using Digits.readFixed_padded (Digits.length_padded_two (show second < 100 by omega)) []
  rw [seconds?, readBefore_padded (Digits.length_padded_four hyear.2)]
  simp only [Option.bind_eq_bind, Option.bind_some, htwo '-' _ hmonth, htwo 'T' _ hday,
    htwo ':' _ (show hour < 100 by omega), htwo ':' _ (show minute < 100 by omega), hlast]
  exact if_pos ⟨trivial, hyear.1, hdate, hhour, hminute, hsecond⟩

end RoqHtx.Calendar
