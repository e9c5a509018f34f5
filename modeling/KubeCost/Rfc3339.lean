/-
# Times as texts

`time.Parse` and `Format` for the layout `time.RFC3339`, in UTC. A parsed text is an
instant; `Format` drops the fraction of the second and nothing else, so instants with
one text agree on the whole second (`rfc3339_inj`). The calendar is inverted on the
way: a day is found again from its year, month and day (`dayNumber_civil`).
-/
import Mathlib.Algebra.Group.Nat.Defs
import Mathlib.Order.Monotone.Basic
import KubeCost.Text
import KubeCost.Time

namespace KubeCost
namespace Instant

/-! ### The calendar -/

/-- The days of the first `y` years of an era, the last day of the era apart. -/
def yearDays (y : ℕ) : ℕ := 365 * y + y / 4 - y / 100

/-- The number of a day, counted from the first of January 1970. -/
def dayNumber (year : ℤ) (month day : ℕ) : ℤ :=
  let y := if month ≤ 2 then year - 1 else year
  let monthFromMarch := if month ≤ 2 then month + 9 else month - 3
  let dayOfYear := (153 * monthFromMarch + 2) / 5 + day - 1
  y / 400 * 146097 + (yearDays (y % 400).toNat + dayOfYear : ℕ) - 719468

example : dayNumber 2024 2 29 = 19782 := by decide

/-- A day of an era without the leap days before it. -/
def dayOffset (n : ℕ) : ℕ := n - n / 1460 + n / 36524 - n / 146096

theorem dayOffset_mono : Monotone dayOffset := by
  apply monotone_nat_of_le_succ
  intro n
  unfold dayOffset
  omega

theorem dayOffset_yearDays : ∀ y < 400, 365 * y ≤ dayOffset (yearDays y) ∧
    (0 < y → dayOffset (yearDays y - 1) < 365 * y) := by
  decide +kernel

/-- The year of a day of an era. -/
theorem yearOfEra_spec {n : ℕ} (h : n < 146097) : dayOffset n / 365 < 400 ∧
    yearDays (dayOffset n / 365) ≤ n ∧ n - yearDays (dayOffset n / 365) ≤ 365 := by
  have htop : dayOffset n ≤ dayOffset 146096 := dayOffset_mono (by omega)
  have hlast : dayOffset 146096 = 145999 := by decide
  have hlt : dayOffset n / 365 < 400 := by omega
  refine ⟨hlt, ?_, ?_⟩
  · by_contra hlow
    have hpos : 0 < dayOffset n / 365 := by
      by_contra hzero
      rw [Nat.eq_zero_of_not_pos hzero] at hlow
      exact hlow (Nat.zero_le n)
    have hmono : dayOffset n ≤ dayOffset (yearDays (dayOffset n / 365) - 1) :=
      dayOffset_mono (by omega)
    have := (dayOffset_yearDays _ hlt).2 hpos
    omega
  · by_contra hhigh
    by_cases hnext : dayOffset n / 365 + 1 < 400
    · have hstep : yearDays (dayOffset n / 365 + 1) ≤ yearDays (dayOffset n / 365) + 366 := by
        unfold yearDays
        omega
      have hmono : dayOffset (yearDays (dayOffset n / 365 + 1)) ≤ dayOffset n :=
        dayOffset_mono (by omega)
      have := (dayOffset_yearDays _ hnext).1
      omega
    · -- the last year of the era ends with the era
      have hyear : dayOffset n / 365 = 399 := by omega
      have hdays : yearDays 399 = 145731 := by decide
      rw [hyear, hdays] at hhigh
      omega

/-- **A day is found again from its date.** -/
theorem dayNumber_civil (days : ℤ) :
    dayNumber (civil days).1 (civil days).2.1 (civil days).2.2 = days := by
  have hn : ((days + 719468) % 146097).toNat < 146097 := by omega
  obtain ⟨hy, hle, hdoy⟩ := yearOfEra_spec hn
  have hz : days + 719468 =
      (days + 719468) / 146097 * 146097 + (((days + 719468) % 146097).toNat : ℤ) := by omega
  unfold dayNumber civil
  simp only
  generalize ((days + 719468) % 146097).toNat = n at *
  generalize (days + 719468) / 146097 = era at *
  have hyear : (n - n / 1460 + n / 36524 - n / 146096) / 365 = dayOffset n / 365 := rfl
  rw [hyear]
  generalize dayOffset n / 365 = y at *
  have hdays : 365 * y + y / 4 - y / 100 = yearDays y := rfl
  rw [hdays]
  generalize hday : n - yearDays y = dayOfYear at *
  have hmonth : (5 * dayOfYear + 2) / 153 < 12 := by omega
  generalize hm : (5 * dayOfYear + 2) / 153 = monthFromMarch at *
  have hback : (153 * monthFromMarch + 2) / 5 ≤ dayOfYear := by omega
  -- January and February belong to the year that began in March
  by_cases hlate : monthFromMarch < 10
  · have hmarch : ¬ monthFromMarch + 3 ≤ 2 := by omega
    simp only [if_pos hlate, if_neg hmarch]
    have hera : ((y : ℤ) + era * 400 + 0) / 400 = era := by omega
    have hrest : (((y : ℤ) + era * 400 + 0) % 400).toNat = y := by omega
    rw [hera, hrest, Nat.add_sub_cancel]
    omega
  · have hmarch : monthFromMarch - 9 ≤ 2 := by omega
    simp only [if_neg hlate, if_pos hmarch]
    have hera : ((y : ℤ) + era * 400 + 1 - 1) / 400 = era := by omega
    have hrest : (((y : ℤ) + era * 400 + 1 - 1) % 400).toNat = y := by omega
    rw [hera, hrest, Nat.sub_add_cancel (by omega)]
    omega

/-! ### Printing -/

/-- A date and a second of the day, as a text. -/
def stampChars (date : ℤ × ℕ × ℕ) (second : ℕ) : List Char :=
  (if date.1 < 0 then ['-'] else []) ++ (padded 4 date.1.natAbs ++ '-' :: (padded 2 date.2.1 ++
    '-' :: (padded 2 date.2.2 ++ 'T' :: (padded 2 (second / 3600) ++ ':' :: (padded 2 (second / 60 % 60) ++
    ':' :: (padded 2 (second % 60) ++ ['Z']))))))

/-- `Format(time.RFC3339)` in UTC. -/
def rfc3339 (t : Instant) : String :=
  let seconds := t / 1000000000
  String.ofList (stampChars (civil (seconds / 86400)) (seconds % 86400).toNat)

example : rfc3339 1709208000120000000 = "2024-02-29T12:00:00Z" := by decide +kernel

theorem padded_eq (width n : ℕ) : padded width n =
    List.replicate (width - (Nat.toDigits 10 n).length) '0' ++ Nat.toDigits 10 n := by
  have hdigits : (toString n).toList = Nat.toDigits 10 n := by
    show (String.ofList (Nat.toDigits 10 n)).toList = _
    exact String.toList_ofList
  unfold padded
  rw [hdigits]

theorem isDigit_of_mem_padded {width n : ℕ} {c : Char} (h : c ∈ padded width n) :
    c.isDigit = true := by
  rw [padded_eq, List.mem_append] at h
  rcases h with h | h
  · rw [List.eq_of_mem_replicate h]
    decide
  · exact Nat.isDigit_of_mem_toDigits (by decide) (by decide) h

theorem not_mem_padded {width n : ℕ} {c : Char} (h : c.isDigit = false) : c ∉ padded width n := by
  intro hmem
  rw [isDigit_of_mem_padded hmem] at h
  cases h

theorem ofDigitChars_zeros (k : ℕ) (l : List Char) :
    Nat.ofDigitChars 10 (List.replicate k '0' ++ l) 0 = Nat.ofDigitChars 10 l 0 := by
  induction k with
  | zero => rfl
  | succ k ih =>
    rw [List.replicate_succ, List.cons_append, Nat.ofDigitChars_cons]
    exact ih

/-- A number is read from its digits, whatever zeros stand before them. -/
theorem padded_inj {width m n : ℕ} (h : padded width m = padded width n) : m = n := by
  have hvalue : ∀ k, Nat.ofDigitChars 10 (padded width k) 0 = k := by
    intro k
    rw [padded_eq, ofDigitChars_zeros]
    exact Nat.ofDigitChars_ten_toDigits
  rw [← hvalue m, h, hvalue n]

theorem padded_append_inj {width m n : ℕ} {c : Char} {u v : List Char} (hc : c.isDigit = false)
    (h : padded width m ++ c :: u = padded width n ++ c :: v) : m = n ∧ u = v := by
  obtain ⟨hdigits, hrest⟩ := append_sep_inj (not_mem_padded hc) (not_mem_padded hc) h
  exact ⟨padded_inj hdigits, hrest⟩

/-- A year with its sign, and a hyphen after it. -/
theorem signed_append_inj {x y : ℤ} {u v : List Char}
    (h : (if x < 0 then ['-'] else []) ++ (padded 4 x.natAbs ++ '-' :: u) =
      (if y < 0 then ['-'] else []) ++ (padded 4 y.natAbs ++ '-' :: v)) : x = y ∧ u = v := by
  -- a text of digits does not begin with the sign
  have hmixed : ∀ (n : ℕ) (u v : List Char), '-' :: u ≠ padded 4 n ++ '-' :: v := by
    intro n u v heq
    cases hdigits : padded 4 n with
    | nil =>
      have hlength := congrArg List.length hdigits
      rw [padded_eq, List.length_append, List.length_replicate, List.length_nil] at hlength
      omega
    | cons c rest =>
      rw [hdigits] at heq
      have hc := isDigit_of_mem_padded (hdigits ▸ List.mem_cons_self : c ∈ padded 4 n)
      rw [← (List.cons.inj heq).1] at hc
      exact absurd hc (by decide)
  by_cases hx : x < 0
  · by_cases hy : y < 0
    · rw [if_pos hx, if_pos hy, List.singleton_append, List.singleton_append] at h
      obtain ⟨habs, hrest⟩ := padded_append_inj (by decide) (List.cons.inj h).2
      exact ⟨by omega, hrest⟩
    · rw [if_pos hx, if_neg hy, List.singleton_append, List.nil_append] at h
      exact absurd h (hmixed _ _ _)
  · by_cases hy : y < 0
    · rw [if_neg hx, if_pos hy, List.singleton_append, List.nil_append] at h
      exact absurd h.symm (hmixed _ _ _)
    · rw [if_neg hx, if_neg hy, List.nil_append, List.nil_append] at h
      obtain ⟨habs, hrest⟩ := padded_append_inj (by decide) h
      exact ⟨by omega, hrest⟩

theorem stampChars_inj {d d' : ℤ × ℕ × ℕ} {n n' : ℕ} (h : stampChars d n = stampChars d' n') :
    d = d' ∧ n = n' := by
  unfold stampChars at h
  obtain ⟨hyear, h⟩ := signed_append_inj h
  obtain ⟨hmonth, h⟩ := padded_append_inj (by decide) h
  obtain ⟨hday, h⟩ := padded_append_inj (by decide) h
  obtain ⟨hhour, h⟩ := padded_append_inj (by decide) h
  obtain ⟨hminute, h⟩ := padded_append_inj (by decide) h
  obtain ⟨hsecond, -⟩ := padded_append_inj (by decide) h
  exact ⟨Prod.ext hyear (Prod.ext hmonth hday), by omega⟩

/-- **A text determines the whole second of its instant.** -/
theorem rfc3339_inj {s t : Instant} (h : rfc3339 s = rfc3339 t) : s / 1000000000 = t / 1000000000 := by
  obtain ⟨hdate, hsecond⟩ := stampChars_inj (String.ofList_injective h)
  have hparts : ∀ a b : ℤ, a / 86400 = b / 86400 → (a % 86400).toNat = (b % 86400).toNat → a = b := by
    intro a b hdays hclock
    omega
  apply hparts _ _ _ hsecond
  rw [← dayNumber_civil (s / 1000000000 / 86400), ← dayNumber_civil (t / 1000000000 / 86400), hdate]

/-! ### Parsing -/

def digit (c : Char) : Option ℕ := if c.isDigit then some (c.toNat - '0'.toNat) else none

/-- `getnum`: two digits, or one where the width is not fixed. -/
def getnum (fixed : Bool) : List Char → Option (ℕ × List Char)
  | [] => none
  | c :: rest => do
    let high ← digit c
    match rest.head?.bind digit with
    | some low => some (high * 10 + low, rest.tail)
    | none => if fixed then none else some (high, rest)

/-- Four digits. -/
def getYear (value : List Char) : Option (ℕ × List Char) := do
  let (century, rest) ← getnum true value
  let (year, rest) ← getnum true rest
  some (century * 100 + year, rest)

/-- A character of the layout. -/
def skip (c : Char) : List Char → Option (List Char)
  | [] => none
  | c' :: rest => if c' = c then some rest else none

/-- A fraction after the seconds, which the layout does not have and `Parse` takes all
the same: its nanoseconds, from at most nine digits. -/
def getFraction : List Char → ℕ × List Char
  | c :: rest =>
    if (c = '.' ∨ c = ',') ∧ (rest.head?.map Char.isDigit).getD false then
      let digits := (rest.takeWhile Char.isDigit).take 9
      (Nat.ofDigitChars 10 digits 0 * 10 ^ (9 - digits.length), rest.dropWhile Char.isDigit)
    else (0, c :: rest)
  | [] => (0, [])

/-- The offset `Z07:00`, in seconds. Offsets of 24 hours and 60 minutes are taken. -/
def getZone : List Char → Option (ℤ × List Char)
  | 'Z' :: rest => some (0, rest)
  | sign :: rest => do
    let (hour, rest) ← getnum true rest
    let rest ← skip ':' rest
    let (minute, rest) ← getnum true rest
    if hour > 24 ∨ minute > 60 then none
    else if sign = '+' then some ((hour * 60 + minute : ℕ) * 60, rest)
    else if sign = '-' then some (-((hour * 60 + minute : ℕ) * 60), rest)
    else none
  | [] => none

def isLeap (year : ℕ) : Bool := year % 4 = 0 ∧ (year % 100 ≠ 0 ∨ year % 400 = 0)

def daysIn (month year : ℕ) : ℕ :=
  if month = 2 then (if isLeap year then 29 else 28)
  else if month = 4 ∨ month = 6 ∨ month = 9 ∨ month = 11 then 30
  else 31

/-- `time.Parse(time.RFC3339, value)`; `none` for every error. -/
def parseRFC3339 (value : String) : Option Instant := do
  let (year, rest) ← getYear value.toList
  let (month, rest) ← getnum true (← skip '-' rest)
  let (day, rest) ← getnum true (← skip '-' rest)
  let (hour, rest) ← getnum false (← skip 'T' rest)
  let (minute, rest) ← getnum true (← skip ':' rest)
  let (second, rest) ← getnum true (← skip ':' rest)
  let (nanos, rest) := getFraction rest
  let (offset, rest) ← getZone rest
  if month = 0 ∨ 12 < month ∨ 24 ≤ hour ∨ 60 ≤ minute ∨ 60 ≤ second ∨ day = 0 ∨
      daysIn month year < day ∨ rest ≠ [] then none
  else
    let seconds : ℤ := dayNumber year month day * 86400 +
      (hour * 3600 + minute * 60 + second : ℕ) - offset
    some (seconds * 1000000000 + nanos)

example : parseRFC3339 "2024-02-29T12:00:00.12Z" = some 1709208000120000000 := by decide +kernel

example : parseRFC3339 "2024-02-29T7:00:00-05:00" = some 1709208000000000000 := by decide +kernel

example : parseRFC3339 "2023-02-29T12:00:00Z" = none := by decide +kernel

end Instant
end KubeCost
