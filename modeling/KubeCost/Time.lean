/-
# UTC clock time

The instants that the services truncate, compare and print, as the fields of
their UTC date and time. `rfc3339` is Go's `time.RFC3339` in UTC: it prints
everything down to the second, so times with one text agree up to the
nanosecond (`rfc3339_inj`).

Where a service adds to times and takes numbers of them, an instant is its number
of nanoseconds (`Instant`).
-/
import Mathlib.Data.Int.Notation
import Mathlib.Data.Nat.Notation
import Mathlib.Data.List.Lex

namespace KubeCost

/-- A UTC date and time, in the years that have four digits. -/
structure UTC where
  year : ℕ
  month : ℕ
  day : ℕ
  hour : ℕ
  minute : ℕ
  second : ℕ
  nanosecond : ℕ
  year_lt : year < 10000
  month_le : month ≤ 12
  day_le : day ≤ 31
  hour_lt : hour < 24
  minute_lt : minute < 60
  second_lt : second < 60
  nanosecond_lt : nanosecond < 1000000000
deriving DecidableEq

namespace UTC

/-- The fields, the largest unit first: times are compared field by field. -/
def fields (t : UTC) : List ℕ := [t.year, t.month, t.day, t.hour, t.minute, t.second, t.nanosecond]

instance : LT UTC := ⟨fun s t => s.fields < t.fields⟩

instance : LE UTC := ⟨fun s t => ¬ t < s⟩

instance (s t : UTC) : Decidable (s < t) := inferInstanceAs (Decidable (s.fields < t.fields))

instance (s t : UTC) : Decidable (s ≤ t) := inferInstanceAs (Decidable (¬ t < s))

/-- `Truncate(time.Hour)`, and ClickHouse's `toStartOfHour`. -/
def startOfHour (t : UTC) : UTC :=
  { t with
    minute := 0, second := 0, nanosecond := 0
    minute_lt := by decide, second_lt := by decide, nanosecond_lt := by decide }

/-- A number below 100 in two digits. -/
def twoDigits (n : ℕ) : List Char := [Nat.digitChar (n / 10), Nat.digitChar (n % 10)]

/-- `Format(time.RFC3339)`. -/
def rfc3339 (t : UTC) : String :=
  String.ofList (twoDigits (t.year / 100) ++ twoDigits (t.year % 100) ++ '-' :: twoDigits t.month ++
    '-' :: twoDigits t.day ++ 'T' :: twoDigits t.hour ++ ':' :: twoDigits t.minute ++
    ':' :: twoDigits t.second ++ ['Z'])

theorem digitChar_inj {m n : ℕ} (hm : m < 10) (hn : n < 10) (h : Nat.digitChar m = Nat.digitChar n) :
    m = n := by
  have key : ∀ a b : Fin 10, Nat.digitChar a = Nat.digitChar b → a = b := by decide
  exact congrArg Fin.val (key ⟨m, hm⟩ ⟨n, hn⟩ h)

theorem twoDigits_inj {m n : ℕ} (hm : m < 100) (hn : n < 100) (h : twoDigits m = twoDigits n) :
    m = n := by
  have h₁ := digitChar_inj (by omega) (by omega) (List.cons.inj h).1
  have h₂ := digitChar_inj (by omega) (by omega) (List.cons.inj (List.cons.inj h).2).1
  omega

theorem twoDigits_append_inj {m n : ℕ} {u v : List Char} (hm : m < 100) (hn : n < 100)
    (h : twoDigits m ++ u = twoDigits n ++ v) : m = n ∧ u = v := by
  obtain ⟨h₁, h₂⟩ := List.append_inj h rfl
  exact ⟨twoDigits_inj hm hn h₁, h₂⟩

/-- **A text determines its time down to the second.** -/
theorem rfc3339_inj {s t : UTC} (h : s.rfc3339 = t.rfc3339) :
    s.year = t.year ∧ s.month = t.month ∧ s.day = t.day ∧ s.hour = t.hour ∧
      s.minute = t.minute ∧ s.second = t.second := by
  have hs := s.year_lt
  have ht := t.year_lt
  have h := String.ofList_injective h
  simp only [List.append_assoc, List.cons_append] at h
  obtain ⟨h₁, h⟩ := twoDigits_append_inj (by omega) (by omega) h
  obtain ⟨h₂, h⟩ := twoDigits_append_inj (by omega) (by omega) h
  obtain ⟨h₃, h⟩ := twoDigits_append_inj (by have := s.month_le; omega)
    (by have := t.month_le; omega) (List.cons.inj h).2
  obtain ⟨h₄, h⟩ := twoDigits_append_inj (by have := s.day_le; omega)
    (by have := t.day_le; omega) (List.cons.inj h).2
  obtain ⟨h₅, h⟩ := twoDigits_append_inj (by have := s.hour_lt; omega)
    (by have := t.hour_lt; omega) (List.cons.inj h).2
  obtain ⟨h₆, h⟩ := twoDigits_append_inj (by have := s.minute_lt; omega)
    (by have := t.minute_lt; omega) (List.cons.inj h).2
  obtain ⟨h₇, -⟩ := twoDigits_append_inj (by have := s.second_lt; omega)
    (by have := t.second_lt; omega) (List.cons.inj h).2
  exact ⟨by omega, h₃, h₄, h₅, h₆, h₇⟩

/-- The hour is determined by its text. -/
theorem startOfHour_eq_of_rfc3339 {s t : UTC}
    (h : s.startOfHour.rfc3339 = t.startOfHour.rfc3339) : s.startOfHour = t.startOfHour := by
  obtain ⟨h₁, h₂, h₃, h₄, -, -⟩ := rfc3339_inj h
  simp only [startOfHour] at h₁ h₂ h₃ h₄
  simp only [startOfHour, h₁, h₂, h₃, h₄]

/-- The first hour of a year, for examples. -/
def newYear : UTC :=
  ⟨2026, 1, 1, 0, 0, 0, 0, by omega, by omega, by omega, by omega, by omega, by omega, by omega⟩

end UTC

/-! ### Instants -/

/-- An instant as Go's `time.Time` in UTC, or a `time.Duration`: nanoseconds, since the
Unix epoch. -/
abbrev Instant := ℤ

namespace Instant

def hour : Instant := 3600 * 1000000000

/-- The zero `time.Time`, the first of January of the year 1. -/
def zero : Instant := -62135596800 * 1000000000

/-- `Truncate`, which counts from the zero time. -/
def truncate (t d : Instant) : Instant := t - (t - zero) % d

/-- `uint64(t.UnixNano())`. -/
def unixNano (t : Instant) : ℕ := (t % 18446744073709551616).toNat

/-- A number cut to 64 bits, as the code's `int64` arithmetic does. -/
def wrap64 (n : ℤ) : ℤ := (n + 9223372036854775808) % 18446744073709551616 - 9223372036854775808

/-- The instants of a `time.Time`: the seconds since the zero time are an `int64`. -/
def Representable (t : Instant) : Prop :=
  -9223372036854775808 ≤ t / 1000000000 + 62135596800 ∧
    t / 1000000000 + 62135596800 < 9223372036854775808

instance (t : Instant) : Decidable t.Representable := inferInstanceAs (Decidable (_ ∧ _))

/-- `Unix`: whole seconds since the epoch. -/
def unix (t : Instant) : ℤ := wrap64 (t / 1000000000)

/-- `time.Unix(seconds, 0)`. -/
def ofUnix (seconds : ℤ) : Instant := (wrap64 (seconds + 62135596800) - 62135596800) * 1000000000

/-- `Sub`. A difference that does not fit is cut to the least or the greatest
`time.Duration`. -/
def sub (t u : Instant) : Instant := max (-9223372036854775808) (min 9223372036854775807 (t - u))

theorem wrap64_shift {a : ℤ} (hlow : -9223372036854775808 ≤ a + 62135596800)
    (hhigh : a + 62135596800 < 9223372036854775808) :
    wrap64 (wrap64 a + 62135596800) - 62135596800 = a := by
  unfold wrap64
  omega

/-- The whole second survives `Unix` and back. -/
theorem ofUnix_unix {t : Instant} (h : t.Representable) :
    ofUnix (unix t) = t / 1000000000 * 1000000000 := by
  rw [ofUnix, unix, wrap64_shift h.1 h.2]

theorem unix_bounds (t : Instant) : -9223372036854775808 ≤ unix t ∧ unix t < 9223372036854775808 := by
  unfold unix wrap64
  omega

/-- The year, month and day of a day, counted from the first of January 1970. Years are
counted from March here, so that the leap day is the last day of a year. -/
def civil (days : ℤ) : ℤ × ℕ × ℕ :=
  let z := days + 719468
  let era := z / 146097
  let dayOfEra := (z % 146097).toNat
  let yearOfEra :=
    (dayOfEra - dayOfEra / 1460 + dayOfEra / 36524 - dayOfEra / 146096) / 365
  let dayOfYear := dayOfEra - (365 * yearOfEra + yearOfEra / 4 - yearOfEra / 100)
  let monthFromMarch := (5 * dayOfYear + 2) / 153
  let day := dayOfYear - (153 * monthFromMarch + 2) / 5 + 1
  let month := if monthFromMarch < 10 then monthFromMarch + 3 else monthFromMarch - 9
  (yearOfEra + era * 400 + (if month ≤ 2 then 1 else 0), month, day)

/-- A number with at least that many digits. -/
def padded (width n : ℕ) : List Char :=
  let digits := (toString n).toList
  List.replicate (width - digits.length) '0' ++ digits

/-- `Format(time.RFC3339Nano)` in UTC: the fraction of the second without its trailing
zeros. -/
def rfc3339Nano (t : Instant) : String :=
  let seconds := t / 1000000000
  let nanos := (t % 1000000000).toNat
  let (year, month, day) := civil (seconds / 86400)
  let second := (seconds % 86400).toNat
  let fraction := ((padded 9 nanos).reverse.dropWhile (· = '0')).reverse
  String.ofList ((if year < 0 then ['-'] else []) ++ padded 4 year.natAbs ++ '-' :: padded 2 month ++
    '-' :: padded 2 day ++ 'T' :: padded 2 (second / 3600) ++ ':' :: padded 2 (second / 60 % 60) ++
    ':' :: padded 2 (second % 60) ++ (if nanos = 0 then [] else '.' :: fraction) ++ ['Z'])

example : rfc3339Nano 1709208000120000000 = "2024-02-29T12:00:00.12Z" := by decide +kernel

end Instant

end KubeCost
