/-
# Decimal numbers with a suffix

A quantity of Kubernetes is written as a decimal number with an optional suffix: a
thousandth, a power of a thousand, or a power of 1024. `Spelling` is such a text by its
parts, with the number it stands for; one number has many spellings.

The letters of a text are those of its suffix (`mem_text_iff`), and so is its last
character, when there is a suffix (`getLast?_text`).
-/
import Mathlib.Algebra.Order.Field.Rat
import Mathlib.Data.Nat.Notation
import KubeCost.Text

namespace KubeCost
namespace Numeral

inductive Sign
  | plus
  | minus
deriving DecidableEq

def Sign.char : Sign → Char
  | .plus => '+'
  | .minus => '-'

inductive Suffix
  | unit
  | milli
  | kilo
  | mega
  | giga
  | tera
  | peta
  | exa
  | kibi
  | mebi
  | gibi
  | tebi
  | pebi
  | exbi
deriving DecidableEq

namespace Suffix

def text : Suffix → String
  | .unit => ""
  | .milli => "m"
  | .kilo => "k"
  | .mega => "M"
  | .giga => "G"
  | .tera => "T"
  | .peta => "P"
  | .exa => "E"
  | .kibi => "Ki"
  | .mebi => "Mi"
  | .gibi => "Gi"
  | .tebi => "Ti"
  | .pebi => "Pi"
  | .exbi => "Ei"

def scale : Suffix → ℚ
  | .unit => 1
  | .milli => 1 / 1000
  | .kilo => 1000
  | .mega => 1000000
  | .giga => 1000000000
  | .tera => 1000000000000
  | .peta => 1000000000000000
  | .exa => 1000000000000000000
  | .kibi => 1024
  | .mebi => 1048576
  | .gibi => 1073741824
  | .tebi => 1099511627776
  | .pebi => 1125899906842624
  | .exbi => 1152921504606846976

end Suffix

/-- The digits before the point. -/
def wholeValue (digits : List (Fin 10)) : ℕ := digits.foldl (fun n d => 10 * n + d) 0

/-- The digits after the point. -/
def fractionValue (digits : List (Fin 10)) : ℚ := digits.foldr (fun d q => ((d : ℕ) + q) / 10) 0

def digitChars (digits : List (Fin 10)) : List Char := digits.map fun d : Fin 10 => Nat.digitChar d

/-- A quantity as it is written; there is a digit before or after the point. -/
structure Spelling where
  sign : Option Sign := none
  whole : List (Fin 10)
  fraction : Option (List (Fin 10)) := none
  suffix : Suffix := .unit
  digit : whole ++ fraction.getD [] ≠ []

namespace Spelling

/-- The text before the suffix. -/
def number (s : Spelling) : List Char :=
  (s.sign.map Sign.char).toList ++ digitChars s.whole ++
    match s.fraction with
    | none => []
    | some digits => '.' :: digitChars digits

def text (s : Spelling) : String := String.ofList (s.number ++ s.suffix.text.toList)

/-- The number that the text stands for. -/
def value (s : Spelling) : ℚ :=
  (if s.sign = some .minus then -1 else 1) *
    (wholeValue s.whole + fractionValue (s.fraction.getD [])) * s.suffix.scale

/-- A character of a number. -/
def IsNumberChar (c : Char) : Prop := c = '+' ∨ c = '-' ∨ c = '.' ∨ c.isDigit = true

variable {s : Spelling} {c : Char}

theorem isDigit_digitChar (d : Fin 10) : (Nat.digitChar d).isDigit = true := by
  revert d
  decide

theorem isNumberChar_digitChars {digits : List (Fin 10)} (h : c ∈ digitChars digits) :
    IsNumberChar c := by
  obtain ⟨d, -, rfl⟩ := List.mem_map.mp h
  exact .inr (.inr (.inr (isDigit_digitChar d)))

theorem isNumberChar_of_mem (h : c ∈ s.number) : IsNumberChar c := by
  unfold number at h
  rcases List.mem_append.mp h with h | h
  · rcases List.mem_append.mp h with h | h
    · cases hsign : s.sign with
      | none => simp [hsign] at h
      | some sign =>
        obtain rfl : c = sign.char := by simpa [hsign] using h
        cases sign with
        | plus => exact .inl rfl
        | minus => exact .inr (.inl rfl)
    · exact isNumberChar_digitChars h
  · cases hfraction : s.fraction with
    | none => simp [hfraction] at h
    | some digits =>
      rw [hfraction] at h
      rcases List.mem_cons.mp h with rfl | h
      · exact .inr (.inr (.inl rfl))
      · exact isNumberChar_digitChars h

theorem number_ne_nil (s : Spelling) : s.number ≠ [] := by
  have hdigit := s.digit
  unfold number
  cases hfraction : s.fraction with
  | none =>
    rw [hfraction, Option.getD_none, List.append_nil] at hdigit
    have hdigits : digitChars s.whole ≠ [] := mt List.map_eq_nil_iff.mp hdigit
    simp [hdigits]
  | some digits => simp

/-- **A letter of the text is a letter of its suffix.** -/
theorem mem_text_iff (hc : ¬ IsNumberChar c) : c ∈ s.text.toList ↔ c ∈ s.suffix.text.toList := by
  rw [text, String.toList_ofList, List.mem_append]
  exact or_iff_right fun h => hc (isNumberChar_of_mem h)

/-- The text ends with a letter exactly if its suffix does. -/
theorem getLast?_text (hc : ¬ IsNumberChar c) :
    s.text.toList.getLast? = some c ↔ s.suffix.text.toList.getLast? = some c := by
  rw [text, String.toList_ofList, List.getLast?_append]
  cases hlast : s.suffix.text.toList.getLast? with
  | some a => simp
  | none =>
    simp only [Option.none_or, reduceCtorEq, iff_false]
    intro h
    exact hc (isNumberChar_of_mem (List.mem_of_getLast? h))

theorem isSpace_of_isNumberChar (h : IsNumberChar c) : isSpace c = false := by
  rcases h with rfl | rfl | rfl | h
  · decide
  · decide
  · decide
  · exact isSpace_of_isDigit h

/-- The text is not blank. -/
theorem trimSpace_text (s : Spelling) : trimSpace s.text ≠ "" := by
  rw [Ne, trimSpace_eq_empty_iff]
  intro hall
  obtain ⟨c, hc⟩ := List.exists_mem_of_ne_nil _ s.number_ne_nil
  have hspace := hall c (by
    rw [text, String.toList_ofList]
    exact List.mem_append_left _ hc)
  rw [isSpace_of_isNumberChar (isNumberChar_of_mem hc)] at hspace
  cases hspace

end Spelling

end Numeral
end KubeCost
