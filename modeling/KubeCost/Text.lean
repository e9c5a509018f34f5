/-
# Go's string functions

The functions of Go's `strings`, `fmt` and `encoding/hex` that the services
use, on Lean strings, and the fact that composite keys rest on: fields without
the separator, joined by it, determine each other (`joined_inj`).
-/
import Mathlib.Data.Nat.Notation
import Mathlib.Data.List.Infix
import Mathlib.Data.List.TakeWhile

namespace KubeCost

/-- `unicode.IsSpace`. -/
def isSpace (c : Char) : Bool :=
  let n := c.toNat
  (9 ≤ n && n ≤ 13) || n == 32 || n == 0x85 || n == 0xA0 || n == 0x1680 ||
    (0x2000 ≤ n && n ≤ 0x200a) || n == 0x2028 || n == 0x2029 || n == 0x202f || n == 0x205f ||
    n == 0x3000

/-- `strings.TrimSpace`. -/
def trimSpace (s : String) : String :=
  String.ofList (((s.toList.dropWhile isSpace).reverse.dropWhile isSpace).reverse)

/-- `strings.Contains` and `bytes.Contains`. -/
def contains (s sub : String) : Bool := decide (sub.toList <:+: s.toList)

def hexDigit (n : ℕ) : Char := ("0123456789abcdef".toList)[n]?.getD '0'

/-- `hex.EncodeToString`. -/
def hexEncode (bytes : List UInt8) : String :=
  String.ofList (bytes.flatMap fun b => [hexDigit (b.toNat / 16), hexDigit (b.toNat % 16)])

/-- The UTF-8 bytes of a string, `[]byte(s)`. -/
def utf8 (s : String) : List UInt8 := s.toUTF8.data.toList

theorem utf8_inj {s t : String} (h : utf8 s = utf8 t) : s = t := by
  have hdata : s.toUTF8.data = t.toUTF8.data := Array.toList_inj.mp h
  exact String.toByteArray_inj.mp (ByteArray.ext hdata)

/-- `json.RawMessage`: bytes, or nil. -/
abbrev RawMessage := Option (List UInt8)

/-- `cloneRawMessage`: nil for no bytes. -/
def cloneRawMessage (value : RawMessage) : RawMessage := value.filter (· ≠ [])

/-- `strings.HasPrefix`. -/
def hasPrefix (s p : String) : Bool := p.toList.isPrefixOf s.toList

/-- `strings.TrimPrefix`. -/
def trimPrefix (s p : String) : String :=
  if hasPrefix s p then String.ofList (s.toList.drop p.toList.length) else s

/-- `strings.HasSuffix`. -/
def hasSuffix (s p : String) : Bool := p.toList.isSuffixOf s.toList

/-- `strings.TrimSuffix`. -/
def trimSuffix (s p : String) : String :=
  if p.toList.isSuffixOf s.toList then String.ofList (s.toList.take (s.toList.length - p.toList.length))
  else s

/-! ### Blanks -/

theorem dropWhile_eq_self {α : Type*} {p : α → Bool} {l : List α} (h : ∀ a ∈ l.head?, p a = false) :
    l.dropWhile p = l := by
  cases l with
  | nil => rfl
  | cons a l => exact List.dropWhile_cons_of_neg (by rw [h a rfl]; exact Bool.false_ne_true)

/-- What has no blank at its ends is not changed. -/
theorem trimSpace_of_ends {s : String} (hhead : ∀ c ∈ s.toList.head?, isSpace c = false)
    (hlast : ∀ c ∈ s.toList.getLast?, isSpace c = false) : trimSpace s = s := by
  rw [trimSpace, dropWhile_eq_self hhead, dropWhile_eq_self, List.reverse_reverse, String.ofList_toList]
  rwa [List.head?_reverse]

theorem trimSpace_eq_self {s : String} (h : ∀ c ∈ s.toList, isSpace c = false) : trimSpace s = s :=
  trimSpace_of_ends (fun c hc => h c (List.mem_of_head? hc)) fun c hc => h c (List.mem_of_getLast? hc)

theorem head?_dropWhile {α : Type*} (p : α → Bool) (l : List α) :
    ∀ a ∈ (l.dropWhile p).head?, p a = false := by
  intro a ha
  have := List.head?_dropWhile_not p l
  rw [Option.mem_def.mp ha] at this
  simpa using this

theorem trimSpace_trimSpace (s : String) : trimSpace (trimSpace s) = trimSpace s := by
  -- the right end of the list without its left blanks is cut, so the left end stays unless nothing does
  have hhead : ∀ c ∈ (trimSpace s).toList.head?, isSpace c = false := by
    intro c hc
    rw [trimSpace, String.toList_ofList, List.head?_reverse] at hc
    refine head?_dropWhile isSpace s.toList c ?_
    rw [Option.mem_def, ← List.getLast?_reverse]
    have hsuffix := List.dropWhile_suffix isSpace (l := (s.toList.dropWhile isSpace).reverse)
    obtain ⟨front, hfront⟩ := hsuffix
    rw [← hfront, List.getLast?_append, Option.mem_def.mp hc]
    rfl
  apply trimSpace_of_ends hhead
  intro c hc
  rw [trimSpace, String.toList_ofList, List.getLast?_reverse] at hc
  exact head?_dropWhile isSpace _ c hc

/-- Nothing is left of a text exactly if it is all blanks. -/
theorem trimSpace_eq_empty_iff {s : String} :
    trimSpace s = "" ↔ ∀ c ∈ s.toList, isSpace c = true := by
  rw [trimSpace, String.ofList_eq_empty_iff, List.reverse_eq_nil_iff, List.dropWhile_eq_nil_iff]
  constructor
  · intro h
    have hdrop : s.toList.dropWhile isSpace = [] := by
      by_contra hne
      have hhead := List.head_dropWhile_not isSpace hne
      rw [h _ (List.mem_reverse.mpr (List.head_mem hne))] at hhead
      exact absurd hhead (by simp)
    exact List.dropWhile_eq_nil_iff.mp hdrop
  · intro h c hc
    exact h c ((List.dropWhile_sublist _).subset (List.mem_reverse.mp hc))

/-! ### Numbers -/

/-- The value of a text of digits. -/
def digitsValue (digits : List Char) : Option ℕ :=
  if digits ≠ [] ∧ digits.all Char.isDigit then some (Nat.ofDigitChars 10 digits 0) else none

/-- `strconv.FormatInt(n, 10)`. -/
def formatInt (n : ℤ) : String :=
  if n < 0 then String.ofList ('-' :: Nat.toDigits 10 n.natAbs) else String.ofList (Nat.toDigits 10 n.natAbs)

/-- `strconv.ParseInt(s, 10, 64)`; `none` for a syntax or a range error. -/
def parseInt (s : String) : Option ℤ :=
  match s.toList with
  | '-' :: digits => (digitsValue digits).bind fun n => if n ≤ 9223372036854775808 then some (-n) else none
  | '+' :: digits => (digitsValue digits).bind fun n => if n < 9223372036854775808 then some n else none
  | digits => (digitsValue digits).bind fun n => if n < 9223372036854775808 then some n else none

theorem digitsValue_toDigits (n : ℕ) : digitsValue (Nat.toDigits 10 n) = some n := by
  have hdigits : Nat.toDigits 10 n ≠ [] ∧ (Nat.toDigits 10 n).all Char.isDigit = true :=
    ⟨Nat.toDigits_ne_nil, List.all_eq_true.mpr fun c hc =>
      Nat.isDigit_of_mem_toDigits (by decide) (by decide) hc⟩
  rw [digitsValue, if_pos hdigits, Nat.ofDigitChars_ten_toDigits]

/-- **A printed number is read back.** -/
theorem parseInt_formatInt {n : ℤ} (hlow : -9223372036854775808 ≤ n) (hhigh : n < 9223372036854775808) :
    parseInt (formatInt n) = some n := by
  unfold formatInt
  split
  · rename_i hneg
    rw [parseInt, String.toList_ofList]
    simp only [digitsValue_toDigits, Option.bind_some]
    rw [if_pos (by omega), Option.some.injEq]
    omega
  · rename_i hpos
    -- a digit is no sign
    have hfirst : ∀ c ∈ Nat.toDigits 10 n.natAbs, c ≠ '-' ∧ c ≠ '+' := by
      intro c hc
      have hdigit : c.isDigit = true := Nat.isDigit_of_mem_toDigits (by decide) (by decide) hc
      constructor
      · rintro rfl
        exact absurd hdigit (by decide)
      · rintro rfl
        exact absurd hdigit (by decide)
    rw [parseInt, String.toList_ofList]
    split
    · rename_i heq
      exact absurd rfl (hfirst '-' (heq ▸ List.mem_cons_self)).1
    · rename_i heq
      exact absurd rfl (hfirst '+' (heq ▸ List.mem_cons_self)).2
    · rw [digitsValue_toDigits, Option.bind_some, if_pos (by omega), Option.some.injEq]
      omega

theorem formatInt_ne (n : ℤ) : formatInt n ≠ "" := by
  intro h
  have hnil := congrArg String.toList h
  unfold formatInt at hnil
  split at hnil
  · rw [String.toList_ofList] at hnil
    exact List.cons_ne_nil _ _ hnil
  · rw [String.toList_ofList] at hnil
    exact Nat.toDigits_ne_nil hnil

theorem isSpace_of_isDigit {c : Char} (h : c.isDigit = true) : isSpace c = false := by
  have hc : 48 ≤ c.toNat ∧ c.toNat ≤ 57 := by
    simpa [Char.isDigit, UInt32.le_iff_toNat_le] using h
  simp only [isSpace, Bool.or_eq_false_iff, Bool.and_eq_false_iff, decide_eq_false_iff_not,
    beq_eq_false_iff_ne]
  omega

theorem trimSpace_formatInt (n : ℤ) : trimSpace (formatInt n) = formatInt n := by
  have hdigits : ∀ c ∈ Nat.toDigits 10 n.natAbs, isSpace c = false := fun c hc =>
    isSpace_of_isDigit (Nat.isDigit_of_mem_toDigits (by decide) (by decide) hc)
  apply trimSpace_eq_self
  unfold formatInt
  intro c hc
  split at hc
  · rw [String.toList_ofList] at hc
    rcases List.mem_cons.mp hc with rfl | hc
    · decide
    · exact hdigits c hc
  · rw [String.toList_ofList] at hc
    exact hdigits c hc

/-! ### Composite keys -/

/-- The identifier has no NUL byte, the separator of composite keys. -/
def NulFree (s : String) : Prop := '\x00' ∉ s.toList

instance (s : String) : Decidable (NulFree s) := inferInstanceAs (Decidable (¬ _))

theorem append_sep_inj {α : Type*} {sep : α} : ∀ {a a' b b' : List α}, sep ∉ a → sep ∉ a' →
    a ++ sep :: b = a' ++ sep :: b' → a = a' ∧ b = b'
  | [], [], _, _, _, _, h => ⟨rfl, (List.cons.inj h).2⟩
  | [], x :: a', _, _, _, ha', h => by
    rw [List.nil_append, List.cons_append] at h
    exact absurd (List.cons.inj h).1 fun he => ha' (he ▸ List.mem_cons_self)
  | x :: a, [], _, _, ha, _, h => by
    rw [List.nil_append, List.cons_append] at h
    exact absurd (List.cons.inj h).1 fun he => ha (he ▸ List.mem_cons_self)
  | x :: a, y :: a', b, b', ha, ha', h => by
    rw [List.cons_append, List.cons_append] at h
    obtain ⟨hx, ht⟩ := List.cons.inj h
    obtain ⟨h1, h2⟩ := append_sep_inj (fun hm => ha (List.mem_cons_of_mem _ hm))
      (fun hm => ha' (List.mem_cons_of_mem _ hm)) ht
    exact ⟨by rw [hx, h1], h2⟩

/-- **A joined key determines its fields.** Two strings that put a NUL after a
NUL-free field agree on that field and on the rest. -/
theorem joined_inj {a a' b b' : String} (ha : NulFree a) (ha' : NulFree a')
    (h : a ++ "\x00" ++ b = a' ++ "\x00" ++ b') : a = a' ∧ b = b' := by
  have hl : a.toList ++ '\x00' :: b.toList = a'.toList ++ '\x00' :: b'.toList := by
    have := congrArg String.toList h
    simpa [String.toList_append] using this
  obtain ⟨h1, h2⟩ := append_sep_inj ha ha' hl
  exact ⟨String.toList_inj.mp h1, String.toList_inj.mp h2⟩

/-- The same for a NUL-free last field. -/
theorem joined_inj_last {a a' b b' : String} (hb : NulFree b) (hb' : NulFree b')
    (h : a ++ "\x00" ++ b = a' ++ "\x00" ++ b') : a = a' ∧ b = b' := by
  have hl : b.toList.reverse ++ '\x00' :: a.toList.reverse =
      b'.toList.reverse ++ '\x00' :: a'.toList.reverse := by
    have := congrArg (fun s => s.toList.reverse) h
    simpa [String.toList_append] using this
  obtain ⟨h1, h2⟩ := append_sep_inj (List.mem_reverse.not.mpr hb) (List.mem_reverse.not.mpr hb') hl
  exact ⟨String.toList_inj.mp (List.reverse_inj.mp h2), String.toList_inj.mp (List.reverse_inj.mp h1)⟩

end KubeCost
