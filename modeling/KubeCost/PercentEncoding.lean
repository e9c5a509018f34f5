/-
# Percent-encoding of paths

`net/url` of Go, as far as paths go: `PathEscape`, `PathUnescape`, the two forms in which a
parsed URL keeps its path, and `EscapedPath`. Texts are bytes, since an escape may stand for
any byte.

What is escaped is found again (`unescape_escape_append`), and an escaped segment has no slash
(`slash_not_mem_escape`). `EscapedPath` of a parsed path is the path as it was written, if it was
written with characters of a path only (`escapedPath_setPath`); otherwise it is escaped anew, and
then the slashes that were escaped are not any more.
-/
import Mathlib.Data.List.Basic
import KubeCost.Text

namespace KubeCost
namespace PercentEncoding

inductive Mode
  | path
  | pathSegment
deriving DecidableEq

/-- The byte of a character. -/
def ascii (c : Char) : UInt8 := UInt8.ofNat c.toNat

def isAlphanumeric (b : UInt8) : Bool :=
  (ascii 'a' ≤ b && b ≤ ascii 'z') || (ascii 'A' ≤ b && b ≤ ascii 'Z') ||
    (ascii '0' ≤ b && b ≤ ascii '9')

def shouldEscape (mode : Mode) (b : UInt8) : Bool :=
  if isAlphanumeric b || b ∈ ['-', '_', '.', '~'].map ascii then false
  else if b ∈ ['$', '&', '+', ',', '/', ':', ';', '=', '?', '@'].map ascii then
    match mode with
    | .path => b = ascii '?'
    | .pathSegment => b ∈ ['/', ';', ',', '?'].map ascii
  else true

/-- `"0123456789ABCDEF"[n]`. -/
def upperhex (n : ℕ) : UInt8 := UInt8.ofNat (if n < 10 then 48 + n else 55 + n)

def unhex (b : UInt8) : Option ℕ :=
  if ascii '0' ≤ b && b ≤ ascii '9' then some (b.toNat - 48)
  else if ascii 'a' ≤ b && b ≤ ascii 'f' then some (b.toNat - 97 + 10)
  else if ascii 'A' ≤ b && b ≤ ascii 'F' then some (b.toNat - 65 + 10)
  else none

def escapeByte (mode : Mode) (b : UInt8) : List UInt8 :=
  if shouldEscape mode b then [ascii '%', upperhex (b.toNat / 16), upperhex (b.toNat % 16)] else [b]

def escape (mode : Mode) (s : List UInt8) : List UInt8 := s.flatMap (escapeByte mode)

/-- The two modes differ in what is escaped only. -/
def unescape : List UInt8 → Option (List UInt8)
  | [] => some []
  | b :: rest =>
    if b = ascii '%' then
      match rest with
      | high :: low :: rest =>
        match unhex high, unhex low with
        | some h, some l => (unescape rest).map (UInt8.ofNat (h * 16 + l) :: ·)
        | _, _ => none
      | _ => none
    else (unescape rest).map (b :: ·)

theorem unhex_upperhex : ∀ n < 16, unhex (upperhex n) = some n := by decide

theorem unescape_cons {b : UInt8} (h : b ≠ ascii '%') (rest : List UInt8) :
    unescape (b :: rest) = (unescape rest).map (b :: ·) := by
  conv_lhs => rw [unescape.eq_def]
  exact if_neg h

theorem unescape_percent {high low : UInt8} {h l : ℕ} (hh : unhex high = some h)
    (hl : unhex low = some l) (rest : List UInt8) :
    unescape (ascii '%' :: high :: low :: rest) = (unescape rest).map (UInt8.ofNat (h * 16 + l) :: ·) := by
  rw [unescape, if_pos rfl]
  simp only [hh, hl]

theorem unescape_escapeByte (mode : Mode) (b : UInt8) (rest : List UInt8) :
    unescape (escapeByte mode b ++ rest) = (unescape rest).map (b :: ·) := by
  have hlt := b.toNat_lt
  unfold escapeByte
  split
  · have hbyte : UInt8.ofNat (b.toNat / 16 * 16 + b.toNat % 16) = b := by
      rw [Nat.div_add_mod', UInt8.ofNat_toNat]
    show unescape (ascii '%' :: upperhex _ :: upperhex _ :: rest) = _
    rw [unescape_percent (unhex_upperhex _ (by omega)) (unhex_upperhex _ (by omega)), hbyte]
  · rename_i hplain
    have hpercent : b ≠ ascii '%' := by
      rintro rfl
      cases mode <;> exact hplain (by decide)
    exact unescape_cons hpercent rest

/-- **What is escaped is found again**, whatever follows it. -/
theorem unescape_escape_append (mode : Mode) (s rest : List UInt8) :
    unescape (escape mode s ++ rest) = (unescape rest).map (s ++ ·) := by
  induction s with
  | nil => exact Option.map_id'.symm
  | cons b s ih =>
    rw [escape, List.flatMap_cons, ← escape, List.append_assoc, unescape_escapeByte, ih, Option.map_map]
    rfl

theorem unescape_escape (mode : Mode) (s : List UInt8) : unescape (escape mode s) = some s := by
  have h := unescape_escape_append mode s []
  rwa [List.append_nil, unescape, Option.map_some, List.append_nil] at h

/-- What stands in an escaped text. -/
theorem of_mem_escape {mode : Mode} {s : List UInt8} {b : UInt8} (h : b ∈ escape mode s) :
    shouldEscape mode b = false ∨ b = ascii '%' ∨ ∃ n < 16, b = upperhex n := by
  obtain ⟨x, -, hb⟩ := List.mem_flatMap.mp h
  have hlt := x.toNat_lt
  unfold escapeByte at hb
  split at hb
  · simp only [List.mem_cons, List.not_mem_nil, or_false] at hb
    rcases hb with hb | hb | hb
    · exact .inr (.inl hb)
    · exact .inr (.inr ⟨_, by omega, hb⟩)
    · exact .inr (.inr ⟨_, by omega, hb⟩)
  · rw [List.mem_singleton.mp hb]
    exact .inl (Bool.eq_false_iff.mpr ‹_›)

/-- An escaped segment has no slash. -/
theorem slash_not_mem_escape (s : List UInt8) : ascii '/' ∉ escape .pathSegment s := by
  intro h
  rcases of_mem_escape h with h | h | ⟨n, hn, h⟩
  · exact absurd h (by decide)
  · exact absurd h (by decide)
  · have hdigits : ∀ n < 16, ascii '/' ≠ upperhex n := by decide
    exact hdigits n hn h

theorem escape_ne_nil {mode : Mode} {s : List UInt8} (h : s ≠ []) : escape mode s ≠ [] := by
  intro hnil
  have hfound := unescape_escape mode s
  rw [hnil] at hfound
  exact h (Option.some.inj hfound).symm

/-! ### Parsed paths -/

def validEncoded (s : List UInt8) : Bool :=
  s.all fun b =>
    b ∈ ['!', '$', '&', '\'', '(', ')', '*', '+', ',', ';', '=', ':', '@', '[', ']', '%'].map ascii ||
      !shouldEscape .path b

/-- An escaped segment has characters of a path only. -/
theorem validEncoded_escape (s : List UInt8) : validEncoded (escape .pathSegment s) = true := by
  refine List.all_eq_true.mpr fun b hb => ?_
  rcases of_mem_escape hb with hplain | rfl | ⟨n, hn, rfl⟩
  · have hpath : shouldEscape .path b = false := by
      unfold shouldEscape at hplain ⊢
      split
      · rfl
      · rw [if_neg ‹_›] at hplain
        split
        · rw [if_pos ‹_›] at hplain
          refine decide_eq_false fun hquestion => ?_
          rw [hquestion] at hplain
          exact absurd hplain (by decide)
        · rw [if_neg ‹_›] at hplain
          exact absurd hplain.symm Bool.false_ne_true
    rw [hpath, Bool.not_false, Bool.or_true]
  · decide
  · have hdigits : ∀ n < 16, shouldEscape .path (upperhex n) = false := by decide
    rw [hdigits n hn, Bool.not_false, Bool.or_true]

theorem validEncoded_append (s t : List UInt8) :
    validEncoded (s ++ t) = (validEncoded s && validEncoded t) := List.all_append

/-- The path of a parsed URL, and how it was written if that is not how it is escaped. -/
structure UrlPath where
  path : List UInt8
  rawPath : List UInt8
deriving DecidableEq

/-- `setPath`. -/
def setPath (p : List UInt8) : Option UrlPath :=
  (unescape p).map fun path => ⟨path, if escape .path path = p then [] else p⟩

def UrlPath.escapedPath (u : UrlPath) : List UInt8 :=
  if u.rawPath ≠ [] ∧ validEncoded u.rawPath ∧ unescape u.rawPath = some u.path then u.rawPath
  else if u.path = [ascii '*'] then [ascii '*']
  else escape .path u.path

/-- **A path is kept as it was written**, in the characters of a path. -/
theorem escapedPath_setPath {p : List UInt8} {u : UrlPath} (h : setPath p = some u)
    (hvalid : validEncoded p = true) (hstar : u.path ≠ [ascii '*']) : u.escapedPath = p := by
  obtain ⟨path, hpath, rfl⟩ := Option.map_eq_some_iff.mp h
  unfold UrlPath.escapedPath
  by_cases hescape : escape .path path = p
  · simp only [if_pos hescape]
    rw [if_neg (fun hraw => hraw.1 rfl), if_neg hstar, hescape]
  · simp only [if_neg hescape]
    by_cases hnil : p = []
    · subst hnil
      cases hpath
      exact absurd rfl hescape
    · rw [if_pos ⟨hnil, hvalid, hpath⟩]

end PercentEncoding
end KubeCost
