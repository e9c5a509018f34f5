/-
# Base64

`base64.RawURLEncoding`: three bytes are four characters of the alphabet of RFC 4648
for URLs, without padding at the end. What was encoded is decoded (`decode_encode`), so the
encoding determines the bytes (`encode_inj`).
-/
import KubeCost.Text

namespace KubeCost
namespace Base64

def alphabet : List Char :=
  "ABCDEFGHIJKLMNOPQRSTUVWXYZabcdefghijklmnopqrstuvwxyz0123456789-_".toList

/-- The character of six bits. -/
def sextet (n : ℕ) : Char := alphabet[n]?.getD 'A'

def encodeChars : List UInt8 → List Char
  | [] => []
  | [a] => [sextet (a.toNat / 4), sextet (a.toNat % 4 * 16)]
  | [a, b] =>
    let n := a.toNat * 256 + b.toNat
    [sextet (n / 1024), sextet (n / 16 % 64), sextet (n % 16 * 4)]
  | a :: b :: c :: rest =>
    let n := a.toNat * 65536 + b.toNat * 256 + c.toNat
    sextet (n / 262144) :: sextet (n / 4096 % 64) :: sextet (n / 64 % 64) :: sextet (n % 64) ::
      encodeChars rest

/-- `EncodeToString`. -/
def encode (bytes : List UInt8) : String := String.ofList (encodeChars bytes)

example : encode [0xfb, 0xff, 0x4d, 0x61] = "-_9NYQ" := by decide

/-- The six bits of a character. -/
def sextetValue (c : Char) : Option ℕ := alphabet.idxOf? c

/-- The bytes of groups of six bits; the bits that are left over at the end are not looked at. -/
def decodeSextets : List ℕ → Option (List UInt8)
  | [] => some []
  | [_] => none
  | [a, b] => some [UInt8.ofNat ((a * 64 + b) / 16)]
  | [a, b, c] =>
    let n := ((a * 64 + b) * 64 + c) / 4
    some [UInt8.ofNat (n / 256), UInt8.ofNat (n % 256)]
  | a :: b :: c :: d :: rest =>
    let n := ((a * 64 + b) * 64 + c) * 64 + d
    (decodeSextets rest).map fun bytes =>
      UInt8.ofNat (n / 65536) :: UInt8.ofNat (n / 256 % 256) :: UInt8.ofNat (n % 256) :: bytes

/-- `DecodeString`: line ends are ignored, any other character that is not of the alphabet is
an error. -/
def decode (s : String) : Option (List UInt8) := do
  let sextets ← (s.toList.filter fun c => c ≠ '\n' ∧ c ≠ '\r').mapM sextetValue
  decodeSextets sextets

theorem sextet_mem (n : ℕ) : sextet n ∈ alphabet := by
  rw [sextet]
  cases h : alphabet[n]? with
  | none => decide
  | some c => exact List.mem_of_getElem? h

theorem mem_encodeChars : ∀ {bytes : List UInt8}, ∀ c ∈ encodeChars bytes, c ∈ alphabet
  | [], c, h => by cases h
  | [a], c, h => by
    simp only [encodeChars, List.mem_cons, List.not_mem_nil, or_false] at h
    rcases h with rfl | rfl
    · exact sextet_mem _
    · exact sextet_mem _
  | [a, b], c, h => by
    simp only [encodeChars, List.mem_cons, List.not_mem_nil, or_false] at h
    rcases h with rfl | rfl | rfl
    · exact sextet_mem _
    · exact sextet_mem _
    · exact sextet_mem _
  | a :: b :: d :: rest, c, h => by
    simp only [encodeChars, List.mem_cons] at h
    rcases h with rfl | rfl | rfl | rfl | h
    · exact sextet_mem _
    · exact sextet_mem _
    · exact sextet_mem _
    · exact sextet_mem _
    · exact mem_encodeChars c h

/-- There is no blank in an encoded text. -/
theorem trimSpace_encode (bytes : List UInt8) : trimSpace (encode bytes) = encode bytes := by
  have halphabet : alphabet.all (fun c => !isSpace c) = true := by decide
  apply trimSpace_eq_self
  intro c hc
  rw [encode, String.toList_ofList] at hc
  have hblank := List.all_eq_true.mp halphabet c (mem_encodeChars c hc)
  rwa [Bool.not_eq_true'] at hblank

theorem encode_ne {bytes : List UInt8} (h : bytes ≠ []) : encode bytes ≠ "" := by
  intro hempty
  have hnil := congrArg String.toList hempty
  rw [encode, String.toList_ofList] at hnil
  match bytes, h, hnil with
  | [], h, _ => exact h rfl
  | [a], _, hnil => exact List.cons_ne_nil _ _ hnil
  | [a, b], _, hnil => exact List.cons_ne_nil _ _ hnil
  | a :: b :: c :: rest, _, hnil => exact List.cons_ne_nil _ _ hnil

theorem sextetValue_sextet {n : ℕ} (h : n < 64) : sextetValue (sextet n) = some n := by
  have hall : ∀ n < 64, sextetValue (sextet n) = some n := by decide
  exact hall n h

/-- The four groups of six bits of a number make it up. -/
theorem sextets_sum (n : ℕ) :
    ((n / 262144 * 64 + n / 4096 % 64) * 64 + n / 64 % 64) * 64 + n % 64 = n := by
  have hhigh : n / 262144 * 64 + n / 4096 % 64 = n / 4096 := by omega
  have hmiddle : n / 4096 * 64 + n / 64 % 64 = n / 64 := by omega
  rw [hhigh, hmiddle]
  omega

theorem decode_encodeChars : ∀ bytes : List UInt8,
    (encodeChars bytes).mapM sextetValue >>= decodeSextets = some bytes
  | [] => rfl
  | [a] => by
    have ha := a.toNat_lt
    rw [encodeChars, List.mapM_cons, sextetValue_sextet (by omega), List.mapM_cons,
      sextetValue_sextet (by omega)]
    show some [UInt8.ofNat ((a.toNat / 4 * 64 + a.toNat % 4 * 16) / 16)] = some [a]
    rw [show (a.toNat / 4 * 64 + a.toNat % 4 * 16) / 16 = a.toNat by omega, UInt8.ofNat_toNat]
  | [a, b] => by
    have ha := a.toNat_lt
    have hb := b.toNat_lt
    simp only [encodeChars]
    generalize hn : a.toNat * 256 + b.toNat = n
    rw [List.mapM_cons, sextetValue_sextet (by omega), List.mapM_cons,
      sextetValue_sextet (by omega), List.mapM_cons, sextetValue_sextet (by omega)]
    have hsum : ((n / 1024 * 64 + n / 16 % 64) * 64 + n % 16 * 4) / 4 = n := by omega
    show some [UInt8.ofNat (((n / 1024 * 64 + n / 16 % 64) * 64 + n % 16 * 4) / 4 / 256),
      UInt8.ofNat (((n / 1024 * 64 + n / 16 % 64) * 64 + n % 16 * 4) / 4 % 256)] = some [a, b]
    rw [hsum, show n / 256 = a.toNat by omega, show n % 256 = b.toNat by omega,
      UInt8.ofNat_toNat, UInt8.ofNat_toNat]
  | a :: b :: c :: rest => by
    obtain ⟨sextets, hsextets, hrest⟩ := Option.bind_eq_some_iff.mp (decode_encodeChars rest)
    simp only [encodeChars]
    generalize hn : a.toNat * 65536 + b.toNat * 256 + c.toNat = n
    have ha := a.toNat_lt
    have hb := b.toNat_lt
    have hc := c.toNat_lt
    rw [List.mapM_cons, sextetValue_sextet (by omega), List.mapM_cons, sextetValue_sextet (by omega),
      List.mapM_cons, sextetValue_sextet (by omega), List.mapM_cons,
      sextetValue_sextet (by omega), hsextets]
    show (decodeSextets sextets).map _ = _
    rw [hrest, sextets_sum, Option.map_some, show n / 65536 = a.toNat by omega,
      show n / 256 % 256 = b.toNat by omega, show n % 256 = c.toNat by omega,
      UInt8.ofNat_toNat, UInt8.ofNat_toNat, UInt8.ofNat_toNat]

/-- **What was encoded is decoded.** -/
theorem decode_encode (bytes : List UInt8) : decode (encode bytes) = some bytes := by
  have hlines : (encode bytes).toList.filter (fun c => c ≠ '\n' ∧ c ≠ '\r') = encodeChars bytes := by
    rw [encode, String.toList_ofList, List.filter_eq_self]
    intro c hc
    have halphabet : alphabet.all (fun c => c ≠ '\n' ∧ c ≠ '\r') = true := by decide
    exact List.all_eq_true.mp halphabet c (mem_encodeChars c hc)
  rw [decode, hlines]
  exact decode_encodeChars bytes

/-- **The text determines the bytes.** -/
theorem encode_inj {a b : List UInt8} (h : encode a = encode b) : a = b := by
  have hdecoded := congrArg decode h
  rwa [decode_encode, decode_encode, Option.some.injEq] at hdecoded

end Base64
end KubeCost
