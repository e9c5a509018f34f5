/-
# The protobuf wire format

Protocol buffers, as proto3 defines their bytes. A message is a list of fields, a field a
number and a datum: a number in base 128, a chunk of bytes with its length, or four or eight
bytes. `parse` reads the bytes of a message as fields, and `parse_encode` says that it reads
back what `encode` wrote. A reader takes the fields of a message in any order and lets the
last of several win. Fields that it does not know are passed over; the Go library keeps them
with the message and writes them again, so a schema stands for the library only on messages
without such fields. Groups, which proto3 does not have, are refused.

A `Schema` is how a value is written as fields, with the proof that it is read back. `record`
makes one for a message from the table of its fields, as a `.proto` file has it, so that a
message is read back because each of its fields is (`Schema.unmarshal_marshal`).

Key definitions: `varint`, `WireField`, `parse`, `Schema`, `Segment`, `record`.
-/
import Mathlib.Algebra.Group.Nat.Defs
import Mathlib.Algebra.Ring.Int.Defs
import Mathlib.Data.List.Basic
import Mathlib.Data.List.Sort
import Mathlib.Data.String.Basic
import KubeCost.Text

namespace KubeCost
namespace Protobuf

/-! ### Numbers -/

/-- A number in base 128, the lowest digit first, in at most `k + 1` bytes. -/
def varintUpTo : ℕ → ℕ → List UInt8
  | 0, n => [UInt8.ofNat n]
  | k + 1, n =>
    if n < 128 then [UInt8.ofNat n]
    else UInt8.ofNat (n % 128 + 128) :: varintUpTo k (n / 128)

/-- A number below 2 ^ 64. -/
def varint (n : ℕ) : List UInt8 := varintUpTo 9 n

/-- The last byte that is allowed may only be 0 or 1. -/
def readVarintUpTo : ℕ → List UInt8 → Option (ℕ × List UInt8)
  | _, [] => none
  | 0, b :: rest => if b.toNat < 2 then some (b.toNat, rest) else none
  | k + 1, b :: rest =>
    if b.toNat < 128 then some (b.toNat, rest)
    else (readVarintUpTo k rest).map fun r => (b.toNat - 128 + 128 * r.1, r.2)

def readVarint (bytes : List UInt8) : Option (ℕ × List UInt8) := readVarintUpTo 9 bytes

theorem readVarintUpTo_varintUpTo (rest : List UInt8) : ∀ (k n : ℕ), n < 2 * 128 ^ k →
    readVarintUpTo k (varintUpTo k n ++ rest) = some (n, rest)
  | 0, n, h => by
    have hb : (UInt8.ofNat n).toNat = n := by
      rw [UInt8.toNat_ofNat']
      omega
    simp only [varintUpTo, List.singleton_append, readVarintUpTo, hb]
    rw [if_pos (by omega)]
  | k + 1, n, h => by
    unfold varintUpTo
    by_cases hn : n < 128
    · have hb : (UInt8.ofNat n).toNat = n := by
        rw [UInt8.toNat_ofNat']
        omega
      simp only [if_pos hn, List.singleton_append, readVarintUpTo, hb]
    · have hb : (UInt8.ofNat (n % 128 + 128)).toNat = n % 128 + 128 := by
        rw [UInt8.toNat_ofNat']
        omega
      have hdiv : n / 128 < 2 * 128 ^ k := by
        rw [Nat.div_lt_iff_lt_mul (by omega)]
        calc n < 2 * 128 ^ (k + 1) := h
          _ = 2 * 128 ^ k * 128 := by rw [Nat.pow_succ, Nat.mul_assoc]
      simp only [if_neg hn, List.cons_append, readVarintUpTo, hb,
        readVarintUpTo_varintUpTo rest k (n / 128) hdiv, Option.map_some]
      rw [if_neg (by omega)]
      simp only [Option.some.injEq, Prod.mk.injEq, and_true]
      omega

theorem readVarint_varint {n : ℕ} (h : n < 2 ^ 64) (rest : List UInt8) :
    readVarint (varint n ++ rest) = some (n, rest) :=
  readVarintUpTo_varintUpTo rest 9 n (by omega)

theorem lt_of_readVarintUpTo : ∀ {k : ℕ} {bytes : List UInt8} {r : ℕ × List UInt8},
    readVarintUpTo k bytes = some r → r.1 < 2 * 128 ^ k
  | 0, [], _, h => by cases h
  | _ + 1, [], _, h => by cases h
  | 0, b :: rest, r, h => by
    unfold readVarintUpTo at h
    split at h
    · cases h
      omega
    · cases h
  | k + 1, b :: rest, r, h => by
    have hpow : 1 ≤ 128 ^ k := Nat.one_le_pow _ _ (by decide)
    unfold readVarintUpTo at h
    split at h
    · cases h
      rw [Nat.pow_succ]
      omega
    · obtain ⟨s, hs, rfl⟩ := Option.map_eq_some_iff.mp h
      have hlt := lt_of_readVarintUpTo hs
      have hb := b.toNat_lt
      rw [Nat.pow_succ]
      dsimp only
      omega

theorem lt_of_readVarint {bytes : List UInt8} {r : ℕ × List UInt8} (h : readVarint bytes = some r) :
    r.1 < 2 ^ 64 :=
  lt_of_readVarintUpTo h

/-- A reader does not look behind what it takes. -/
theorem readVarintUpTo_append (more : List UInt8) : ∀ {k : ℕ} {bytes : List UInt8}
    {r : ℕ × List UInt8}, readVarintUpTo k bytes = some r →
      readVarintUpTo k (bytes ++ more) = some (r.1, r.2 ++ more)
  | 0, [], _, h => by cases h
  | _ + 1, [], _, h => by cases h
  | 0, b :: rest, r, h => by
    unfold readVarintUpTo at h
    split at h
    · cases h
      rw [List.cons_append, readVarintUpTo, if_pos ‹_›]
    · cases h
  | k + 1, b :: rest, r, h => by
    unfold readVarintUpTo at h
    split at h
    · cases h
      rw [List.cons_append, readVarintUpTo, if_pos ‹_›]
    · obtain ⟨s, hs, rfl⟩ := Option.map_eq_some_iff.mp h
      rw [List.cons_append, readVarintUpTo, if_neg ‹_›, readVarintUpTo_append more hs, Option.map_some]

theorem readVarint_append {bytes : List UInt8} {r : ℕ × List UInt8} (more : List UInt8)
    (h : readVarint bytes = some r) : readVarint (bytes ++ more) = some (r.1, r.2 ++ more) :=
  readVarintUpTo_append more h

theorem varint_ne_nil (n : ℕ) : varint n ≠ [] := by
  unfold varint varintUpTo
  split <;> exact List.cons_ne_nil _ _

/-- The first `n` bytes and what follows. -/
def readChunk (n : ℕ) (bytes : List UInt8) : Option (List UInt8 × List UInt8) :=
  if n ≤ bytes.length then some (bytes.take n, bytes.drop n) else none

theorem readChunk_append (chunk rest : List UInt8) :
    readChunk chunk.length (chunk ++ rest) = some (chunk, rest) := by
  rw [readChunk, if_pos (by rw [List.length_append]; omega), List.take_left, List.drop_left]

theorem readChunk_append_of_some {n : ℕ} {bytes : List UInt8} {r : List UInt8 × List UInt8}
    (more : List UInt8) (h : readChunk n bytes = some r) :
    readChunk n (bytes ++ more) = some (r.1, r.2 ++ more) := by
  unfold readChunk at h ⊢
  split at h
  · rename_i hle
    cases h
    rw [if_pos (by rw [List.length_append]; omega), List.take_append_of_le_length hle,
      List.drop_append_of_le_length hle]
  · cases h

theorem length_of_readChunk {n : ℕ} {bytes : List UInt8} {r : List UInt8 × List UInt8}
    (h : readChunk n bytes = some r) : r.1.length = n := by
  unfold readChunk at h
  split at h
  · cases h
    rw [List.length_take]
    omega
  · cases h

/-! ### Fields -/

inductive Datum
  | varint (n : ℕ)
  | fixed64 (chunk : List UInt8)
  | bytes (chunk : List UInt8)
  | fixed32 (chunk : List UInt8)
deriving DecidableEq

structure WireField where
  number : ℕ
  datum : Datum
deriving DecidableEq

namespace Datum

def wireType : Datum → ℕ
  | .varint _ => 0
  | .fixed64 _ => 1
  | .bytes _ => 2
  | .fixed32 _ => 5

def encode : Datum → List UInt8
  | .varint n => Protobuf.varint n
  | .fixed64 chunk => chunk
  | .bytes chunk => Protobuf.varint chunk.length ++ chunk
  | .fixed32 chunk => chunk

/-- What the format can hold. -/
def Fits : Datum → Prop
  | .varint n => n < 2 ^ 64
  | .fixed64 chunk => chunk.length = 8
  | .bytes chunk => chunk.length < 2 ^ 64
  | .fixed32 chunk => chunk.length = 4

def asVarint : Datum → Option ℕ
  | .varint n => some n
  | _ => none

def asBytes : Datum → Option (List UInt8)
  | .bytes chunk => some chunk
  | _ => none

theorem wireType_lt (d : Datum) : d.wireType < 8 := by
  cases d <;> exact of_decide_eq_true rfl

end Datum

def readDatum (wireType : ℕ) (bytes : List UInt8) : Option (Datum × List UInt8) :=
  match wireType with
  | 0 => (readVarint bytes).map fun r => (.varint r.1, r.2)
  | 1 => (readChunk 8 bytes).map fun r => (.fixed64 r.1, r.2)
  | 2 => (readVarint bytes).bind fun length =>
    (readChunk length.1 length.2).map fun r => (.bytes r.1, r.2)
  | 5 => (readChunk 4 bytes).map fun r => (.fixed32 r.1, r.2)
  | _ => none

theorem readDatum_encode {d : Datum} (h : d.Fits) (rest : List UInt8) :
    readDatum d.wireType (d.encode ++ rest) = some (d, rest) := by
  cases d with
  | varint n =>
    simp only [Datum.wireType, Datum.encode, readDatum, readVarint_varint h, Option.map_some]
  | fixed64 chunk =>
    have hread := readChunk_append chunk rest
    rw [show chunk.length = 8 from h] at hread
    simp only [Datum.wireType, Datum.encode, readDatum, hread, Option.map_some]
  | bytes chunk =>
    simp only [Datum.wireType, Datum.encode, readDatum, List.append_assoc, readVarint_varint h,
      Option.bind_some, readChunk_append, Option.map_some]
  | fixed32 chunk =>
    have hread := readChunk_append chunk rest
    rw [show chunk.length = 4 from h] at hread
    simp only [Datum.wireType, Datum.encode, readDatum, hread, Option.map_some]

theorem readDatum_append {wireType : ℕ} {bytes : List UInt8} {r : Datum × List UInt8}
    (more : List UInt8) (h : readDatum wireType bytes = some r) :
    readDatum wireType (bytes ++ more) = some (r.1, r.2 ++ more) := by
  unfold readDatum at h ⊢
  split at h
  · obtain ⟨s, hs, rfl⟩ := Option.map_eq_some_iff.mp h
    rw [readVarint_append more hs, Option.map_some]
  · obtain ⟨s, hs, rfl⟩ := Option.map_eq_some_iff.mp h
    rw [readChunk_append_of_some more hs, Option.map_some]
  · obtain ⟨length, hlength, h⟩ := Option.bind_eq_some_iff.mp h
    obtain ⟨s, hs, rfl⟩ := Option.map_eq_some_iff.mp h
    rw [readVarint_append more hlength, Option.bind_some, readChunk_append_of_some more hs,
      Option.map_some]
  · obtain ⟨s, hs, rfl⟩ := Option.map_eq_some_iff.mp h
    rw [readChunk_append_of_some more hs, Option.map_some]
  · cases h

theorem fits_of_readDatum {wireType : ℕ} {bytes : List UInt8} {r : Datum × List UInt8}
    (h : readDatum wireType bytes = some r) : r.1.Fits := by
  unfold readDatum at h
  split at h
  · obtain ⟨s, hs, rfl⟩ := Option.map_eq_some_iff.mp h
    exact lt_of_readVarint hs
  · obtain ⟨s, hs, rfl⟩ := Option.map_eq_some_iff.mp h
    exact length_of_readChunk hs
  · obtain ⟨length, hlength, h⟩ := Option.bind_eq_some_iff.mp h
    obtain ⟨s, hs, rfl⟩ := Option.map_eq_some_iff.mp h
    exact (length_of_readChunk hs).trans_lt (lt_of_readVarint hlength)
  · obtain ⟨s, hs, rfl⟩ := Option.map_eq_some_iff.mp h
    exact length_of_readChunk hs
  · cases h

namespace WireField

def encode (f : WireField) : List UInt8 := varint (f.number * 8 + f.datum.wireType) ++ f.datum.encode

structure Fits (f : WireField) : Prop where
  number_pos : 1 ≤ f.number
  number_lt : f.number < 2 ^ 29
  datum : f.datum.Fits

theorem encode_ne_nil (f : WireField) : f.encode ≠ [] := by
  rw [encode]
  exact List.append_ne_nil_of_left_ne_nil (varint_ne_nil _) _

end WireField

def readField (bytes : List UInt8) : Option (WireField × List UInt8) :=
  (readVarint bytes).bind fun tag =>
    if 1 ≤ tag.1 / 8 ∧ tag.1 / 8 < 2 ^ 29 then
      (readDatum (tag.1 % 8) tag.2).map fun r => (⟨tag.1 / 8, r.1⟩, r.2)
    else none

theorem readField_encode {f : WireField} (h : f.Fits) (rest : List UInt8) :
    readField (f.encode ++ rest) = some (f, rest) := by
  have hlt := h.number_lt
  have hpos := h.number_pos
  have htype := f.datum.wireType_lt
  have hdiv : (f.number * 8 + f.datum.wireType) / 8 = f.number := by omega
  have hmod : (f.number * 8 + f.datum.wireType) % 8 = f.datum.wireType := by omega
  rw [readField, WireField.encode, List.append_assoc, readVarint_varint (by omega), Option.bind_some]
  simp only [hdiv, hmod, readDatum_encode h.datum, Option.map_some]
  rw [if_pos ⟨hpos, hlt⟩]

theorem readField_append {bytes : List UInt8} {r : WireField × List UInt8} (more : List UInt8)
    (h : readField bytes = some r) : readField (bytes ++ more) = some (r.1, r.2 ++ more) := by
  obtain ⟨tag, htag, h⟩ := Option.bind_eq_some_iff.mp h
  rw [readField, readVarint_append more htag, Option.bind_some]
  split at h
  · obtain ⟨s, hs, rfl⟩ := Option.map_eq_some_iff.mp h
    rw [if_pos ‹_›, readDatum_append more hs, Option.map_some]
  · cases h

theorem fits_of_readField {bytes : List UInt8} {r : WireField × List UInt8}
    (h : readField bytes = some r) : r.1.Fits := by
  obtain ⟨tag, -, h⟩ := Option.bind_eq_some_iff.mp h
  split at h
  · obtain ⟨s, hs, rfl⟩ := Option.map_eq_some_iff.mp h
    exact ⟨(‹_ ∧ _›).1, (‹_ ∧ _›).2, fits_of_readDatum hs⟩
  · cases h

/-! ### Messages -/

def encode (fields : List WireField) : List UInt8 := fields.flatMap WireField.encode

/-- The fields of the bytes, of which there are no more than `k`. -/
def parseUpTo : ℕ → List UInt8 → Option (List WireField)
  | _, [] => some []
  | 0, _ :: _ => none
  | k + 1, b :: rest =>
    (readField (b :: rest)).bind fun r => (parseUpTo k r.2).map fun fields => r.1 :: fields

def parse (bytes : List UInt8) : Option (List WireField) := parseUpTo bytes.length bytes

theorem parseUpTo_encode : ∀ (fields : List WireField) (k : ℕ), (∀ f ∈ fields, f.Fits) →
    fields.length ≤ k → parseUpTo k (encode fields) = some fields
  | [], k, _, _ => by cases k <;> rfl
  | f :: fields, 0, _, hk => absurd hk (by rw [List.length_cons]; omega)
  | f :: fields, k + 1, h, hk => by
    rw [List.forall_mem_cons] at h
    have hcons : encode (f :: fields) = f.encode ++ encode fields := List.flatMap_cons
    have hread := readField_encode h.1 (encode fields)
    have ih := parseUpTo_encode fields k h.2 (by simpa using hk)
    cases hbytes : f.encode ++ encode fields with
    | nil => exact absurd (List.append_eq_nil_iff.mp hbytes).1 f.encode_ne_nil
    | cons b rest =>
      rw [hcons, hbytes, parseUpTo, ← hbytes, hread, Option.bind_some, ih, Option.map_some]

theorem parseUpTo_cons {k : ℕ} {b : UInt8} {rest : List UInt8} {fields : List WireField}
    (h : parseUpTo k (b :: rest) = some fields) : ∃ k' r fields', k = k' + 1 ∧
      readField (b :: rest) = some r ∧ parseUpTo k' r.2 = some fields' ∧ fields = r.1 :: fields' := by
  cases k with
  | zero => cases h
  | succ k =>
    obtain ⟨r, hr, h⟩ := Option.bind_eq_some_iff.mp h
    obtain ⟨fields', hfields, rfl⟩ := Option.map_eq_some_iff.mp h
    exact ⟨k, r, fields', rfl, hr, hfields, rfl⟩

/-- What is read fits the format. -/
theorem fits_of_parseUpTo : ∀ {k : ℕ} {bytes : List UInt8} {fields : List WireField},
    parseUpTo k bytes = some fields → ∀ f ∈ fields, f.Fits
  | k, [], fields, h => by
    have hnil : fields = [] := by cases k <;> cases h <;> rfl
    rw [hnil]
    exact List.forall_mem_nil _
  | k, b :: rest, fields, h => by
    obtain ⟨k, r, fields, rfl, hr, hfields, rfl⟩ := parseUpTo_cons h
    exact List.forall_mem_cons.mpr ⟨fits_of_readField hr, fits_of_parseUpTo hfields⟩

theorem parseUpTo_mono : ∀ {k j : ℕ} {bytes : List UInt8} {fields : List WireField}, k ≤ j →
    parseUpTo k bytes = some fields → parseUpTo j bytes = some fields
  | k, j, [], fields, _, h => by
    have hnil : fields = [] := by cases k <;> cases h <;> rfl
    rw [hnil]
    cases j <;> rfl
  | k, j, b :: rest, fields, hle, h => by
    obtain ⟨k, r, fields, rfl, hr, hfields, rfl⟩ := parseUpTo_cons h
    obtain ⟨j, rfl⟩ := Nat.exists_eq_add_of_le' (le_trans (Nat.le_add_left 1 k) hle)
    rw [parseUpTo, hr, Option.bind_some, parseUpTo_mono (Nat.le_of_add_le_add_right hle) hfields,
      Option.map_some]

theorem parseUpTo_append {j : ℕ} {more : List UInt8} {fields' : List WireField}
    (hmore : parseUpTo j more = some fields') : ∀ {k : ℕ} {bytes : List UInt8} {fields : List WireField},
    parseUpTo k bytes = some fields → parseUpTo (k + j) (bytes ++ more) = some (fields ++ fields')
  | k, [], fields, h => by
    have hnil : fields = [] := by cases k <;> cases h <;> rfl
    rw [hnil]
    exact parseUpTo_mono (Nat.le_add_left j k) hmore
  | k, b :: rest, fields, h => by
    obtain ⟨k, r, fields, rfl, hr, hfields, rfl⟩ := parseUpTo_cons h
    have ih := parseUpTo_append hmore hfields
    rw [Nat.add_right_comm, List.cons_append, parseUpTo, ← List.cons_append, readField_append more hr,
      Option.bind_some, ih, Option.map_some, List.cons_append]

theorem length_le_length_encode (fields : List WireField) : fields.length ≤ (encode fields).length := by
  induction fields with
  | nil => exact Nat.le_refl 0
  | cons f fields ih =>
    have hpos := List.length_pos_iff.mpr f.encode_ne_nil
    rw [encode, List.flatMap_cons, List.length_append, List.length_cons, ← encode]
    omega

/-- **What was written is read back.** -/
theorem parse_encode {fields : List WireField} (h : ∀ f ∈ fields, f.Fits) :
    parse (encode fields) = some fields :=
  parseUpTo_encode fields _ h (length_le_length_encode fields)

theorem fits_of_parse {bytes : List UInt8} {fields : List WireField} (h : parse bytes = some fields) :
    ∀ f ∈ fields, f.Fits :=
  fits_of_parseUpTo h

/-- Messages put one after the other are a message with the fields of both. -/
theorem parse_append {bytes more : List UInt8} {fields fields' : List WireField}
    (h : parse bytes = some fields) (hmore : parse more = some fields') :
    parse (bytes ++ more) = some (fields ++ fields') := by
  rw [parse, List.length_append]
  exact parseUpTo_append hmore h

theorem length_datum_le {fields : List WireField} {f : WireField} (hf : f ∈ fields) :
    f.datum.encode.length ≤ (encode fields).length := by
  refine le_trans ?_ (List.Sublist.length_le (List.sublist_flatten_of_mem (List.mem_map_of_mem hf)))
  rw [WireField.encode, List.length_append]
  omega

/-! ### Schemas -/

/-- How values are written as fields, and read back. -/
structure Schema (β : Type) where
  fields : β → List WireField
  ofFields : List WireField → Option β
  Valid : β → Prop
  fits : ∀ b, Valid b → ∀ f ∈ fields b, f.datum.encode.length < 2 ^ 64 → f.Fits
  ofFields_fields : ∀ b, Valid b → (∀ f ∈ fields b, f.Fits) → ofFields (fields b) = some b
  /-- What is read can be written. -/
  valid : ∀ l b, (∀ f ∈ l, f.Fits) → ofFields l = some b → Valid b

namespace Schema

variable {β : Type} (S : Schema β)

def marshal (b : β) : List UInt8 := encode (S.fields b)

def unmarshal (bytes : List UInt8) : Option β := (parse bytes).bind S.ofFields

variable {S} {b : β}

/-- In a message of less than 2 ^ 64 bytes every field fits. -/
theorem fits_of_length (h : S.Valid b) (hlength : (S.marshal b).length < 2 ^ 64) :
    ∀ f ∈ S.fields b, f.Fits :=
  fun f hf => S.fits b h f hf (lt_of_le_of_lt (length_datum_le hf) hlength)

/-- **A message is read back.** -/
theorem unmarshal_marshal (h : S.Valid b) (hlength : (S.marshal b).length < 2 ^ 64) :
    S.unmarshal (S.marshal b) = some b := by
  have hfits := fits_of_length h hlength
  rw [unmarshal, marshal, parse_encode hfits, Option.bind_some]
  exact S.ofFields_fields b h hfits

/-- **What is accepted is well formed.** -/
theorem valid_of_unmarshal {bytes : List UInt8} (h : S.unmarshal bytes = some b) : S.Valid b := by
  obtain ⟨fields, hfields, hb⟩ := Option.bind_eq_some_iff.mp h
  exact S.valid fields b (fits_of_parse hfields) hb

end Schema

/-! ### Records -/

/-- A part of the values of a type, written in fields with numbers of its own. -/
structure Segment (α : Type) where
  Value : Type
  numbers : List ℕ
  schema : Schema Value
  number_mem : ∀ v, ∀ f ∈ schema.fields v, f.number ∈ numbers
  get : α → Value
  set : Value → α → α

namespace Segment

variable {α : Type}

/-- The fields that are the part's. -/
def own (p : Segment α) (fields : List WireField) : List WireField :=
  fields.filter (·.number ∈ p.numbers)

/-- What the part writes of a value. -/
def write (p : Segment α) (a : α) : List WireField := p.schema.fields (p.get a)

/-- The part is read into a value. -/
def read (p : Segment α) (fields : List WireField) (a : α) : Option α :=
  (p.schema.ofFields (p.own fields)).map fun v => p.set v a

variable {p q : Segment α} {a : α}

theorem own_append (fields fields' : List WireField) :
    p.own (fields ++ fields') = p.own fields ++ p.own fields' := List.filter_append ..

theorem own_write : p.own (p.write a) = p.write a :=
  List.filter_eq_self.mpr fun f hf => decide_eq_true (p.number_mem _ f hf)

theorem own_write_of_disjoint (h : p.numbers.Disjoint q.numbers) : p.own (q.write a) = [] := by
  refine List.filter_eq_nil_iff.mpr fun f hf hmem => ?_
  exact h (of_decide_eq_true hmem) (q.number_mem _ f hf)

theorem own_flatMap_write {parts : List (Segment α)} (hp : p ∈ parts)
    (hdistinct : (parts.flatMap Segment.numbers).Nodup) :
    p.own (parts.flatMap fun q => q.write a) = p.write a := by
  have hdisjoint := (List.nodup_flatMap.mp hdistinct).2
  clear hdistinct
  induction parts with
  | nil => exact absurd hp List.not_mem_nil
  | cons q parts ih =>
    obtain ⟨hq, hparts⟩ := List.pairwise_cons.mp hdisjoint
    rw [List.flatMap_cons, own_append]
    rcases List.mem_cons.mp hp with rfl | hp
    · have hrest : p.own (parts.flatMap fun q => q.write a) = [] := by
        refine List.filter_eq_nil_iff.mpr fun f hf hmem => ?_
        obtain ⟨r, hr, hf⟩ := List.mem_flatMap.mp hf
        exact hq r hr (of_decide_eq_true hmem) (r.number_mem _ f hf)
      rw [own_write, hrest, List.append_nil]
    · rw [own_write_of_disjoint fun _ h h' => hq p hp h' h, List.nil_append]
      exact ih hp hparts

theorem fits_own {fields : List WireField} (h : ∀ f ∈ fields, f.Fits) : ∀ f ∈ p.own fields, f.Fits :=
  fun f hf => h f (List.mem_of_mem_filter hf)

/-- The value of the part in some fields. -/
def found (fields : List WireField) (empty : α) (p : Segment α) : p.Value :=
  (p.schema.ofFields (p.own fields)).getD (p.get empty)

theorem of_foldlM_read {fields : List WireField} (empty : α) : ∀ {parts : List (Segment α)} {start b : α},
    parts.foldlM (fun x p => p.read fields x) start = some b →
      (∀ p ∈ parts, p.schema.ofFields (p.own fields) = some (p.found fields empty)) ∧
      parts.foldl (fun x p => p.set (p.found fields empty) x) start = b
  | [], start, b, h => ⟨List.forall_mem_nil _, Option.some.inj h⟩
  | p :: parts, start, b, h => by
    rw [List.foldlM_cons] at h
    obtain ⟨x, hx, h⟩ := Option.bind_eq_some_iff.mp h
    obtain ⟨v, hv, rfl⟩ := Option.map_eq_some_iff.mp hx
    have hfound : p.found fields empty = v := by rw [found, hv, Option.getD_some]
    obtain ⟨hparts, hb⟩ := of_foldlM_read empty h
    rw [List.foldl_cons, hfound]
    exact ⟨List.forall_mem_cons.mpr ⟨hfound ▸ hv, hparts⟩, hb⟩

theorem foldlM_read {parts : List (Segment α)} {fields : List WireField}
    (h : ∀ p ∈ parts, p.schema.ofFields (p.own fields) = some (p.get a)) (start : α) :
    parts.foldlM (fun x p => p.read fields x) start =
      some (parts.foldl (fun x p => p.set (p.get a) x) start) := by
  induction parts generalizing start with
  | nil => rfl
  | cons p parts ih =>
    rw [List.forall_mem_cons] at h
    rw [List.foldlM_cons, read, h.1]
    exact ih h.2 _

end Segment

section Record

variable {α : Type} (parts : List (Segment α)) (empty : α)

/-- The parts of a message: they have numbers of their own, make up the value, and one is set
without the others. -/
structure Table : Prop where
  distinct : (parts.flatMap Segment.numbers).Nodup
  restore : ∀ a, parts.foldl (fun x p => p.set (p.get a) x) empty = a
  independent : ∀ values : (p : Segment α) → p.Value, ∀ p ∈ parts,
    p.get (parts.foldl (fun x p => p.set (values p) x) empty) = values p

theorem record_fits (a : α) (h : ∀ p ∈ parts, p.schema.Valid (p.get a)) :
    ∀ f ∈ parts.flatMap (fun p => p.write a), f.datum.encode.length < 2 ^ 64 → f.Fits := by
  intro f hf
  obtain ⟨p, hp, hf⟩ := List.mem_flatMap.mp hf
  exact p.schema.fits _ (h p hp) f hf

variable {parts empty} (table : Table parts empty)
include table

theorem record_ofFields (a : α) (h : ∀ p ∈ parts, p.schema.Valid (p.get a))
    (hfits : ∀ f ∈ parts.flatMap (fun p => p.write a), f.Fits) :
    parts.foldlM (fun x p => p.read (parts.flatMap fun q => q.write a) x) empty = some a := by
  have hread : ∀ p ∈ parts,
      p.schema.ofFields (p.own (parts.flatMap fun q => q.write a)) = some (p.get a) := by
    intro p hp
    rw [Segment.own_flatMap_write hp table.distinct]
    exact p.schema.ofFields_fields _ (h p hp) fun f hf => hfits f (List.mem_flatMap.mpr ⟨p, hp, hf⟩)
  rw [Segment.foldlM_read hread, table.restore]

theorem record_valid (fields : List WireField) (b : α) (hfits : ∀ f ∈ fields, f.Fits)
    (h : parts.foldlM (fun x p => p.read fields x) empty = some b) :
    ∀ p ∈ parts, p.schema.Valid (p.get b) := by
  obtain ⟨hfound, hb⟩ := Segment.of_foldlM_read empty h
  intro p hp
  rw [← hb, table.independent _ p hp]
  exact p.schema.valid _ _ (Segment.fits_own hfits) (hfound p hp)

/-- A message made of parts. -/
def record : Schema α where
  fields a := parts.flatMap fun p => p.write a
  ofFields fields := parts.foldlM (fun x p => p.read fields x) empty
  Valid a := ∀ p ∈ parts, p.schema.Valid (p.get a)
  fits := record_fits parts
  ofFields_fields := record_ofFields table
  valid := record_valid table

end Record

/-! ### Kinds of fields -/

/-- How the values of one field are written. -/
structure Kind (β : Type) where
  data : β → List Datum
  ofData : List Datum → Option β
  Valid : β → Prop
  fits : ∀ b, Valid b → ∀ d ∈ data b, d.encode.length < 2 ^ 64 → d.Fits
  ofData_data : ∀ b, Valid b → (∀ d ∈ data b, d.Fits) → ofData (data b) = some b
  valid : ∀ l b, (∀ d ∈ l, d.Fits) → ofData l = some b → Valid b

/-- A number that a field may have. -/
structure Number where
  val : ℕ
  pos : 1 ≤ val
  lt : val < 2 ^ 29

theorem max_min_lt (n : ℕ) : max 1 (min n 536870911) < 2 ^ 29 := by omega

/-- Cut off at the least and the greatest number that the format has. -/
@[noinline] def Number.clamp (n : ℕ) : Number :=
  ⟨max 1 (min n 536870911), Nat.le_max_left 1 _, max_min_lt n⟩

/-- WireField numbers are written as numerals. -/
instance Number.instOfNat (n : ℕ) : OfNat Number n := ⟨Number.clamp n⟩

section At

variable {β : Type} (number : Number) (kind : Kind β)

theorem at_fits (b : β) (h : kind.Valid b) : ∀ f ∈ (kind.data b).map (WireField.mk number.val),
    f.datum.encode.length < 2 ^ 64 → f.Fits := by
  intro f hf hlength
  obtain ⟨d, hd, rfl⟩ := List.mem_map.mp hf
  exact ⟨number.pos, number.lt, kind.fits b h d hd hlength⟩

theorem at_ofFields (b : β) (h : kind.Valid b)
    (hfits : ∀ f ∈ (kind.data b).map (WireField.mk number.val), f.Fits) :
    kind.ofData (((kind.data b).map (WireField.mk number.val)).map WireField.datum) = some b := by
  have hdata : ((kind.data b).map (WireField.mk number.val)).map WireField.datum = kind.data b := by
    rw [List.map_map]
    exact List.map_id _
  rw [hdata]
  exact kind.ofData_data b h fun d hd => (hfits _ (List.mem_map_of_mem hd)).datum

theorem at_valid (fields : List WireField) (b : β) (hfits : ∀ f ∈ fields, f.Fits)
    (h : kind.ofData (fields.map WireField.datum) = some b) : kind.Valid b := by
  refine kind.valid _ b (fun d hd => ?_) h
  obtain ⟨f, hf, rfl⟩ := List.mem_map.mp hd
  exact (hfits f hf).datum

/-- The field with a number. -/
def Kind.at : Schema β where
  fields b := (kind.data b).map (WireField.mk number.val)
  ofFields fields := kind.ofData (fields.map WireField.datum)
  Valid := kind.Valid
  fits := at_fits number kind
  ofFields_fields := at_ofFields number kind
  valid := at_valid kind

theorem at_number_mem (b : β) : ∀ f ∈ (kind.at number).fields b, f.number ∈ [number.val] := by
  intro f hf
  obtain ⟨d, -, rfl⟩ := List.mem_map.mp hf
  exact List.mem_cons_self

/-- A field of a message. -/
def field {α : Type} (get : α → β) (set : β → α → α) : Segment α where
  Value := β
  numbers := [number.val]
  schema := kind.at number
  number_mem := at_number_mem number kind
  get := get
  set := set

end At

section Scalars

variable {β : Type} (toWire : β → ℕ) (ofWire : ℕ → β) (Valid : β → Prop)

/-- The last number that was given. -/
def lastVarint (data : List Datum) : Option ℕ := (data.filterMap Datum.asVarint).getLast?

/-- Numbers below 2 ^ 64 stand for the values. -/
structure Represents : Prop where
  lt : ∀ b, Valid b → toWire b < 2 ^ 64
  ofWire_toWire : ∀ b, Valid b → ofWire (toWire b) = b
  valid : ∀ n < 2 ^ 64, Valid (ofWire n)

theorem lt_of_lastVarint {data : List Datum} {n : ℕ} (hfits : ∀ d ∈ data, d.Fits)
    (h : lastVarint data = some n) : n < 2 ^ 64 := by
  obtain ⟨d, hd, hn⟩ := List.mem_filterMap.mp (List.mem_of_getLast? h)
  cases d <;> cases hn
  exact hfits _ hd

variable {toWire ofWire Valid} (h : Represents toWire ofWire Valid)
include h

theorem scalar_fits (b : β) (hb : Valid b) :
    ∀ d ∈ if toWire b = 0 then [] else [Datum.varint (toWire b)],
      d.encode.length < 2 ^ 64 → d.Fits := by
  intro d hd _
  split at hd
  · exact absurd hd List.not_mem_nil
  · rw [List.mem_singleton.mp hd]
    exact h.lt b hb

theorem scalar_ofData (b : β) (hb : Valid b)
    (_ : ∀ d ∈ if toWire b = 0 then [] else [Datum.varint (toWire b)], d.Fits) :
    some (ofWire ((lastVarint (if toWire b = 0 then [] else [Datum.varint (toWire b)])).getD 0)) =
      some b := by
  have hlast : (lastVarint (if toWire b = 0 then [] else [Datum.varint (toWire b)])).getD 0 =
      toWire b := by
    split
    · exact (‹toWire b = 0›).symm
    · rfl
  rw [hlast, h.ofWire_toWire b hb]

theorem scalar_valid (data : List Datum) (b : β) (hfits : ∀ d ∈ data, d.Fits)
    (hb : some (ofWire ((lastVarint data).getD 0)) = some b) : Valid b := by
  cases hb
  refine h.valid _ ?_
  cases hlast : lastVarint data with
  | none => exact Nat.two_pow_pos 64
  | some n => exact lt_of_lastVarint hfits hlast

/-- A number that is left out if it is 0. -/
def scalar : Kind β where
  data b := if toWire b = 0 then [] else [.varint (toWire b)]
  ofData data := some (ofWire ((lastVarint data).getD 0))
  Valid := Valid
  fits := scalar_fits h
  ofData_data := scalar_ofData h
  valid := scalar_valid h

theorem optional_fits (b : Option β) (hb : ∀ v ∈ b, Valid v) :
    ∀ d ∈ b.toList.map fun v => Datum.varint (toWire v), d.encode.length < 2 ^ 64 → d.Fits := by
  intro d hd _
  obtain ⟨v, hv, rfl⟩ := List.mem_map.mp hd
  exact h.lt v (hb v (Option.mem_toList.mp hv))

theorem optional_ofData (b : Option β) (hb : ∀ v ∈ b, Valid v)
    (_ : ∀ d ∈ b.toList.map fun v => Datum.varint (toWire v), d.Fits) :
    some ((lastVarint (b.toList.map fun v => Datum.varint (toWire v))).map ofWire) = some b := by
  cases b with
  | none => rfl
  | some v => exact congrArg (fun v => some (some v)) (h.ofWire_toWire v (hb v rfl))

theorem optional_valid (data : List Datum) (b : Option β) (hfits : ∀ d ∈ data, d.Fits)
    (hb : some ((lastVarint data).map ofWire) = some b) : ∀ v ∈ b, Valid v := by
  cases hb
  intro v hv
  obtain ⟨n, hn, rfl⟩ := Option.map_eq_some_iff.mp hv
  exact h.valid n (lt_of_lastVarint hfits hn)

/-- A number with a presence of its own. -/
def optional : Kind (Option β) where
  data b := b.toList.map fun v => .varint (toWire v)
  ofData data := some ((lastVarint data).map ofWire)
  Valid b := ∀ v ∈ b, Valid v
  fits := optional_fits h
  ofData_data := optional_ofData h
  valid := optional_valid h

end Scalars

/-- The low bits of a number, as a signed number of `bits` bits. -/
def signed (bits n : ℕ) : ℤ :=
  if n % 2 ^ bits < 2 ^ (bits - 1) then (n % 2 ^ bits : ℕ) else (n % 2 ^ bits : ℕ) - 2 ^ bits

/-- Two's complement, extended to 64 bits. -/
def twosComplement (z : ℤ) : ℕ := (z % 2 ^ 64).toNat

theorem represents_uint64 : Represents id id (· < 2 ^ 64) where
  lt _ h := h
  ofWire_toWire _ _ := rfl
  valid _ h := h

theorem represents_int64 :
    Represents twosComplement (signed 64) fun z => -2 ^ 63 ≤ z ∧ z < 2 ^ 63 where
  lt z _ := by
    unfold twosComplement
    omega
  ofWire_toWire z hz := by
    unfold twosComplement signed
    split <;> omega
  valid n _ := by
    unfold signed
    split <;> omega

theorem represents_int32 :
    Represents twosComplement (signed 32) fun z => -2 ^ 31 ≤ z ∧ z < 2 ^ 31 where
  lt z _ := by
    unfold twosComplement
    omega
  ofWire_toWire z hz := by
    unfold twosComplement signed
    split <;> omega
  valid n _ := by
    unfold signed
    split <;> omega

theorem represents_bool : Represents Bool.toNat (fun n => decide (n ≠ 0)) fun _ => True where
  lt b _ := by cases b <;> decide
  ofWire_toWire b _ := by cases b <;> decide
  valid _ _ := trivial

def uint64 : Kind ℕ := scalar represents_uint64

def int32 : Kind ℤ := scalar represents_int32

def int64 : Kind ℤ := scalar represents_int64

def optionalInt64 : Kind (Option ℤ) := optional represents_int64

def bool : Kind Bool := scalar represents_bool

/-! ### Chunks -/

def chunks (data : List Datum) : List (List UInt8) := data.filterMap Datum.asBytes

theorem chunks_map {β : Type} (l : List β) (f : β → List UInt8) :
    chunks (l.map fun b => .bytes (f b)) = l.map f := by
  rw [chunks, List.filterMap_map]
  exact congrFun List.filterMap_eq_map l

theorem mapM_map_of_forall {β γ : Type} {f : β → γ} {g : γ → Option β} :
    ∀ {l : List β}, (∀ b ∈ l, g (f b) = some b) → (l.map f).mapM g = some l
  | [], _ => rfl
  | b :: l, h => by
    rw [List.forall_mem_cons] at h
    rw [List.map_cons, List.mapM_cons, h.1, mapM_map_of_forall h.2]
    rfl

theorem mem_of_mapM {β γ : Type} {g : γ → Option β} : ∀ {l : List γ} {l' : List β},
    l.mapM g = some l' → ∀ b ∈ l', ∃ c ∈ l, g c = some b
  | [], l', h => by
    cases h
    exact List.forall_mem_nil _
  | c :: l, l', h => by
    rw [List.mapM_cons] at h
    obtain ⟨b, hb, h⟩ := Option.bind_eq_some_iff.mp h
    obtain ⟨rest, hrest, h⟩ := Option.bind_eq_some_iff.mp h
    cases h
    refine List.forall_mem_cons.mpr ⟨⟨c, List.mem_cons_self, hb⟩, fun b' hb' => ?_⟩
    obtain ⟨c', hc', hread⟩ := mem_of_mapM hrest b' hb'
    exact ⟨c', List.mem_cons_of_mem c hc', hread⟩

/-- The text of UTF-8 bytes. -/
def ofUtf8 (bytes : List UInt8) : Option String := String.fromUTF8? ⟨bytes.toArray⟩

theorem ofUtf8_utf8 (s : String) : ofUtf8 (utf8 s) = some s := by
  have hbytes : (⟨(utf8 s).toArray⟩ : ByteArray) = s.toUTF8 := by
    rw [utf8, Array.toArray_toList]
  rw [ofUtf8, hbytes]
  exact dif_pos s.isValidUTF8

section Chunks

variable {β : Type} (write : β → List UInt8) (read : List UInt8 → Option β) (Valid : β → Prop)

/-- The bytes of a value, if they are not too many, are read back. -/
structure Reads : Prop where
  read_write : ∀ b, Valid b → (write b).length < 2 ^ 64 → read (write b) = some b
  valid : ∀ chunk b, read chunk = some b → Valid b

theorem bytes_fits {d : Datum} {chunk : List UInt8} (hd : d = .bytes chunk)
    (hlength : d.encode.length < 2 ^ 64) : d.Fits := by
  subst hd
  refine lt_of_le_of_lt ?_ hlength
  rw [Datum.encode, List.length_append]
  omega

variable {write read Valid} (h : Reads write read Valid)

theorem repeated_fits (l : List β) (_ : ∀ b ∈ l, Valid b) :
    ∀ d ∈ l.map fun b => Datum.bytes (write b), d.encode.length < 2 ^ 64 → d.Fits := by
  intro d hd
  obtain ⟨b, -, rfl⟩ := List.mem_map.mp hd
  exact bytes_fits rfl

include h

theorem repeated_ofData (l : List β) (hl : ∀ b ∈ l, Valid b)
    (hfits : ∀ d ∈ l.map fun b => Datum.bytes (write b), d.Fits) :
    (chunks (l.map fun b => Datum.bytes (write b))).mapM read = some l := by
  rw [chunks_map]
  exact mapM_map_of_forall fun b hb => h.read_write b (hl b hb) (hfits _ (List.mem_map_of_mem hb))

theorem repeated_valid (data : List Datum) (l : List β) (_ : ∀ d ∈ data, d.Fits)
    (hl : (chunks data).mapM read = some l) : ∀ b ∈ l, Valid b := by
  intro b hb
  obtain ⟨chunk, -, hread⟩ := mem_of_mapM hl b hb
  exact h.valid chunk b hread

/-- A chunk for each value. -/
def repeated : Kind (List β) where
  data l := l.map fun b => .bytes (write b)
  ofData data := (chunks data).mapM read
  Valid l := ∀ b ∈ l, Valid b
  fits := repeated_fits
  ofData_data := repeated_ofData h
  valid := repeated_valid h

/-- What is written of a single value, which is left out if it is `absent`. -/
def oneChunk (write : β → List UInt8) (absent : Bool) (b : β) : List Datum :=
  if absent then [] else [.bytes (write b)]

omit h in
theorem single_fits (absent : Bool) (b : β) :
    ∀ d ∈ oneChunk write absent b, d.encode.length < 2 ^ 64 → d.Fits := by
  intro d hd
  unfold oneChunk at hd
  split at hd
  · exact absurd hd List.not_mem_nil
  · exact bytes_fits (List.mem_singleton.mp hd)

/-- The last of the chunks, all of which have to be readable. -/
def lastChunk (read : List UInt8 → Option β) (zero : β) (data : List Datum) : Option β :=
  ((chunks data).mapM read).map fun l => l.getLast?.getD zero

theorem single_ofData {zero : β} {absent : Bool} {b : β} (hb : Valid b)
    (habsent : absent = true → b = zero) (hfits : ∀ d ∈ oneChunk write absent b, d.Fits) :
    lastChunk read zero (oneChunk write absent b) = some b := by
  unfold oneChunk at hfits ⊢
  split
  · rw [habsent ‹_›]
    rfl
  · rename_i hkept
    rw [if_neg hkept] at hfits
    have hread := h.read_write b hb (hfits _ List.mem_cons_self)
    rw [lastChunk, show chunks [.bytes (write b)] = [write b] from rfl, List.mapM_cons, hread]
    rfl

end Chunks

theorem reads_string : Reads utf8 ofUtf8 fun _ => True where
  read_write s _ _ := ofUtf8_utf8 s
  valid _ _ _ := trivial

theorem reads_bytes : Reads id some fun _ : List UInt8 => True where
  read_write _ _ _ := rfl
  valid _ _ _ := trivial

theorem string_ofData (s : String) (_ : True)
    (hfits : ∀ d ∈ oneChunk utf8 (decide (s = "")) s, d.Fits) :
    lastChunk ofUtf8 "" (oneChunk utf8 (decide (s = "")) s) = some s :=
  single_ofData reads_string trivial of_decide_eq_true hfits

/-- A text that is left out if it is empty. -/
def string : Kind String where
  data s := oneChunk utf8 (s = "") s
  ofData := lastChunk ofUtf8 ""
  Valid _ := True
  fits s _ := single_fits _ s
  ofData_data := string_ofData
  valid _ _ _ _ := trivial

theorem entryString_ofData (s : String) (_ : True) (hfits : ∀ d ∈ oneChunk utf8 false s, d.Fits) :
    lastChunk ofUtf8 "" (oneChunk utf8 false s) = some s :=
  single_ofData reads_string trivial (fun h => (nomatch h)) hfits

/-- A text that is always written, as in the entries of a map. -/
def entryString : Kind String where
  data s := oneChunk utf8 false s
  ofData := lastChunk ofUtf8 ""
  Valid _ := True
  fits s _ := single_fits _ s
  ofData_data := entryString_ofData
  valid _ _ _ _ := trivial

theorem bytes_ofData (b : List UInt8) (_ : True)
    (hfits : ∀ d ∈ oneChunk id (decide (b = [])) b, d.Fits) :
    lastChunk some [] (oneChunk id (decide (b = [])) b) = some b :=
  single_ofData reads_bytes trivial of_decide_eq_true hfits

def bytes : Kind (List UInt8) where
  data b := oneChunk id (b = []) b
  ofData := lastChunk some []
  Valid _ := True
  fits b _ := single_fits _ b
  ofData_data := bytes_ofData
  valid _ _ _ _ := trivial

def strings : Kind (List String) := repeated reads_string

theorem reads_message {β : Type} (S : Schema β) : Reads S.marshal S.unmarshal S.Valid where
  read_write _ := S.unmarshal_marshal
  valid _ _ := S.valid_of_unmarshal

def messages {β : Type} (S : Schema β) : Kind (List β) := repeated (reads_message S)

/-! ### Messages in messages -/

section Embedded

variable {β : Type} (S : Schema β)

/-- The fields of all the chunks, each of which has to be a message. -/
def merged (chunks : List (List UInt8)) : Option (List WireField) :=
  (chunks.mapM parse).map List.flatten

/-- A message that comes in several chunks is merged. -/
def readMerged (chunks : List (List UInt8)) : Option β := (merged chunks).bind S.ofFields

theorem readMerged_marshal {b : β} (hb : S.Valid b) (hlength : (S.marshal b).length < 2 ^ 64) :
    readMerged S [S.marshal b] = some b := by
  have hfits := S.fits_of_length hb hlength
  have hmerged : merged [S.marshal b] = some (S.fields b) := by
    rw [merged, List.mapM_cons, Schema.marshal, parse_encode hfits]
    exact congrArg some (List.append_nil _)
  rw [readMerged, hmerged, Option.bind_some]
  exact S.ofFields_fields b hb hfits

theorem fits_of_merged {chunks : List (List UInt8)} {fields : List WireField}
    (h : merged chunks = some fields) : ∀ f ∈ fields, f.Fits := by
  obtain ⟨parsed, hparsed, rfl⟩ := Option.map_eq_some_iff.mp h
  intro f hf
  obtain ⟨l, hl, hf⟩ := List.mem_flatten.mp hf
  obtain ⟨chunk, -, hparse⟩ := mem_of_mapM hparsed l hl
  exact fits_of_parse hparse f hf

theorem parse_flatten : ∀ {chunks : List (List UInt8)} {fields : List WireField},
    merged chunks = some fields → parse chunks.flatten = some fields
  | [], fields, h => by
    cases h
    rfl
  | chunk :: chunks, fields, h => by
    obtain ⟨parsed, hparsed, rfl⟩ := Option.map_eq_some_iff.mp h
    rw [List.mapM_cons] at hparsed
    obtain ⟨first, hfirst, hparsed⟩ := Option.bind_eq_some_iff.mp hparsed
    obtain ⟨rest, hrest, hparsed⟩ := Option.bind_eq_some_iff.mp hparsed
    cases hparsed
    exact parse_append hfirst (parse_flatten (Option.map_eq_some_iff.mpr ⟨rest, hrest, rfl⟩))

theorem valid_of_readMerged {chunks : List (List UInt8)} {b : β} (h : readMerged S chunks = some b) :
    S.Valid b := by
  obtain ⟨fields, hfields, hb⟩ := Option.bind_eq_some_iff.mp h
  exact S.valid fields b (fits_of_merged hfields) hb

theorem message_fits (b : Option β) (_ : ∀ v ∈ b, S.Valid v) :
    ∀ d ∈ b.toList.map fun v => Datum.bytes (S.marshal v), d.encode.length < 2 ^ 64 → d.Fits := by
  intro d hd
  obtain ⟨b, -, rfl⟩ := List.mem_map.mp hd
  exact bytes_fits rfl

/-- The message of the chunks, if there is one. -/
def readMessage (data : List Datum) : Option (Option β) :=
  match chunks data with
  | [] => some none
  | c :: cs => (readMerged S (c :: cs)).map some

theorem message_ofData (b : Option β) (hb : ∀ v ∈ b, S.Valid v)
    (hfits : ∀ d ∈ b.toList.map fun v => Datum.bytes (S.marshal v), d.Fits) :
    readMessage S (b.toList.map fun v => Datum.bytes (S.marshal v)) = some b := by
  cases b with
  | none => rfl
  | some v =>
    have hread := readMerged_marshal S (hb v rfl) (hfits _ List.mem_cons_self)
    rw [readMessage, chunks_map]
    show (readMerged S [S.marshal v]).map some = some (some v)
    rw [hread, Option.map_some]

theorem message_valid (data : List Datum) (b : Option β) (_ : ∀ d ∈ data, d.Fits)
    (h : readMessage S data = some b) : ∀ v ∈ b, S.Valid v := by
  unfold readMessage at h
  split at h
  · cases h
    exact fun _ h => (nomatch h)
  · obtain ⟨v, hv, rfl⟩ := Option.map_eq_some_iff.mp h
    intro _ h
    cases h
    exact valid_of_readMerged S hv

/-- A message as a field, present or not. -/
def message : Kind (Option β) where
  data b := b.toList.map fun v => .bytes (S.marshal v)
  ofData := readMessage S
  Valid b := ∀ v ∈ b, S.Valid v
  fits := message_fits S
  ofData_data := message_ofData S
  valid := message_valid S

end Embedded

/-! ### Maps -/

def entryParts : List (Segment (String × String)) :=
  [field 1 entryString Prod.fst fun key e => (key, e.2),
    field 2 entryString Prod.snd fun value e => (e.1, value)]

theorem entry_table : Table entryParts ("", "") where
  distinct := by decide
  restore _ := rfl
  independent _ := List.forall_mem_cons.mpr ⟨rfl, List.forall_mem_singleton.mpr rfl⟩

/-- The entries of a map are messages of their own. -/
def entry : Schema (String × String) := record entry_table

/-- A map by ascending keys: an entry replaces the one with its key. -/
def insertEntry (e : String × String) : List (String × String) → List (String × String)
  | [] => [e]
  | x :: rest =>
    if e.1 < x.1 then e :: x :: rest
    else if e.1 = x.1 then e :: rest
    else x :: insertEntry e rest

theorem insertEntry_of_forall_lt {e : String × String} : ∀ {m : List (String × String)},
    (∀ x ∈ m, x.1 < e.1) → insertEntry e m = m ++ [e]
  | [], _ => rfl
  | x :: rest, h => by
    rw [List.forall_mem_cons] at h
    rw [insertEntry, if_neg (lt_asymm h.1), if_neg (ne_of_gt h.1), insertEntry_of_forall_lt h.2]
    rfl

theorem foldl_insertEntry {m : List (String × String)} (hm : m.Pairwise fun x y => x.1 < y.1) :
    m.foldl (fun acc e => insertEntry e acc) [] = m := by
  induction m using List.reverseRecOn with
  | nil => rfl
  | append_singleton m e ih =>
    obtain ⟨hpairs, -, hlast⟩ := List.pairwise_append.mp hm
    rw [List.foldl_append, ih hpairs]
    exact insertEntry_of_forall_lt fun x hx => hlast x hx e List.mem_cons_self

theorem key_of_mem_insertEntry {e x : String × String} : ∀ {m : List (String × String)},
    x ∈ insertEntry e m → x.1 = e.1 ∨ x ∈ m
  | [], h => .inl (congrArg Prod.fst (List.mem_singleton.mp h))
  | y :: rest, h => by
    unfold insertEntry at h
    split at h
    · exact (List.mem_cons.mp h).imp_left (congrArg Prod.fst)
    · split at h
      · exact (List.mem_cons.mp h).imp (congrArg Prod.fst) (List.mem_cons_of_mem y)
      · rcases List.mem_cons.mp h with rfl | h
        · exact .inr List.mem_cons_self
        · exact (key_of_mem_insertEntry h).imp_right (List.mem_cons_of_mem y)

theorem pairwise_insertEntry {e : String × String} : ∀ {m : List (String × String)},
    m.Pairwise (fun x y => x.1 < y.1) → (insertEntry e m).Pairwise fun x y => x.1 < y.1
  | [], _ => List.pairwise_singleton _ _
  | x :: rest, hm => by
    have hrest := List.pairwise_cons.mp hm
    unfold insertEntry
    split
    · rename_i hlt
      exact List.pairwise_cons.mpr ⟨List.forall_mem_cons.mpr
        ⟨hlt, fun y hy => lt_trans hlt (hrest.1 y hy)⟩, hm⟩
    · split
      · rename_i _ heq
        exact List.pairwise_cons.mpr ⟨fun y hy => heq ▸ hrest.1 y hy, hrest.2⟩
      · rename_i hge hne
        have hgt : x.1 < e.1 := lt_of_le_of_ne (not_lt.mp hge) (Ne.symm hne)
        refine List.pairwise_cons.mpr ⟨fun y hy => ?_, pairwise_insertEntry hrest.2⟩
        rcases key_of_mem_insertEntry hy with hkey | hy
        · exact hkey ▸ hgt
        · exact hrest.1 y hy

theorem pairwise_foldl_insertEntry (entries : List (String × String)) :
    (entries.foldl (fun acc e => insertEntry e acc) []).Pairwise fun x y => x.1 < y.1 := by
  induction entries using List.reverseRecOn with
  | nil => exact List.Pairwise.nil
  | append_singleton entries e ih =>
    rw [List.foldl_append]
    exact pairwise_insertEntry ih

theorem entry_valid (e : String × String) : entry.Valid e := by
  intro p hp
  simp only [entryParts, List.mem_cons, List.not_mem_nil, or_false] at hp
  rcases hp with rfl | rfl <;> exact trivial

theorem stringMap_ofData (m : List (String × String)) (hm : m.Pairwise fun x y => x.1 < y.1)
    (hfits : ∀ d ∈ m.map fun e => Datum.bytes (entry.marshal e), d.Fits) :
    ((chunks (m.map fun e => Datum.bytes (entry.marshal e))).mapM entry.unmarshal).map
      (fun entries => entries.foldl (fun acc e => insertEntry e acc) []) = some m := by
  rw [repeated_ofData (reads_message entry) m (fun e _ => entry_valid e) hfits, Option.map_some,
    foldl_insertEntry hm]

theorem stringMap_valid (data : List Datum) (m : List (String × String)) (_ : ∀ d ∈ data, d.Fits)
    (h : ((chunks data).mapM entry.unmarshal).map
      (fun entries => entries.foldl (fun acc e => insertEntry e acc) []) = some m) :
    m.Pairwise fun x y => x.1 < y.1 := by
  obtain ⟨entries, -, rfl⟩ := Option.map_eq_some_iff.mp h
  exact pairwise_foldl_insertEntry entries

/-- A map with texts as keys and values, written by ascending keys. -/
def stringMap : Kind (List (String × String)) where
  data m := m.map fun e => .bytes (entry.marshal e)
  ofData data := ((chunks data).mapM entry.unmarshal).map fun entries =>
    entries.foldl (fun acc e => insertEntry e acc) []
  Valid m := m.Pairwise fun x y => x.1 < y.1
  fits m _ := repeated_fits m fun e _ => entry_valid e
  ofData_data := stringMap_ofData
  valid := stringMap_valid

/-! ### Choices -/

/-- The members of a `oneof`, each a chunk with a number of its own. -/
structure Choice (P : Type) where
  numbers : List ℕ
  write : P → Number × List UInt8
  /-- Several chunks in a row with one number are merged. -/
  read : ℕ → List (List UInt8) → Option P
  Valid : P → Prop
  number_mem : ∀ p, (write p).1.val ∈ numbers
  read_write : ∀ p, Valid p → (write p).2.length < 2 ^ 64 →
    read (write p).1.val [(write p).2] = some p
  valid : ∀ number chunks p, read number chunks = some p → Valid p

namespace Choice

variable {P : Type} (choice : Choice P)

def fields (p : Option P) : List WireField :=
  p.toList.map fun v => ⟨(choice.write v).1.val, .bytes (choice.write v).2⟩

/-- The chunks, a row for each run of one number. -/
def rows (fields : List WireField) : List (List (ℕ × List UInt8)) :=
  (fields.filterMap fun f => f.datum.asBytes.map fun chunk => (f.number, chunk)).splitBy
    fun x y => x.1 == y.1

def readRow (row : List (ℕ × List UInt8)) : Option P :=
  row.head?.bind fun first => choice.read first.1 (row.map Prod.snd)

/-- A member takes the place of another, and every row has to be readable. -/
def ofFields (fields : List WireField) : Option (Option P) :=
  ((rows fields).mapM choice.readRow).map List.getLast?

theorem fits (p : Option P) (_ : ∀ v ∈ p, choice.Valid v) :
    ∀ f ∈ choice.fields p, f.datum.encode.length < 2 ^ 64 → f.Fits := by
  intro f hf hlength
  obtain ⟨v, -, rfl⟩ := List.mem_map.mp hf
  exact ⟨Number.pos _, Number.lt _, bytes_fits rfl hlength⟩

theorem ofFields_fields (p : Option P) (hp : ∀ v ∈ p, choice.Valid v)
    (hfits : ∀ f ∈ choice.fields p, f.Fits) : choice.ofFields (choice.fields p) = some p := by
  cases p with
  | none => rfl
  | some v =>
    have hread := choice.read_write v (hp v rfl) (hfits _ List.mem_cons_self).datum
    have hrow : choice.readRow [((choice.write v).1.val, (choice.write v).2)] = some v := hread
    have hrows : rows (choice.fields (some v)) =
        [[((choice.write v).1.val, (choice.write v).2)]] := rfl
    rw [ofFields, hrows, List.mapM_cons, hrow]
    rfl

theorem valid_ofFields (fields : List WireField) (p : Option P) (_ : ∀ f ∈ fields, f.Fits)
    (h : choice.ofFields fields = some p) : ∀ v ∈ p, choice.Valid v := by
  obtain ⟨members, hmembers, rfl⟩ := Option.map_eq_some_iff.mp h
  intro v hv
  obtain ⟨row, -, hrow⟩ := mem_of_mapM hmembers v (List.mem_of_getLast? hv)
  obtain ⟨first, -, hread⟩ := Option.bind_eq_some_iff.mp hrow
  exact choice.valid _ _ v hread

theorem fields_number_mem (p : Option P) : ∀ f ∈ choice.fields p, f.number ∈ choice.numbers := by
  intro f hf
  obtain ⟨v, -, rfl⟩ := List.mem_map.mp hf
  exact choice.number_mem v

/-- The part of a message that is a choice. -/
def part {α : Type} (get : α → Option P) (set : Option P → α → α) : Segment α where
  Value := Option P
  numbers := choice.numbers
  schema := {
    fields := choice.fields
    ofFields := choice.ofFields
    Valid := fun p => ∀ v ∈ p, choice.Valid v
    fits := choice.fits
    ofFields_fields := choice.ofFields_fields
    valid := choice.valid_ofFields }
  number_mem := choice.fields_number_mem
  get := get
  set := set

end Choice

end Protobuf
end KubeCost
