/-
# JSON

What `encoding/json` writes for a record of texts and numbers, and what it reads. The texts
are Unicode; bytes that are not UTF-8 are read as U+FFFD, one for each byte (`runes`). A
document that was written is read back, whatever its texts are (`parse_object`).

Key definitions: `runes`, `quote`, `object`, `Value`, `parse`, `unmarshal`.
-/
import KubeCost.Text

namespace KubeCost
namespace Json

/-! ### Bytes as characters -/

/-- The characters of a byte string: a byte that begins no character is U+FFFD. -/
def runes : List UInt8 → List Char
  | [] => []
  | byte :: rest =>
    match ByteArray.utf8DecodeChar? ⟨(byte :: rest).toArray⟩ 0 with
    | some c => c :: runes ((byte :: rest).drop c.utf8Size)
    | none => '\ufffd' :: runes rest
termination_by bytes => bytes.length
decreasing_by
  · have := c.utf8Size_pos
    simp only [List.length_drop, List.length_cons]
    omega
  · simp

theorem runes_utf8Encode : ∀ cs : List Char, runes cs.utf8Encode.data.toList = cs
  | [] => by simp [runes]
  | c :: cs => by
    have hbytes : (c :: cs).utf8Encode.data.toList
        = String.utf8EncodeChar c ++ cs.utf8Encode.data.toList := by
      simp [List.utf8Encode]
    have hfirst : ByteArray.utf8DecodeChar? ⟨(c :: cs).utf8Encode.data.toList.toArray⟩ 0 = some c := by
      rw [Array.toArray_toList]
      exact List.utf8DecodeChar?_utf8Encode_cons
    generalize hall : (c :: cs).utf8Encode.data.toList = bytes at hbytes hfirst
    match bytes, hbytes, hfirst with
    | [], hbytes, _ =>
      have := congrArg List.length hbytes
      have := c.utf8Size_pos
      simp only [List.length_append, String.length_utf8EncodeChar, List.length_nil] at *
      omega
    | byte :: rest, hbytes, hfirst =>
      rw [runes]
      simp only [hfirst]
      rw [hbytes, List.drop_left' (String.length_utf8EncodeChar c), runes_utf8Encode cs]

/-- The characters of the bytes of a text are the text's. -/
theorem runes_utf8 (s : String) : runes (utf8 s) = s.toList := by
  rw [utf8, String.toUTF8_eq_toByteArray, ← String.utf8Encode_toList, runes_utf8Encode]

/-! ### Texts -/

/-- The characters that have a letter of their own after a backslash. -/
def shortEscapes : List (Char × Char) :=
  [('"', '"'), ('\\', '\\'), ('b', '\x08'), ('f', '\x0c'), ('n', '\n'), ('r', '\r'), ('t', '\t')]

def hexUnit (n : ℕ) : List Char :=
  [hexDigit (n / 4096 % 16), hexDigit (n / 256 % 16), hexDigit (n / 16 % 16), hexDigit (n % 16)]

/-- The character is written as `\u` and its number: a control character, what HTML would
read as markup, and the line ends of JavaScript. -/
def numbered (c : Char) : Bool :=
  c.toNat < 32 || c == '<' || c == '>' || c == '&' || c.toNat == 0x2028 || c.toNat == 0x2029

def escape (c : Char) : List Char :=
  match shortEscapes.find? (·.2 == c) with
  | some (letter, _) => ['\\', letter]
  | none => if numbered c then '\\' :: 'u' :: hexUnit c.toNat else [c]

/-- A text in quotes. -/
def quote (s : String) : List Char := '"' :: (s.toList.flatMap escape ++ ['"'])

/-- What a text is read as before the pairs of surrogates are put together: characters, and
the sixteen bits of each `\u`. -/
inductive Piece where
  | char (c : Char)
  | bits (n : ℕ)

def hexValue (c : Char) : Option ℕ :=
  if '0' ≤ c ∧ c ≤ '9' then some (c.toNat - '0'.toNat)
  else if 'a' ≤ c ∧ c ≤ 'f' then some (c.toNat - 'a'.toNat + 10)
  else if 'A' ≤ c ∧ c ≤ 'F' then some (c.toNat - 'A'.toNat + 10)
  else none

def hexNumber (digits : List Char) : Option ℕ :=
  (digits.mapM hexValue).map fun values => values.foldl (fun n value => n * 16 + value) 0

/-- The pieces up to the closing quote, and what follows it. -/
def pieces : List Char → Option (List Piece × List Char)
  | [] => none
  | '"' :: rest => some ([], rest)
  | '\\' :: 'u' :: a :: b :: c :: d :: rest => do
    let n ← hexNumber [a, b, c, d]
    let (ps, rest) ← pieces rest
    some (.bits n :: ps, rest)
  | '\\' :: letter :: rest => do
    let (_, c) ← (('/', '/') :: shortEscapes).find? (·.1 == letter)
    let (ps, rest) ← pieces rest
    some (.char c :: ps, rest)
  | c :: rest =>
    if c.toNat < 32 ∨ c = '\\' then none
    else do
      let (ps, rest) ← pieces rest
      some (.char c :: ps, rest)

/-- The number is half of a pair that stands for one character. -/
def surrogate (n : ℕ) : Bool := 0xd800 ≤ n && n < 0xe000

/-- The characters of the pieces: two halves that fit are one character, any other half is
U+FFFD. -/
def assemble : List Piece → List Char
  | [] => []
  | .char c :: rest => c :: assemble rest
  | .bits high :: .bits low :: rest =>
    if surrogate high then
      if high < 0xdc00 ∧ 0xdc00 ≤ low ∧ low < 0xe000 then
        Char.ofNat ((high - 0xd800) * 0x400 + (low - 0xdc00) + 0x10000) :: assemble rest
      else '\ufffd' :: assemble (.bits low :: rest)
    else Char.ofNat high :: assemble (.bits low :: rest)
  | .bits n :: rest => (if surrogate n then '\ufffd' else Char.ofNat n) :: assemble rest

/-- The text up to the closing quote, and what follows it. -/
def text (input : List Char) : Option (String × List Char) :=
  (pieces input).map fun p => (String.ofList (assemble p.1), p.2)

theorem hexValue_hexDigit {n : ℕ} (h : n < 16) : hexValue (hexDigit n) = some n := by
  have hall : ∀ n < 16, hexValue (hexDigit n) = some n := by decide
  exact hall n h

theorem hexNumber_hexUnit {n : ℕ} (h : n < 65536) : hexNumber (hexUnit n) = some n := by
  have hvalues : (hexUnit n).mapM hexValue
      = some [n / 4096 % 16, n / 256 % 16, n / 16 % 16, n % 16] := by
    simp only [hexUnit, List.mapM_cons, List.mapM_nil]
    rw [hexValue_hexDigit (by omega), hexValue_hexDigit (by omega), hexValue_hexDigit (by omega),
      hexValue_hexDigit (by omega)]
    rfl
  rw [hexNumber, hvalues, Option.map_some, Option.some.injEq]
  simp only [List.foldl_cons, List.foldl_nil]
  omega

theorem numbered_lt {c : Char} (h : numbered c = true) : c.toNat < 0x202a := by
  simp only [numbered, Bool.or_eq_true, decide_eq_true_eq, beq_iff_eq] at h
  rcases h with ((((h | rfl) | rfl) | rfl) | h) | h
  · omega
  · decide
  · decide
  · decide
  · omega
  · omega

/-- What the character is read as. -/
def piece (c : Char) : Piece :=
  if (shortEscapes.find? (·.2 == c)).isNone && numbered c then .bits c.toNat else .char c

theorem pieces_short {pair : Char × Char} (h : pair ∈ shortEscapes) (rest : List Char) :
    pieces ('\\' :: pair.1 :: rest) = (pieces rest).map fun p => (Piece.char pair.2 :: p.1, p.2) := by
  have hall : ∀ pair ∈ shortEscapes,
      pair.1 ≠ 'u' ∧ (('/', '/') :: shortEscapes).find? (·.1 == pair.1) = some pair := by decide
  obtain ⟨hletter, hfind⟩ := hall pair h
  rw [pieces]
  · rw [hfind]
    cases pieces rest <;> rfl
  · intro a b c d _ hu
    exact absurd hu hletter

/-- A character that is neither a quote nor a backslash nor a control character stands for
itself. -/
theorem pieces_plain {c : Char} (hquote : c ≠ '"') (hbackslash : c ≠ '\\') (hprintable : ¬ c.toNat < 32)
    (rest : List Char) :
    pieces (c :: rest) = (pieces rest).map fun p => (Piece.char c :: p.1, p.2) := by
  rw [pieces.eq_def]
  split
  · contradiction
  · rename_i heq
    exact absurd (List.cons.inj heq).1 hquote
  · rename_i heq
    exact absurd (List.cons.inj heq).1 hbackslash
  · rename_i heq
    exact absurd (List.cons.inj heq).1 hbackslash
  · rename_i heq
    obtain ⟨rfl, rfl⟩ := List.cons.inj heq
    rw [if_neg (by simp [hprintable, hbackslash])]
    cases pieces rest <;> rfl

theorem pieces_escape (c : Char) (rest : List Char) :
    pieces (escape c ++ rest) = (pieces rest).map fun p => (piece c :: p.1, p.2) := by
  unfold escape piece
  cases hshort : shortEscapes.find? (·.2 == c) with
  | some pair =>
    have hc : (pair.2 == c) = true := List.find?_some (p := fun x : Char × Char => x.2 == c) hshort
    obtain rfl := beq_iff_eq.mp hc
    exact pieces_short (List.mem_of_find?_eq_some hshort) rest
  | none =>
    by_cases hnumbered : numbered c = true
    · have hlt := numbered_lt hnumbered
      have hread := hexNumber_hexUnit (n := c.toNat) (by omega)
      simp only [hnumbered, if_true, Option.isNone_none, Bool.and_self]
      simp only [hexUnit] at hread ⊢
      simp only [List.cons_append, List.nil_append, pieces, hread]
      cases pieces rest <;> rfl
    · have hquote : c ≠ '"' := by
        rintro rfl
        exact absurd hshort (by decide)
      have hbackslash : c ≠ '\\' := by
        rintro rfl
        exact absurd hshort (by decide)
      have hprintable : ¬ c.toNat < 32 := by
        intro h
        exact hnumbered (by simp [numbered, h])
      have hplain : numbered c = false := Bool.eq_false_iff.mpr hnumbered
      rw [hplain]
      exact pieces_plain hquote hbackslash hprintable rest

theorem pieces_flatMap (cs rest : List Char) :
    pieces (cs.flatMap escape ++ '"' :: rest) = some (cs.map piece, rest) := by
  induction cs with
  | nil => rw [List.flatMap_nil, List.nil_append, pieces, List.map_nil]
  | cons c cs ih => rw [List.flatMap_cons, List.append_assoc, pieces_escape, ih, Option.map_some,
      List.map_cons]

theorem assemble_bits {n : ℕ} (h : surrogate n = false) (rest : List Piece) :
    assemble (.bits n :: rest) = Char.ofNat n :: assemble rest := by
  match rest with
  | [] => simp [assemble, h]
  | .char c :: rest => simp [assemble, h]
  | .bits low :: rest => simp [assemble, h]

theorem assemble_map_piece : ∀ cs : List Char, assemble (cs.map piece) = cs
  | [] => by simp [assemble]
  | c :: cs => by
    rw [List.map_cons, piece]
    split
    · rename_i hnumbered
      have hlt := numbered_lt (Bool.and_eq_true_iff.mp hnumbered).2
      rw [assemble_bits (by simp only [surrogate, Bool.and_eq_false_iff, decide_eq_false_iff_not]; omega),
        Char.ofNat_toNat, assemble_map_piece cs]
    · rw [assemble, assemble_map_piece cs]

/-- **A text in quotes is read back.** -/
theorem text_quote (s : String) (rest : List Char) :
    text (s.toList.flatMap escape ++ '"' :: rest) = some (s, rest) := by
  rw [text, pieces_flatMap, Option.map_some, assemble_map_piece, String.ofList_toList]

/-! ### Numbers -/

/-- One digit or more, and what follows them. -/
def digits (input : List Char) : Option (List Char × List Char) :=
  if input.takeWhile Char.isDigit = [] then none
  else some (input.takeWhile Char.isDigit, input.dropWhile Char.isDigit)

/-- A zero begins no longer number. -/
def whole : List Char → Option (List Char × List Char)
  | '0' :: rest => some (['0'], rest)
  | input => digits input

def signed : List Char → Option (List Char × List Char)
  | '-' :: rest => (whole rest).map fun p => ('-' :: p.1, p.2)
  | input => whole input

def fraction : List Char → Option (List Char × List Char)
  | '.' :: rest => (digits rest).map fun p => ('.' :: p.1, p.2)
  | input => some ([], input)

def exponent : List Char → Option (List Char × List Char)
  | [] => some ([], [])
  | e :: rest =>
    if e = 'e' ∨ e = 'E' then
      match rest with
      | [] => none
      | sign :: rest' =>
        if sign = '+' ∨ sign = '-' then (digits rest').map fun p => (e :: sign :: p.1, p.2)
        else (digits rest).map fun p => (e :: p.1, p.2)
    else some ([], e :: rest)

/-- The number at the start of the input, as it is written. -/
def number (input : List Char) : Option (String × List Char) := do
  let (integer, rest) ← signed input
  let (decimals, rest) ← fraction rest
  let (power, rest) ← exponent rest
  some (String.ofList (integer ++ decimals ++ power), rest)

theorem head?_toDigits_ne {n : ℕ} (h : 0 < n) : (Nat.toDigits 10 n).head? ≠ some '0' := by
  induction n using Nat.strong_induction_on with
  | _ n ih =>
    rcases Nat.lt_or_ge n 10 with hlt | hge
    · have hall : ∀ n < 10, 0 < n → [n.digitChar].head? ≠ some '0' := by decide
      rw [Nat.toDigits_of_lt_base hlt]
      exact hall n hlt h
    · have hhigh := ih (n / 10) (by omega) (by omega)
      rw [Nat.toDigits_of_base_le (by decide) hge]
      rwa [List.head?_append_of_ne_nil _ Nat.toDigits_ne_nil]

/-- The character cannot go on a number: it stands after a member of an object. -/
def Closing (c : Char) : Prop := c = ',' ∨ c = '}'

theorem digits_append {ds : List Char} {c : Char} (hne : ds ≠ []) (hds : ∀ d ∈ ds, d.isDigit = true)
    (hc : Closing c) (rest : List Char) : digits (ds ++ c :: rest) = some (ds, c :: rest) := by
  have hend : c.isDigit = false := by
    rcases hc with rfl | rfl
    · decide
    · decide
  have htake : (ds ++ c :: rest).takeWhile Char.isDigit = ds := by
    rw [List.takeWhile_append_of_pos hds, List.takeWhile_cons_of_neg (by simp [hend]), List.append_nil]
  have hdrop : (ds ++ c :: rest).dropWhile Char.isDigit = c :: rest := by
    rw [List.dropWhile_append_of_pos hds, List.dropWhile_cons_of_neg (by simp [hend])]
  rw [digits, htake, hdrop, if_neg hne]

theorem whole_toDigits (n : ℕ) {c : Char} (hc : Closing c) (rest : List Char) :
    whole (Nat.toDigits 10 n ++ c :: rest) = some (Nat.toDigits 10 n, c :: rest) := by
  rcases Nat.eq_zero_or_pos n with rfl | hpos
  · rw [Nat.toDigits_zero]
    rfl
  · have hdigits : digits (Nat.toDigits 10 n ++ c :: rest) = some (Nat.toDigits 10 n, c :: rest) :=
      digits_append Nat.toDigits_ne_nil
        (fun d hd => Nat.isDigit_of_mem_toDigits (by decide) (by decide) hd) hc rest
    have hfirst := head?_toDigits_ne hpos
    rw [← hdigits]
    cases hds : Nat.toDigits 10 n with
    | nil => exact absurd hds Nat.toDigits_ne_nil
    | cons d ds =>
      rw [hds, List.head?_cons, ne_eq, Option.some.injEq] at hfirst
      rw [List.cons_append, whole]
      intro _ h
      exact hfirst (List.cons.inj h).1

theorem signed_formatInt (n : ℤ) {c : Char} (hc : Closing c) (rest : List Char) :
    signed ((formatInt n).toList ++ c :: rest) = some ((formatInt n).toList, c :: rest) := by
  unfold formatInt
  split
  · rw [String.toList_ofList, List.cons_append, signed, whole_toDigits _ hc, Option.map_some]
  · rw [String.toList_ofList, ← whole_toDigits _ hc]
    cases hds : Nat.toDigits 10 n.natAbs with
    | nil => exact absurd hds Nat.toDigits_ne_nil
    | cons d ds =>
      have hdigit : d.isDigit = true :=
        Nat.isDigit_of_mem_toDigits (by decide) (by decide) (hds ▸ List.mem_cons_self)
      rw [List.cons_append, signed]
      intro _ h
      obtain rfl := (List.cons.inj h).1
      exact absurd hdigit (by decide)

/-- **A printed number is read as it is printed.** -/
theorem number_formatInt (n : ℤ) {c : Char} (hc : Closing c) (rest : List Char) :
    number ((formatInt n).toList ++ c :: rest) = some (formatInt n, c :: rest) := by
  have hfraction : fraction (c :: rest) = some ([], c :: rest) := by
    rcases hc with rfl | rfl
    · rfl
    · rfl
  have hexponent : exponent (c :: rest) = some ([], c :: rest) := by
    rcases hc with rfl | rfl
    · rfl
    · rfl
  rw [number, signed_formatInt n hc]
  simp only [Option.bind_eq_bind, Option.bind_some, hfraction, hexponent, List.append_nil,
    String.ofList_toList]

/-! ### Documents -/

inductive Value where
  | null
  | bool (b : Bool)
  | number (literal : String)
  | string (s : String)
  | array (items : List Value)
  | object (members : List (String × Value))

/-- Values are nested no deeper than this. -/
def maxNestingDepth : ℕ := 10000

def skipSpace (input : List Char) : List Char :=
  input.dropWhile fun c => c == ' ' || c == '\t' || c == '\n' || c == '\r'

/-- A value without parts and without quotes. -/
def literal (input : List Char) : Option (Value × List Char) :=
  if "null".toList.isPrefixOf input then some (.null, input.drop 4)
  else if "true".toList.isPrefixOf input then some (.bool true, input.drop 4)
  else if "false".toList.isPrefixOf input then some (.bool false, input.drop 5)
  else (number input).map fun p => (.number p.1, p.2)

mutual

/-- The value at the start of the input and what follows it; `depth` is how deep the value
may still be nested. -/
def value : ℕ → ℕ → List Char → Option (Value × List Char)
  | 0, _, _ => none
  | fuel + 1, depth, input =>
    match skipSpace input with
    | '"' :: rest => (text rest).map fun p => (.string p.1, p.2)
    | '[' :: rest =>
      if depth = 0 then none
      else if (skipSpace rest).head? = some ']' then some (.array [], (skipSpace rest).tail)
      else (elements fuel (depth - 1) rest).map fun p => (.array p.1, p.2)
    | '{' :: rest =>
      if depth = 0 then none
      else if (skipSpace rest).head? = some '}' then some (.object [], (skipSpace rest).tail)
      else (members fuel (depth - 1) rest).map fun p => (.object p.1, p.2)
    | rest => literal rest

/-- The values up to the closing bracket. -/
def elements : ℕ → ℕ → List Char → Option (List Value × List Char)
  | 0, _, _ => none
  | fuel + 1, depth, input => do
    let (item, rest) ← value fuel depth input
    match skipSpace rest with
    | ']' :: rest => some ([item], rest)
    | ',' :: rest => (elements fuel depth rest).map fun p => (item :: p.1, p.2)
    | _ => none

/-- The members up to the closing brace. -/
def members : ℕ → ℕ → List Char → Option (List (String × Value) × List Char)
  | 0, _, _ => none
  | fuel + 1, depth, input => do
    let '"' :: rest := skipSpace input | none
    let (name, rest) ← text rest
    let ':' :: rest := skipSpace rest | none
    let (item, rest) ← value fuel depth rest
    match skipSpace rest with
    | '}' :: rest => some ([(name, item)], rest)
    | ',' :: rest => (members fuel depth rest).map fun p => ((name, item) :: p.1, p.2)
    | _ => none

end

/-- A whole document: one value, and only blanks after it. -/
def parse (bytes : List UInt8) : Option Value := do
  -- each call reads a character, or its caller has read one
  let (document, rest) ← value (2 * (runes bytes).length + 1) maxNestingDepth (runes bytes)
  if skipSpace rest = [] then some document else none

/-! ### Decoding -/

/-- Names are compared without regard to case. The long s and the Kelvin sign are the only
characters that are no letters of ASCII and have one as their other case. -/
def foldName (name : String) : List Char :=
  name.toList.map fun c => if c = '\u017f' then 's' else if c = '\u212a' then 'k' else c.toLower

/-- The field of a name: of the very name, or else of one that differs in case. -/
def field {β : Type*} (fields : List (String × β)) (name : String) : Option β :=
  ((fields.find? (·.1 == name)).or (fields.find? fun f => foldName f.1 == foldName name)).map (·.2)

/-- A text is stored in a text, null leaves it as it was. -/
def Value.storeString (old : String) : Value → Option String
  | .string s => some s
  | .null => some old
  | _ => none

/-- A number is stored in an `int` if it is one. -/
def Value.storeInt (old : ℤ) : Value → Option ℤ
  | .number literal => parseInt literal
  | .null => some old
  | _ => none

/-- `strconv.ParseUint(s, 10, 64)`; `none` for a syntax or a range error. -/
def parseUint (s : String) : Option ℕ :=
  (digitsValue s.toList).bind fun n => if n < 18446744073709551616 then some n else none

theorem parseUint_formatInt {n : ℕ} (h : n < 18446744073709551616) : parseUint (formatInt n) = some n := by
  rw [parseUint, formatInt, if_neg (by omega), String.toList_ofList, Int.natAbs_natCast,
    digitsValue_toDigits, Option.bind_some, if_pos h]

/-- A number is stored in a `uint64` if it is one. -/
def Value.storeUint (old : ℕ) : Value → Option ℕ
  | .number literal => parseUint literal
  | .null => some old
  | _ => none

/-- `json.Unmarshal` into a structure: the members are stored one after the other, those
that have no field are skipped. -/
def unmarshal {σ : Type*} (fields : List (String × (σ → Value → Option σ))) (zero : σ) :
    Value → Option σ
  | .null => some zero
  | .object members => members.foldlM (fun state m => match field fields m.1 with
      | some store => store state m.2
      | none => some state) zero
  | _ => none

/-! ### Records -/

/-- What a member of a record holds. -/
inductive Scalar where
  | text (s : String)
  | int (n : ℤ)
deriving DecidableEq

def Scalar.render : Scalar → List Char
  | .text s => quote s
  | .int n => (formatInt n).toList

/-- What the member is read as. -/
def Scalar.value : Scalar → Value
  | .text s => .string s
  | .int n => .number (formatInt n)

def member (field : String × Scalar) : List Char := quote field.1 ++ ':' :: field.2.render

def memberList : List (String × Scalar) → List Char
  | [] => []
  | [field] => member field
  | field :: next :: rest => member field ++ ',' :: memberList (next :: rest)

/-- `json.Marshal` of a record. -/
def object (fields : List (String × Scalar)) : String :=
  String.ofList ('{' :: (memberList fields ++ ['}']))

/-- A number begins with no character that begins another value or is a blank. -/
theorem formatInt_head (n : ℤ) : ∃ d ds, (formatInt n).toList = d :: ds ∧
    d ∉ ['n', 't', 'f', '"', '[', '{', ' ', '\t', '\n', '\r'] := by
  unfold formatInt
  split
  · exact ⟨'-', _, String.toList_ofList, by decide⟩
  · cases hds : Nat.toDigits 10 n.natAbs with
    | nil => exact absurd hds Nat.toDigits_ne_nil
    | cons d ds =>
      refine ⟨d, ds, String.toList_ofList, ?_⟩
      intro hmem
      have hdigit : d.isDigit = true :=
        Nat.isDigit_of_mem_toDigits (by decide) (by decide) (hds ▸ List.mem_cons_self)
      have hall : ['n', 't', 'f', '"', '[', '{', ' ', '\t', '\n', '\r'].all (!·.isDigit) = true := by decide
      have hother := List.all_eq_true.mp hall d hmem
      rw [hdigit] at hother
      cases hother

theorem literal_number {input : List Char} {d : Char} {ds : List Char} (hinput : input = d :: ds)
    (hd : d ∉ ['n', 't', 'f']) : literal input = (number input).map fun p => (.number p.1, p.2) := by
  simp only [List.mem_cons, List.not_mem_nil, or_false, not_or] at hd
  have hfirst : ∀ (c : Char) (word : List Char), d ≠ c → (c :: word).isPrefixOf input = false := by
    intro c word hc
    rw [hinput, List.isPrefixOf, Bool.and_eq_false_iff]
    exact Or.inl (beq_eq_false_iff_ne.mpr (Ne.symm hc))
  have hnull : "null".toList.isPrefixOf input = false := hfirst 'n' ['u', 'l', 'l'] hd.1
  have htrue : "true".toList.isPrefixOf input = false := hfirst 't' ['r', 'u', 'e'] hd.2.1
  have hfalse : "false".toList.isPrefixOf input = false := hfirst 'f' ['a', 'l', 's', 'e'] hd.2.2
  simp only [literal, hnull, htrue, hfalse, Bool.false_eq_true, if_false]

theorem value_number {input : List Char} {d : Char} {ds : List Char} (hinput : input = d :: ds)
    (hd : d ∉ ['n', 't', 'f', '"', '[', '{', ' ', '\t', '\n', '\r']) (fuel depth : ℕ) :
    value (fuel + 1) depth input = (number input).map fun p => (.number p.1, p.2) := by
  have hliteral := literal_number hinput (fun h => hd (by simp only [List.mem_cons] at h ⊢; tauto))
  simp only [List.mem_cons, List.not_mem_nil, or_false, not_or] at hd
  have hskip : skipSpace input = input := by
    rw [skipSpace, hinput]
    exact List.dropWhile_cons_of_neg (by simp; tauto)
  rw [value, hskip, ← hliteral, hinput]
  split
  · rename_i heq
    exact absurd (List.cons.inj heq).1 (by tauto)
  · rename_i heq
    exact absurd (List.cons.inj heq).1 (by tauto)
  · rename_i heq
    exact absurd (List.cons.inj heq).1 (by tauto)
  · rfl

theorem value_render (item : Scalar) (fuel depth : ℕ) {c : Char} (hc : Closing c) (rest : List Char) :
    value (fuel + 1) depth (item.render ++ c :: rest) = some (item.value, c :: rest) := by
  cases item with
  | text s =>
    have hskip : skipSpace (quote s ++ c :: rest)
        = '"' :: (s.toList.flatMap escape ++ '"' :: (c :: rest)) := by
      simp [quote, skipSpace]
    rw [Scalar.render, value, hskip]
    simp only [text_quote, Option.map_some, Scalar.value]
  | int n =>
    obtain ⟨d, ds, hhead, hd⟩ := formatInt_head n
    have hinput : (formatInt n).toList ++ c :: rest = d :: (ds ++ c :: rest) := by
      rw [hhead, List.cons_append]
    rw [Scalar.render, value_number hinput hd, number_formatInt n hc, Option.map_some, Scalar.value]

theorem skipSpace_closing {c : Char} (hc : Closing c) (rest : List Char) :
    skipSpace (c :: rest) = c :: rest := by
  rcases hc with rfl | rfl
  · rfl
  · rfl

/-- One member is read: what follows it decides whether there are others. -/
theorem members_member (field : String × Scalar) (fuel depth : ℕ) {c : Char} (hc : Closing c)
    (rest : List Char) :
    members (fuel + 2) depth (member field ++ c :: rest) =
      if c = '}' then some ([(field.1, field.2.value)], rest)
      else (members (fuel + 1) depth rest).map fun p => ((field.1, field.2.value) :: p.1, p.2) := by
  have hname : skipSpace (member field ++ c :: rest)
      = '"' :: (field.1.toList.flatMap escape ++ '"' :: (':' :: (field.2.render ++ c :: rest))) := by
    simp [member, quote, skipSpace]
  have hcolon : ∀ rest, skipSpace (':' :: rest) = ':' :: rest := fun _ => rfl
  rw [members, hname]
  simp only [text_quote, Option.bind_eq_bind, Option.bind_some, hcolon, value_render _ _ _ hc,
    skipSpace_closing hc]
  rcases hc with rfl | rfl
  · rfl
  · rfl

theorem members_memberList (field : String × Scalar) (fields : List (String × Scalar)) (fuel depth : ℕ)
    (rest : List Char) (hfuel : fields.length + 2 ≤ fuel) :
    members fuel depth (memberList (field :: fields) ++ '}' :: rest)
      = some ((field :: fields).map fun p => (p.1, p.2.value), rest) := by
  induction fields generalizing field fuel with
  | nil =>
    obtain ⟨fuel, rfl⟩ := Nat.exists_eq_add_of_le' hfuel
    rw [memberList]
    exact members_member field fuel depth (Or.inr rfl) rest
  | cons next fields ih =>
    obtain ⟨fuel, rfl⟩ : ∃ k, fuel = k + 2 := ⟨fuel - 2, by omega⟩
    rw [memberList, List.append_assoc, List.cons_append,
      members_member field fuel depth (Or.inl rfl), if_neg (by decide),
      ih next (fuel + 1) (by simp only [List.length_cons] at hfuel; omega)]
    rfl

theorem length_le_memberList : ∀ fields : List (String × Scalar), fields.length ≤ (memberList fields).length
  | [] => Nat.zero_le _
  | [field] => by simp [memberList, member, quote]
  | field :: next :: rest => by
    have ih := length_le_memberList (next :: rest)
    simp only [memberList, List.length_append, List.length_cons] at ih ⊢
    omega

/-- **A record is read back**, member by member. -/
theorem parse_object (fields : List (String × Scalar)) :
    parse (utf8 (object fields)) = some (.object (fields.map fun p => (p.1, p.2.value))) := by
  have hrunes : runes (utf8 (object fields)) = '{' :: (memberList fields ++ ['}']) := by
    rw [runes_utf8, object, String.toList_ofList]
  have hskip : ∀ rest, skipSpace ('{' :: rest) = '{' :: rest := fun _ => rfl
  rw [parse, hrunes, value, hskip]
  cases fields with
  | nil => rfl
  | cons field fields =>
    have hlength := length_le_memberList (field :: fields)
    have hname : (skipSpace (memberList (field :: fields) ++ ['}'])).head? = some '"' := by
      cases fields with
      | nil => simp [memberList, member, quote, skipSpace]
      | cons next fields => simp [memberList, member, quote, skipSpace]
    simp only [hname, maxNestingDepth]
    rw [if_neg (by decide), if_neg (by decide), members_memberList field fields _ _ []
      (by simp only [List.length_cons, List.length_append, List.length_nil] at hlength ⊢; omega)]
    rfl

end Json
end KubeCost
