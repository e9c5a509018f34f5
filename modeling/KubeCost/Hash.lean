/-
# Hashes

SHA-256 and SHA-1 as `crypto/sha256` and `crypto/sha1` compute them, and the name-based
UUID made of a SHA-1 sum. Words of 32 bits are numbers below 2 ^ 32.

The results of the development hold for any hash and never look into one; the functions
are here so that runs on concrete inputs have the bytes that the services would have.
-/
import KubeCost.Text

namespace KubeCost
namespace Hash

/-- The sum of words. -/
def add (x y : ℕ) : ℕ := (x + y) % 4294967296

def rotateRight (x n : ℕ) : ℕ := (x >>> n) ||| ((x <<< (32 - n)) % 4294967296)

def rotateLeft (x n : ℕ) : ℕ := rotateRight x (32 - n)

def complement (x : ℕ) : ℕ := 4294967295 - x

/-- The number whose bytes these are, the most significant first. -/
def word (bytes : List ℕ) : ℕ := bytes.foldl (fun n b => n * 256 + b) 0

/-- The last `n` bytes of a number. -/
def bytesOf (n x : ℕ) : List ℕ := (List.range n).reverse.map fun i => (x >>> (8 * i)) % 256

def chunksOf (n : ℕ) : ℕ → List ℕ → List (List ℕ)
  | 0, _ => []
  | _ + 1, [] => []
  | fuel + 1, bytes => bytes.take n :: chunksOf n fuel (bytes.drop n)

/-- The list in pieces of `n`. -/
def chunks (n : ℕ) (bytes : List ℕ) : List (List ℕ) := chunksOf n bytes.length bytes

/-- The message with its padding: whole blocks, with the length in bits at the end. -/
def pad (message : List ℕ) : List ℕ :=
  message ++ 128 :: (List.replicate ((119 - message.length % 64) % 64) 0 ++
    bytesOf 8 (8 * message.length))

/-- The blocks of 16 words of a message. -/
def blocks (message : List UInt8) : List (List ℕ) :=
  (chunks 64 (pad (message.map UInt8.toNat))).map fun block => (chunks 4 block).map word

def digest (words : List ℕ) : List UInt8 := (words.flatMap (bytesOf 4)).map UInt8.ofNat

/-! ### SHA-256 -/

def roundConstants : List ℕ :=
  [0x428a2f98, 0x71374491, 0xb5c0fbcf, 0xe9b5dba5, 0x3956c25b, 0x59f111f1, 0x923f82a4, 0xab1c5ed5,
    0xd807aa98, 0x12835b01, 0x243185be, 0x550c7dc3, 0x72be5d74, 0x80deb1fe, 0x9bdc06a7, 0xc19bf174,
    0xe49b69c1, 0xefbe4786, 0x0fc19dc6, 0x240ca1cc, 0x2de92c6f, 0x4a7484aa, 0x5cb0a9dc, 0x76f988da,
    0x983e5152, 0xa831c66d, 0xb00327c8, 0xbf597fc7, 0xc6e00bf3, 0xd5a79147, 0x06ca6351, 0x14292967,
    0x27b70a85, 0x2e1b2138, 0x4d2c6dfc, 0x53380d13, 0x650a7354, 0x766a0abb, 0x81c2c92e, 0x92722c85,
    0xa2bfe8a1, 0xa81a664b, 0xc24b8b70, 0xc76c51a3, 0xd192e819, 0xd6990624, 0xf40e3585, 0x106aa070,
    0x19a4c116, 0x1e376c08, 0x2748774c, 0x34b0bcb5, 0x391c0cb3, 0x4ed8aa4a, 0x5b9cca4f, 0x682e6ff3,
    0x748f82ee, 0x78a5636f, 0x84c87814, 0x8cc70208, 0x90befffa, 0xa4506ceb, 0xbef9a3f7, 0xc67178f2]

structure Sha256State where
  a : ℕ
  b : ℕ
  c : ℕ
  d : ℕ
  e : ℕ
  f : ℕ
  g : ℕ
  h : ℕ

/-- The rounds of a block; `window` is the next sixteen words of the message schedule. -/
def sha256Rounds : List ℕ → List ℕ → Sha256State → Sha256State
  | [], _, s => s
  | k :: constants, window, s =>
    let w := window.getD 0 0
    let w₁ := window.getD 1 0
    let w₁₄ := window.getD 14 0
    let σ₀ := rotateRight w₁ 7 ^^^ rotateRight w₁ 18 ^^^ (w₁ >>> 3)
    let σ₁ := rotateRight w₁₄ 17 ^^^ rotateRight w₁₄ 19 ^^^ (w₁₄ >>> 10)
    let next := add (w + σ₀) (window.getD 9 0 + σ₁)
    let choice := (s.e &&& s.f) ^^^ (complement s.e &&& s.g)
    let majority := (s.a &&& s.b) ^^^ (s.a &&& s.c) ^^^ (s.b &&& s.c)
    let sum₁ := rotateRight s.e 6 ^^^ rotateRight s.e 11 ^^^ rotateRight s.e 25
    let sum₀ := rotateRight s.a 2 ^^^ rotateRight s.a 13 ^^^ rotateRight s.a 22
    let t := s.h + sum₁ + choice + k + w
    sha256Rounds constants (window.tail ++ [next])
      ⟨add t (sum₀ + majority), s.a, s.b, s.c, add s.d t, s.e, s.f, s.g⟩

def sha256Block (s : Sha256State) (block : List ℕ) : Sha256State :=
  let r := sha256Rounds roundConstants block s
  ⟨add s.a r.a, add s.b r.b, add s.c r.c, add s.d r.d, add s.e r.e, add s.f r.f, add s.g r.g,
    add s.h r.h⟩

/-- `sha256.Sum256`. -/
@[irreducible] def sha256 (message : List UInt8) : List UInt8 :=
  let s := (blocks message).foldl sha256Block ⟨0x6a09e667, 0xbb67ae85, 0x3c6ef372, 0xa54ff53a,
    0x510e527f, 0x9b05688c, 0x1f83d9ab, 0x5be0cd19⟩
  digest [s.a, s.b, s.c, s.d, s.e, s.f, s.g, s.h]

example : hexEncode (sha256 (utf8 "abc")) =
    "ba7816bf8f01cfea414140de5dae2223b00361a396177a9cb410ff61f20015ad" := by decide +kernel

theorem sha256_ne_nil (message : List UInt8) : sha256 message ≠ [] := by
  unfold sha256 digest
  simp only [List.flatMap_cons, List.map_append]
  exact List.append_ne_nil_of_left_ne_nil (by simp [bytesOf]) _

theorem hexEncode_sha256_ne (message : List UInt8) : hexEncode (sha256 message) ≠ "" := by
  intro h
  have hlength := congrArg (fun s => s.toList.length) h
  simp only [hexEncode] at hlength
  cases hbytes : sha256 message with
  | nil => exact sha256_ne_nil message hbytes
  | cons byte bytes =>
    rw [hbytes] at hlength
    simp at hlength

/-- `hmac.New(sha256.New, key)` over the message: a key longer than a block is hashed, a
shorter one is filled up with zeros. -/
@[irreducible] def hmacSHA256 (key message : List UInt8) : List UInt8 :=
  let key := if key.length > 64 then sha256 key else key
  let block := key ++ List.replicate (64 - key.length) 0
  sha256 (block.map (0x5c ^^^ ·) ++ sha256 (block.map (0x36 ^^^ ·) ++ message))

theorem hmacSHA256_ne_nil (key message : List UInt8) : hmacSHA256 key message ≠ [] := by
  unfold hmacSHA256
  exact sha256_ne_nil _

example : hexEncode (hmacSHA256 (utf8 "key") (utf8 "The quick brown fox jumps over the lazy dog")) =
    "f7bc83f430538424b13298e6aa6fb143ef4d59a14946175997479dbc2d1a3cd8" := by decide +kernel

/-! ### SHA-1 and UUIDs -/

structure Sha1State where
  a : ℕ
  b : ℕ
  c : ℕ
  d : ℕ
  e : ℕ

/-- The function and the constant of a round. -/
def sha1Round (t : ℕ) (s : Sha1State) : ℕ × ℕ :=
  if t < 20 then ((s.b &&& s.c) ||| (complement s.b &&& s.d), 0x5a827999)
  else if t < 40 then (s.b ^^^ s.c ^^^ s.d, 0x6ed9eba1)
  else if t < 60 then ((s.b &&& s.c) ||| (s.b &&& s.d) ||| (s.c &&& s.d), 0x8f1bbcdc)
  else (s.b ^^^ s.c ^^^ s.d, 0xca62c1d6)

def sha1Rounds : List ℕ → List ℕ → Sha1State → Sha1State
  | [], _, s => s
  | t :: rounds, window, s =>
    let w := window.getD 0 0
    let next := rotateLeft
      (window.getD 13 0 ^^^ window.getD 8 0 ^^^ window.getD 2 0 ^^^ w) 1
    let (f, k) := sha1Round t s
    sha1Rounds rounds (window.tail ++ [next])
      ⟨add (rotateLeft s.a 5) (f + s.e + k + w), s.a, rotateLeft s.b 30, s.c, s.d⟩

def sha1Block (s : Sha1State) (block : List ℕ) : Sha1State :=
  let r := sha1Rounds (List.range 80) block s
  ⟨add s.a r.a, add s.b r.b, add s.c r.c, add s.d r.d, add s.e r.e⟩

/-- `sha1.Sum`. -/
def sha1 (message : List UInt8) : List UInt8 :=
  let s := (blocks message).foldl sha1Block
    ⟨0x67452301, 0xefcdab89, 0x98badcfe, 0x10325476, 0xc3d2e1f0⟩
  digest [s.a, s.b, s.c, s.d, s.e]

/-- `uuid.NameSpaceOID`. -/
def nameSpaceOID : List UInt8 :=
  [0x6b, 0xa7, 0xb8, 0x12, 0x9d, 0xad, 0x11, 0xd1, 0x80, 0xb4, 0x00, 0xc0, 0x4f, 0xd4, 0x30, 0xc8]

/-- The text of the sixteen bytes. -/
def uuidString (bytes : List UInt8) : String :=
  hexEncode (bytes.take 4) ++ "-" ++ hexEncode ((bytes.drop 4).take 2) ++ "-" ++
    hexEncode ((bytes.drop 6).take 2) ++ "-" ++ hexEncode ((bytes.drop 8).take 2) ++ "-" ++
    hexEncode (bytes.drop 10)

/-- The text of `uuid.NewSHA1(uuid.NameSpaceOID, ·)`, which is
`uuid.NewHash(sha1.New(), uuid.NameSpaceOID, ·, 5)`. -/
@[irreducible] def uuidSHA1 (name : String) : String :=
  let bytes := (sha1 (nameSpaceOID ++ utf8 name)).take 16
  let bytes := bytes.modify 6 fun b => (b &&& 0x0f) ||| 0x50
  uuidString (bytes.modify 8 fun b => (b &&& 0x3f) ||| 0x80)

example : uuidSHA1 "node" = "72a1c690-cb16-5946-ba02-f638556c4f7c" := by decide +kernel

end Hash
end KubeCost
