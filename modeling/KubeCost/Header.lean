/-
# HTTP headers

Go's `net/http` header maps. A key is canonical: the first letter and every letter after
a hyphen upper case, the others lower case; a header is read, set and deleted under
the canonical form of the name it is given (`canonicalHeaderKey`).

`removeHopByHop` is what `httputil.ReverseProxy` does to a request between its
director and the transport: the headers that `Connection` names are deleted, and
then the hop-by-hop headers. `removeHopByHop_of_not_named` and
`removeHopByHop_of_named` say what is left of any other header.
-/
import Mathlib.Logic.Function.Basic
import Mathlib.Data.List.Basic
import KubeCost.Text

namespace KubeCost

/-- `validHeaderFieldByte`: the characters of a token. -/
def isTokenChar (c : Char) : Bool :=
  c.isAlphanum || [0x21, 0x23, 0x24, 0x25, 0x26, 0x27, 0x2a, 0x2b, 0x2d, 0x2e, 0x5e, 0x5f, 0x60,
    0x7c, 0x7e].contains c.toNat

/-- The canonical form from a letter that is to be `upper` on. -/
def canonicalChars : Bool → List Char → List Char
  | _, [] => []
  | upper, c :: cs => (if upper then c.toUpper else c.toLower) :: canonicalChars (c = '-') cs

/-- `textproto.CanonicalMIMEHeaderKey`. What is not a token is left as it is. -/
def canonicalHeaderKey (s : String) : String :=
  if s.toList.all isTokenChar then String.ofList (canonicalChars true s.toList) else s

/-- The values of each canonical key, none for a key that is not there. -/
abbrev Header := String → List String

namespace Header

/-- `Header.Get`: the first value, empty for a missing key. -/
def get (h : Header) (key : String) : String := (h (canonicalHeaderKey key)).headD ""

/-- `Header.Set`. -/
def set (h : Header) (key value : String) : Header :=
  Function.update h (canonicalHeaderKey key) [value]

/-- `Header.Del`. -/
def del (h : Header) (key : String) : Header := Function.update h (canonicalHeaderKey key) []

variable {h : Header} {k key value : String}

theorem set_self (hk : canonicalHeaderKey key = k) : h.set key value k = [value] := by
  rw [set, hk, Function.update_self]

theorem set_of_ne (hk : canonicalHeaderKey key ≠ k) : h.set key value k = h k :=
  Function.update_of_ne (Ne.symm hk) _ _

theorem del_self (hk : canonicalHeaderKey key = k) : h.del key k = [] := by
  rw [del, hk, Function.update_self]

theorem del_of_ne (hk : canonicalHeaderKey key ≠ k) : h.del key k = h k :=
  Function.update_of_ne (Ne.symm hk) _ _

theorem get_set (h : Header) (key value other : String) : (h.set key value).get other =
    if canonicalHeaderKey key = canonicalHeaderKey other then value else h.get other := by
  rw [get]
  split
  · rename_i hk
    rw [set_self hk]
    rfl
  · rename_i hk
    rw [set_of_ne hk]
    rfl

/-! ### Hop-by-hop headers -/

/-- `textproto.TrimString`: without the blanks, tabs and line ends around it. -/
def trimString (s : String) : String :=
  let blank : Char → Bool := fun c => c = ' ' || c = '\t' || c = '\n' || c = '\r'
  String.ofList (((s.toList.dropWhile blank).reverse.dropWhile blank).reverse)

/-- The names that the values of `Connection` list. -/
def connectionNames (values : List String) : List String :=
  ((values.flatMap fun f => (List.splitOn ',' f.toList).map String.ofList).map trimString).filter
    (· ≠ "")

/-- `hopHeaders`. -/
def hopHeaders : List String :=
  ["Connection", "Proxy-Connection", "Keep-Alive", "Proxy-Authenticate", "Proxy-Authorization",
    "Te", "Trailer", "Transfer-Encoding", "Upgrade"]

def removeAll (h : Header) (names : List String) : Header := names.foldl del h

/-- `removeHopByHopHeaders`. -/
def removeHopByHop (h : Header) : Header :=
  (h.removeAll (connectionNames (h "Connection"))).removeAll hopHeaders

/-- **The request asks for the header to be removed**: `Connection` names it. -/
def Named (h : Header) (k : String) : Prop :=
  ∃ name ∈ connectionNames (h "Connection"), canonicalHeaderKey name = k

instance (h : Header) (k : String) : Decidable (h.Named k) := inferInstanceAs (Decidable (∃ _ ∈ _, _))

theorem removeAll_of_not_mem : ∀ {names : List String} {h : Header},
    (∀ name ∈ names, canonicalHeaderKey name ≠ k) → h.removeAll names k = h k
  | [], _, _ => rfl
  | name :: names, h, hnames => by
    rw [removeAll, List.foldl_cons]
    refine (removeAll_of_not_mem fun n hn => hnames n (List.mem_cons_of_mem _ hn)).trans ?_
    exact del_of_ne (hnames name List.mem_cons_self)

theorem removeAll_of_nil : ∀ {names : List String} {h : Header}, h k = [] → h.removeAll names k = []
  | [], _, hk => hk
  | name :: names, h, hk => by
    rw [removeAll, List.foldl_cons]
    refine removeAll_of_nil ?_
    by_cases hname : canonicalHeaderKey name = k
    · exact del_self hname
    · rwa [del_of_ne hname]

theorem removeAll_of_mem : ∀ {names : List String} {h : Header} {name : String},
    name ∈ names → canonicalHeaderKey name = k → h.removeAll names k = []
  | first :: names, h, name, hmem, hk => by
    rw [removeAll, List.foldl_cons]
    rcases List.mem_cons.mp hmem with rfl | hmem
    · exact removeAll_of_nil (del_self hk)
    · exact removeAll_of_mem hmem hk

/-- A header that `Connection` does not name is forwarded as it is. -/
theorem removeHopByHop_of_not_named (hk : ¬ h.Named k)
    (hhop : ∀ name ∈ hopHeaders, canonicalHeaderKey name ≠ k) : h.removeHopByHop k = h k := by
  rw [removeHopByHop, removeAll_of_not_mem hhop, removeAll_of_not_mem]
  exact fun name hname heq => hk ⟨name, hname, heq⟩

/-- A header that `Connection` names is not forwarded. -/
theorem removeHopByHop_of_named (hk : h.Named k) : h.removeHopByHop k = [] := by
  obtain ⟨name, hname, heq⟩ := hk
  exact removeAll_of_nil (removeAll_of_mem hname heq)

end Header

end KubeCost
