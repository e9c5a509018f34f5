/-
# The quantities of a node claim

`services/integrations/reader.go`: a node claim of Karpenter has its capacity and its
requests as quantities of Kubernetes, which `quantityAt` finds and `parseQuantity` reads.
It is not told whether it reads processors or memory. It goes by the letters of the text:
with an `i` or one of `E`, `G`, `M` and `K` it takes whole units, without them thousandths
(`parseQuantity_text`). So memory that is written without a suffix, or in `k`, `T` or `P`,
becomes a thousand times as much, and processors in `M`, `G` or `E` a thousandth.

`read_by_value_iff` says for which spellings the number that is read depends on the value
only.

`resource.ParseQuantity` returns the value of a spelling, `Value` and `MilliValue` round
up, and the values fit `int64`. Of an object there are the fields that `parseNodeClaim`
reads, and `float64` is read as exact.
-/
import Mathlib.Data.Rat.Floor
import KubeCost.Json
import KubeCost.Numeral

namespace KubeCost
namespace Integrations

open Numeral

/-! ### Quantities -/

/-- What the service takes from other packages: `resource.ParseQuantity`, by the exact value
with none for an error, and `fmt.Sprint` of a value that is not a string. -/
structure Packages where
  parseQuantity : String → Option ℚ
  sprint : Json.Value → String

/-- `Value`, which rounds away from zero. -/
def value (q : ℚ) : ℤ := if 0 ≤ q then ⌈q⌉ else ⌊q⌋

/-- `MilliValue`. -/
def milliValue (q : ℚ) : ℤ := value (1000 * q)

/-- `uint64` of an `int64`. -/
def uint64 (n : ℤ) : ℕ := (n % 18446744073709551616).toNat

/-- `strconv.ParseUint(value, 10, 64)`. -/
def parseUint (value : String) : Option ℕ :=
  (digitsValue value.toList).filter (· < 18446744073709551616)

def parseQuantity (P : Packages) (value : String) : ℕ :=
  if trimSpace value = "" then 0
  else
    match P.parseQuantity value with
    | some quantity =>
      if hasSuffix value "m" then uint64 (milliValue quantity)
      else if contains value "i" || contains value "E" || contains value "G" ||
          contains value "M" || contains value "K" then
        uint64 (Integrations.value quantity)
      else uint64 (milliValue quantity)
    | none => (parseUint value).getD 0

/-- `unstructured.NestedFieldNoCopy`. -/
def nestedField : Json.Value → List String → Option Json.Value
  | value, [] => some value
  | .object members, field :: rest =>
    match members.lookup field with
    | none => none
    | some value => nestedField value rest
  | _, _ :: _ => none

def quantityAt (P : Packages) (object : Json.Value) (fields : List String) : ℕ :=
  match nestedField object fields with
  | some (.string value) => parseQuantity P value
  | some raw => parseQuantity P (P.sprint raw)
  | none => 0

/-! ### Node claims -/

/-- An object of Karpenter: what the accessors return, and its fields. -/
structure Unstructured where
  name : String
  uid : String
  labels : List (String × String)
  object : Json.Value

structure NodeMetric where
  cpuCapacity : ℕ := 0
  memoryCapacity : ℕ := 0

structure NodeClaim where
  name : String
  uid : String
  nodePoolName : String
  nodeClassName : String
  nodeName : String
  capacityType : String
  instanceType : String
  zone : String
  architecture : String
  ready : Bool
  cpuCapacityMillicores : ℕ
  memoryCapacityBytes : ℕ
  cpuRequestedMillicores : ℕ
  memoryRequestedBytes : ℕ
  cpuUtilizationPercent : ℚ
  memoryUtilizationPercent : ℚ

def nestedString (object : Json.Value) (fields : List String) : String :=
  match nestedField object fields with
  | some (.string value) => value
  | _ => ""

def label (item : Unstructured) (key : String) : String := (item.labels.lookup key).getD ""

def firstString (values : List String) : String := (values.find? (· ≠ "")).getD ""

def firstUint64 (values : List ℕ) : ℕ := (values.find? (· ≠ 0)).getD 0

/-- `fmt.Sprint(m[key])` of a map. -/
def sprintMember (P : Packages) (members : List (String × Json.Value)) (key : String) : String :=
  match members.lookup key with
  | some (.string s) => s
  | some raw => P.sprint raw
  | none => P.sprint .null

def conditionTrue (P : Packages) (object : Json.Value) (conditionType : String) : Bool :=
  match nestedField object ["status", "conditions"] with
  | some (.array conditions) => conditions.any fun
    | .object condition =>
      sprintMember P condition "type" = conditionType && sprintMember P condition "status" = "True"
    | _ => false
  | _ => false

/-- `roundScore`: two digits after the point. -/
def roundScore (q : ℚ) : ℚ := ⌊q * 100 + 1 / 2⌋ / 100

def percent (numerator denominator : ℕ) : ℚ :=
  if denominator = 0 then 0 else roundScore ((numerator : ℚ) / denominator * 100)

def cpuCapacityFields : List String := ["status", "capacity", "cpu"]

def memoryCapacityFields : List String := ["status", "capacity", "memory"]

def cpuRequestFields : List String := ["status", "resources", "requests", "cpu"]

def memoryRequestFields : List String := ["status", "resources", "requests", "memory"]

def parseNodeClaim (P : Packages) (item : Unstructured) (nodeMetrics : String → NodeMetric) :
    NodeClaim :=
  let nodeName := firstString
    [nestedString item.object ["status", "nodeName"], nestedString item.object ["status", "node"]]
  let metric := nodeMetrics nodeName
  let cpuCapacity := firstUint64 [quantityAt P item.object cpuCapacityFields, metric.cpuCapacity]
  let memoryCapacity :=
    firstUint64 [quantityAt P item.object memoryCapacityFields, metric.memoryCapacity]
  let cpuRequested := quantityAt P item.object cpuRequestFields
  let memoryRequested := quantityAt P item.object memoryRequestFields
  { name := item.name
    uid := item.uid
    nodePoolName := firstString
      [label item "karpenter.sh/nodepool", nestedString item.object ["spec", "nodePoolName"]]
    nodeClassName := firstString [nestedString item.object ["spec", "nodeClassRef", "name"],
      label item "karpenter.k8s.aws/ec2nodeclass"]
    nodeName := nodeName
    capacityType := label item "karpenter.sh/capacity-type"
    instanceType := label item "node.kubernetes.io/instance-type"
    zone := label item "topology.kubernetes.io/zone"
    architecture := label item "kubernetes.io/arch"
    ready := conditionTrue P item.object "Ready"
    cpuCapacityMillicores := cpuCapacity
    memoryCapacityBytes := memoryCapacity
    cpuRequestedMillicores := cpuRequested
    memoryRequestedBytes := memoryRequested
    cpuUtilizationPercent := percent cpuRequested cpuCapacity
    memoryUtilizationPercent := percent memoryRequested memoryCapacity }

/-! ### How a spelling is read -/

variable {P : Packages} {s t : Spelling}

/-- The suffixes with which whole units are read. -/
def readsWhole : Suffix → Bool
  | .mega | .giga | .exa | .kibi | .mebi | .gibi | .tebi | .pebi | .exbi => true
  | .unit | .milli | .kilo | .tera | .peta => false

theorem contains_letter {value sub : String} {c : Char} (hsub : sub.toList = [c]) :
    contains value sub = true ↔ c ∈ value.toList := by
  rw [contains, decide_eq_true_eq, hsub, List.singleton_infix_iff]

theorem hasSuffix_letter {value sub : String} {c : Char} (hsub : sub.toList = [c]) :
    hasSuffix value sub = true ↔ value.toList.getLast? = some c := by
  rw [hasSuffix, List.isSuffixOf_iff_suffix, hsub, List.singleton_suffix_iff_getLast?_eq_some]

/-- A letter that the reader looks for is no character of a number. -/
theorem not_isNumberChar {c : Char} (h : c ∈ ['m', 'i', 'E', 'G', 'M', 'K']) :
    ¬ Spelling.IsNumberChar c := by
  simp only [List.mem_cons, List.not_mem_nil, or_false] at h
  unfold Spelling.IsNumberChar
  rcases h with rfl | rfl | rfl | rfl | rfl | rfl <;> decide

theorem contains_text (sub : String) (c : Char) (hsub : sub.toList = [c])
    (hc : c ∈ ['m', 'i', 'E', 'G', 'M', 'K']) :
    contains s.text sub = true ↔ c ∈ s.suffix.text.toList := by
  rw [contains_letter hsub, Spelling.mem_text_iff (not_isNumberChar hc)]

theorem hasSuffix_text : hasSuffix s.text "m" = true ↔ s.suffix = .milli := by
  rw [hasSuffix_letter rfl, Spelling.getLast?_text (not_isNumberChar (by decide))]
  cases s.suffix <;> decide

/-- The letters that the reader looks for are those of the suffixes with whole units. -/
theorem letters_text :
    (contains s.text "i" || contains s.text "E" || contains s.text "G" || contains s.text "M" ||
      contains s.text "K") = readsWhole s.suffix := by
  rw [Bool.eq_iff_iff]
  rw [Bool.or_eq_true, Bool.or_eq_true, Bool.or_eq_true, Bool.or_eq_true,
    contains_text "i" 'i' rfl (by decide), contains_text "E" 'E' rfl (by decide),
    contains_text "G" 'G' rfl (by decide), contains_text "M" 'M' rfl (by decide),
    contains_text "K" 'K' rfl (by decide)]
  cases s.suffix <;> decide

/-- Rounded up, a value that is not negative and fits is read as it is. -/
theorem uint64_value {q : ℚ} (hnonneg : 0 ≤ q) (hrange : q ≤ 9223372036854775807) :
    uint64 (value q) = ⌈q⌉₊ := by
  have hlow : 0 ≤ ⌈q⌉ := Int.ceil_nonneg hnonneg
  have hhigh : ⌈q⌉ ≤ 9223372036854775807 := Int.ceil_le.mpr (by exact_mod_cast hrange)
  rw [value, if_pos hnonneg, uint64, Int.emod_eq_of_lt hlow (by omega), Int.ceil_toNat]

/-- **How a spelling is read**: in whole units or in thousandths, by its suffix. -/
theorem parseQuantity_text (hexact : P.parseQuantity s.text = some s.value) (hnonneg : 0 ≤ s.value)
    (hrange : 1000 * s.value ≤ 9223372036854775807) :
    parseQuantity P s.text = if readsWhole s.suffix then ⌈s.value⌉₊ else ⌈1000 * s.value⌉₊ := by
  have hvalue : uint64 (value s.value) = ⌈s.value⌉₊ := uint64_value hnonneg (by linarith)
  have hmilli : uint64 (milliValue s.value) = ⌈1000 * s.value⌉₊ := uint64_value (by linarith) hrange
  rw [parseQuantity, if_neg s.trimSpace_text, hexact]
  simp only [letters_text, hvalue, hmilli]
  by_cases hm : hasSuffix s.text "m" = true
  · rw [if_pos hm, hasSuffix_text.mp hm]
    rfl
  · rw [if_neg hm]

/-- Rounded up, a value and its thousandths are as many for a thousandth at most. -/
theorem ceil_eq_ceil_milli_iff {v : ℚ} (hnonneg : 0 ≤ v) :
    ⌈1000 * v⌉₊ = ⌈v⌉₊ ↔ v ≤ 1 / 1000 := by
  constructor
  · intro h
    by_contra hlt
    rw [not_le] at hlt
    have hmilli : 1000 * v ≤ ⌈v⌉₊ := h ▸ Nat.le_ceil (1000 * v)
    have hceil := Nat.ceil_lt_add_one hnonneg
    have hone : ⌈v⌉₊ ≤ 1 := Nat.ceil_le.mpr (by push_cast; linarith)
    have hlarge : 1 < ⌈1000 * v⌉₊ := Nat.lt_ceil.mpr (by push_cast; linarith)
    omega
  · intro hle
    rcases hnonneg.eq_or_lt with rfl | hpos
    · simp
    · have hceil : ⌈v⌉₊ = 1 := (Nat.ceil_eq_iff one_ne_zero).mpr ⟨by simpa using hpos, by push_cast; linarith⟩
      have hmilli : ⌈1000 * v⌉₊ = 1 :=
        (Nat.ceil_eq_iff one_ne_zero).mpr ⟨by simpa using hpos, by push_cast; linarith⟩
      rw [hceil, hmilli]

theorem quantityAt_string {object : Json.Value} {fields : List String} {text : String}
    (h : nestedField object fields = some (.string text)) :
    quantityAt P object fields = parseQuantity P text := by
  rw [quantityAt, h]

/-- **For which spellings the value decides.** For every two spellings of one value that is
not negative, wherever `quantityAt` finds them: as bytes, both are read as the value rounded
up exactly if both have a suffix with which whole units are read; the same number is read
exactly if both or neither have one; and as millicores, both are read as the thousandths
rounded up exactly if neither has one. Up to a thousandth there is no difference. -/
theorem read_by_value_iff (P : Packages) (s t : Spelling) {object object' : Json.Value}
    {fields fields' : List String} (hs : nestedField object fields = some (.string s.text))
    (ht : nestedField object' fields' = some (.string t.text))
    (hexact : P.parseQuantity s.text = some s.value) (hexact' : P.parseQuantity t.text = some t.value)
    (hvalue : s.value = t.value) (hnonneg : 0 ≤ s.value)
    (hrange : 1000 * s.value ≤ 9223372036854775807) :
    ((quantityAt P object fields = ⌈s.value⌉₊ ∧ quantityAt P object' fields' = ⌈s.value⌉₊) ↔
      readsWhole s.suffix = true ∧ readsWhole t.suffix = true ∨ s.value ≤ 1 / 1000) ∧
    (quantityAt P object fields = quantityAt P object' fields' ↔
      readsWhole s.suffix = readsWhole t.suffix ∨ s.value ≤ 1 / 1000) ∧
    ((quantityAt P object fields = ⌈1000 * s.value⌉₊ ∧
        quantityAt P object' fields' = ⌈1000 * s.value⌉₊) ↔
      readsWhole s.suffix = false ∧ readsWhole t.suffix = false ∨ s.value ≤ 1 / 1000) := by
  have hread : quantityAt P object fields =
      if readsWhole s.suffix then ⌈s.value⌉₊ else ⌈1000 * s.value⌉₊ := by
    rw [quantityAt_string hs, parseQuantity_text hexact hnonneg hrange]
  have hread' : quantityAt P object' fields' =
      if readsWhole t.suffix then ⌈s.value⌉₊ else ⌈1000 * s.value⌉₊ := by
    rw [quantityAt_string ht, parseQuantity_text hexact' (hvalue ▸ hnonneg) (hvalue ▸ hrange), hvalue]
  have hceil := ceil_eq_ceil_milli_iff hnonneg
  have hceil' : ⌈s.value⌉₊ = ⌈1000 * s.value⌉₊ ↔ s.value ≤ 1 / 1000 := eq_comm.trans hceil
  rw [hread, hread']
  cases readsWhole s.suffix <;> cases readsWhole t.suffix <;> simp [hceil, hceil']

/-! ### A gibibyte in two spellings -/

/-- `1073741824`. -/
def plainBytes : Spelling where
  whole := [1, 0, 7, 3, 7, 4, 1, 8, 2, 4]
  digit := List.cons_ne_nil _ _

/-- `1Gi`. -/
def oneGibi : Spelling where
  whole := [1]
  suffix := .gibi
  digit := List.cons_ne_nil _ _

/-- `1024Mi`. -/
def manyMebi : Spelling where
  whole := [1, 0, 2, 4]
  suffix := .mebi
  digit := List.cons_ne_nil _ _

/-- The quantities of this section. -/
def gibiPackages : Packages where
  parseQuantity text :=
    if text ∈ ["1073741824", "1Gi", "1024Mi"] then some 1073741824 else none
  sprint _ := ""

/-- A claim that requests this memory. -/
def claimOf (s : Spelling) : Unstructured where
  name := "claim"
  uid := "u"
  labels := []
  object := .object [("status", .object [("resources", .object [("requests",
    .object [("memory", .string s.text)])])])]

theorem nestedField_claimOf (s : Spelling) :
    nestedField (claimOf s).object memoryRequestFields = some (.string s.text) := rfl

theorem read_by_value_iff_gibi :
    quantityAt gibiPackages (claimOf oneGibi).object memoryRequestFields = ⌈oneGibi.value⌉₊ ∧
    quantityAt gibiPackages (claimOf manyMebi).object memoryRequestFields = ⌈oneGibi.value⌉₊ :=
  (read_by_value_iff gibiPackages oneGibi manyMebi (nestedField_claimOf oneGibi)
    (nestedField_claimOf manyMebi) (by decide +kernel) (by decide +kernel) (by decide +kernel)
    (by decide +kernel) (by decide +kernel)).1.mpr (.inl ⟨rfl, rfl⟩)

/-- **A gibibyte without a suffix is read as a thousand of them.** -/
theorem gibibyte_by_spelling :
    plainBytes.text = "1073741824" ∧ oneGibi.text = "1Gi" ∧ plainBytes.value = oneGibi.value ∧
    gibiPackages.parseQuantity plainBytes.text = some plainBytes.value ∧
    gibiPackages.parseQuantity oneGibi.text = some oneGibi.value ∧
    (parseNodeClaim gibiPackages (claimOf plainBytes) fun _ => {}).memoryRequestedBytes =
      1073741824000 ∧
    (parseNodeClaim gibiPackages (claimOf oneGibi) fun _ => {}).memoryRequestedBytes =
      1073741824 := by
  decide +kernel

end Integrations
end KubeCost
