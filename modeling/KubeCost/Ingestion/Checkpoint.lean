/-
# The state of a cluster and where it is kept

`services/ingestion/server/checkpoint.go` and `safePathElement` of `archive.go`. The
server keeps the state of a cluster under two names made from the tenant and the
cluster id: the key of its maps in memory, the ids with a NUL between them, and the
file of the checkpoint, `<root>/<tenant_id>/<cluster_id>/checkpoint.json`.

Neither name determines the ids. `safePathElement` trims blanks and replaces four
characters by `_`, so `a/b` and `a_b` have one file (`shared_checkpoint`); it leaves
`.` and `..` alone, so an id may lead out of the root; and the hello's ids may have a
NUL. `isolated_iff` says exactly which clusters are isolated from each other.
-/
import KubeCost.Path
import KubeCost.Ingestion.Server

namespace KubeCost
namespace Ingestion

/-! ### The file store -/

def safePathElement (value : String) : String :=
  let value := trimSpace value
  if value = "" then "_"
  else String.ofList (value.toList.map fun c =>
    if c = '/' ∨ c = '\\' ∨ c = ':' ∨ c = '\x00' then '_' else c)

structure CheckpointFile where
  tenantID : String
  clusterID : String
  persistedThrough : ℕ
deriving DecidableEq

/-- What a path holds: the JSON of a checkpoint, or something that cannot be read or
does not decode. -/
inductive FileData
  | checkpoint (file : CheckpointFile)
  | unusable
deriving DecidableEq

/-- The files by their paths. A path that `MkdirAll` made a directory on the way to another
file holds nothing here; the source cannot read or replace it. -/
abbrev Files := String → Option FileData

structure FileCheckpointStore where
  root : String
  root_ne : root ≠ ""

/-- `NewFileCheckpointStore`; `mkdirAll` is the error of creating the root. -/
def newFileCheckpointStore (root : String) (mkdirAll : Option String) :
    Except String FileCheckpointStore :=
  if h : trimSpace root = "" then .error "checkpoint root is required"
  else
    match mkdirAll with
    | some err => .error ("create checkpoint root: " ++ err)
    | none => .ok ⟨trimSpace root, h⟩

/-- How far `Save` got: nothing is written before the partition exists, and the
checkpoint is replaced only by the rename at the end. -/
inductive SaveProgress
  | nothing
  | temporary
  | renamed
deriving DecidableEq

namespace FileCheckpointStore

def path (s : FileCheckpointStore) (tenantID clusterID : String) : String :=
  Path.join [s.root, safePathElement tenantID, safePathElement clusterID, "checkpoint.json"]

/-- `Load`, zero for a file that does not exist. -/
def load (s : FileCheckpointStore) (files : Files) (tenantID clusterID : String) : Except String ℕ :=
  match files (s.path tenantID clusterID) with
  | none => .ok 0
  | some (.checkpoint file) => .ok file.persistedThrough
  | some .unusable => .error "decode checkpoint"

/-- `Save`: the temporary file is written and renamed. -/
def save (s : FileCheckpointStore) (files : Files) (tenantID clusterID : String) (sequence : ℕ)
    (progress : SaveProgress) : Files :=
  let path := s.path tenantID clusterID
  let temp := path ++ ".tmp"
  let data := FileData.checkpoint ⟨tenantID, clusterID, sequence⟩
  match progress with
  | .nothing => files
  | .temporary => Function.update files temp (some data)
  | .renamed => Function.update (Function.update files temp none) path (some data)

end FileCheckpointStore

/-! ### Isolation -/

/-- **The two clusters share no state**: their keys in memory and their files differ,
both files are inside the root, and what is saved for one is not loaded for the
other. -/
structure Isolated (s : FileCheckpointStore) (t c t' c' : String) : Prop where
  key : clusterKey t c ≠ clusterKey t' c'
  path : s.path t c ≠ s.path t' c'
  inside : (Path.parse (s.path t c)).Inside (Path.parse s.root)
  inside' : (Path.parse (s.path t' c')).Inside (Path.parse s.root)
  load : ∀ files sequence progress,
    s.load (s.save files t c sequence progress) t' c' = s.load files t' c'
  load' : ∀ files sequence progress,
    s.load (s.save files t' c' sequence progress) t c = s.load files t c

/-- A NUL in the tenant id of one stands where the other has the separator. -/
def Aliased (t c t' c' : String) : Prop :=
  (∃ x, t' = t ++ "\x00" ++ x ∧ c = x ++ "\x00" ++ c') ∨
  (∃ x, t = t' ++ "\x00" ++ x ∧ c' = x ++ "\x00" ++ c)

/-- The directory of the checkpoint, from the root down, for ids that lead there: `.` is no
step, `..` takes back the step before it, and above the root it is lost, unless the
root is `/` or the next id leads back. -/
def below (root : Path) : Component → Component → Option (List Name)
  | .name n, .name m => some [n, m]
  | .name n, .here => some [n]
  | .name _, .up => some []
  | .here, .name m => some [m]
  | .here, .here => some []
  | .here, .up => if root = ⟨.root, []⟩ then some [] else none
  | .up, .name m =>
    if root = ⟨.root, []⟩ then some [m]
    else if root.names.getLast? = some m then some [] else none
  | .up, .here => if root = ⟨.root, []⟩ then some [] else none
  | .up, .up => if root = ⟨.root, []⟩ then some [] else none

/-- **The ids lead to different directories below the root**, once they are trimmed and
their separators replaced. -/
def LeadApart (root t c t' c' : String) : Prop :=
  ∃ l l', below (Path.parse root) (component (safePathElement t)) (component (safePathElement c)) = some l ∧
    below (Path.parse root) (component (safePathElement t')) (component (safePathElement c')) = some l' ∧
    l ≠ l'

/-! ### Keys -/

/-- Where the separators of two equal keys stand. -/
theorem split_key {a b a' b' : String} {e : List Char} (ha : a'.toList = a.toList ++ e)
    (hb : '\x00' :: b.toList = e ++ '\x00' :: b'.toList) :
    (a = a' ∧ b = b') ∨ ∃ x, a' = a ++ "\x00" ++ x ∧ b = x ++ "\x00" ++ b' := by
  have hnul : "\x00".toList = ['\x00'] := rfl
  cases e with
  | nil =>
    rw [List.append_nil] at ha
    exact .inl ⟨(String.toList_inj.mp ha).symm, String.toList_inj.mp (List.cons.inj hb).2⟩
  | cons d x =>
    rw [List.cons_append, List.cons.injEq] at hb
    refine .inr ⟨String.ofList x, String.toList_inj.mp ?_, String.toList_inj.mp ?_⟩
    · simp only [String.toList_append, String.toList_ofList, hnul, ha, ← hb.1, List.append_assoc]
      rfl
    · simp only [String.toList_append, String.toList_ofList, hnul, hb.2, List.append_assoc]
      rfl

theorem clusterKey_eq_iff {t c t' c' : String} :
    clusterKey t c = clusterKey t' c' ↔ (t = t' ∧ c = c') ∨ Aliased t c t' c' := by
  constructor
  · intro h
    have hlist : t.toList ++ '\x00' :: c.toList = t'.toList ++ '\x00' :: c'.toList := by
      have := congrArg String.toList h
      simpa [clusterKey, String.toList_append] using this
    rcases List.append_eq_append_iff.mp hlist with ⟨e, ht, hc⟩ | ⟨e, ht, hc⟩
    · rcases split_key ht hc with hsame | halias
      · exact .inl hsame
      · exact .inr (.inl halias)
    · rcases split_key ht hc with ⟨ht, hc⟩ | halias
      · exact .inl ⟨ht.symm, hc.symm⟩
      · exact .inr (.inr halias)
  · rintro (⟨rfl, rfl⟩ | ⟨x, rfl, rfl⟩ | ⟨x, rfl, rfl⟩)
    · rfl
    · simp only [clusterKey, String.append_assoc]
    · simp only [clusterKey, String.append_assoc]

/-! ### Files -/

theorem safePathElement_no_slash (value : String) : '/' ∉ (safePathElement value).toList := by
  unfold safePathElement
  simp only
  split
  · decide
  · rw [String.toList_ofList, List.mem_map]
    rintro ⟨c, -, hc⟩
    split at hc
    · exact absurd hc (by decide)
    · rename_i h
      exact h (.inl hc)

/-- The name of the file in the directory of a cluster. -/
def checkpointName : Name := ⟨"checkpoint.json", by decide⟩

/-- The directory of a cluster's checkpoint. -/
def directory (root : Path) (tenant cluster : Component) : Path := (root.enter tenant).enter cluster

/-- Where ids lead that do not lead out of the root. -/
theorem directory_of_below {root : Path} {tenant cluster : Component} {l : List Name}
    (h : below root tenant cluster = some l) :
    directory root tenant cluster = ⟨root.base, root.names ++ l⟩ := by
  cases tenant <;> cases cluster
  case here.here =>
    cases h
    exact congrArg (Path.mk root.base) (List.append_nil _).symm
  case here.up | up.here | up.up =>
    rw [below, Option.ite_none_right_eq_some] at h
    obtain ⟨rfl, h⟩ := h
    cases h
    rfl
  case up.name m =>
    rw [below] at h
    split at h
    · rename_i hslash
      subst hslash
      cases h
      rfl
    · rename_i hslash
      rw [Option.ite_none_right_eq_some] at h
      obtain ⟨hlast, h⟩ := h
      cases h
      rcases root.cases_names with rfl | ⟨n, rfl⟩ | ⟨base, names, n, rfl⟩
      · exact absurd rfl hslash
      · cases hlast
      · rw [List.getLast?_concat, Option.some.injEq] at hlast
        rw [hlast, directory, Path.enter, Path.parent_concat, List.append_nil]
        rfl
  case name.up n =>
    cases h
    show Path.parent ⟨root.base, root.names ++ [n]⟩ = _
    rw [Path.parent_concat, List.append_nil]
  case name.name n m =>
    cases h
    exact congrArg (Path.mk root.base) (List.append_assoc _ _ _)
  case here.name m | name.here n =>
    cases h
    rfl

/-- The other ids lead out of it. -/
theorem not_within_of_below {root : Path} {tenant cluster : Component}
    (h : below root tenant cluster = none) : ¬ (directory root tenant cluster).Within root := by
  cases tenant <;> cases cluster
  case here.up | up.here =>
    rw [below, ite_eq_right_iff] at h
    exact (Path.not_within_parent fun hslash => nomatch h hslash).1
  case up.up =>
    rw [below, ite_eq_right_iff] at h
    exact (Path.not_within_parent fun hslash => nomatch h hslash).2
  case up.name m =>
    rw [below] at h
    split at h
    · cases h
    · rename_i hslash
      rw [ite_eq_right_iff] at h
      rcases root.cases_names with rfl | ⟨n, rfl⟩ | ⟨base, names, n, rfl⟩
      · exact absurd rfl hslash
      · intro hwithin
        have := Base.above.inj hwithin.1
        omega
      · rw [directory, Path.enter, Path.parent_concat]
        rintro ⟨-, hstart⟩
        have heq := hstart.eq_of_length (by simp [Path.enter])
        have hlast := List.append_inj_right' heq rfl
        exact nomatch h (by rw [List.getLast?_concat, (List.cons.inj hlast).1])
  all_goals cases h

namespace FileCheckpointStore

variable (s : FileCheckpointStore) (t c t' c' : String)

/-- The directory of the cluster, as a path. -/
def dir : Path :=
  directory (Path.parse s.root) (component (safePathElement t)) (component (safePathElement c))

theorem path_eq : s.path t c = Path.render ⟨(s.dir t c).base, (s.dir t c).names ++ [checkpointName]⟩ := by
  have hrest : ∀ e ∈ [safePathElement t, safePathElement c, "checkpoint.json"], '/' ∉ e.toList := by
    intro e he
    simp only [List.mem_cons, List.not_mem_nil, or_false] at he
    rcases he with rfl | rfl | rfl
    · exact safePathElement_no_slash t
    · exact safePathElement_no_slash c
    · decide
  rw [path, Path.join_eq s.root_ne hrest]
  have hname : component "checkpoint.json" = .name checkpointName := by decide
  rw [List.map_cons, List.map_cons, List.map_singleton, hname]
  rfl

theorem path_eq_iff : s.path t c = s.path t' c' ↔ s.dir t c = s.dir t' c' := by
  rw [path_eq, path_eq, Path.render_inj]
  constructor
  · intro h
    rw [Path.mk.injEq] at h
    obtain ⟨hbase, hnames⟩ := h
    exact Path.ext hbase (List.append_inj' hnames rfl).1
  · intro h
    rw [h]

theorem inside_iff : (Path.parse (s.path t c)).Inside (Path.parse s.root) ↔
    (s.dir t c).Within (Path.parse s.root) := by
  rw [path_eq, Path.parse_render, Path.inside_entry_iff]

/-- No checkpoint has the name of a temporary file. -/
theorem path_ne_temp : s.path t' c' ≠ s.path t c ++ ".tmp" := by
  intro h
  obtain ⟨front, hfront⟩ := Path.suffix_render (s.dir t' c').base (s.dir t' c').names checkpointName
  rw [path_eq s t' c', hfront] at h
  have hlast := congrArg (fun path => path.toList.getLast?) h
  have hname : checkpointName.val.toList = "checkpoint.jso".toList ++ ['n'] := rfl
  have htmp : ".tmp".toList = ".tm".toList ++ ['p'] := rfl
  simp only [String.toList_append, hname, htmp, ← List.append_assoc, List.getLast?_concat] at hlast
  exact absurd hlast (by decide)

/-- **What is saved to one file is not read from another.** -/
theorem load_save_of_ne (h : s.path t c ≠ s.path t' c') (files : Files) (sequence : ℕ)
    (progress : SaveProgress) :
    s.load (s.save files t c sequence progress) t' c' = s.load files t' c' := by
  have htemp := s.path_ne_temp t c t' c'
  have hread : s.save files t c sequence progress (s.path t' c') = files (s.path t' c') := by
    cases progress with
    | nothing => rw [save]
    | temporary => rw [save, Function.update_of_ne htemp]
    | renamed => rw [save, Function.update_of_ne (Ne.symm h), Function.update_of_ne htemp]
  rw [load, load, hread]

theorem inside_iff_below : (Path.parse (s.path t c)).Inside (Path.parse s.root) ↔
    ∃ l, below (Path.parse s.root) (component (safePathElement t))
      (component (safePathElement c)) = some l := by
  rw [inside_iff, ← Option.isSome_iff_exists]
  constructor
  · intro h
    by_contra hnone
    exact not_within_of_below (Option.not_isSome_iff_eq_none.mp hnone) h
  · intro h
    obtain ⟨l, hl⟩ := Option.isSome_iff_exists.mp h
    rw [dir, directory_of_below hl]
    exact ⟨rfl, List.prefix_append _ _⟩

end FileCheckpointStore

/-- **Which clusters are isolated.** Two different pairs of ids, whether `validateHello`
accepts them or not, share no state exactly if no NUL makes their keys one and they lead to
different directories below the root. -/
theorem isolated_iff (s : FileCheckpointStore) {hello hello' : AgentHello}
    (hne : (hello.tenantId, hello.clusterId) ≠ (hello'.tenantId, hello'.clusterId)) :
    Isolated s hello.tenantId hello.clusterId hello'.tenantId hello'.clusterId ↔
      ¬ Aliased hello.tenantId hello.clusterId hello'.tenantId hello'.clusterId ∧
      LeadApart s.root hello.tenantId hello.clusterId hello'.tenantId hello'.clusterId := by
  generalize hello.tenantId = t, hello.clusterId = c, hello'.tenantId = t', hello'.clusterId = c' at hne
  rw [ne_eq, Prod.mk.injEq] at hne
  constructor
  · intro h
    refine ⟨fun halias => h.key (clusterKey_eq_iff.mpr (.inr halias)), ?_⟩
    obtain ⟨l, hl⟩ := (s.inside_iff_below t c).mp h.inside
    obtain ⟨l', hl'⟩ := (s.inside_iff_below t' c').mp h.inside'
    refine ⟨l, l', hl, hl', fun heq => h.path ?_⟩
    rw [s.path_eq_iff, FileCheckpointStore.dir, FileCheckpointStore.dir, directory_of_below hl,
      directory_of_below hl', heq]
  · rintro ⟨halias, l, l', hl, hl', hapart⟩
    have hpath : s.path t c ≠ s.path t' c' := by
      rw [ne_eq, s.path_eq_iff, FileCheckpointStore.dir, FileCheckpointStore.dir,
        directory_of_below hl, directory_of_below hl', Path.mk.injEq]
      exact fun heq => hapart (List.append_cancel_left heq.2)
    exact {
      key := fun hkey => (clusterKey_eq_iff.mp hkey).elim hne halias
      path := hpath
      inside := (s.inside_iff_below t c).mpr ⟨l, hl⟩
      inside' := (s.inside_iff_below t' c').mpr ⟨l', hl'⟩
      load := s.load_save_of_ne t c t' c' hpath
      load' := s.load_save_of_ne t' c' t c hpath.symm }

/-- A hello with these ids. -/
def helloOf (tenantId clusterId : String) : AgentHello :=
  { tenantId := tenantId, clusterId := clusterId, agentInstanceId := "a",
    supportedProtocolVersions := [⟨1, 0⟩] }

def checkpointStore : FileCheckpointStore := ⟨"/data", by decide⟩

theorem isolated_iff_two_tenants : Isolated checkpointStore "a" "c" "b" "c" := by
  have hkey : clusterKey "a" "c" ≠ clusterKey "b" "c" := by decide
  have hne : ((helloOf "a" "c").tenantId, (helloOf "a" "c").clusterId) ≠
      ((helloOf "b" "c").tenantId, (helloOf "b" "c").clusterId) := by decide
  refine (isolated_iff checkpointStore hne).mpr ⟨?_, ?_⟩
  · exact fun halias => hkey (clusterKey_eq_iff.mpr (.inr halias))
  · exact ⟨[⟨"a", by decide⟩, ⟨"c", by decide⟩], [⟨"b", by decide⟩, ⟨"c", by decide⟩],
      by decide, by decide, by decide⟩

/-- **Two tenants with one checkpoint.** Both hellos are accepted, and what is saved for
the tenant `a/b` is loaded for `a_b`; the tenant `..` has its checkpoint outside the
root. -/
theorem shared_checkpoint :
    validateHello (helloOf "a/b" "c") = .ok () ∧ validateHello (helloOf "a_b" "c") = .ok () ∧
    checkpointStore.load (checkpointStore.save (fun _ => none) "a/b" "c" 7 .renamed) "a_b" "c" = .ok 7 ∧
    validateHello (helloOf ".." "c") = .ok () ∧
    checkpointStore.path ".." "c" = "/c/checkpoint.json" := by
  decide +kernel

end Ingestion
end KubeCost
