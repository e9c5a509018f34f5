/-
# File paths

Go's `path/filepath` on Unix. A cleaned path is a place to start from (the root
directory, or some number of `..` above the working directory) and the names to
walk down from there; `Path` has exactly these, so a path with a `.` in it, an
empty name or a `..` after a name cannot be built. `filepath.Clean` walks the
components of a string and renders where it arrives.

Key theorem: `parse_render`, walking a rendered path arrives at the path. So a
cleaned path is determined by its string (`render_inj`), and `join_eq` says where
the string that `filepath.Join` returns leads.
-/
import Mathlib.Data.List.Infix
import Mathlib.Data.Nat.Notation

namespace KubeCost

/-- A component that names a directory entry. -/
def ProperName (s : String) : Prop := s ≠ "" ∧ s ≠ "." ∧ s ≠ ".." ∧ '/' ∉ s.toList

instance (s : String) : Decidable (ProperName s) := inferInstanceAs (Decidable (_ ∧ _))

abbrev Name := {s : String // ProperName s}

/-- One step of a walk. -/
inductive Component
  | here
  | up
  | name (n : Name)
deriving DecidableEq

def component (s : String) : Component :=
  if h : ProperName s then .name ⟨s, h⟩ else if s = ".." then .up else .here

/-- Where a cleaned path starts: at `/`, or `ups` directories above the current one. -/
inductive Base
  | root
  | above (ups : ℕ)
deriving DecidableEq

@[ext]
structure Path where
  base : Base
  names : List Name
deriving DecidableEq

namespace Path

/-- There is nothing above the root directory. -/
def parent (p : Path) : Path :=
  if p.names = [] then
    match p.base with
    | .root => p
    | .above n => ⟨.above (n + 1), []⟩
  else ⟨p.base, p.names.dropLast⟩

def enter (p : Path) : Component → Path
  | .here => p
  | .up => p.parent
  | .name n => ⟨p.base, p.names ++ [n]⟩

def walk (p : Path) (components : List Component) : Path := components.foldl enter p

def components (s : String) : List Component :=
  (List.splitOn '/' s.toList).map fun piece => component (String.ofList piece)

/-- Where the walk along a string starts. -/
def start (s : String) : Path := if s.toList.head? = some '/' then ⟨.root, []⟩ else ⟨.above 0, []⟩

def parse (s : String) : Path := (start s).walk (components s)

def render (p : Path) : String :=
  match p.base, p.names with
  | .root, names => "/" ++ "/".intercalate (names.map Subtype.val)
  | .above 0, [] => "."
  | .above n, names => "/".intercalate (List.replicate n ".." ++ names.map Subtype.val)

/-- `filepath.Clean`. -/
def clean (s : String) : String := render (parse s)

/-- `filepath.Join`: empty elements at the front are ignored. -/
def join (elements : List String) : String :=
  match elements.dropWhile (· = "") with
  | [] => ""
  | elements => clean ("/".intercalate elements)

/-- The path leads to something inside the directory. -/
def Inside (p directory : Path) : Prop :=
  p.base = directory.base ∧ directory.names <+: p.names ∧ directory.names ≠ p.names

instance (p directory : Path) : Decidable (p.Inside directory) :=
  inferInstanceAs (Decidable (_ ∧ _))

/-! ### Walking -/

theorem walk_append (p : Path) (a b : List Component) : p.walk (a ++ b) = (p.walk a).walk b :=
  List.foldl_append

theorem parent_concat (base : Base) (names : List Name) (n : Name) :
    (⟨base, names ++ [n]⟩ : Path).parent = ⟨base, names⟩ := by
  rw [parent, if_neg (List.concat_ne_nil _ _), List.dropLast_concat]

/-- The root directory, a directory above the current one, or an entry. -/
theorem cases_names (p : Path) :
    p = ⟨.root, []⟩ ∨ (∃ n, p = ⟨.above n, []⟩) ∨ ∃ base names n, p = ⟨base, names ++ [n]⟩ := by
  obtain ⟨base, names⟩ := p
  rcases List.eq_nil_or_concat names with rfl | ⟨front, n, rfl⟩
  · cases base with
    | root => exact .inl rfl
    | above n => exact .inr (.inl ⟨n, rfl⟩)
  · exact .inr (.inr ⟨base, front, n, by rw [List.concat_eq_append]⟩)

/-- The directory itself or something inside it. -/
def Within (p directory : Path) : Prop := p.base = directory.base ∧ directory.names <+: p.names

/-- **Only the root directory is within its own parents.** -/
theorem not_within_parent {p : Path} (hp : p ≠ ⟨.root, []⟩) :
    ¬ p.parent.Within p ∧ ¬ p.parent.parent.Within p := by
  rcases p.cases_names with rfl | ⟨n, rfl⟩ | ⟨base, names, n, rfl⟩
  · exact absurd rfl hp
  · refine ⟨fun h => ?_, fun h => ?_⟩
    · have := Base.above.inj h.1
      omega
    · have := Base.above.inj h.1
      omega
  · rw [parent_concat]
    refine ⟨fun h => ?_, fun h => ?_⟩
    · have := h.2.length_le
      simp only [List.length_append, List.length_singleton] at this
      omega
    · -- one level up the path is shorter already, two levels up it may be above the base
      rcases cases_names ⟨base, names⟩ with heq | ⟨m, heq⟩ | ⟨base', names', m, heq⟩
      · obtain ⟨rfl, rfl⟩ := Path.mk.inj heq
        exact absurd h.2.length_le (by simp [parent])
      · obtain ⟨rfl, rfl⟩ := Path.mk.inj heq
        have := Base.above.inj h.1
        omega
      · obtain ⟨rfl, rfl⟩ := Path.mk.inj heq
        rw [parent_concat] at h
        have := h.2.length_le
        simp only [List.length_append, List.length_singleton] at this
        omega

theorem component_name (n : Name) : component n.val = .name n := dif_pos n.2

theorem walk_names (base : Base) : ∀ names rest : List Name,
    (⟨base, names⟩ : Path).walk (rest.map fun n => component n.val) = ⟨base, names ++ rest⟩
  | names, [] => by rw [List.append_nil]; rfl
  | names, n :: rest => by
    rw [List.map_cons, walk, List.foldl_cons, component_name]
    exact (walk_names base (names ++ [n]) rest).trans (by rw [List.append_assoc]; rfl)

theorem walk_ups : ∀ n m : ℕ,
    (⟨.above m, []⟩ : Path).walk (List.replicate n .up) = ⟨.above (m + n), []⟩
  | 0, m => rfl
  | n + 1, m => by
    rw [List.replicate_succ, walk, List.foldl_cons]
    exact (walk_ups n (m + 1)).trans (by rw [Nat.add_assoc, Nat.add_comm 1])

/-! ### Strings -/

theorem components_slash (s : String) : components ("/" ++ s) = .here :: components s := by
  have hsep : "/".toList = ['/'] := rfl
  rw [components, String.toList_append, hsep]
  show List.map _ (List.splitOn '/' ([] ++ '/' :: s.toList)) = _
  rw [List.splitOn_append_cons_self, List.map_append]
  rfl

theorem components_append_slash (s t : String) :
    components (s ++ "/" ++ t) = components s ++ components t := by
  have hsep : "/".toList = ['/'] := rfl
  rw [components, String.toList_append, String.toList_append, hsep, List.append_assoc]
  show List.map _ (List.splitOn '/' (s.toList ++ '/' :: t.toList)) = _
  rw [List.splitOn_append_cons_self, List.map_append]
  rfl

theorem components_of_no_slash {s : String} (h : '/' ∉ s.toList) : components s = [component s] := by
  rw [components, List.splitOn_eq_singleton h, List.map_singleton, String.ofList_toList]

theorem intercalate_cons_cons (s t : String) (rest : List String) :
    "/".intercalate (s :: t :: rest) = s ++ "/" ++ "/".intercalate (t :: rest) := by
  rw [← String.toList_inj, String.toList_append, String.toList_append, String.toList_intercalate,
    String.toList_intercalate]
  exact List.intercalate_cons_cons

/-- The components of strings joined by `/`. -/
theorem components_intercalate : ∀ (first : String) {rest : List String},
    (∀ s ∈ rest, '/' ∉ s.toList) →
    components ("/".intercalate (first :: rest)) = components first ++ rest.map component
  | first, [], _ => by
    have hself : "/".intercalate [first] = first := by
      rw [← String.toList_inj, String.toList_intercalate, List.map_singleton,
        List.intercalate_singleton]
    rw [hself, List.map_nil, List.append_nil]
  | first, t :: rest, h => by
    rw [intercalate_cons_cons, components_append_slash,
      components_intercalate t fun s hs => h s (List.mem_cons_of_mem _ hs),
      components_of_no_slash (h t List.mem_cons_self)]
    rfl

theorem component_dotdot : component ".." = .up := by decide

theorem head?_intercalate {s : String} (hs : s ≠ "") (rest : List String) :
    ("/".intercalate (s :: rest)).toList.head? = s.toList.head? := by
  have hne : s.toList ≠ [] := fun h => hs (String.toList_inj.mp h)
  rw [String.toList_intercalate]
  cases rest with
  | nil => rw [List.map_singleton, List.intercalate_singleton]
  | cons t rest =>
    rw [List.map_cons, List.map_cons, List.intercalate_cons_cons, List.append_assoc,
      List.head?_append_of_ne_nil _ hne]

theorem head?_ne_slash {s : String} (h : '/' ∉ s.toList) : s.toList.head? ≠ some '/' :=
  fun hhead => h (List.mem_of_head? hhead)

theorem parse_intercalate {s : String} {rest : List String} (hs : s ≠ "")
    (hpieces : ∀ t ∈ s :: rest, '/' ∉ t.toList) :
    parse ("/".intercalate (s :: rest)) = (⟨.above 0, []⟩ : Path).walk ((s :: rest).map component) := by
  have hhead : ("/".intercalate (s :: rest)).toList.head? ≠ some '/' := by
    rw [head?_intercalate hs]
    exact head?_ne_slash (hpieces s List.mem_cons_self)
  rw [parse, start, if_neg hhead,
    components_intercalate s fun t ht => hpieces t (List.mem_cons_of_mem _ ht),
    components_of_no_slash (hpieces s List.mem_cons_self)]
  rfl

/-- **A rendered path leads to itself.** -/
theorem parse_render (p : Path) : parse p.render = p := by
  obtain ⟨base, names⟩ := p
  have hslash : ∀ s ∈ names.map Subtype.val, '/' ∉ s.toList := by
    intro s hs
    obtain ⟨n, -, rfl⟩ := List.mem_map.mp hs
    exact n.2.2.2.2
  cases base with
  | root =>
    have hhead : ("/" ++ "/".intercalate (names.map Subtype.val)).toList.head? = some '/' := by
      rw [String.toList_append]
      rfl
    rw [render, parse, start, if_pos hhead, components_slash]
    cases names with
    | nil => decide
    | cons n names =>
      rw [List.map_cons, components_intercalate n.val
        fun s hs => hslash s (List.mem_cons_of_mem _ hs), components_of_no_slash n.2.2.2.2, List.map_map]
      exact walk_names .root [] (n :: names)
  | above ups =>
    cases ups with
    | zero =>
      cases names with
      | nil => decide
      | cons n names =>
        show parse ("/".intercalate (n.val :: names.map Subtype.val)) = _
        rw [parse_intercalate n.2.1 hslash, ← List.map_cons, List.map_map]
        exact walk_names (.above 0) [] (n :: names)
    | succ ups =>
      have hups : ∀ s ∈ ".." :: (List.replicate ups ".." ++ names.map Subtype.val), '/' ∉ s.toList := by
        intro s hs
        rw [← List.cons_append, ← List.replicate_succ] at hs
        rcases List.mem_append.mp hs with hs | hs
        · rw [List.eq_of_mem_replicate hs]
          decide
        · exact hslash s hs
      show parse ("/".intercalate (".." :: (List.replicate ups ".." ++ names.map Subtype.val))) = _
      rw [parse_intercalate (by decide) hups, ← List.cons_append, ← List.replicate_succ,
        List.map_append, List.map_replicate, component_dotdot, walk_append, walk_ups,
        Nat.zero_add, List.map_map]
      exact walk_names (.above (ups + 1)) [] names

theorem render_inj {p q : Path} : p.render = q.render ↔ p = q :=
  ⟨fun h => by rw [← parse_render p, h, parse_render], fun h => by rw [h]⟩

/-- **Where a joined path leads**: from where the first element leads, along the
others. -/
theorem join_eq {first : String} (hfirst : first ≠ "") {rest : List String}
    (hrest : ∀ s ∈ rest, '/' ∉ s.toList) :
    join (first :: rest) = ((parse first).walk (rest.map component)).render := by
  have hhead : start ("/".intercalate (first :: rest)) = start first := by
    rw [start, start, head?_intercalate hfirst]
  have hjoin : join (first :: rest) = clean ("/".intercalate (first :: rest)) := by
    rw [join, List.dropWhile_cons_of_neg (by rwa [decide_eq_true_eq])]
  rw [hjoin, clean, parse, hhead, components_intercalate first hrest, walk_append]
  rfl

theorem suffix_intercalate (last : String) : ∀ pieces : List String,
    ∃ front : String, "/".intercalate (pieces ++ [last]) = front ++ last
  | [] => ⟨"", by
      rw [← String.toList_inj, List.nil_append, String.toList_intercalate, List.map_singleton,
        List.intercalate_singleton, String.empty_append]⟩
  | s :: pieces => by
    obtain ⟨front, hfront⟩ := suffix_intercalate last pieces
    cases hp : pieces ++ [last] with
    | nil => exact absurd hp (by simp)
    | cons t rest =>
      refine ⟨s ++ "/" ++ front, ?_⟩
      rw [List.cons_append, hp, intercalate_cons_cons, ← hp, hfront]
      simp only [String.append_assoc]

theorem render_above (ups : ℕ) {names : List Name} (h : names ≠ []) : render ⟨.above ups, names⟩ =
    "/".intercalate (List.replicate ups ".." ++ names.map Subtype.val) := by
  cases names with
  | nil => exact absurd rfl h
  | cons n names => cases ups <;> rfl

/-- A rendered path ends in its last name. -/
theorem suffix_render (base : Base) (names : List Name) (n : Name) :
    ∃ front : String, render ⟨base, names ++ [n]⟩ = front ++ n.val := by
  cases base with
  | root =>
    obtain ⟨front, hfront⟩ := suffix_intercalate n.val (names.map Subtype.val)
    refine ⟨"/" ++ front, ?_⟩
    show "/" ++ "/".intercalate ((names ++ [n]).map Subtype.val) = _
    rw [List.map_append, List.map_singleton, hfront, String.append_assoc]
  | above ups =>
    obtain ⟨front, hfront⟩ :=
      suffix_intercalate n.val (List.replicate ups ".." ++ names.map Subtype.val)
    refine ⟨front, ?_⟩
    rw [render_above ups (List.concat_ne_nil _ _), List.map_append, List.map_singleton,
      ← List.append_assoc, hfront]

/-- The entry of a directory is inside another directory when the first is the
second or inside it. -/
theorem inside_entry_iff {p directory : Path} {n : Name} :
    Inside ⟨p.base, p.names ++ [n]⟩ directory ↔ p.Within directory := by
  unfold Inside Within
  refine and_congr_right fun _ => ⟨?_, fun h => ⟨h.trans (List.prefix_append _ _), fun heq => ?_⟩⟩
  · rintro ⟨hstart, hne⟩
    rw [List.prefix_concat_iff] at hstart
    exact hstart.resolve_left hne
  · have := h.length_le
    rw [heq, List.length_append, List.length_singleton] at this
    omega

end Path

end KubeCost
