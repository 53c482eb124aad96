import Mathlib.Data.List.Nodup
import Mathlib.Data.List.Perm.Basic
import Vts.Python.Text

/-!
# The git project of a source file

The loop over the git projects that `_AutoProcess` (`coverage_utils.py`) and `Upload`
(`sancov_utils.py`) have in common. A project is taken if the source path starts with
its name, or with its name without the first component; the first one that matches
ends the loop.

`findProject_iff` says for which dictionaries the path of the project is an ancestor of
the source path, in whatever order the dictionary is walked. Names and revisions are
byte strings: `str` of a name that is not ASCII fails in the source.
-/

namespace Vts.Coverage

open List

open Python (Text split split_append_byte split_of_not_mem)

namespace Projects

/-! ## Choosing a project -/

/-- The slash, which is `os.sep`. -/
def sep : UInt8 := 47

/-- A step of the loop of `os.path.normpath`; the components found so far stand in
reverse order. -/
def normStep (absolute : Bool) (found : List Text) (component : Text) : List Text :=
  if component = [] ∨ component = [46] then found
  else if component ≠ [46, 46] ∨ (!absolute && found.isEmpty) ∨ found.head? = some [46, 46] then
    component :: found
  else found.tail

/-- The slashes that `os.path.normpath` keeps at the start: three or more are one. -/
def initialSlashes (path : Text) : Text :=
  if [sep].isPrefixOf path then
    if [sep, sep].isPrefixOf path && !([sep, sep, sep].isPrefixOf path) then [sep, sep] else [sep]
  else []

/-- `os.path.normpath`. -/
def normpath (path : Text) : Text :=
  let slashes := initialSlashes path
  let components := ((split [sep] path).foldl (normStep (!slashes.isEmpty)) []).reverse
  let normal := slashes ++ List.intercalate [sep] components
  if normal = [] then [46] else normal

/-- The last of the two parts of `path.split(os.sep, 1)`, if there are two. -/
def afterFirst (path : Text) : Option Text :=
  match path.dropWhile (· ≠ sep) with
  | [] => none
  | _ :: rest => some rest

/-- What the loop keeps of a project: `git_project_name`, `git_project_path` and
`revision`. -/
structure Project where
  name : Text
  path : Text
  revision : Text
deriving DecidableEq

/-- The body of the loop, for one project name and its revision. -/
def tryProject (srcFilePath : Text) (entry : Text × Text) : Option Project :=
  if entry.1.isPrefixOf srcFilePath then some ⟨entry.1, entry.1, entry.2⟩
  else
    match afterFirst (normpath entry.1) with
    | some root => if root.isPrefixOf srcFilePath then some ⟨entry.1, root, entry.2⟩ else none
    | none => none

/-- The dictionary of revisions, in the order in which it is walked. -/
structure RevisionDict where
  entries : List (Text × Text)
  distinct : (entries.map Prod.fst).Nodup

/-- The loop over the project names, and `if not revision` after it. -/
def findProject (srcFilePath : Text) (revisions : RevisionDict) : Option Project :=
  (revisions.entries.findSome? (tryProject srcFilePath)).filter fun project =>
    project.revision ≠ []

/-! ## Ancestors by whole components -/

/-- The components of a path. -/
def components (path : Text) : List Text := (split [sep] path).filter (· ≠ [])

/-- The first path leads to a directory above the second one, or to the same place. -/
def IsAncestor (path below : Text) : Prop := components path <+: components below

instance (path below : Text) : Decidable (IsAncestor path below) :=
  inferInstanceAs (Decidable (components path <+: components below))

/-- The path ends where a component ends. -/
def AtBoundary (path below : Text) : Prop :=
  path = [] ∨ path = below ∨ path.getLast? = some sep ∨ path ++ [sep] <+: below

instance (path below : Text) : Decidable (AtBoundary path below) :=
  inferInstanceAs (Decidable (path = [] ∨ path = below ∨ path.getLast? = some sep ∨ _))

theorem components_append_sep (front rest : Text) :
    components (front ++ sep :: rest) = components front ++ components rest := by
  rw [components, split_append_byte, filter_append]
  rfl

theorem components_single {text : Text} (absent : sep ∉ text) (filled : text ≠ []) :
    components text = [text] := by
  rw [components, split_of_not_mem absent, filter_cons_of_pos (by simpa using filled)]
  rfl

/-- A path that starts after a slash has its components after those before it. -/
theorem components_append {front rest : Text} (ended : front = [] ∨ front.getLast? = some sep) :
    components (front ++ rest) = components front ++ components rest := by
  rcases ended with rfl | ended
  · rfl
  · obtain ⟨before, rfl⟩ := List.getLast?_eq_some_iff.mp ended
    rw [append_assoc, singleton_append, components_append_sep, components_append_sep]
    have none : components [] = [] := rfl
    rw [none, append_nil]

/-- A path that starts with some bytes other than the separator has a first component
that starts with them. -/
theorem components_first {first : Text} (absent : sep ∉ first) (filled : first ≠ [])
    (rest : Text) :
    ∃ others, components (first ++ rest) = (first ++ rest.takeWhile (· != sep)) :: others := by
  have headAbsent : sep ∉ first ++ rest.takeWhile (· != sep) := by
    intro listed
    rcases mem_append.mp listed with inFirst | taken
    · exact absent inFirst
    · simpa using mem_takeWhile_imp taken
  have headFilled : first ++ rest.takeWhile (· != sep) ≠ [] :=
    append_ne_nil_of_left_ne_nil filled _
  have parts : rest.takeWhile (· != sep) ++ rest.dropWhile (· != sep) = rest :=
    takeWhile_append_dropWhile
  cases after : rest.dropWhile (· != sep) with
  | nil =>
    rw [after, append_nil] at parts
    rw [parts] at headAbsent headFilled ⊢
    exact ⟨[], components_single headAbsent headFilled⟩
  | cons byte others =>
    have stops : byte = sep := by
      have start := List.head?_dropWhile_not (· != sep) rest
      rw [after] at start
      simpa using start
    refine ⟨components others, ?_⟩
    conv_lhs => rw [← parts, after, stops, ← append_assoc]
    rw [components_append_sep, components_single headAbsent headFilled]
    rfl

theorem exists_last_component {path : Text} (filled : path ≠ [])
    (unended : path.getLast? ≠ some sep) :
    ∃ front last, path = front ++ last ∧ (front = [] ∨ front.getLast? = some sep) ∧
      sep ∉ last ∧ last ≠ [] := by
  refine ⟨path.rdropWhile (· != sep), path.rtakeWhile (· != sep),
    rdropWhile_append_rtakeWhile.symm, ?_, ?_, ?_⟩
  · by_cases none : path.rdropWhile (· != sep) = []
    · exact .inl none
    · have last := rdropWhile_last_not (· != sep) path none
      rw [List.getLast?_eq_some_getLast none]
      exact .inr (by simpa using last)
  · intro listed
    simpa using mem_rtakeWhile_imp listed
  · intro none
    have last := rtakeWhile_eq_nil_iff.mp none filled
    rw [List.getLast?_eq_some_getLast filled] at unended
    exact unended (by simpa using last)

/-- A path is an ancestor of the paths that start with it exactly if it does not end in
the middle of a component. -/
theorem isAncestor_append_iff (path rest : Text) :
    IsAncestor path (path ++ rest) ↔ AtBoundary path (path ++ rest) := by
  constructor
  · intro ancestor
    by_contra inside
    obtain ⟨filled, whole, unended, unfollowed⟩ :
        path ≠ [] ∧ path ≠ path ++ rest ∧ path.getLast? ≠ some sep ∧
          ¬ path ++ [sep] <+: path ++ rest := by
      simpa [AtBoundary, not_or] using inside
    obtain ⟨front, last, rfl, started, absent, lastFilled⟩ := exists_last_component filled unended
    cases rest with
    | nil => exact whole (append_nil _).symm
    | cons byte tail =>
      have other : byte ≠ sep := by
        rintro rfl
        exact unfollowed ⟨tail, by simp⟩
      obtain ⟨others, longer⟩ := components_first absent lastFilled (byte :: tail)
      rw [IsAncestor, append_assoc, components_append started, components_append started,
        components_single absent lastFilled, longer, prefix_append_right_inj,
        cons_prefix_cons, takeWhile_cons_of_pos (by simpa using other)] at ancestor
      exact cons_ne_nil _ _ (self_eq_append_right.mp ancestor.1)
  · rintro (none | whole | ended | ⟨tail, followed⟩)
    · rw [none]
      exact nil_prefix
    · rw [← whole]
      exact prefix_rfl
    · rw [IsAncestor, components_append (.inr ended)]
      exact prefix_append _ _
    · rw [IsAncestor, ← followed, append_assoc, singleton_append, components_append_sep]
      exact prefix_append _ _

/-! ## Which dictionaries are safe -/

section

variable {srcFilePath : Text} {entry : Text × Text} {project : Project}

theorem tryProject_some (found : tryProject srcFilePath entry = some project) :
    project.name = entry.1 ∧ project.path <+: srcFilePath := by
  rw [tryProject] at found
  split at found
  · next named =>
    cases found
    exact ⟨rfl, isPrefixOf_iff_prefix.mp named⟩
  · split at found
    · split at found
      · next rooted =>
        cases found
        exact ⟨rfl, isPrefixOf_iff_prefix.mp rooted⟩
      · cases found
    · cases found

theorem findSome?_of_unique {entries : List (Text × Text)} (listed : entry ∈ entries)
    (found : tryProject srcFilePath entry = some project)
    (unique : ∀ other ∈ entries, (tryProject srcFilePath other).isSome → other = entry) :
    entries.findSome? (tryProject srcFilePath) = some project := by
  cases first : entries.findSome? (tryProject srcFilePath) with
  | none =>
    have nothing := List.findSome?_eq_none_iff.mp first entry listed
    rw [found] at nothing
    cases nothing
  | some chosen =>
    obtain ⟨other, inside, matched⟩ := exists_of_findSome?_eq_some first
    have same := unique other inside (by rw [matched]; rfl)
    rw [same, found] at matched
    exact matched.symm

theorem exists_first {revisions : RevisionDict} (listed : entry ∈ revisions.entries) :
    ∃ other : RevisionDict, other.entries.Perm revisions.entries ∧
      other.entries.head? = some entry := by
  have reordered := perm_cons_erase listed
  refine ⟨⟨entry :: revisions.entries.erase entry, ?_⟩, reordered.symm, rfl⟩
  exact (reordered.map Prod.fst).nodup_iff.mp revisions.distinct

theorem findProject_of_head {revisions : RevisionDict} (first : revisions.entries.head? = some entry)
    (found : tryProject srcFilePath entry = some project) :
    findProject srcFilePath revisions = (some project).filter fun chosen => chosen.revision ≠ [] := by
  obtain ⟨rest, entries⟩ := List.head?_eq_some_iff.mp first
  rw [findProject, entries, List.findSome?_cons_of_isSome (by rw [found]; rfl), found]

end

/-- The project of the source file lies above it, and is the same in every order of the
dictionary. -/
def WellPlaced (srcFilePath : Text) (revisions : RevisionDict) : Prop :=
  (∀ project, findProject srcFilePath revisions = some project →
    IsAncestor project.path srcFilePath) ∧
  ∀ other : RevisionDict, other.entries.Perm revisions.entries →
    findProject srcFilePath other = findProject srcFilePath revisions

/-- The project of a source file lies above it, and does not depend on the order of the
dictionary, exactly if no other project matches a path that one with a revision matches,
and the path of that one ends where a component ends. -/
theorem findProject_iff (srcFilePath : Text) (revisions : RevisionDict) :
    WellPlaced srcFilePath revisions ↔
      ∀ entry ∈ revisions.entries, ∀ project, tryProject srcFilePath entry = some project →
        project.revision ≠ [] →
          AtBoundary project.path srcFilePath ∧
            ∀ other ∈ revisions.entries, (tryProject srcFilePath other).isSome → other = entry := by
  constructor
  · rintro ⟨above, anyOrder⟩ entry listed project found revised
    obtain ⟨reordered, perm, first⟩ := exists_first listed
    have chosen : findProject srcFilePath revisions = some project := by
      rw [← anyOrder reordered perm, findProject_of_head first found, Option.filter_some,
        if_pos (by simpa using revised)]
    obtain ⟨rest, same⟩ := (tryProject_some found).2
    refine ⟨?_, ?_⟩
    · have ancestor := above project chosen
      rw [← same] at ancestor ⊢
      exact (isAncestor_append_iff project.path rest).mp ancestor
    · intro other inside matched
      obtain ⟨second, matched⟩ := Option.isSome_iff_exists.mp matched
      obtain ⟨reordered, perm, first⟩ := exists_first inside
      have again := anyOrder reordered perm
      rw [findProject_of_head first matched, chosen] at again
      have equal : second = project := (Option.filter_eq_some_iff.mp again).1 |> Option.some.inj
      have names : other.1 = entry.1 := by
        rw [← (tryProject_some matched).1, equal, (tryProject_some found).1]
      exact inj_on_of_nodup_map revisions.distinct inside listed names
  · intro safe
    by_cases some : ∃ entry ∈ revisions.entries, ∃ project,
        tryProject srcFilePath entry = some project ∧ project.revision ≠ []
    · obtain ⟨entry, listed, project, found, revised⟩ := some
      obtain ⟨boundary, unique⟩ := safe entry listed project found revised
      have chosen (other : RevisionDict) (perm : other.entries.Perm revisions.entries) :
          findProject srcFilePath other = Option.some project := by
        rw [findProject, findSome?_of_unique (perm.mem_iff.mpr listed) found
          (fun other inside => unique other (perm.mem_iff.mp inside)), Option.filter_some,
          if_pos (by simpa using revised)]
      refine ⟨?_, fun other perm => by rw [chosen other perm, chosen revisions (.refl _)]⟩
      intro other same
      rw [chosen revisions (.refl _)] at same
      cases same
      obtain ⟨rest, same⟩ := (tryProject_some found).2
      rw [← same] at boundary ⊢
      exact (isAncestor_append_iff project.path rest).mpr boundary
    · have nothing (other : RevisionDict) (perm : other.entries.Perm revisions.entries) :
          findProject srcFilePath other = none := by
        rw [findProject, Option.filter_eq_none_iff]
        intro project first revised
        obtain ⟨entry, inside, found⟩ := exists_of_findSome?_eq_some first
        exact some ⟨entry, perm.mem_iff.mp inside, project, found, by simpa using revised⟩
      refine ⟨?_, fun other perm => by rw [nothing other perm, nothing revisions (.refl _)]⟩
      intro project chosen
      rw [nothing revisions (.refl _)] at chosen
      cases chosen

/-- The projects `a/b` and `a/b-c`, with revisions. -/
def siblings : RevisionDict := ⟨[([97, 47, 98], [49]), ([97, 47, 98, 45, 99], [50])], by decide⟩

/-- The file `a/b-c/d` is taken for one of the project `a/b`. -/
theorem findProject_sibling :
    findProject [97, 47, 98, 45, 99, 47, 100] siblings =
        some ⟨[97, 47, 98], [97, 47, 98], [49]⟩ ∧
      ¬ WellPlaced [97, 47, 98, 45, 99, 47, 100] siblings := by
  have chosen : findProject [97, 47, 98, 45, 99, 47, 100] siblings =
      some ⟨[97, 47, 98], [97, 47, 98], [49]⟩ := by decide
  refine ⟨chosen, ?_⟩
  intro placed
  have above := placed.1 _ chosen
  revert above
  decide

end Projects

end Vts.Coverage
