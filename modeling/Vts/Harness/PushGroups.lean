import Mathlib.Data.Finset.Card
import Mathlib.Data.List.DropRight
import Vts.Lib.ClearPaths

/-!
# Push groups

`VtsFilePusher.loadFilePushGroups` in
`harnesses/tradefed/src/com/android/compatibility/common/tradefed/targetprep/VtsFilePusher.java`:
the specifications of pushed files are read from `.push` files, which may include one another.

A `TreeSet` of strings is a `Finset`. The recursion takes a bound on its depth and gives `none`
where it is reached; `loadFilePushGroup_returns` says which bound is enough.
-/

namespace Vts.Harness.PushGroups

open Finset hiding filter_cons map_cons mem_singleton

open List

open Vts.Lib (Clear clear_empty clear_iff)

/-- A Java string. -/
abbrev JavaString := List Char

def DIR_PUSH_GROUPS : JavaString := "vts/tools/vts-tradefed/res/push_groups".toList

def PUSH_GROUP_FILE_EXTENSION : JavaString := ".push".toList

/-- What separates the two sides of a push specification. -/
def ARROW : JavaString := "->".toList

/-! ## Strings and paths -/

/-- `String.trim`. -/
def trim (text : JavaString) : JavaString :=
  (text.dropWhile (· ≤ ' ')).rdropWhile (· ≤ ' ')

/-- All lines that `BufferedReader.readLine` gives. A line ends with a line feed, a carriage
return, or both. -/
def readLines : JavaString → List JavaString
  | [] => []
  | '\n' :: rest => [] :: readLines rest
  | '\r' :: '\n' :: rest => [] :: readLines rest
  | '\r' :: rest => [] :: readLines rest
  | char :: rest =>
    match readLines rest with
    | [] => [[char]]
    | line :: lines => (char :: line) :: lines

example : readLines "a\n\r\nb\rcd".toList = ["a".toList, [], "b".toList, "cd".toList] := by decide

/-- Repeated slashes become one. -/
def collapse : JavaString → JavaString
  | [] => []
  | char :: rest => if char = '/' ∧ rest.head? = some '/' then collapse rest else char :: collapse rest

/-- `UnixFileSystem.normalize`: no repeated slashes, and none at the end but that of the root. -/
def normalize (path : JavaString) : JavaString :=
  let path := collapse path
  if path = ['/'] then path else path.rdropWhile (· == '/')

/-- `UnixFileSystem.resolve`. -/
def resolve (parent child : JavaString) : JavaString :=
  if child = [] then parent
  else if child.head? = some '/' then (if parent = ['/'] then child else parent ++ child)
  else if parent = ['/'] then parent ++ child
  else parent ++ '/' :: child

/-- `new File(parent, child).getPath()`. An empty parent stands for the root. -/
def File (parent child : JavaString) : JavaString :=
  resolve (if parent = [] then ['/'] else normalize parent) (normalize child)

/-- The path of a push group file. -/
def specFile (testsDir specFileName : JavaString) : JavaString :=
  File testsDir (File DIR_PUSH_GROUPS specFileName)

/-- The files of the host: the contents of finitely many, and which of them a `FileReader` reads
for a path. Where it finds none, its exception has a message. -/
structure Host where
  contents : List JavaString
  fileReader : JavaString → Except JavaString (Fin contents.length)

/-- The lines of the file of a group. -/
def Host.readGroup (host : Host) (testsDir specFileName : JavaString) :
    Except JavaString (List JavaString) :=
  (host.fileReader (specFile testsDir specFileName)).map fun index =>
    readLines (host.contents.get index)

/-! ## Loading -/

/-- A `TargetSetupError` with its message. -/
structure TargetSetupError where
  message : JavaString
deriving DecidableEq

/-- How loading ends, if the bound on the depth is not reached: with the specifications and the
stack, or with an error. -/
abbrev Loaded := Option (Except TargetSetupError (Finset JavaString × Finset JavaString))

/-- One round of the loop over the lines. `load` is the recursive call. -/
def loadLine (load : JavaString → Finset JavaString → Loaded)
    (state : Finset JavaString × Finset JavaString) (line : JavaString) : Loaded :=
  let (result, stack) := state
  let spec := trim line
  if ARROW <:+: spec then some (.ok (insert spec result, stack))
  else if PUSH_GROUP_FILE_EXTENSION <:+: spec then
    if spec ∉ stack then
      match load spec (insert spec stack) with
      | none => none
      | some (.error error) => some (.error error)
      | some (.ok (included, stack)) => some (.ok (result ∪ included, stack.erase spec))
    else some (.ok (result, stack))
  else if spec.length > 0 then some (.error ⟨"Unknown file push spec: ".toList ++ spec⟩)
  else some (.ok (result, stack))

/-- The loop over the lines. -/
def loadLines (load : JavaString → Finset JavaString → Loaded) :
    Finset JavaString × Finset JavaString → List JavaString → Loaded
  | state, [] => some (.ok state)
  | state, line :: lines =>
    match loadLine load state line with
    | some (.ok state) => loadLines load state lines
    | stopped => stopped

def loadFilePushGroup (host : Host) (testsDir : JavaString) :
    Nat → JavaString → Finset JavaString → Loaded
  | 0, _, _ => none
  | depth + 1, specFileName, stack =>
    match host.readGroup testsDir specFileName with
    | .error message => some (.error ⟨message⟩)
    | .ok lines => loadLines (loadFilePushGroup host testsDir depth) (∅, stack) lines

/-- The loop over the groups of `loadFilePushGroups`, each with a stack of its own. -/
def loadGroups (host : Host) (testDir : JavaString) (depth : Nat) :
    Finset JavaString → List JavaString →
      Option (Except TargetSetupError (Finset JavaString))
  | result, [] => some (.ok result)
  | result, group :: groups =>
    match loadFilePushGroup host testDir depth group ∅ with
    | none => none
    | some (.error error) => some (.error error)
    | some (.ok (loaded, _)) => loadGroups host testDir depth (result ∪ loaded) groups

/-- `getTestsDir` gives the directory or the message of a `FileNotFoundException`. -/
def loadFilePushGroups (host : Host) (getTestsDir : Except JavaString JavaString) (depth : Nat)
    (mPushSpecGroups : List JavaString) : Option (Except TargetSetupError (Finset JavaString)) :=
  match getTestsDir with
  | .error message => some (.error ⟨message⟩)
  | .ok testDir => loadGroups host testDir depth ∅ mPushSpecGroups

/-! ## What the files say -/

/-- The push specifications of lines. -/
def pushSpecs (lines : List JavaString) : List JavaString :=
  (lines.map trim).filter fun spec => ARROW <:+: spec

/-- The groups that lines include. -/
def includeNames (lines : List JavaString) : List JavaString :=
  (lines.map trim).filter fun spec => ¬ ARROW <:+: spec ∧ PUSH_GROUP_FILE_EXTENSION <:+: spec

/-- A line is a push specification, includes a group, or is blank. -/
def Known (line : JavaString) : Prop :=
  ARROW <:+: trim line ∨ PUSH_GROUP_FILE_EXTENSION <:+: trim line ∨ trim line = []

/-- A group has a push specification. -/
def Host.HasSpec (host : Host) (testsDir name spec : JavaString) : Prop :=
  ∃ lines, host.readGroup testsDir name = .ok lines ∧ spec ∈ pushSpecs lines

/-- A group includes another one. -/
def Host.Includes (host : Host) (testsDir name included : JavaString) : Prop :=
  ∃ lines, host.readGroup testsDir name = .ok lines ∧ included ∈ includeNames lines

/-- Through any number of includes. -/
def Host.Reaches (host : Host) (testsDir : JavaString) : JavaString → JavaString → Prop :=
  Relation.ReflTransGen (host.Includes testsDir)

/-- The file of a group exists, and all its lines are known. -/
def Host.Readable (host : Host) (testsDir name : JavaString) : Prop :=
  ∃ lines, host.readGroup testsDir name = .ok lines ∧ ∀ line ∈ lines, Known line

/-- All groups that are included anywhere. -/
def Host.names (host : Host) : Finset JavaString :=
  (host.contents.flatMap fun content => includeNames (readLines content)).toFinset

/-- The lines of a group are those of one of the files. -/
theorem Host.includeNames_subset {host : Host} {testsDir name : JavaString}
    {lines : List JavaString} (read : host.readGroup testsDir name = .ok lines) :
    ∀ included ∈ includeNames lines, included ∈ host.names := by
  intro included listed
  rw [Host.readGroup] at read
  cases found : host.fileReader (specFile testsDir name) with
  | error message =>
    rw [found] at read
    cases read
  | ok index =>
    rw [found] at read
    cases read
    apply mem_toFinset.mpr
    exact mem_flatMap.mpr ⟨_, get_mem _ index, listed⟩

/-! ## One line -/

section Lines

variable {load : JavaString → Finset JavaString → Loaded}
variable {result stack : Finset JavaString} {line : JavaString}

theorem loadLine_pushSpec (arrow : ARROW <:+: trim line) :
    loadLine load (result, stack) line = some (.ok (insert (trim line) result, stack)) := by
  rw [loadLine, if_pos arrow]

section

variable (noArrow : ¬ ARROW <:+: trim line) (extension : PUSH_GROUP_FILE_EXTENSION <:+: trim line)
include noArrow extension

/-- A group on the stack is left out. -/
theorem loadLine_onStack (closed : trim line ∈ stack) :
    loadLine load (result, stack) line = some (.ok (result, stack)) := by
  rw [loadLine, if_neg noArrow, if_pos extension, if_neg (not_not_intro closed)]

theorem loadLine_include (fresh : trim line ∉ stack) :
    loadLine load (result, stack) line =
      (match load (trim line) (insert (trim line) stack) with
      | none => none
      | some (.error error) => some (.error error)
      | some (.ok (included, stack)) =>
        some (.ok (result ∪ included, stack.erase (trim line)))) := by
  rw [loadLine, if_neg noArrow, if_pos extension, if_pos fresh]

end

section

variable {lines : List JavaString} {final after : Finset JavaString}

theorem loadLine_blank (blank : trim line = []) :
    loadLine load (result, stack) line = some (.ok (result, stack)) := by
  have noArrow : ¬ ARROW <:+: trim line := by
    rw [blank]
    decide
  have noExtension : ¬ PUSH_GROUP_FILE_EXTENSION <:+: trim line := by
    rw [blank]
    decide
  have nothing : ¬ (trim line).length > 0 := by
    rw [blank]
    decide
  rw [loadLine, if_neg noArrow, if_neg noExtension, if_neg nothing]

theorem loadLine_unknown (unknown : ¬ Known line) :
    loadLine load (result, stack) line =
      some (.error ⟨"Unknown file push spec: ".toList ++ trim line⟩) := by
  rw [Known, not_or, not_or] at unknown
  obtain ⟨noArrow, noExtension, solid⟩ := unknown
  have some_char : (trim line).length > 0 := length_pos_of_ne_nil solid
  rw [loadLine, if_neg noArrow, if_neg noExtension, if_pos some_char]

/-- The kinds of lines, as the loop tells them apart. -/
theorem line_cases (stack : Finset JavaString) (line : JavaString) :
    ARROW <:+: trim line ∨
    (¬ ARROW <:+: trim line ∧ PUSH_GROUP_FILE_EXTENSION <:+: trim line ∧ trim line ∈ stack) ∨
    (¬ ARROW <:+: trim line ∧ PUSH_GROUP_FILE_EXTENSION <:+: trim line ∧ trim line ∉ stack) ∨
    trim line = [] ∨ ¬ Known line := by
  by_cases arrow : ARROW <:+: trim line
  · exact .inl arrow
  by_cases extension : PUSH_GROUP_FILE_EXTENSION <:+: trim line
  · by_cases closed : trim line ∈ stack
    · exact .inr (.inl ⟨arrow, extension, closed⟩)
    · exact .inr (.inr (.inl ⟨arrow, extension, closed⟩))
  by_cases blank : trim line = []
  · exact .inr (.inr (.inr (.inl blank)))
  · refine .inr (.inr (.inr (.inr ?_)))
    rintro (present | present | present)
    · exact arrow present
    · exact extension present
    · exact blank present

/-- Every line that is not left out as blank or unknown is listed where it belongs. -/
theorem mem_includeNames (listed : line ∈ lines) (noArrow : ¬ ARROW <:+: trim line)
    (extension : PUSH_GROUP_FILE_EXTENSION <:+: trim line) : trim line ∈ includeNames lines := by
  apply mem_filter.mpr
  exact ⟨mem_map_of_mem listed, by simp [noArrow, extension]⟩

/-! ## The stack and the bound -/

/-- A recursive call gives the stack back as it got it. -/
def Restores (load : JavaString → Finset JavaString → Loaded) : Prop :=
  ∀ spec stack result after, load spec stack = some (.ok (result, after)) → after = stack

theorem loadLine_restores (restores : Restores load)
    (done : loadLine load (result, stack) line = some (.ok (final, after))) : after = stack := by
  rcases line_cases stack line with arrow | ⟨noArrow, extension, closed⟩ |
    ⟨noArrow, extension, fresh⟩ | blank | unknown
  · rw [loadLine_pushSpec arrow] at done
    cases done
    rfl
  · rw [loadLine_onStack noArrow extension closed] at done
    cases done
    rfl
  · rw [loadLine_include noArrow extension fresh] at done
    split at done
    · cases done
    · cases done
    · rename_i included inner loaded
      have back : inner = insert (trim line) stack := restores _ _ _ _ loaded
      cases done
      rw [back, erase_insert fresh]
  · rw [loadLine_blank blank] at done
    cases done
    rfl
  · rw [loadLine_unknown unknown] at done
    cases done

theorem loadLines_restores (restores : Restores load)
    (done : loadLines load (result, stack) lines = some (.ok (final, after))) : after = stack := by
  induction lines generalizing result stack with
  | nil =>
    cases done
    rfl
  | cons line lines ih =>
    rw [loadLines] at done
    split at done
    · rename_i state stepped
      obtain ⟨next, inner⟩ := state
      have kept : inner = stack := loadLine_restores restores stepped
      exact (ih done).trans kept
    · rename_i stuck
      exact absurd done (stuck _)

end

end Lines

theorem loadFilePushGroup_restores (host : Host) (testsDir : JavaString) (depth : Nat) :
    Restores (loadFilePushGroup host testsDir depth) := by
  induction depth with
  | zero =>
    intro spec stack result after done
    cases done
  | succ depth ih =>
    intro spec stack result after done
    rw [loadFilePushGroup] at done
    split at done
    · cases done
    · exact loadLines_restores ih done

/-- What one search finds another one finds as well. -/
def Extends (load more : JavaString → Finset JavaString → Loaded) : Prop :=
  ∀ spec stack outcome, load spec stack = some outcome → more spec stack = some outcome

section Extension

variable {load more : JavaString → Finset JavaString → Loaded}

section

variable {state : Finset JavaString × Finset JavaString}
  {outcome : Except TargetSetupError (Finset JavaString × Finset JavaString)}

theorem loadLine_extends (extend : Extends load more) {line : JavaString}
    (done : loadLine load state line = some outcome) : loadLine more state line = some outcome := by
  obtain ⟨result, stack⟩ := state
  rcases line_cases stack line with arrow | ⟨noArrow, extension, closed⟩ |
    ⟨noArrow, extension, fresh⟩ | blank | unknown
  · rwa [loadLine_pushSpec arrow] at done ⊢
  · rwa [loadLine_onStack noArrow extension closed] at done ⊢
  · rw [loadLine_include noArrow extension fresh] at done ⊢
    cases loaded : load (trim line) (insert (trim line) stack) with
    | none =>
      rw [loaded] at done
      cases done
    | some inner =>
      rw [loaded] at done
      rwa [extend _ _ _ loaded]
  · rwa [loadLine_blank blank] at done ⊢
  · rwa [loadLine_unknown unknown] at done ⊢

theorem loadLines_extends (extend : Extends load more) {lines : List JavaString}
    (done : loadLines load state lines = some outcome) :
    loadLines more state lines = some outcome := by
  induction lines generalizing state with
  | nil => exact done
  | cons line lines ih =>
    rw [loadLines] at done ⊢
    cases stepped : loadLine load state line with
    | none =>
      rw [stepped] at done
      cases done
    | some reached =>
      rw [stepped] at done
      rw [loadLine_extends extend stepped]
      cases reached with
      | error error => exact done
      | ok next => exact ih done

end

end Extension

/-- A larger bound changes nothing where the smaller one is enough. -/
theorem loadFilePushGroup_extends (host : Host) (testsDir : JavaString) {depth deeper : Nat}
    (further : depth ≤ deeper) :
    Extends (loadFilePushGroup host testsDir depth) (loadFilePushGroup host testsDir deeper) := by
  induction depth generalizing deeper with
  | zero =>
    intro spec stack outcome done
    cases done
  | succ depth ih =>
    intro spec stack outcome done
    obtain ⟨deeper, rfl⟩ := Nat.exists_eq_add_of_lt further
    rw [loadFilePushGroup] at done ⊢
    split at done
    · exact done
    · exact loadLines_extends (ih (by omega)) done

/-! ## Termination -/

theorem loadLines_returns {load : JavaString → Finset JavaString → Loaded}
    {result stack : Finset JavaString} {lines : List JavaString} (restores : Restores load)
    (returns : ∀ spec ∈ includeNames lines, spec ∉ stack →
      ∃ outcome, load spec (insert spec stack) = some outcome) :
    ∃ outcome, loadLines load (result, stack) lines = some outcome := by
  induction lines generalizing result with
  | nil => exact ⟨_, rfl⟩
  | cons line lines ih =>
    have later : ∀ spec ∈ includeNames lines, spec ∉ stack →
        ∃ outcome, load spec (insert spec stack) = some outcome := by
      intro spec listed
      apply returns spec
      obtain ⟨inMap, kind⟩ := mem_filter.mp listed
      exact mem_filter.mpr ⟨mem_cons_of_mem _ inMap, kind⟩
    have stepped : ∃ outcome, loadLine load (result, stack) line = some outcome := by
      rcases line_cases stack line with arrow | ⟨noArrow, extension, closed⟩ |
        ⟨noArrow, extension, fresh⟩ | blank | unknown
      · exact ⟨_, loadLine_pushSpec arrow⟩
      · exact ⟨_, loadLine_onStack noArrow extension closed⟩
      · rw [loadLine_include noArrow extension fresh]
        have listed : trim line ∈ includeNames (line :: lines) :=
          mem_includeNames mem_cons_self noArrow extension
        obtain ⟨inner, loaded⟩ := returns _ listed fresh
        rw [loaded]
        rcases inner with error | ⟨included, after⟩
        · exact ⟨_, rfl⟩
        · exact ⟨_, rfl⟩
      · exact ⟨_, loadLine_blank blank⟩
      · exact ⟨_, loadLine_unknown unknown⟩
    obtain ⟨outcome, stepped⟩ := stepped
    rw [loadLines, stepped]
    rcases outcome with error | ⟨next, after⟩
    · exact ⟨_, rfl⟩
    · obtain rfl : after = stack := loadLine_restores restores stepped
      exact ih later

/-- An included group that is not on the stack uses up one of the names off the stack. -/
theorem card_sdiff_insert_lt {names stack : Finset JavaString} {spec : JavaString}
    (listed : spec ∈ names) (fresh : spec ∉ stack) :
    (names \ insert spec stack).card < (names \ stack).card := by
  apply card_lt_card
  rw [ssubset_iff_of_subset (sdiff_subset_sdiff le_rfl (subset_insert _ _))]
  exact ⟨spec, by simp [listed, fresh], by simp⟩

/-- A bound above the number of names that are not on the stack is enough. -/
theorem loadFilePushGroup_returns (host : Host) (testsDir : JavaString) {depth : Nat}
    {name : JavaString} {stack : Finset JavaString} (deep : (host.names \ stack).card < depth) :
    ∃ outcome, loadFilePushGroup host testsDir depth name stack = some outcome := by
  induction depth generalizing name stack with
  | zero => exact absurd deep (Nat.not_lt_zero _)
  | succ depth ih =>
    rw [loadFilePushGroup]
    cases read : host.readGroup testsDir name with
    | error message => exact ⟨_, rfl⟩
    | ok lines =>
      apply loadLines_returns (loadFilePushGroup_restores host testsDir depth)
      intro spec listed fresh
      have known : spec ∈ host.names := Host.includeNames_subset read spec listed
      have fewer := card_sdiff_insert_lt known fresh
      exact ih (by omega)

/-! ## What is loaded -/

section

variable {line spec : JavaString} {lines : List JavaString}

theorem mem_pushSpecs_cons :
    spec ∈ pushSpecs (line :: lines) ↔
      (ARROW <:+: trim line ∧ spec = trim line) ∨ spec ∈ pushSpecs lines := by
  rw [pushSpecs, map_cons, filter_cons]
  by_cases arrow : ARROW <:+: trim line <;> simp [pushSpecs, arrow]

theorem mem_includeNames_cons :
    spec ∈ includeNames (line :: lines) ↔
      (¬ ARROW <:+: trim line ∧ PUSH_GROUP_FILE_EXTENSION <:+: trim line ∧ spec = trim line) ∨
        spec ∈ includeNames lines := by
  rw [includeNames, map_cons, filter_cons]
  by_cases arrow : ARROW <:+: trim line
  · simp [includeNames, arrow]
  · by_cases extension : PUSH_GROUP_FILE_EXTENSION <:+: trim line <;>
      simp [includeNames, arrow, extension]

end

/-- The loop adds the push specifications of its lines and all that `load` finds for the groups
off the stack, described by `found`. -/
theorem loadLines_exact {load : JavaString → Finset JavaString → Loaded}
    {found : JavaString → JavaString → Prop} {result stack : Finset JavaString}
    {lines : List JavaString} (known : ∀ line ∈ lines, Known line)
    (loads : ∀ spec ∈ includeNames lines, spec ∉ stack → ∃ included,
      load spec (insert spec stack) = some (.ok (included, insert spec stack)) ∧
        ∀ pushed, pushed ∈ included ↔ found spec pushed) :
    ∃ final, loadLines load (result, stack) lines = some (.ok (final, stack)) ∧
      ∀ pushed, pushed ∈ final ↔ pushed ∈ result ∨ pushed ∈ pushSpecs lines ∨
        ∃ spec ∈ includeNames lines, spec ∉ stack ∧ found spec pushed := by
  induction lines generalizing result with
  | nil => exact ⟨result, rfl, by simp [pushSpecs, includeNames]⟩
  | cons line lines ih =>
    obtain ⟨knownFirst, knownLater⟩ := forall_mem_cons.mp known
    have later : ∀ spec ∈ includeNames lines, spec ∉ stack → ∃ included,
        load spec (insert spec stack) = some (.ok (included, insert spec stack)) ∧
          ∀ pushed, pushed ∈ included ↔ found spec pushed :=
      fun spec listed => loads spec (mem_includeNames_cons.mpr (.inr listed))
    simp only [mem_pushSpecs_cons, mem_includeNames_cons]
    rcases line_cases stack line with arrow | ⟨noArrow, extension, closed⟩ |
      ⟨noArrow, extension, fresh⟩ | blank | unknown
    · obtain ⟨final, done, exact⟩ := @ih (insert (trim line) result)
        knownLater later
      refine ⟨final, ?_, fun pushed => ?_⟩
      · rw [loadLines, loadLine_pushSpec arrow]
        exact done
      · rw [exact pushed, mem_insert]
        simp only [arrow, true_and, not_true_eq_false, false_and, false_or]
        tauto
    · obtain ⟨final, done, exact⟩ := ih knownLater later
      refine ⟨final, ?_, fun pushed => ?_⟩
      · rw [loadLines, loadLine_onStack noArrow extension closed]
        exact done
      · have skipped : ∀ spec, (spec = trim line ∨ spec ∈ includeNames lines) ∧ spec ∉ stack ∧
            found spec pushed ↔ spec ∈ includeNames lines ∧ spec ∉ stack ∧ found spec pushed := by
          intro spec
          constructor
          · rintro ⟨rfl | listed, fresh, finds⟩
            · exact absurd closed fresh
            · exact ⟨listed, fresh, finds⟩
          · rintro ⟨listed, fresh, finds⟩
            exact ⟨.inr listed, fresh, finds⟩
        rw [exact pushed]
        simp only [noArrow, not_false_eq_true, extension, true_and, false_and, false_or, skipped]
    · have listed : trim line ∈ includeNames (line :: lines) :=
        mem_includeNames mem_cons_self noArrow extension
      obtain ⟨included, loaded, finds⟩ := loads _ listed fresh
      obtain ⟨final, done, exact⟩ := @ih (result ∪ included)
        knownLater later
      refine ⟨final, ?_, fun pushed => ?_⟩
      · rw [loadLines, loadLine_include noArrow extension fresh, loaded]
        dsimp only
        rw [erase_insert fresh]
        exact done
      · rw [exact pushed, mem_union, finds pushed]
        simp only [noArrow, not_false_eq_true, extension, true_and, false_and, false_or,
          or_and_right, exists_or, exists_eq_left, fresh]
        tauto
    · obtain ⟨final, done, exact⟩ := ih knownLater later
      have noArrow : ¬ ARROW <:+: trim line := by
        rw [blank]
        decide
      have noExtension : ¬ PUSH_GROUP_FILE_EXTENSION <:+: trim line := by
        rw [blank]
        decide
      refine ⟨final, ?_, fun pushed => ?_⟩
      · rw [loadLines, loadLine_blank blank]
        exact done
      · rw [exact pushed]
        simp only [noArrow, noExtension, false_and, and_false, false_or]
    · exact absurd knownFirst unknown

/-- What a group loads with a stack: the push specifications of all groups that are reached
without one on the stack. -/
theorem loadFilePushGroup_exact (host : Host) (testsDir : JavaString) {depth : Nat}
    {name : JavaString} {stack : Finset JavaString} (deep : (host.names \ stack).card < depth)
    (readable : ∀ reached, Clear (host.Includes testsDir) stack name reached →
      host.Readable testsDir reached) :
    ∃ result, loadFilePushGroup host testsDir depth name stack = some (.ok (result, stack)) ∧
      ∀ pushed, pushed ∈ result ↔ ∃ reached,
        Clear (host.Includes testsDir) stack name reached ∧
          host.HasSpec testsDir reached pushed := by
  induction depth generalizing name stack with
  | zero => exact absurd deep (Nat.not_lt_zero _)
  | succ depth ih =>
    obtain ⟨lines, read, known⟩ := readable name Relation.ReflTransGen.refl
    have includes (spec : JavaString) :
        host.Includes testsDir name spec ↔ spec ∈ includeNames lines := by
      constructor
      · rintro ⟨_, same, listed⟩
        cases read.symm.trans same
        exact listed
      · exact fun listed => ⟨lines, read, listed⟩
    have ownSpecs (pushed : JavaString) :
        host.HasSpec testsDir name pushed ↔ pushed ∈ pushSpecs lines := by
      constructor
      · rintro ⟨_, same, listed⟩
        cases read.symm.trans same
        exact listed
      · exact fun listed => ⟨lines, read, listed⟩
    have loads : ∀ spec ∈ includeNames lines, spec ∉ stack → ∃ included,
        loadFilePushGroup host testsDir depth spec (insert spec stack) =
            some (.ok (included, insert spec stack)) ∧
          ∀ pushed, pushed ∈ included ↔ ∃ reached,
            Clear (host.Includes testsDir) (insert spec ↑stack) spec reached ∧
              host.HasSpec testsDir reached pushed := by
      intro spec listed fresh
      have inNames : spec ∈ host.names := Host.includeNames_subset read spec listed
      have fewer := card_sdiff_insert_lt inNames fresh
      rw [← coe_insert]
      apply ih (by omega)
      intro reached clear
      rw [coe_insert] at clear
      apply readable
      exact clear_iff.mpr (.inr ⟨spec, (includes spec).mpr listed, fresh, clear⟩)
    obtain ⟨result, done, exact⟩ := @loadLines_exact _ _ ∅ _ _ known loads
    refine ⟨result, ?_, fun pushed => ?_⟩
    · rw [loadFilePushGroup, read]
      exact done
    · rw [exact pushed]
      constructor
      · rintro (none | own | ⟨spec, listed, fresh, reached, clear, pushes⟩)
        · cases none
        · exact ⟨name, Relation.ReflTransGen.refl, (ownSpecs pushed).mpr own⟩
        · refine ⟨reached, ?_, pushes⟩
          exact clear_iff.mpr (.inr ⟨spec, (includes spec).mpr listed, fresh, clear⟩)
      · rintro ⟨reached, clear, pushes⟩
        rcases clear_iff.mp clear with rfl | ⟨spec, included, fresh, rest⟩
        · exact .inr (.inl ((ownSpecs pushed).mp pushes))
        · exact .inr (.inr ⟨spec, (includes spec).mp included, fresh, reached, rest, pushes⟩)

/-- For every set of files and every group, loading ends; if the files of all reached groups exist
and have known lines only, what is loaded is their push specifications. -/
theorem loadFilePushGroup_loads_reached (host : Host) (testsDir group : JavaString) :
    ∃ outcome : Except TargetSetupError (Finset JavaString × Finset JavaString),
      (∃ bound, ∀ depth ≥ bound,
        loadFilePushGroup host testsDir depth group ∅ = some outcome) ∧
      ((∀ name, host.Reaches testsDir group name → host.Readable testsDir name) →
        ∃ result, outcome = .ok (result, ∅) ∧
          ∀ spec, spec ∈ result ↔
            ∃ name, host.Reaches testsDir group name ∧ host.HasSpec testsDir name spec) := by
  have deep : (host.names \ ∅).card < host.names.card + 1 := by
    rw [sdiff_empty]
    exact Nat.lt_succ_self _
  obtain ⟨outcome, returns⟩ := @loadFilePushGroup_returns host testsDir _ group _ deep
  refine ⟨outcome, ⟨host.names.card + 1, ?_⟩, ?_⟩
  · intro depth enough
    exact loadFilePushGroup_extends host testsDir enough _ _ _ returns
  · intro readable
    rw [Host.Reaches, ← clear_empty, ← coe_empty] at readable ⊢
    obtain ⟨result, done, exact⟩ := loadFilePushGroup_exact host testsDir deep readable
    have same : outcome = .ok (result, ∅) := Option.some.inj (returns.symm.trans done)
    exact ⟨result, same, exact⟩

/-- Two groups that include each other, the first one also itself. -/
def cyclicHost : Host where
  contents := ["a->b\n B.push\n\nA.push".toList, "A.push\nc->d\n".toList]
  fileReader := fun path =>
    if "A.push".toList <:+ path then .ok 0
    else if "B.push".toList <:+ path then .ok 1
    else .error "No such file".toList

theorem cyclicHost_loads_reached :
    ∃ result : Finset JavaString,
      (∃ bound, ∀ depth ≥ bound,
        loadFilePushGroup cyclicHost "/".toList depth "A.push".toList ∅ = some (.ok (result, ∅))) ∧
      ∀ spec, spec ∈ result ↔ ∃ name, cyclicHost.Reaches "/".toList "A.push".toList name ∧
        cyclicHost.HasSpec "/".toList name spec := by
  have readA : cyclicHost.readGroup "/".toList "A.push".toList =
      .ok ["a->b".toList, " B.push".toList, [], "A.push".toList] := by decide
  have readB : cyclicHost.readGroup "/".toList "B.push".toList =
      .ok ["A.push".toList, "c->d".toList] := by decide
  have reached : ∀ name, cyclicHost.Reaches "/".toList "A.push".toList name →
      name = "A.push".toList ∨ name = "B.push".toList := by
    intro name reaches
    induction reaches with
    | refl => exact .inl rfl
    | tail _ included ih =>
      obtain ⟨lines, read, listed⟩ := included
      rcases ih with rfl | rfl
      · cases readA.symm.trans read
        have names : includeNames ["a->b".toList, " B.push".toList, [], "A.push".toList] =
            ["B.push".toList, "A.push".toList] := by decide
        rw [names] at listed
        simpa [or_comm] using listed
      · cases readB.symm.trans read
        have names : includeNames ["A.push".toList, "c->d".toList] = ["A.push".toList] := by decide
        rw [names] at listed
        exact .inl (mem_singleton.mp listed)
  have readable : ∀ name, cyclicHost.Reaches "/".toList "A.push".toList name →
      cyclicHost.Readable "/".toList name := by
    intro name reaches
    rcases reached name reaches with rfl | rfl
    · exact ⟨_, readA, by simp only [Known]; decide⟩
    · exact ⟨_, readB, by simp only [Known]; decide⟩
  obtain ⟨outcome, bounded, exact⟩ :=
    loadFilePushGroup_loads_reached cyclicHost "/".toList "A.push".toList
  obtain ⟨result, rfl, specs⟩ := exact readable
  exact ⟨result, bounded, specs⟩

/-! ## All groups -/

/-- Every group that is reached is readable. -/
def Host.Complete (host : Host) (testsDir group : JavaString) : Prop :=
  ∀ name, host.Reaches testsDir group name → host.Readable testsDir name

/-- A group that is reached has a push specification. -/
def Host.Pushes (host : Host) (testsDir group spec : JavaString) : Prop :=
  ∃ name, host.Reaches testsDir group name ∧ host.HasSpec testsDir name spec

/-- A line that is loaded is known, and a group that it includes is loaded. -/
def LoadedBy (load : JavaString → Finset JavaString → Loaded) (stack : Finset JavaString)
    (line : JavaString) : Prop :=
  Known line ∧ (¬ ARROW <:+: trim line → PUSH_GROUP_FILE_EXTENSION <:+: trim line →
    trim line ∉ stack → ∃ included, load (trim line) (insert (trim line) stack) =
      some (.ok included))

theorem loadLine_ok {load : JavaString → Finset JavaString → Loaded} {result stack : Finset JavaString}
    {line : JavaString} {next : Finset JavaString × Finset JavaString}
    (done : loadLine load (result, stack) line = some (.ok next)) : LoadedBy load stack line := by
  by_cases known : Known line
  · refine ⟨known, fun noArrow extension fresh => ?_⟩
    rw [loadLine_include noArrow extension fresh] at done
    split at done
    · cases done
    · cases done
    · rename_i loaded
      exact ⟨_, loaded⟩
  · rw [loadLine_unknown known] at done
    cases done

theorem loadLines_ok {load : JavaString → Finset JavaString → Loaded} (restores : Restores load)
    {lines : List JavaString} {result stack : Finset JavaString}
    {next : Finset JavaString × Finset JavaString}
    (done : loadLines load (result, stack) lines = some (.ok next)) :
    ∀ line ∈ lines, LoadedBy load stack line := by
  induction lines generalizing result with
  | nil => exact nofun
  | cons line lines ih =>
    rw [loadLines] at done
    split at done
    · rename_i state stepped
      obtain ⟨further, inner⟩ := state
      cases loadLine_restores restores stepped
      exact List.forall_mem_cons.mpr ⟨loadLine_ok stepped, ih done⟩
    · rename_i stuck
      exact absurd done (stuck _)

/-- A group is loaded only if every group that it reaches is readable. -/
theorem loadFilePushGroup_readable {host : Host} {testsDir : JavaString} {depth : Nat}
    {name reached : JavaString} {stack : Finset JavaString}
    {loaded : Finset JavaString × Finset JavaString}
    (done : loadFilePushGroup host testsDir depth name stack = some (.ok loaded))
    (clear : Clear (host.Includes testsDir) stack name reached) :
    host.Readable testsDir reached := by
  induction depth generalizing name stack loaded with
  | zero => cases done
  | succ depth ih =>
    rw [loadFilePushGroup] at done
    split at done
    · cases done
    · rename_i lines read
      have each := loadLines_ok (loadFilePushGroup_restores host testsDir depth) done
      rcases clear_iff.mp clear with rfl | ⟨middle, ⟨_, same, listed⟩, fresh, rest⟩
      · exact ⟨lines, read, fun line listed => (each line listed).1⟩
      · cases read.symm.trans same
        obtain ⟨trimmed, includes⟩ := mem_filter.mp listed
        obtain ⟨line, present, rfl⟩ := mem_map.mp trimmed
        obtain ⟨noArrow, extension⟩ := of_decide_eq_true includes
        obtain ⟨included, inner⟩ := (each line present).2 noArrow extension fresh
        exact ih inner (by rwa [coe_insert])

section Groups

variable {host : Host} {testDir : JavaString} {depth : Nat} (deep : host.names.card < depth)
include deep

theorem loadFilePushGroup_cases (group : JavaString) :
    (∃ error, loadFilePushGroup host testDir depth group ∅ = some (.error error) ∧
      ¬ host.Complete testDir group) ∨
    ∃ result, loadFilePushGroup host testDir depth group ∅ = some (.ok (result, ∅)) ∧
      host.Complete testDir group ∧ ∀ spec, spec ∈ result ↔ host.Pushes testDir group spec := by
  have enough : (host.names \ ∅).card < depth := by rwa [sdiff_empty]
  have exact := @loadFilePushGroup_exact host testDir _ group ∅ enough
  rw [coe_empty, clear_empty] at exact
  by_cases complete : host.Complete testDir group
  · obtain ⟨result, loaded, specs⟩ := exact complete
    exact .inr ⟨result, loaded, complete, specs⟩
  · obtain ⟨outcome, loaded⟩ := @loadFilePushGroup_returns host testDir _ group _ enough
    cases outcome with
    | error error => exact .inl ⟨error, loaded, complete⟩
    | ok result =>
      refine absurd (fun name reaches => ?_) complete
      apply loadFilePushGroup_readable loaded
      rwa [coe_empty, clear_empty]

theorem loadGroups_iff {groups : List JavaString} {result : Finset JavaString} :
    loadGroups host testDir depth result groups ≠ none ∧ ∀ final,
      loadGroups host testDir depth result groups = some (.ok final) ↔
        (∀ group ∈ groups, host.Complete testDir group) ∧ ∀ spec,
          spec ∈ final ↔ spec ∈ result ∨ ∃ group ∈ groups, host.Pushes testDir group spec := by
  induction groups generalizing result with
  | nil => exact ⟨nofun, fun final => by simp [loadGroups, Finset.ext_iff, iff_comm]⟩
  | cons group groups ih =>
    rcases loadFilePushGroup_cases deep group with
      ⟨error, loaded, incomplete⟩ | ⟨included, loaded, complete, specs⟩
    · rw [loadGroups, loaded]
      exact ⟨nofun, fun final => ⟨nofun, fun each => absurd (each.1 group mem_cons_self) incomplete⟩⟩
    · rw [loadGroups, loaded]
      refine ⟨ih.1, fun final => ih.2 final |>.trans ?_⟩
      simp only [List.forall_mem_cons, complete, true_and, Finset.mem_union, specs, or_assoc,
        List.exists_mem_cons_iff]

end Groups

/-- With a bound that is large enough, loading the groups ends; it succeeds exactly if every group
that they reach is readable, with exactly the push specifications of these. -/
theorem loadFilePushGroups_iff (host : Host) (testDir : JavaString) (groups : List JavaString) :
    ∃ bound, ∀ depth ≥ bound, loadFilePushGroups host (.ok testDir) depth groups ≠ none ∧
      ∀ result, loadFilePushGroups host (.ok testDir) depth groups = some (.ok result) ↔
        (∀ group ∈ groups, host.Complete testDir group) ∧
          ∀ spec, spec ∈ result ↔ ∃ group ∈ groups, host.Pushes testDir group spec := by
  refine ⟨host.names.card + 1, fun depth deep => ?_⟩
  have each := @loadGroups_iff host testDir depth deep groups ∅
  simp only [Finset.notMem_empty, false_or] at each
  exact each

end Vts.Harness.PushGroups
