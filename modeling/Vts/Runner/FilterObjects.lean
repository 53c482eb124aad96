import Mathlib.Data.List.Basic
import Mathlib.Data.List.Induction
import Vts.Runner.FilterRule

/-!
# Filters that share their default lists

A `Filter` of `utils/python/common/filter_utils.py` stores the two lists it is given by
reference, the methods that add patterns extend them in place, and the defaults of the
constructor are two lists that are made once. Filters built without an explicit list
therefore share it. The module has the heap of lists, the objects, and the history of each
filter: the lists it was given and the calls made on it.

Proved here: in every run in which a filter is constructed or refreshed only while the
default lists that it uses hold nothing but its own patterns, each filter decides like one
that is alone. Nothing is said of patterns that a caller puts into a list by itself.
-/

namespace Vts.Runner

open Filter List

/-! ## The source -/

/-- A filter and the references to its two lists. -/
structure FilterObject where
  settings : FilterSettings
  include_filter : Nat
  exclude_filter : Nat
  include_filter_exact : List String
  include_filter_regex : List String
  exclude_filter_exact : List String
  exclude_filter_regex : List String

/-- The lists by their references, and the filters in the order of their construction. -/
structure Heap where
  lists : List (List String)
  filters : List FilterObject

/-- The list of the default argument `include_filter=[]`. -/
def DEFAULT_INCLUDE : Nat := 0

/-- The list of the default argument `exclude_filter=[]`. -/
def DEFAULT_EXCLUDE : Nat := 1

/-- After the class is defined both default lists are empty. -/
def Heap.initial : Heap := ⟨[[], []], []⟩

/-- The list at a reference. -/
def Heap.list (heap : Heap) (reference : Nat) : List String :=
  heap.lists.getD reference []

/-- The attributes of an object, with its lists read through their references. -/
def FilterObject.read (heap : Heap) (object : FilterObject) : Filter where
  enable_regex := object.settings.enable_regex
  expand_bitness := object.settings.expand_bitness
  enable_negative_pattern := object.settings.enable_negative_pattern
  include_filter := heap.list object.include_filter
  exclude_filter := heap.list object.exclude_filter
  exclude_over_include := object.settings.exclude_over_include.getD DEFAULT_EXCLUDE_OVER_INCLUDE
  enable_module_name_prefix_matching := object.settings.enable_module_name_prefix_matching
  module_name := object.settings.module_name
  include_filter_exact := object.include_filter_exact
  include_filter_regex := object.include_filter_regex
  exclude_filter_exact := object.exclude_filter_exact
  exclude_filter_regex := object.exclude_filter_regex

/-- An object with the four lists of a filter. -/
def FilterObject.store (object : FilterObject) (filter : Filter) : FilterObject :=
  { object with
    include_filter_exact := filter.include_filter_exact
    include_filter_regex := filter.include_filter_regex
    exclude_filter_exact := filter.exclude_filter_exact
    exclude_filter_regex := filter.exclude_filter_regex }

/-- `refresh_filter` of an object. -/
def FilterObject.refresh_filter (engine : RegexEngine) (heap : Heap) (object : FilterObject) :
    FilterObject :=
  object.store ((object.read heap).refresh_filter engine)

/-- The method `Filter` of an object. -/
def FilterObject.filter (engine : RegexEngine) (heap : Heap) (object : FilterObject)
    (item : String) : Bool :=
  (object.read heap).filter engine item

/-- An explicit argument is a list of its own, an omitted one the default list. -/
def Heap.argument (heap : Heap) (default : Nat) : Option (List String) → Heap × Nat
  | none => (heap, default)
  | some explicit => ({ heap with lists := heap.lists ++ [explicit] }, heap.lists.length)

/-- The constructor: each of the two setters refreshes. -/
def Heap.construct (engine : RegexEngine) (heap : Heap)
    (include_filter exclude_filter : Option (List String)) (settings : FilterSettings) : Heap :=
  let included := heap.argument DEFAULT_INCLUDE include_filter
  let excluded := included.1.argument DEFAULT_EXCLUDE exclude_filter
  let heap := excluded.1
  let object : FilterObject := ⟨settings, included.2, excluded.2, [], [], [], []⟩
  { heap with filters := heap.filters ++ [object.store
      (Filter.new engine (heap.list included.2) (heap.list excluded.2) settings)] }

/-- `extend` of the list at a reference. -/
def Heap.extend (heap : Heap) (reference : Nat) (patterns : List String) : Heap :=
  { heap with lists := heap.lists.modify reference (· ++ patterns) }

/-- The call of a method that adds patterns. -/
def Heap.call (engine : RegexEngine) (heap : Heap) (index : Nat) (call : Call) : Heap :=
  match heap.filters[index]? with
  | none => heap
  | some object =>
    let heap := match call with
      | .add_to_include_filter pattern _ => heap.extend object.include_filter pattern.toList
      | .add_to_exclude_filter pattern _ => heap.extend object.exclude_filter pattern.toList
    if call.auto_refresh then
      { heap with filters := heap.filters.set index (object.refresh_filter engine heap) }
    else heap

/-- What the program does with its filters. -/
inductive Operation where
  | construct (include_filter exclude_filter : Option (List String)) (settings : FilterSettings)
  | call (index : Nat) (call : Call)

def Heap.step (engine : RegexEngine) (heap : Heap) : Operation → Heap
  | .construct include_filter exclude_filter settings =>
    heap.construct engine include_filter exclude_filter settings
  | .call index call => heap.call engine index call

/-- The heap after a sequence of operations. -/
def Heap.run (engine : RegexEngine) (operations : List Operation) : Heap :=
  operations.foldl (Heap.step engine) Heap.initial

/-! ## Filters alone -/

/-- What one filter was given and which calls were made on it. -/
structure History where
  include_filter : List String
  exclude_filter : List String
  settings : FilterSettings
  calls : List Call

/-- The filter that has the same lists and the same calls and shares nothing. -/
def History.alone (engine : RegexEngine) (history : History) : Filter :=
  (Filter.new engine history.include_filter history.exclude_filter history.settings).run engine
    history.calls

/-- The patterns that the filter was given to include. -/
def History.included (history : History) : List String :=
  history.include_filter ++ history.calls.flatMap Call.included

def History.excluded (history : History) : List String :=
  history.exclude_filter ++ history.calls.flatMap Call.excluded

/-- An operation belongs to one filter. -/
def recordOperation (histories : List History) : Operation → List History
  | .construct include_filter exclude_filter settings =>
    histories ++ [⟨include_filter.getD [], exclude_filter.getD [], settings, []⟩]
  | .call index call =>
    histories.modify index fun history => { history with calls := history.calls ++ [call] }

/-- The histories of all filters, in the order of their construction. -/
def histories (operations : List Operation) : List History :=
  operations.foldl recordOperation []

/-! ## When sharing does no harm -/

/-- A filter is constructed or refreshed only while the default lists that it uses hold
patterns of its own alone. -/
def Undisturbed (heap : Heap) (known : List History) : Operation → Prop
  | .construct include_filter exclude_filter _ =>
    (include_filter = none → heap.list DEFAULT_INCLUDE = []) ∧
      (exclude_filter = none → heap.list DEFAULT_EXCLUDE = [])
  | .call index call => call.auto_refresh = true → ∀ object history,
      heap.filters[index]? = some object → known[index]? = some history →
      (object.include_filter = DEFAULT_INCLUDE → ∀ pattern ∈ heap.list object.include_filter,
        pattern ∈ history.included ++ call.included) ∧
      (object.exclude_filter = DEFAULT_EXCLUDE → ∀ pattern ∈ heap.list object.exclude_filter,
        pattern ∈ history.excluded ++ call.excluded)

/-- Every operation of a run is undisturbed. -/
def AllUndisturbed (engine : RegexEngine) (operations : List Operation) : Prop :=
  ∀ before operation after, operations = before ++ operation :: after →
    Undisturbed (Heap.run engine before) (histories before) operation

/-! ## Lists and their references -/

variable {reference default : Nat} {object : FilterObject} (engine : RegexEngine)

theorem list_append (lists : List (List String)) (filters : List FilterObject)
    (explicit : List String) (inside : reference < lists.length) :
    Heap.list ⟨lists ++ [explicit], filters⟩ reference =
      Heap.list ⟨lists, filters⟩ reference := by
  simp only [Heap.list, getD_eq_getElem?_getD, List.getElem?_append_left inside]

section

variable (heap : Heap) (patterns : List String)

theorem list_extend_same (inside : reference < heap.lists.length) :
    (heap.extend reference patterns).list reference = heap.list reference ++ patterns := by
  simp [Heap.list, Heap.extend, inside]

theorem list_extend_other {other : Nat} (apart : other ≠ reference) :
    (heap.extend reference patterns).list other = heap.list other := by
  simp [Heap.list, Heap.extend, apart.symm]

@[simp] theorem extend_lists_length (reference : Nat) (patterns : List String) :
    (heap.extend reference patterns).lists.length = heap.lists.length :=
  length_modify _ _ _

end

/-! ## Decisions read the four lists only -/

section

variable (heap : Heap)
  (regexes : object.settings.enable_regex = false → object.include_filter_regex = [] ∧ object.exclude_filter_regex = [])
include regexes

theorem configured_read : Configured object.settings (object.read heap) :=
  ⟨rfl, rfl, rfl, rfl, rfl, rfl, regexes⟩

/-- A refreshed object decides like the filter that is made of its two lists. -/
theorem filter_refresh (item : String) :
    (object.refresh_filter engine heap).filter engine heap item =
      (made engine object.settings (heap.list object.include_filter)
        (heap.list object.exclude_filter)).filter engine item := by
  have refreshed := (configured_read heap regexes).refresh engine
  rw [FilterObject.refresh_filter, refreshed]
  rfl

end

theorem filter_made_congr (settings : FilterSettings)
    {included excluded otherIncluded otherExcluded : List String}
    (sameIncluded : ∀ pattern, pattern ∈ included ↔ pattern ∈ otherIncluded)
    (sameExcluded : ∀ pattern, pattern ∈ excluded ↔ pattern ∈ otherExcluded) (item : String) :
    (made engine settings included excluded).filter engine item =
      (made engine settings otherIncluded otherExcluded).filter engine item := by
  rw [Bool.eq_iff_iff, filter_made_iff, filter_made_iff]
  simp only [sameIncluded, sameExcluded]

/-! ## What holds of every run -/

/-- The list of what is included and the one of what is excluded. -/
inductive Side where
  | included
  | excluded

def Side.defaultList : Side → Nat
  | included => DEFAULT_INCLUDE
  | excluded => DEFAULT_EXCLUDE

def FilterObject.place (object : FilterObject) : Side → Nat
  | .included => object.include_filter
  | .excluded => object.exclude_filter

def History.patterns (history : History) : Side → List String
  | .included => history.included
  | .excluded => history.excluded

/-- What a call adds to a list. -/
def addedBy (call : Call) : Side → List String
  | .included => call.included
  | .excluded => call.excluded

/-- An object and the history of its filter: a list of its own holds exactly the patterns
of the history, a default list at least these. -/
structure ReadsHistory (engine : RegexEngine) (heap : Heap) (object : FilterObject)
    (history : History) : Prop where
  settings : object.settings = history.settings
  regexes : object.settings.enable_regex = false →
    object.include_filter_regex = [] ∧ object.exclude_filter_regex = []
  inside : ∀ side, object.place side < heap.lists.length
  notDefault : ∀ side other : Side, object.place side = other.defaultList → side = other
  own : ∀ side, object.place side ≠ side.defaultList →
    heap.list (object.place side) = history.patterns side
  listed : ∀ side, ∀ pattern ∈ history.patterns side, pattern ∈ heap.list (object.place side)
  decides : ∀ item, object.filter engine heap item = (history.alone engine).filter engine item

/-- Every object fits its history, and only default lists are shared. -/
structure SharesDefaults (engine : RegexEngine) (heap : Heap) (known : List History) : Prop where
  paired : heap.filters.length = known.length
  defaults : 2 ≤ heap.lists.length
  reads : ∀ (index : Nat) object history, heap.filters[index]? = some object →
    known[index]? = some history → ReadsHistory engine heap object history
  apart : ∀ (first second : Nat) object other, heap.filters[first]? = some object →
    heap.filters[second]? = some other → ∀ side otherSide,
    object.place side = other.place otherSide →
    side = otherSide ∧ (first = second ∨ object.place side = side.defaultList)

theorem sound_initial : SharesDefaults engine Heap.initial [] := by
  constructor <;> simp [Heap.initial]

/-- The lists that the filter alone holds. -/
theorem alone_configured (history : History) :
    Configured history.settings (history.alone engine) ∧
      (history.alone engine).include_filter = history.included ∧
      (history.alone engine).exclude_filter = history.excluded := by
  rw [History.alone, new_eq_made]
  exact (configured_made engine history.settings _ _).run engine history.calls

/-- One more call on the filter alone. -/
theorem alone_call (history : History) (call : Call) :
    History.alone engine { history with calls := history.calls ++ [call] } =
      call.apply engine (history.alone engine) :=
  run_concat engine _ history.calls call

/-- A call that does not refresh leaves the decisions alone. -/
theorem filter_apply_unrefreshed (self : Filter) {call : Call}
    (unrefreshed : call.auto_refresh = false) (item : String) :
    (call.apply engine self).filter engine item = self.filter engine item := by
  cases call with
  | add_to_include_filter pattern auto_refresh | add_to_exclude_filter pattern auto_refresh =>
    have off : auto_refresh = false := unrefreshed
    rw [off]
    rfl

/-! ## Calls -/

section

variable {index : Nat} {history : History} {own : List String} (heap : Heap) (call : Call)

theorem extend_nil (reference : Nat) : heap.extend reference [] = heap := by
  have same : heap.lists.modify reference (· ++ []) = heap.lists := by
    simp only [append_nil]
    exact modify_id reference heap.lists
  rw [Heap.extend, same]

/-- The lists after a call on an object, before any refresh. -/
def Heap.extended (heap : Heap) (object : FilterObject) (call : Call) : Heap :=
  (heap.extend object.include_filter call.included).extend object.exclude_filter call.excluded

/-- The object after a call on it. -/
def FilterObject.called (engine : RegexEngine) (heap : Heap) (object : FilterObject)
    (call : Call) : FilterObject :=
  if call.auto_refresh then object.refresh_filter engine (heap.extended object call) else object

theorem call_eq (found : heap.filters[index]? = some object) :
    heap.call engine index call =
      ⟨(heap.extended object call).lists,
        heap.filters.set index (object.called engine heap call)⟩ := by
  have unchanged : heap.filters.set index object = heap.filters := by
    obtain ⟨inside, same⟩ := List.getElem?_eq_some_iff.mp found
    rw [← same]
    exact set_getElem_self inside
  rw [Heap.call, found, FilterObject.called]
  cases call with
  | add_to_include_filter pattern auto_refresh | add_to_exclude_filter pattern auto_refresh =>
    simp only [Heap.extended, Call.included, Call.excluded, extend_nil]
    cases auto_refresh with
    | true => rfl
    | false =>
      simp only [Call.auto_refresh, Bool.false_eq_true, if_false, unchanged]
      rfl

/-- A call leaves the references of the object alone. -/
theorem called_place (object : FilterObject) (call : Call) :
    (object.called engine heap call).place = object.place := by
  funext side
  rw [FilterObject.called]
  split_ifs
  · cases side <;> rfl
  · rfl

section

variable (inside : ∀ side, object.place side < heap.lists.length)
  (apart : object.include_filter ≠ object.exclude_filter)
include inside apart

theorem list_extended (side : Side) :
    (heap.extended object call).list (object.place side) =
      heap.list (object.place side) ++ addedBy call side := by
  cases side with
  | included =>
    exact (list_extend_other _ _ apart).trans (list_extend_same _ _ (inside .included))
  | excluded =>
    have stays := inside .excluded
    rw [← extend_lists_length heap object.include_filter call.included] at stays
    refine (list_extend_same _ _ stays).trans ?_
    exact congrArg (· ++ call.excluded) (list_extend_other _ _ apart.symm)

omit inside apart in
theorem list_extended_other (notOwn : ∀ side, reference ≠ object.place side) :
    (heap.extended object call).list reference = heap.list reference := by
  have notIncluded : reference ≠ object.include_filter := notOwn .included
  have notExcluded : reference ≠ object.exclude_filter := notOwn .excluded
  rw [Heap.extended, list_extend_other _ _ notExcluded, list_extend_other _ _ notIncluded]

/-- Lists only grow. -/
theorem mem_list_extended {pattern : String} (listed : pattern ∈ heap.list reference) :
    pattern ∈ (heap.extended object call).list reference := by
  by_cases own : ∃ side, reference = object.place side
  · obtain ⟨side, rfl⟩ := own
    rw [list_extended heap call inside apart]
    exact mem_append_left _ listed
  · rwa [list_extended_other heap call (not_exists.mp own)]

end

section

variable {engine : RegexEngine} {heap : Heap} {listed added : List String}

theorem ReadsHistory.ofLists {other : Heap} (reads : ReadsHistory engine heap object history)
    (same : other.lists = heap.lists) : ReadsHistory engine other object history := by
  obtain ⟨lists, filters⟩ := heap
  obtain ⟨_, otherFilters⟩ := other
  cases same
  exact { reads with }

/-- A call on one filter, seen from another one. -/
theorem ReadsHistory.otherCall {other : FilterObject}
    (reads : ReadsHistory engine heap object history) (call : Call)
    (inside : ∀ side, other.place side < heap.lists.length)
    (own : other.include_filter ≠ other.exclude_filter)
    (apart : ∀ side otherSide, object.place side = other.place otherSide →
      object.place side = side.defaultList) :
    ReadsHistory engine (heap.extended other call) object history where
  settings := reads.settings
  regexes := reads.regexes
  inside := by
    simpa [Heap.extended] using reads.inside
  notDefault := reads.notDefault
  own := by
    intro side explicit
    rw [list_extended_other heap call
      fun otherSide same => explicit (apart side otherSide same)]
    exact reads.own side explicit
  listed := fun side pattern listed =>
    mem_list_extended heap call inside own (reads.listed side pattern listed)
  decides := reads.decides

theorem mem_append_mono (holds : ∀ pattern ∈ own, pattern ∈ listed) :
    ∀ pattern ∈ own ++ added, pattern ∈ listed ++ added := by
  intro pattern found
  rcases mem_append.mp found with old | new
  · exact mem_append_left _ (holds pattern old)
  · exact mem_append_right _ new

/-- A list that holds the patterns of one filter, exactly if it is its own. -/
theorem same_patterns (holds : ∀ pattern ∈ own, pattern ∈ listed)
    (explicit : reference ≠ default → listed = own)
    (undisturbed : reference = default → ∀ pattern ∈ listed, pattern ∈ own ++ added)
    (pattern : String) : pattern ∈ listed ++ added ↔ pattern ∈ own ++ added := by
  constructor
  · intro found
    by_cases shared : reference = default
    · rcases mem_append.mp found with old | new
      · exact undisturbed shared pattern old
      · exact mem_append_right _ new
    · rwa [explicit shared] at found
  · exact mem_append_mono holds pattern

/-- A call on a filter, seen from itself. -/
theorem ReadsHistory.ownCall (reads : ReadsHistory engine heap object history) (call : Call)
    (apart : object.include_filter ≠ object.exclude_filter)
    (undisturbed : call.auto_refresh = true → ∀ side, object.place side = side.defaultList →
      ∀ pattern ∈ heap.list (object.place side),
        pattern ∈ history.patterns side ++ addedBy call side) :
    ReadsHistory engine (heap.extended object call)
      (object.called engine heap call) { history with calls := history.calls ++ [call] } := by
  have now (side : Side) : History.patterns { history with calls := history.calls ++ [call] } side =
      history.patterns side ++ addedBy call side := by
    cases side <;> simp [History.patterns, History.included, History.excluded, addedBy]
  have grown := list_extended heap call reads.inside apart
  have keeps : ∀ changed : FilterObject, changed.settings = object.settings →
      changed.place = object.place →
      (changed.settings.enable_regex = false →
        changed.include_filter_regex = [] ∧ changed.exclude_filter_regex = []) →
      (∀ item, changed.filter engine (heap.extended object call) item =
        (call.apply engine (history.alone engine)).filter engine item) →
      ReadsHistory engine (heap.extended object call) changed
        { history with calls := history.calls ++ [call] } := by
    intro changed sameSettings same regexes decides
    constructor
    · exact sameSettings.trans reads.settings
    · exact regexes
    · rw [same]
      simpa [Heap.extended] using reads.inside
    · rw [same]
      exact reads.notDefault
    · intro side explicit
      rw [same] at explicit ⊢
      rw [grown, now, reads.own side explicit]
    · intro side
      rw [same, grown, now]
      exact mem_append_mono (reads.listed side)
    · rw [alone_call]
      exact decides
  rw [FilterObject.called]
  cases refreshed : call.auto_refresh with
  | false =>
    refine keeps object rfl rfl reads.regexes ?_
    intro item
    rw [filter_apply_unrefreshed engine _ refreshed]
    exact reads.decides item
  | true =>
    have same (side : Side) := same_patterns (reads.listed side) (reads.own side)
      (undisturbed refreshed side)
    refine keeps _ rfl ?_ ?_ ?_
    · funext side
      cases side <;> rfl
    · intro disabled
      rw [if_pos rfl, FilterObject.refresh_filter, (configured_read _ reads.regexes).refresh engine]
      obtain ⟨_, _, _, _, _, _, unset⟩ := configured_made engine object.settings
        ((heap.extended object call).list object.include_filter)
        ((heap.extended object call).list object.exclude_filter)
      exact unset disabled
    · intro item
      obtain ⟨configured, aloneIncluded, aloneExcluded⟩ := alone_configured engine history
      rw [if_pos rfl, filter_refresh engine _ reads.regexes,
        (configured.apply engine call).2.2.2 refreshed, aloneIncluded, aloneExcluded,
        reads.settings]
      have includeList := grown .included
      have excludeList := grown .excluded
      dsimp only [FilterObject.place] at includeList excludeList
      rw [includeList, excludeList]
      exact filter_made_congr engine history.settings (same .included) (same .excluded) item

end

/-- After a call every object has the references that it had. -/
theorem set_place {other : Nat} {found : FilterObject}
    (known : heap.filters[index]? = some object)
    (after : (heap.filters.set index (object.called engine heap call))[other]? = some found) :
    ∃ before, heap.filters[other]? = some before ∧ found.place = before.place := by
  rw [List.getElem?_set] at after
  split_ifs at after with same inside
  · rw [← Option.some.inj after, ← same]
    exact ⟨object, known, called_place engine heap object call⟩
  · exact ⟨found, after, rfl⟩

end

/-- A call that is not disturbed keeps every filter in step with its history. -/
theorem SharesDefaults.call {engine : RegexEngine} {heap : Heap} {known : List History}
    (sound : SharesDefaults engine heap known) (index : Nat) (call : Call)
    (undisturbed : Undisturbed heap known (.call index call)) :
    SharesDefaults engine (heap.call engine index call)
      (recordOperation known (.call index call)) := by
  rw [recordOperation]
  cases found : heap.filters[index]? with
  | none =>
    have outside : known.length ≤ index := by
      rw [← sound.paired]
      exact List.getElem?_eq_none_iff.mp found
    rw [Heap.call, found, modify_eq_self outside]
    exact sound
  | some object =>
    have inside : index < known.length := by
      rw [← sound.paired]
      exact (List.getElem?_eq_some_iff.mp found).1
    have reads := sound.reads index object known[index] found (List.getElem?_eq_getElem inside)
    have own : object.include_filter ≠ object.exclude_filter := by
      intro same
      cases (sound.apart index index object object found found .included .excluded same).1
    rw [call_eq engine heap call found]
    constructor
    · simp [sound.paired]
    · simpa [Heap.extended] using sound.defaults
    · intro other otherObject otherHistory otherFound otherKnown
      have seen : ReadsHistory engine (heap.extended object call) otherObject otherHistory := by
        rw [List.getElem?_set] at otherFound
        rw [List.getElem?_modify] at otherKnown
        by_cases same : index = other
        · cases same
          rw [if_pos rfl, if_pos (sound.paired ▸ inside)] at otherFound
          rw [List.getElem?_eq_getElem inside] at otherKnown
          simp only [if_true, Option.map_eq_map, Option.map_some, Option.some.injEq]
            at otherFound otherKnown
          rw [← otherFound, ← otherKnown]
          refine reads.ownCall call own ?_
          intro refreshed side
          have both := undisturbed refreshed object known[index] found
            (List.getElem?_eq_getElem inside)
          cases side with
          | included => exact both.1
          | excluded => exact both.2
        · rw [if_neg same] at otherFound
          simp only [same, if_false, Option.map_eq_map, Option.map_id_fun', id_eq] at otherKnown
          refine (sound.reads other otherObject otherHistory otherFound otherKnown).otherCall call
            reads.inside own ?_
          intro side otherSide shared
          exact (sound.apart other index otherObject object otherFound found side otherSide
            shared).2.resolve_left fun isIndex => same isIndex.symm
      exact seen.ofLists rfl
    · intro first second firstObject secondObject firstFound secondFound
      obtain ⟨before, isBefore, sameFirst⟩ := set_place engine heap call found firstFound
      obtain ⟨other, isOther, sameSecond⟩ := set_place engine heap call found secondFound
      rw [sameFirst, sameSecond]
      exact sound.apart first second before other isBefore isOther

/-! ## Constructions -/

/-- The heap and the reference that an argument of the constructor gives. -/
structure Given (heap : Heap) (default : Nat) (argument : Option (List String)) (after : Heap)
    (reference : Nat) : Prop where
  filters : after.filters = heap.filters
  grows : heap.lists.length ≤ after.lists.length
  keeps : ∀ other < heap.lists.length, after.list other = heap.list other
  inside : reference < after.lists.length
  fresh : reference = default ∨ heap.lists.length ≤ reference
  holds : after.list reference = argument.getD []

section

variable {heap : Heap} {fresh : Nat} (operations : List Operation) (last : Operation)

theorem given_argument (heap : Heap) (argument : Option (List String))
    (inside : default < heap.lists.length) (empty : argument = none → heap.list default = []) :
    Given heap default argument (heap.argument default argument).1
      (heap.argument default argument).2 := by
  cases argument with
  | none => exact ⟨rfl, Nat.le_refl _, fun _ _ => rfl, inside, Or.inl rfl, empty rfl⟩
  | some explicit =>
    refine ⟨rfl, ?_, ?_, ?_, Or.inr (Nat.le_refl _), ?_⟩
    · simp [Heap.argument]
    · intro other otherInside
      exact list_append heap.lists heap.filters explicit otherInside
    · simp [Heap.argument]
    · simp [Heap.argument, Heap.list]

/-- An entry of a list with one more is an old one or the new one. -/
theorem getElem?_concat_cases {α : Type} {items : List α} {last found : α} {index : Nat}
    (known : (items ++ [last])[index]? = some found) :
    items[index]? = some found ∨ (index = items.length ∧ found = last) := by
  rcases Nat.lt_trichotomy index items.length with inside | isLast | outside
  · rw [List.getElem?_append_left inside] at known
    exact Or.inl known
  · rw [isLast, List.getElem?_concat_length] at known
    exact Or.inr ⟨isLast, (Option.some.inj known).symm⟩
  · rw [List.getElem?_eq_none (by simp; omega)] at known
    cases known

/-- A construction, seen from an older filter. -/
theorem ReadsHistory.grown {engine : RegexEngine} {after : Heap} {history : History}
    (reads : ReadsHistory engine heap object history)
    (grows : heap.lists.length ≤ after.lists.length)
    (keeps : ∀ other < heap.lists.length, after.list other = heap.list other) :
    ReadsHistory engine after object history where
  settings := reads.settings
  regexes := reads.regexes
  inside := fun side => Nat.lt_of_lt_of_le (reads.inside side) grows
  notDefault := reads.notDefault
  own := by
    intro side
    rw [keeps _ (reads.inside side)]
    exact reads.own side
  listed := by
    intro side
    rw [keeps _ (reads.inside side)]
    exact reads.listed side
  decides := reads.decides

theorem SharesDefaults.readsSome {engine : RegexEngine} {known : List History}
    (sound : SharesDefaults engine heap known) {index : Nat}
    (found : heap.filters[index]? = some object) :
    ∃ history, ReadsHistory engine heap object history := by
  have inside : index < known.length := by
    rw [← sound.paired]
    exact (List.getElem?_eq_some_iff.mp found).1
  exact ⟨_, sound.reads index object known[index] found (List.getElem?_eq_getElem inside)⟩

/-- A fresh list is one of an older filter only if it is a default list. -/
theorem ReadsHistory.shared {engine : RegexEngine} {history : History}
    (reads : ReadsHistory engine heap object history) {side otherSide : Side}
    (isFresh : fresh = otherSide.defaultList ∨ heap.lists.length ≤ fresh)
    (same : object.place side = fresh) :
    side = otherSide ∧ object.place side = side.defaultList := by
  have inside := reads.inside side
  have isDefault : fresh = otherSide.defaultList := isFresh.resolve_right (by omega)
  obtain rfl := reads.notDefault side otherSide (same.trans isDefault)
  exact ⟨rfl, same.trans isDefault⟩

/-- A filter with fresh lists shares no list but the default ones with the filters before it. -/
theorem SharesDefaults.apart_concat {engine : RegexEngine} {known : List History}
    (sound : SharesDefaults engine heap known) {new : FilterObject}
    (own : new.include_filter ≠ new.exclude_filter)
    (isFresh : ∀ side, new.place side = side.defaultList ∨
      heap.lists.length ≤ new.place side) :
    ∀ (first second : Nat) object other, (heap.filters ++ [new])[first]? = some object →
      (heap.filters ++ [new])[second]? = some other → ∀ side otherSide,
      object.place side = other.place otherSide →
      side = otherSide ∧ (first = second ∨ object.place side = side.defaultList) := by
  intro first second object other found otherFound side otherSide same
  rcases getElem?_concat_cases found with old | ⟨atEnd, rfl⟩
  · rcases getElem?_concat_cases otherFound with otherOld | ⟨_, rfl⟩
    · exact sound.apart first second object other old otherOld side otherSide same
    · obtain ⟨_, reads⟩ := sound.readsSome old
      exact (reads.shared (isFresh otherSide) same).imp_right .inr
  · rcases getElem?_concat_cases otherFound with otherOld | ⟨otherAtEnd, rfl⟩
    · obtain ⟨_, otherReads⟩ := sound.readsSome otherOld
      obtain ⟨rfl, shared⟩ := otherReads.shared (isFresh side) same.symm
      exact ⟨rfl, .inr (same.trans shared)⟩
    · refine ⟨?_, .inl (atEnd.trans otherAtEnd.symm)⟩
      cases side <;> cases otherSide
      · rfl
      · exact absurd same own
      · exact absurd same.symm own
      · rfl

theorem reads_new {first second : Heap} {include_filter exclude_filter : Option (List String)}
    {include_ref exclude_ref : Nat} (settings : FilterSettings) (defaults : 2 ≤ heap.lists.length)
    (included : Given heap DEFAULT_INCLUDE include_filter first include_ref)
    (excluded : Given first DEFAULT_EXCLUDE exclude_filter second exclude_ref) :
    ReadsHistory engine second
      (FilterObject.store ⟨settings, include_ref, exclude_ref, [], [], [], []⟩
        (Filter.new engine (second.list include_ref) (second.list exclude_ref) settings))
      ⟨include_filter.getD [], exclude_filter.getD [], settings, []⟩ := by
  have includeList : second.list include_ref = include_filter.getD [] :=
    (excluded.keeps _ included.inside).trans included.holds
  have lists (side : Side) : second.list (FilterObject.place
      ⟨settings, include_ref, exclude_ref, [], [], [], []⟩ side) =
        History.patterns ⟨include_filter.getD [], exclude_filter.getD [], settings, []⟩ side := by
    cases side with
    | included => exact includeList.trans (append_nil _).symm
    | excluded => exact excluded.holds.trans (append_nil _).symm
  rw [new_eq_made, includeList, excluded.holds]
  constructor
  · rfl
  · obtain ⟨_, _, _, _, _, _, unset⟩ :=
      configured_made engine settings (include_filter.getD []) (exclude_filter.getD [])
    exact unset
  · rintro (_ | _)
    · exact Nat.lt_of_lt_of_le included.inside excluded.grows
    · exact excluded.inside
  · have grows := included.grows
    have includeFresh := included.fresh
    have excludeFresh := excluded.fresh
    unfold DEFAULT_INCLUDE at includeFresh
    unfold DEFAULT_EXCLUDE at excludeFresh
    rintro (_ | _) (_ | _) same
    · rfl
    · change include_ref = 1 at same
      omega
    · change exclude_ref = 0 at same
      omega
    · rfl
  · exact fun side _ => lists side
  · exact fun side pattern listed => (lists side).symm ▸ listed
  · intro item
    rw [History.alone, new_eq_made]
    rfl

/-- A construction that is not disturbed adds a filter in step with its history. -/
theorem SharesDefaults.construct {engine : RegexEngine} {heap : Heap} {known : List History}
    (sound : SharesDefaults engine heap known) (include_filter exclude_filter : Option (List String))
    (settings : FilterSettings)
    (undisturbed : Undisturbed heap known (.construct include_filter exclude_filter settings)) :
    SharesDefaults engine (heap.construct engine include_filter exclude_filter settings)
      (recordOperation known (.construct include_filter exclude_filter settings)) := by
  obtain ⟨includeEmpty, excludeEmpty⟩ := undisturbed
  have defaults := sound.defaults
  have zeroInside : DEFAULT_INCLUDE < heap.lists.length := Nat.lt_of_lt_of_le Nat.two_pos defaults
  have oneInside : DEFAULT_EXCLUDE < heap.lists.length :=
    Nat.lt_of_lt_of_le Nat.one_lt_two defaults
  have included := given_argument heap include_filter zeroInside includeEmpty
  have excluded := given_argument (heap.argument DEFAULT_INCLUDE include_filter).1 exclude_filter
    (Nat.lt_of_lt_of_le oneInside included.grows) (by
      rw [included.keeps _ oneInside]
      exact excludeEmpty)
  rw [Heap.construct, recordOperation]
  generalize heap.argument DEFAULT_INCLUDE include_filter = first at included excluded
  generalize first.1.argument DEFAULT_EXCLUDE exclude_filter = second at excluded
  obtain ⟨first, include_ref⟩ := first
  obtain ⟨second, exclude_ref⟩ := second
  have new := reads_new engine settings defaults included excluded
  have sameFilters : second.filters = heap.filters := excluded.filters.trans included.filters
  have grows : heap.lists.length ≤ second.lists.length := Nat.le_trans included.grows excluded.grows
  have keeps : ∀ other < heap.lists.length, second.list other = heap.list other :=
    fun other inside => (excluded.keeps other (Nat.lt_of_lt_of_le inside included.grows)).trans
      (included.keeps other inside)
  have includeFresh : include_ref = DEFAULT_INCLUDE ∨ heap.lists.length ≤ include_ref :=
    included.fresh
  have excludeFresh : exclude_ref = DEFAULT_EXCLUDE ∨ heap.lists.length ≤ exclude_ref :=
    excluded.fresh.imp_right (Nat.le_trans included.grows)
  have newApart : include_ref ≠ exclude_ref := by
    have includeInside : include_ref < first.lists.length := included.inside
    have excludeLater : exclude_ref = DEFAULT_EXCLUDE ∨ first.lists.length ≤ exclude_ref :=
      excluded.fresh
    unfold DEFAULT_INCLUDE at includeFresh
    unfold DEFAULT_EXCLUDE at excludeLater
    omega
  dsimp only at new ⊢
  rw [sameFilters]
  constructor
  · simp [sound.paired]
  · exact Nat.le_trans defaults grows
  · intro index object history found known
    have seen : ReadsHistory engine second object history := by
      rcases getElem?_concat_cases found with old | ⟨atEnd, rfl⟩
      · have inside := (List.getElem?_eq_some_iff.mp old).1
        rw [List.getElem?_append_left (sound.paired ▸ inside)] at known
        exact (sound.reads index object history old known).grown grows keeps
      · rw [atEnd, sound.paired, List.getElem?_concat_length] at known
        rw [← Option.some.inj known]
        exact new
    exact seen.ofLists rfl
  · refine sound.apart_concat newApart ?_
    rintro (_ | _)
    · exact includeFresh
    · exact excludeFresh

/-! ## Runs -/

theorem run_concat_operation :
    Heap.run engine (operations ++ [last]) = (Heap.run engine operations).step engine last := by
  rw [Heap.run, foldl_append]
  rfl

theorem histories_concat :
    histories (operations ++ [last]) = recordOperation (histories operations) last := by
  rw [histories, foldl_append]
  rfl

end

theorem allUndisturbed_nil : AllUndisturbed engine [] := by
  intro before operation after split
  simp at split

theorem allUndisturbed_concat_iff {engine : RegexEngine} {operations : List Operation}
    {last : Operation} : AllUndisturbed engine (operations ++ [last]) ↔
      AllUndisturbed engine operations ∧
        Undisturbed (Heap.run engine operations) (histories operations) last := by
  constructor
  · intro undisturbed
    constructor
    · rintro before operation after rfl
      exact undisturbed before operation (after ++ [last]) (by simp)
    · exact undisturbed operations last [] rfl
  · rintro ⟨earlier, now⟩ before operation after split
    rcases eq_nil_or_concat' after with rfl | ⟨middle, final, rfl⟩
    · obtain ⟨rfl, same⟩ := append_inj' split rfl
      rw [← singleton_inj.mp same]
      exact now
    · rw [← cons_append, ← append_assoc] at split
      obtain ⟨rfl, _⟩ := append_inj' split rfl
      exact earlier before operation middle rfl

/-- After a run whose operations are undisturbed every filter is in step with its history. -/
theorem SharesDefaults.run (engine : RegexEngine) (operations : List Operation)
    (undisturbed : AllUndisturbed engine operations) :
    SharesDefaults engine (Heap.run engine operations) (histories operations) := by
  induction operations using List.reverseRecOn with
  | nil => exact sound_initial engine
  | append_singleton operations last ih =>
    obtain ⟨earlier, now⟩ := allUndisturbed_concat_iff.mp undisturbed
    have sound := ih earlier
    rw [run_concat_operation, histories_concat]
    cases last with
    | construct include_filter exclude_filter settings =>
      exact sound.construct include_filter exclude_filter settings now
    | call index call => exact sound.call index call now

/-- In a run in which filters are constructed and refreshed undisturbed, each filter decides
at every moment like one with the same lists and calls that is alone; once its last call
has refreshed it, that is the filter constructed with its lists and its additions. -/
theorem filters_apart (engine : RegexEngine) (operations : List Operation)
    (undisturbed : AllUndisturbed engine operations) :
    ∀ before after, operations = before ++ after → ∀ (index : Nat) (object : FilterObject),
      (Heap.run engine before).filters[index]? = some object →
      ∃ history, (histories before)[index]? = some history ∧
        (∀ item, object.filter engine (Heap.run engine before) item =
          (history.alone engine).filter engine item) ∧
        ((∀ last ∈ history.calls.getLast?, last.auto_refresh = true) →
          ∀ item, object.filter engine (Heap.run engine before) item =
            (Filter.new engine history.included history.excluded history.settings).filter engine
              item) := by
  rintro before after rfl index object found
  have earlier : AllUndisturbed engine before := by
    rintro first operation rest rfl
    exact undisturbed first operation (rest ++ after) (by simp)
  have sound := SharesDefaults.run engine before earlier
  have inside : index < (histories before).length := by
    rw [← sound.paired]
    exact (List.getElem?_eq_some_iff.mp found).1
  have known := List.getElem?_eq_getElem inside
  have decides := (sound.reads index object _ found known).decides
  refine ⟨_, known, decides, ?_⟩
  intro refreshed item
  rw [decides]
  generalize (histories before)[index] = history at refreshed
  rw [History.alone, History.included, History.excluded]
  rcases eq_nil_or_concat' history.calls with noCalls | ⟨calls, last, split⟩
  · rw [noCalls, flatMap_nil, flatMap_nil, append_nil, append_nil]
    rfl
  · rw [split] at refreshed ⊢
    rw [run_new engine _ _ _ calls last (refreshed last (by simp))]

/-- The settings of a filter built without any. -/
def defaultSettings : FilterSettings := ⟨true, none, true, false, none, false⟩

/-- Two filters with an explicit list each, and an addition to the first one's. -/
def twoFilters : List Operation :=
  [.construct (some ["a"]) none defaultSettings, .construct none (some ["c"]) defaultSettings] ++
    [.call 0 (.add_to_include_filter (.one "b") true)]

theorem filters_apart_twoFilters :
    ∃ object, (Heap.run oneRegex twoFilters).filters[0]? = some object ∧
      ∀ item, object.filter oneRegex (Heap.run oneRegex twoFilters) item =
        (Filter.new oneRegex ["a", "b"] [] defaultSettings).filter oneRegex item := by
  have undisturbed : AllUndisturbed oneRegex twoFilters := by
    have none := allUndisturbed_nil oneRegex
    have one := (@allUndisturbed_concat_iff oneRegex []
      (.construct (some ["a"]) Option.none defaultSettings)).mpr ⟨none, by decide, by decide⟩
    have two := (@allUndisturbed_concat_iff oneRegex _
      (.construct Option.none (some ["c"]) defaultSettings)).mpr ⟨one, by decide, by decide⟩
    refine allUndisturbed_concat_iff.mpr ⟨two, ?_⟩
    rintro _ object history found known
    cases Option.some.inj found
    cases Option.some.inj known
    exact ⟨by decide, by decide⟩
  obtain ⟨history, known, _, refreshed⟩ := filters_apart oneRegex twoFilters undisturbed twoFilters
    [] rfl 0 _ rfl
  refine ⟨_, rfl, ?_⟩
  cases Option.some.inj known
  exact refreshed (by decide)

/-- An addition through one filter restricts another one that is built afterwards. -/
theorem filters_apart_shared :
    ((Heap.run oneRegex [.construct none none defaultSettings,
        .call 0 (.add_to_include_filter (.one "a") true),
        .construct none none defaultSettings]).filters.map fun object =>
          object.filter oneRegex Heap.initial "b") = [false, false] ∧
      ((histories [.construct none none defaultSettings,
        .call 0 (.add_to_include_filter (.one "a") true),
        .construct none none defaultSettings]).map fun history =>
          (history.alone oneRegex).filter oneRegex "b") = [false, true] := by
  decide

end Vts.Runner
