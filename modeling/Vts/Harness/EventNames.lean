import Vts.Harness.Instrumentation

/-!
# Events by name

`Begin` and `End` of `utils/python/instrumentation/test_framework_instrumentation.py`. A name in
which there are illegal characters is rewritten when an event is created, and `End` looks for the
name as it was given.

Proved here: along every sequence of calls each `End` ends and returns the most recently begun
active event that was begun with its name and category, exactly when no `End` is for a name with
illegal characters that an active event was begun with, or for a legal one that the most recent of
the events so named was not begun with.
-/

namespace Vts.Harness

open Vts.Lib Option

/-- A call of one of the two functions. -/
inductive NameCall where
  | Begin (name category : String) (enable_logging : Option Bool)
      (disable_subevent_logging : Bool)
  | End (name category : String)

/-- A run of calls: the module, and the name and category that each event was begun with. -/
structure NamedRun where
  state : Tfie
  given : List (String × String)

namespace NamedRun

/-- No event was begun yet. -/
def start : NamedRun := ⟨⟨[], [], []⟩, []⟩

def step (run : NamedRun) : NameCall → NamedRun
  | .Begin name category enable_logging disable_subevent_logging =>
    { state := (Harness.Begin name category enable_logging disable_subevent_logging run.state).1
      given := run.given ++ [(name, category)] }
  | .End name category => { run with state := (Harness.End name category run.state).1 }

variable (run : NamedRun)

/-- The events that have begun and not ended, in the order of their beginning. -/
def active : List Nat :=
  (List.range run.given.length).filter fun event => run.state.status event = some .started

/-- The most recently begun active event that was begun with the name and category. -/
def mostRecent (name category : String) : Option Nat :=
  run.active.reverse.find? fun event => run.given[event]? = some (name, category)

/-- `End`, which returns what `FindEvent` has found, ends and returns the event that was begun with
the name and category, and does nothing if there is none. -/
structure EndsRight (name category : String) : Prop where
  returned : FindEvent run.state name category = run.mostRecent name category
  ended : ∀ event, run.mostRecent name category = some event →
    (Harness.End name category run.state).1.status =
      Function.update run.state.status event (some .ended)
  kept : run.mostRecent name category = none → (Harness.End name category run.state).1 = run.state
  silent : (Harness.End name category run.state).2 = none

/-- What is right of a call. -/
def Right : NameCall → Prop
  | .Begin _ _ _ _ => True
  | .End name category => run.EndsRight name category

/-- The name and category that an active event has. -/
def Named (event : Nat) (name category : String) : Prop :=
  event ∈ run.active ∧
    ∃ given, run.given[event]? = some given ∧
      NormalizeNameCategory given.1 given.2 = (name, category)

/-- An active event was begun with the name and category. -/
def BegunWith (event : Nat) (name category : String) : Prop :=
  event ∈ run.active ∧ run.given[event]? = some (name, category)

/-- An `End` is for a legal name that the most recent of the active events so named was begun with,
or for one with illegal characters that no active event was begun with. -/
def Meets : NameCall → Prop
  | .Begin _ _ _ _ => True
  | .End name category =>
    if NormalizeNameCategory name category = (name, category) then
      ∀ event, run.Named event name category →
        (∀ later, event < later → ¬ run.Named later name category) →
          run.BegunWith event name category
    else ∀ event, ¬ run.BegunWith event name category

/-! ## Names -/

end NamedRun

/-- The name and category of an event. -/
def Tfie.named (state : Tfie) (event : Nat) : Option (String × String) :=
  (state.events[event]?).map fun attributes => (attributes.name, attributes.category)

theorem Tfie.named_write {state : Tfie} {event : Nat}
    {attributes written : TestFrameworkInstrumentationEvent}
    (there : state.events[event]? = some attributes)
    (same : (written.name, written.category) = (attributes.name, attributes.category)) :
    (state.write event written).named = state.named := by
  have inside : event < state.events.length := (List.getElem?_eq_some_iff.mp there).1
  funext other
  by_cases own : other = event
  · subst own
    unfold named write
    rw [List.getElem?_set_self inside, there, map_some, map_some, same]
  · simp [named, write, List.getElem?_set_ne (Ne.symm own)]

theorem Tfie.named_removeFromStack (state : Tfie) (event : Nat) :
    (removeFromStack event state).1.named = state.named := by
  unfold removeFromStack
  split <;> rfl

theorem TestFrameworkInstrumentationEvent.setLogging_named
    (attributes : TestFrameworkInstrumentationEvent) (overwritten : Bool)
    (enable_logging : Option Bool) (disable_subevent_logging : Bool) :
    let after := attributes.setLogging overwritten enable_logging disable_subevent_logging
    (after.name, after.category) = (attributes.name, attributes.category) := by
  unfold TestFrameworkInstrumentationEvent.setLogging
  split <;> rfl

theorem TestFrameworkInstrumentationEvent.Begin_named (event : Nat) (enable_logging : Option Bool)
    (disable_subevent_logging : Bool) (state : Tfie) :
    (Begin event enable_logging disable_subevent_logging state).1.named = state.named := by
  unfold Begin
  split
  · rfl
  · rename_i attributes there
    have logging := attributes.setLogging_named state.subeventLoggingDisabled enable_logging
      disable_subevent_logging
    dsimp only
    split <;> exact Tfie.named_write there logging

theorem TestFrameworkInstrumentationEvent.End_named (event : Nat) (state : Tfie) :
    (End event state).1.named = state.named := by
  unfold End
  split
  · rfl
  · rename_i attributes there
    split
    · exact Tfie.named_write there rfl
    · exact Tfie.named_write there rfl
    · exact Tfie.named_write there rfl
    · exact (Tfie.named_removeFromStack _ _).trans (Tfie.named_write there rfl)

theorem Tfie.named_create (state : Tfie) (name category : String) (event : Nat) :
    (state.create name category).named event =
      if event = state.events.length then some (NormalizeNameCategory name category)
      else state.named event := by
  unfold named create
  rcases Nat.lt_trichotomy event state.events.length with inside | same | outside
  · simp [List.getElem?_append_left inside, Nat.ne_of_lt inside]
  · simp [same]
  · have past : state.events.length < event := outside
    simp [List.getElem?_eq_none (Nat.le_of_lt past), Nat.ne_of_gt past,
      List.getElem?_append_right (Nat.le_of_lt past), Nat.sub_ne_zero_of_lt past]

theorem legal_legal (text : String) : legal (legal text) = legal text := by
  unfold legal
  rw [String.map_map]
  congr 1
  funext char
  by_cases illegal : char ∈ ILLEGAL_CHARS
  · have replaced : '_' ∉ ILLEGAL_CHARS := by decide
    simp only [Function.comp, if_pos illegal, if_neg replaced]
  · simp only [Function.comp, if_neg illegal]

/-- A name that was rewritten is not rewritten again. -/
theorem NormalizeNameCategory_again (name category : String) :
    NormalizeNameCategory (NormalizeNameCategory name category).1
      (NormalizeNameCategory name category).2 = NormalizeNameCategory name category := by
  by_cases illegal : (category ++ name).any (· ∈ ILLEGAL_CHARS) = true
  · have rewritten : NormalizeNameCategory name category = (legal name, legal category) :=
      if_pos illegal
    rw [rewritten]
    dsimp only
    rw [NormalizeNameCategory, legal_legal, legal_legal, ite_self]
  · have same : NormalizeNameCategory name category = (name, category) := if_neg illegal
    rw [same]
    exact same

namespace NamedRun

variable {run : NamedRun}

/-! ## What the calls keep -/

/-- Each event has the name that it was begun with, as it is rewritten, and the stack has the active
events. -/
structure Consistent (run : NamedRun) : Prop where
  names : ∀ event, run.state.named event =
    (run.given[event]?).map fun given => NormalizeNameCategory given.1 given.2
  stack : run.state.event_stack = run.active

theorem start_consistent : start.Consistent := ⟨fun _ => rfl, rfl⟩

theorem Consistent.length (consistent : run.Consistent) :
    run.state.events.length = run.given.length := by
  have both : ∀ event, run.state.events.length ≤ event ↔ run.given.length ≤ event := by
    intro event
    have names := congrArg (· = none) (consistent.names event)
    simpa [Tfie.named] using names
  exact Nat.le_antisymm ((both _).mpr (Nat.le_refl _)) ((both _).mp (Nat.le_refl _))

theorem mem_active {event : Nat} :
    event ∈ run.active ↔ event < run.given.length ∧ run.state.status event = some .started := by
  rw [active, List.mem_filter, List.mem_range, decide_eq_true_iff]

theorem active_nodup : run.active.Nodup := List.nodup_range.filter _

theorem End_found (consistent : run.Consistent) {name category : String} {event : Nat}
    (found : FindEvent run.state name category = some event) :
    event ∈ run.active ∧
      (Harness.End name category run.state).1.status =
        Function.update run.state.status event (some .ended) ∧
      (Harness.End name category run.state).1.event_stack = run.active.erase event ∧
      (Harness.End name category run.state).1.named = run.state.named ∧
      (Harness.End name category run.state).2 = none := by
  have onStack : event ∈ run.state.event_stack :=
    List.mem_reverse.mp (List.mem_of_find?_eq_some found)
  have listed : event ∈ run.active := consistent.stack ▸ onStack
  have matched := List.find?_some found
  rw [any_eq_true] at matched
  obtain ⟨attributes, there, -⟩ := matched
  have started : attributes.status = .started := by
    have status := (mem_active.mp listed).2
    rw [Tfie.status_eq there] at status
    exact Option.some.inj status
  have effect := end_effect there
  rw [started] at effect
  simp only [Harness.End, found]
  have names := TestFrameworkInstrumentationEvent.End_named event run.state
  cases effect with
  | ended statuses taken data =>
    rw [Taken, if_pos onStack, consistent.stack] at taken
    exact ⟨listed, statuses, taken.1, names, taken.2⟩

theorem End_none {name category : String} (absent : FindEvent run.state name category = none) :
    Harness.End name category run.state = (run.state, none) := by
  simp only [Harness.End, absent]

theorem active_ended {after : NamedRun} (given : after.given = run.given) {event : Nat}
    (statuses : after.state.status = Function.update run.state.status event (some .ended)) :
    after.active = run.active.erase event := by
  rw [active_nodup.erase_eq_filter, active, active, given, List.filter_filter, statuses]
  apply List.filter_congr
  intro other _
  by_cases own : other = event
  · subst own
    simp
  · simp [own]

/-- A new event that is active. -/
theorem active_begun {after : NamedRun} {pair : String × String}
    (given : after.given = run.given ++ [pair])
    (begun : after.state.status run.given.length = some .started)
    (others : ∀ other < run.given.length, after.state.status other = run.state.status other) :
    after.active = run.active ++ [run.given.length] := by
  rw [active, active, given, List.length_append, List.length_singleton, List.range_succ,
    List.filter_append, List.filter_singleton, begun, decide_eq_true rfl]
  congr 1
  apply List.filter_congr
  intro other inside
  rw [others other (List.mem_range.mp inside)]

theorem step_Begin_consistent (consistent : run.Consistent) (name category : String)
    (enable_logging : Option Bool) (disable_subevent_logging : Bool) :
    (run.step (.Begin name category enable_logging disable_subevent_logging)).Consistent := by
  have length := consistent.length
  have created := run.state.named_create name category
  have status := Run.status_create run.state name category
  have stackKept : (run.state.create name category).event_stack = run.active := consistent.stack
  have step_eq : run.step (.Begin name category enable_logging disable_subevent_logging) =
      { state := (TestFrameworkInstrumentationEvent.Begin run.state.events.length enable_logging
          disable_subevent_logging (run.state.create name category)).1
        given := run.given ++ [(name, category)] } := rfl
  rw [step_eq]
  generalize run.state.create name category = new at created status stackKept
  have fresh : new.status run.state.events.length = some .notStarted := by rw [status, if_pos rfl]
  obtain ⟨attributes, there, notStarted⟩ := map_eq_some_iff.mp fresh
  have effect := begin_effect there enable_logging disable_subevent_logging
  have names := TestFrameworkInstrumentationEvent.Begin_named run.state.events.length
    enable_logging disable_subevent_logging new
  rw [notStarted] at effect
  generalize TestFrameworkInstrumentationEvent.Begin run.state.events.length enable_logging
    disable_subevent_logging new = begun at effect names
  rw [length] at effect created status
  cases effect with
  | begun statuses stack data silent =>
    constructor
    · intro event
      rw [names, created, consistent.names event]
      split
      · next own => simp [own]
      · next other =>
        rcases Nat.lt_or_gt_of_ne other with inside | past
        · rw [List.getElem?_append_left inside]
        · have outside : (run.given ++ [(name, category)]).length ≤ event := by
            rw [List.length_append]
            exact past
          rw [List.getElem?_eq_none (Nat.le_of_lt past), List.getElem?_eq_none outside]
    · rw [stack, stackKept]
      apply Eq.symm
      apply active_begun rfl
      · rw [statuses, Function.update_self]
      · intro other inside
        rw [statuses, Function.update_of_ne (Nat.ne_of_lt inside), status,
          if_neg (Nat.ne_of_lt inside)]

theorem step_consistent (consistent : run.Consistent) (call : NameCall) :
    (run.step call).Consistent := by
  cases call with
  | Begin name category enable_logging disable_subevent_logging =>
    exact step_Begin_consistent consistent name category enable_logging disable_subevent_logging
  | End name category =>
    cases found : FindEvent run.state name category with
    | none =>
      have same : run.step (.End name category) = run := by
        rw [step, End_none found]
      rw [same]
      exact consistent
    | some event =>
      obtain ⟨listed, statuses, stack, names, -⟩ := End_found consistent found
      constructor
      · intro other
        rw [step, names]
        exact consistent.names other
      · have ended := @active_ended run (run.step (.End name category)) rfl event statuses
        rw [ended]
        exact stack

/-! ## Which event is ended -/

/-- What a search finds that looks for less, if it looks for nothing else. -/
theorem find?_eq_find?_iff {α : Type*} {first second : α → Bool} {list : List α}
    (implies : ∀ item ∈ list, second item = true → first item = true) :
    list.find? first = list.find? second ↔
      ∀ item, list.find? first = some item → second item = true := by
  constructor
  · intro same item found
    exact List.find?_some (same ▸ found)
  · intro each
    cases found : list.find? first with
    | some item =>
      obtain ⟨holds, before, after, split, fails⟩ := List.find?_eq_some_iff_append.mp found
      refine (List.find?_eq_some_iff_append.mpr ⟨each item found, before, after, split, ?_⟩).symm
      intro earlier listed
      have member : earlier ∈ list := by
        rw [split]
        exact List.mem_append_left _ listed
      have unlike := fails earlier listed
      cases second_eq : second earlier with
      | false => rfl
      | true =>
        rw [implies earlier member second_eq] at unlike
        cases unlike
    | none =>
      refine (List.find?_eq_none.mpr ?_).symm
      intro item listed holds
      exact List.find?_eq_none.mp found item listed (implies item listed holds)

theorem find?_eq_some_iff_of_falls {test : Nat → Bool} {list : List Nat}
    (falls : list.Pairwise fun first second => second < first) {item : Nat} :
    list.find? test = some item ↔
      (item ∈ list ∧ test item = true) ∧ ∀ later ∈ list, item < later → test later = false := by
  induction list with
  | nil => simp
  | cons head list ih =>
    obtain ⟨below, rest⟩ := List.pairwise_cons.mp falls
    cases tested : test head with
    | true =>
      rw [List.find?_cons_of_pos tested, some_inj]
      constructor
      · rintro rfl
        refine ⟨⟨List.mem_cons_self, tested⟩, ?_⟩
        intro later listed above
        rcases List.mem_cons.mp listed with rfl | inside
        · exact absurd above (Nat.lt_irrefl _)
        · exact absurd (below later inside) (Nat.lt_asymm above)
      · rintro ⟨⟨listed, -⟩, unlike⟩
        rcases List.mem_cons.mp listed with rfl | inside
        · rfl
        · rw [unlike head List.mem_cons_self (below item inside)] at tested
          cases tested
    | false =>
      rw [List.find?_cons_of_neg (by simp [tested]), ih rest]
      constructor
      · rintro ⟨⟨listed, holds⟩, unlike⟩
        refine ⟨⟨List.mem_cons_of_mem head listed, holds⟩, ?_⟩
        intro later member above
        rcases List.mem_cons.mp member with rfl | inside
        · exact tested
        · exact unlike later inside above
      · rintro ⟨⟨listed, holds⟩, unlike⟩
        rcases List.mem_cons.mp listed with rfl | inside
        · rw [tested] at holds
          cases holds
        · refine ⟨⟨inside, holds⟩, ?_⟩
          intro later member
          exact unlike later (List.mem_cons_of_mem head member)

theorem active_falls : run.active.reverse.Pairwise fun first second => second < first := by
  rw [List.pairwise_reverse]
  exact List.pairwise_lt_range.filter _

section

variable (consistent : run.Consistent) (name category : String)
include consistent

/-- `FindEvent` looks through the active events for the rewritten name. -/
theorem FindEvent_eq :
    FindEvent run.state name category =
      run.active.reverse.find? fun event => run.state.named event = some (name, category) := by
  unfold FindEvent
  rw [consistent.stack]
  congr 1
  funext event
  unfold Tfie.named
  cases run.state.events[event]? with
  | none => rfl
  | some attributes =>
    rw [any_some, map_some, TestFrameworkInstrumentationEvent.Matches,
      Bool.eq_iff_iff, Bool.and_eq_true, beq_iff_eq, beq_iff_eq, decide_eq_true_iff,
      some_inj, Prod.mk.injEq]
    constructor
    · rintro ⟨sameCategory, sameName⟩
      exact ⟨sameName.symm, sameCategory.symm⟩
    · rintro ⟨sameName, sameCategory⟩
      exact ⟨sameCategory.symm, sameName.symm⟩

theorem named_iff {event : Nat} {name category : String} :
    run.Named event name category ↔
      event ∈ run.active.reverse ∧ run.state.named event = some (name, category) := by
  rw [Named, List.mem_reverse, consistent.names event, map_eq_some_iff]

/-- A legal name is the name of the events that were begun with it, and one with illegal characters
is the name of no event. -/
theorem finds_iff_meets :
    FindEvent run.state name category = run.mostRecent name category ↔
      run.Meets (.End name category) := by
  rw [FindEvent_eq consistent, Meets]
  split
  · next isLegal =>
    have implies : ∀ event ∈ run.active.reverse,
        decide (run.given[event]? = some (name, category)) = true →
          decide (run.state.named event = some (name, category)) = true := by
      intro event _ begun
      rw [decide_eq_true_iff] at begun ⊢
      rw [consistent.names event, begun, map_some, isLegal]
    rw [mostRecent, find?_eq_find?_iff implies]
    apply forall_congr'
    intro event
    rw [find?_eq_some_iff_of_falls active_falls, decide_eq_true_iff, decide_eq_true_iff,
      ← named_iff consistent, BegunWith]
    constructor
    · intro found isNamed latest
      refine ⟨isNamed.1, found ⟨isNamed, ?_⟩⟩
      intro later listed above
      rw [decide_eq_false_iff_not]
      intro same
      exact latest later above ((named_iff consistent).mpr ⟨listed, same⟩)
    · rintro begun ⟨isNamed, latest⟩
      refine (begun isNamed ?_).2
      intro later above laterNamed
      obtain ⟨listed, same⟩ := (named_iff consistent).mp laterNamed
      exact absurd same (of_decide_eq_false (latest later listed above))
  · next illegal =>
    have absent : (run.active.reverse.find? fun event =>
        decide (run.state.named event = some (name, category))) = none := by
      refine List.find?_eq_none.mpr ?_
      intro event _ same
      rw [decide_eq_true_iff, consistent.names event, map_eq_some_iff] at same
      obtain ⟨given, _, rewritten⟩ := same
      have again := NormalizeNameCategory_again given.1 given.2
      rw [rewritten] at again
      exact illegal again
    rw [absent, eq_comm, mostRecent, List.find?_eq_none]
    constructor
    · rintro never event ⟨listed, begun⟩
      exact never event (List.mem_reverse.mpr listed) (decide_eq_true begun)
    · intro never event listed begun
      exact never event ⟨List.mem_reverse.mp listed, of_decide_eq_true begun⟩

/-- Where the calls keep what they should, `End` is right exactly if it finds the right event. -/
theorem endsRight_iff {name category : String} :
    run.EndsRight name category ↔
      FindEvent run.state name category = run.mostRecent name category := by
  constructor
  · exact EndsRight.returned
  · intro returned
    cases found : FindEvent run.state name category with
    | none =>
      rw [found] at returned
      refine ⟨found.trans returned, ?_, ?_, ?_⟩
      · intro event here
        rw [here] at returned
        cases returned
      · intro _
        rw [End_none found]
      · rw [End_none found]
    | some event =>
      obtain ⟨listed, statuses, stack, names, silent⟩ := End_found consistent found
      rw [found] at returned
      refine ⟨found.trans returned, ?_, ?_, silent⟩
      · intro other here
        rw [here] at returned
        cases returned
        exact statuses
      · intro absent
        rw [absent] at returned
        cases returned

theorem right_call_iff (call : NameCall) : run.Right call ↔ run.Meets call := by
  cases call with
  | Begin => rfl
  | End name category => exact (endsRight_iff consistent).trans (finds_iff_meets consistent _ _)

end

end NamedRun

/-- Along a run of calls every `End` ends the most recently begun active event of its name and
category, exactly when the names that it is called with meet the condition. -/
theorem ends_right_iff (calls : List NameCall) :
    (∀ before call after, calls = before ++ call :: after →
        (run NamedRun.step NamedRun.start before).Right call) ↔
      AllMeet NamedRun.step NamedRun.Meets NamedRun.start calls := by
  have kept : ∀ (run : NamedRun) call, run.Consistent → (run.step call).Consistent :=
    fun _ call consistent => NamedRun.step_consistent consistent call
  have same : ∀ (run : NamedRun) call, run.Consistent → (run.Right call ↔ run.Meets call) :=
    fun _ call consistent => NamedRun.right_call_iff consistent call
  rw [← allMeet_congr kept same NamedRun.start_consistent, allMeet_iff_steps]

/-- An event that was begun with a colon in its name is not ended by this name, but by the one with
a low line, with which none was begun. -/
theorem not_ends_right :
    let begun := run NamedRun.step NamedRun.start [.Begin "a:b" "Misc" none false]
    (begun.mostRecent "a:b" "Misc" = some 0 ∧ FindEvent begun.state "a:b" "Misc" = none) ∧
      (begun.mostRecent "a_b" "Misc" = none ∧ FindEvent begun.state "a_b" "Misc" = some 0) ∧
      ¬ ∀ calls before call after, calls = before ++ call :: after →
        (run NamedRun.step NamedRun.start before).Right call := by
  intro begun
  have consistent : begun.Consistent :=
    NamedRun.step_consistent NamedRun.start_consistent (.Begin "a:b" "Misc" none false)
  have active : begun.active = [0] := by decide +kernel
  have named : begun.state.named 0 = some ("a_b", "Misc") := by
    have illegal : ("Misc" ++ "a:b").any (· ∈ ILLEGAL_CHARS) = true := by
      rw [String.any, String.contains_prop_eq]
      decide
    have rewritten : NormalizeNameCategory "a:b" "Misc" = (legal "a:b", legal "Misc") :=
      if_pos illegal
    rw [consistent.names, show begun.given[0]? = some ("a:b", "Misc") from rfl, map_some,
      rewritten, legal, legal, String.map_eq_internal, String.map_eq_internal]
    decide
  have given : begun.mostRecent "a:b" "Misc" = some 0 := by decide +kernel
  have absent : FindEvent begun.state "a:b" "Misc" = none := by
    rw [NamedRun.FindEvent_eq consistent, active]
    simp [named]
  have found : FindEvent begun.state "a_b" "Misc" = some 0 := by
    rw [NamedRun.FindEvent_eq consistent, active]
    simp [named]
  refine ⟨⟨given, absent⟩, ⟨by decide +kernel, found⟩, ?_⟩
  intro always
  have ends : begun.EndsRight "a:b" "Misc" :=
    always _ [.Begin "a:b" "Misc" none false] (.End "a:b" "Misc") [] rfl
  have returned := ends.returned
  rw [given, absent] at returned
  cases returned

end Vts.Harness
