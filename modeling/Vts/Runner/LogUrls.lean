import Mathlib.Data.List.DropRight
import Mathlib.Data.List.Nodup

/-!
# URLs of log files

`AddLogUrls` of `utils/python/web/web_utils.py`. For every URL there is a search through the
messages of the report for one that has it already, but the `continue` in this search is that of its
own loop, and the message is added in either case.

Proved here: the report has exactly the URLs that were passed, so each of them once exactly if none
was passed twice.
-/

namespace Vts.Runner.LogUrls

open List

/-- The message of a log file. -/
structure LogMessage where
  url : String
  name : String
deriving DecidableEq

/-- The web feature, with the log messages of its report. -/
structure WebFeature where
  enabled : Bool
  log : List LogMessage
deriving DecidableEq

/-- `os.path.basename`. -/
def basename (path : String) : String := String.ofList (path.toList.rtakeWhile (· ≠ '/'))

namespace WebFeature

/-- The search for a message with the URL: where there is one, it goes on with the next message. -/
def search (url : String) (log : List LogMessage) : Unit :=
  log.foldl (fun searched log_msg => if log_msg.url = url then searched else searched) ()

/-- One URL of a list. -/
def addUrl (web : WebFeature) (url : String) : WebFeature :=
  match search url web.log with
  | () => { web with log := web.log ++ [⟨url, basename url⟩] }

def AddLogUrls (web : WebFeature) (urls : Option (List String)) : WebFeature :=
  if !web.enabled then web
  else
    match urls with
    | none => web
    | some urls => urls.foldl addUrl web

/-- The URLs of the report. -/
def urls (web : WebFeature) : List String := web.log.map (·.url)

end WebFeature

/-- The feature after some calls, of which the first finds a report without log messages. -/
def afterCalls (enabled : Bool) (calls : List (Option (List String))) : WebFeature :=
  calls.foldl WebFeature.AddLogUrls ⟨enabled, []⟩

/-- The URLs that were passed. -/
def passed (calls : List (Option (List String))) : List String := calls.flatMap (·.getD [])

/-- Each URL that was passed is in the report once, in the order in which they appeared first. -/
def Unique (enabled : Bool) (calls : List (Option (List String))) : Prop :=
  (afterCalls enabled calls).urls = (passed calls).eraseDups

/-! ## What the calls add -/

theorem foldl_addUrl (web : WebFeature) (urls : List String) :
    (urls.foldl WebFeature.addUrl web).enabled = web.enabled ∧
      (urls.foldl WebFeature.addUrl web).urls = web.urls ++ urls := by
  induction urls generalizing web with
  | nil => exact ⟨rfl, (append_nil _).symm⟩
  | cons url urls ih =>
    obtain ⟨enabled, added⟩ := ih (web.addUrl url)
    have first : (web.addUrl url).urls = web.urls ++ [url] := map_append
    refine ⟨enabled, ?_⟩
    rw [foldl_cons, added, first, append_assoc, singleton_append]

/-- An enabled feature adds what it is passed, and another one nothing. -/
theorem foldl_AddLogUrls (web : WebFeature) (calls : List (Option (List String))) :
    (calls.foldl WebFeature.AddLogUrls web).urls =
      web.urls ++ if web.enabled then passed calls else [] := by
  induction calls generalizing web with
  | nil => simp [passed]
  | cons urls calls ih =>
    rw [foldl_cons, ih]
    cases enabled : web.enabled with
    | false =>
      have same : web.AddLogUrls urls = web := by simp [WebFeature.AddLogUrls, enabled]
      simp [same, enabled]
    | true =>
      cases urls with
      | none =>
        have same : web.AddLogUrls none = web := by simp [WebFeature.AddLogUrls, enabled]
        simp [same, enabled, passed]
      | some urls =>
        have added := foldl_addUrl web urls
        have step : web.AddLogUrls (some urls) = urls.foldl WebFeature.addUrl web := by
          simp [WebFeature.AddLogUrls, enabled]
        rw [step, added.1, added.2, enabled]
        simp [passed]

theorem nodup_eraseDups (list : List String) : list.eraseDups.Nodup := by
  induction size : list.length using Nat.strong_induction_on generalizing list with
  | _ _ ih =>
    cases list with
    | nil => exact nodup_nil
    | cons first others =>
      have shorter :
          (others.filter fun other => !other == first).length < (first :: others).length :=
        Nat.lt_succ_of_le (length_filter_le _ _)
      rw [eraseDups_cons, nodup_cons]
      refine ⟨?_, ih _ (size ▸ shorter) _ rfl⟩
      rw [mem_eraseDups, mem_filter]
      simp

/-- Without the elements that appeared before, a list is as it was exactly if there are none. -/
theorem eraseDups_eq_self_iff {list : List String} : list = list.eraseDups ↔ list.Nodup := by
  constructor
  · intro same
    rw [same]
    exact nodup_eraseDups list
  · intro once
    induction list with
    | nil => rfl
    | cons first others ih =>
      obtain ⟨fresh, rest⟩ := nodup_cons.mp once
      have kept : (others.filter fun other => !other == first) = others := by
        rw [filter_eq_self]
        intro other listed
        have apart : other ≠ first := fun same => fresh (same ▸ listed)
        simp [apart]
      rw [eraseDups_cons, kept, ← ih rest]

theorem nil_eq_eraseDups_iff {list : List String} : [] = list.eraseDups ↔ list = [] := by
  cases list with
  | nil => exact Iff.rfl
  | cons first others => simp [eraseDups_cons]

/-- The URLs of the report are unique exactly if none was passed twice, and none at all while the
feature is disabled. -/
theorem logUrls_unique_iff (enabled : Bool) (calls : List (Option (List String))) :
    Unique enabled calls ↔
      (passed calls).Nodup ∧ (enabled = true ∨ passed calls = []) := by
  have urls := foldl_AddLogUrls ⟨enabled, []⟩ calls
  unfold Unique afterCalls
  rw [urls]
  cases enabled with
  | false =>
    refine nil_eq_eraseDups_iff.trans ?_
    constructor
    · intro none
      exact ⟨none ▸ nodup_nil, .inr none⟩
    · rintro ⟨-, enabled | none⟩
      · cases enabled
      · exact none
  | true =>
    have unique := @eraseDups_eq_self_iff (passed calls)
    exact unique.trans (and_iff_left (.inl rfl)).symm

/-- A URL that is passed twice is twice in the report. -/
theorem not_logUrls_unique :
    (afterCalls true [some ["log/a"], some ["log/a"]]).log =
        [⟨"log/a", "a"⟩, ⟨"log/a", "a"⟩] ∧
      ¬ Unique true [some ["log/a"], some ["log/a"]] := by
  refine ⟨by decide +kernel, ?_⟩
  unfold Unique
  decide +kernel

end Vts.Runner.LogUrls
