import QpidPmda.Foundations.History
import QpidPmda.Qmf1.ListenerCalls

/-! # What a history of calls determines

The entries of an object are those of the last update that was saved for it. A
properties update is saved when the part of the call before the lock lets it
pass; a statistics update is saved when, in addition, properties of the object
were saved before it, unless auto-delete objects are included.
-/

namespace QpidPmda.Qmf1
open Qpid Pcp ConsoleUtils ConsoleValue Foundations ConsoleListener

/-- The calls that change the listener. -/
inductive ListenerCall (ObjectId Value : Type) where
  | objectProps (object : Object ObjectId Value)
  | objectStats (object : Object ObjectId Value)
  | getNewObjectId

namespace ListenerCall
variable {ObjectId Value : Type} [ConsoleValue Value ObjectId] [ToString ObjectId]
  [DecidableEq ObjectId]

/-- The call is an update of this object. -/
def isAbout (x : ObjectId) : ListenerCall ObjectId Value → Bool
  | .objectProps object => object.objectId = x
  | .objectStats object => object.objectId = x
  | .getNewObjectId => false

def exec (pmDebug : DebugFlags) (call : ListenerCall ObjectId Value)
    (l : ConsoleListener ObjectId Value) : ConsoleListener ObjectId Value :=
  match call with
  | .objectProps object => (ConsoleListener.objectProps pmDebug object l).2
  | .objectStats object => (ConsoleListener.objectStats pmDebug object l).2
  | .getNewObjectId => l.getNewObjectId.2

/-- The properties object that the call saves for `x`, if any. -/
def propsFor (pmDebug : DebugFlags) (includeAutoDelete : Bool) (x : ObjectId) :
    ListenerCall ObjectId Value → Option (Object ObjectId Value)
  | .objectProps object =>
    if object.objectId = x ∧ propsSaved pmDebug includeAutoDelete object then some object else none
  | _ => none

/-- The statistics object that the call offers for `x`, whatever the listener knows of `x`. -/
def statsFor (pmDebug : DebugFlags) (x : ObjectId) :
    ListenerCall ObjectId Value → Option (Object ObjectId Value)
  | .objectStats object =>
    if object.objectId = x ∧ statsPassed pmDebug object then some object else none
  | _ => none

theorem propsFor_eq_some_iff {pmDebug : DebugFlags} {includeAutoDelete : Bool} {x : ObjectId}
    {call : ListenerCall ObjectId Value} {object : Object ObjectId Value} :
    propsFor pmDebug includeAutoDelete x call = some object ↔
      call = .objectProps object ∧ object.objectId = x ∧
        propsSaved pmDebug includeAutoDelete object = true := by
  cases call with
  | objectProps known =>
    rw [propsFor, objectProps.injEq]
    exact ite_some_eq_some_iff fun known : Object ObjectId Value => known.objectId = x ∧
      propsSaved pmDebug includeAutoDelete known = true
  | _ => simp [propsFor]

theorem propsFor_eq_none_iff {pmDebug : DebugFlags} {includeAutoDelete : Bool} {x : ObjectId}
    {call : ListenerCall ObjectId Value} :
    propsFor pmDebug includeAutoDelete x call = none ↔
      ∀ object, call = .objectProps object → object.objectId = x →
        ¬ propsSaved pmDebug includeAutoDelete object = true := by
  simp only [Option.eq_none_iff_forall_ne_some, ne_eq, propsFor_eq_some_iff, not_and]

theorem statsFor_eq_some_iff {pmDebug : DebugFlags} {x : ObjectId}
    {call : ListenerCall ObjectId Value} {object : Object ObjectId Value} :
    statsFor pmDebug x call = some object ↔
      call = .objectStats object ∧ object.objectId = x ∧ statsPassed pmDebug object = true := by
  cases call with
  | objectStats known =>
    rw [statsFor, objectStats.injEq]
    exact ite_some_eq_some_iff fun known : Object ObjectId Value => known.objectId = x ∧
      statsPassed pmDebug known = true
  | _ => simp [statsFor]

theorem objectId_of_propsFor {pmDebug : DebugFlags} {includeAutoDelete : Bool} {x : ObjectId}
    {call : ListenerCall ObjectId Value} {object : Object ObjectId Value}
    (h : propsFor pmDebug includeAutoDelete x call = some object) : object.objectId = x :=
  (propsFor_eq_some_iff.mp h).2.1

theorem objectId_of_statsFor {pmDebug : DebugFlags} {x : ObjectId}
    {call : ListenerCall ObjectId Value} {object : Object ObjectId Value}
    (h : statsFor pmDebug x call = some object) : object.objectId = x :=
  (statsFor_eq_some_iff.mp h).2.1

theorem statsFor_of_propsFor {pmDebug : DebugFlags} {includeAutoDelete : Bool} {x : ObjectId}
    {call : ListenerCall ObjectId Value}
    (h : (propsFor pmDebug includeAutoDelete x call).isSome) : statsFor pmDebug x call = none := by
  obtain ⟨object, hobject⟩ := Option.isSome_iff_exists.mp h
  obtain ⟨rfl, -, -⟩ := propsFor_eq_some_iff.mp hobject
  rfl

theorem propsFor_of_not_about {pmDebug : DebugFlags} {includeAutoDelete : Bool} {x : ObjectId}
    {call : ListenerCall ObjectId Value} (h : isAbout x call = false) :
    propsFor pmDebug includeAutoDelete x call = none := by
  rw [propsFor_eq_none_iff]
  rintro object rfl hx
  simp [isAbout, hx] at h

theorem statsFor_of_not_about {pmDebug : DebugFlags} {x : ObjectId}
    {call : ListenerCall ObjectId Value} (h : isAbout x call = false) :
    statsFor pmDebug x call = none := by
  cases call <;> simp_all [isAbout, statsFor]

/-- The calls after the properties of `x` were first saved, or all calls when auto-delete
objects are included. -/
def sinceKnown (pmDebug : DebugFlags) (includeAutoDelete : Bool) (x : ObjectId)
    (calls : List (ListenerCall ObjectId Value)) : List (ListenerCall ObjectId Value) :=
  if includeAutoDelete then calls
  else sinceFirst (fun call => (propsFor pmDebug includeAutoDelete x call).isSome) calls

/-- The listener that a list of calls leaves. -/
def history (pmDebug : DebugFlags) (includeAutoDelete : Bool)
    (calls : List (ListenerCall ObjectId Value)) : ConsoleListener ObjectId Value :=
  run (exec pmDebug) calls (start includeAutoDelete)

@[simp] theorem exec_includeAutoDelete (pmDebug : DebugFlags)
    (call : ListenerCall ObjectId Value) (l : ConsoleListener ObjectId Value) :
    (exec pmDebug call l).includeAutoDelete = l.includeAutoDelete := by
  cases call <;> simp [exec, getNewObjectId_listener]

theorem exec_propsTested {pmDebug : DebugFlags} (call : ListenerCall ObjectId Value)
    {l : ConsoleListener ObjectId Value} (h : PropsTested pmDebug l) :
    PropsTested pmDebug (exec pmDebug call l) := by
  cases call with
  | objectProps object => exact propsTested_objectProps object h
  | objectStats object => simpa [PropsTested, exec] using h
  | getNewObjectId => simpa [PropsTested, exec, getNewObjectId_listener] using h

theorem exec_getProps (pmDebug : DebugFlags) (x : ObjectId) (call : ListenerCall ObjectId Value)
    (l : ConsoleListener ObjectId Value) :
    (exec pmDebug call l).getProps x =
      (propsFor pmDebug l.includeAutoDelete x call).or (l.getProps x) := by
  cases call with
  | objectProps object =>
    simp only [exec, getProps, objectProps_props, propsFor]
    by_cases hs : propsSaved pmDebug l.includeAutoDelete object
    · by_cases hx : object.objectId = x
      · subst hx; simp [hs]
      · simp [hs, hx, Finmap.lookup_insert_of_ne _ (Ne.symm hx)]
    · simp [hs]
  | objectStats object => simp [exec, getProps, propsFor]
  | getNewObjectId => simp [exec, getProps, propsFor, getNewObjectId_listener]

theorem exec_getStats {pmDebug : DebugFlags} (x : ObjectId) (call : ListenerCall ObjectId Value)
    {l : ConsoleListener ObjectId Value} (h : PropsTested pmDebug l) :
    (exec pmDebug call l).getStats x =
      if l.includeAutoDelete || (l.getProps x).isSome then
        (statsFor pmDebug x call).or (l.getStats x)
      else l.getStats x := by
  cases call with
  | objectProps object => simp [exec, getStats, statsFor]
  | objectStats object =>
    simp only [exec, objectStats_listener, statsSaved_eq h, statsFor]
    by_cases hx : object.objectId = x
    · subst hx
      by_cases hp : statsPassed pmDebug object <;>
        by_cases hk : (l.includeAutoDelete || (l.props.lookup object.objectId).isSome) = true <;>
        simp [hp, hk, getStats, getProps, saveStats]
    · have hne : (saveStats object l).getStats x = l.getStats x := by
        simp [saveStats, getStats, Finmap.lookup_insert_of_ne _ (Ne.symm hx)]
      split_ifs <;> simp_all
  | getNewObjectId => simp [exec, getStats, statsFor, getNewObjectId_listener]

theorem run_includeAutoDelete (pmDebug : DebugFlags) (calls : List (ListenerCall ObjectId Value))
    (l : ConsoleListener ObjectId Value) :
    (run (exec pmDebug) calls l).includeAutoDelete = l.includeAutoDelete :=
  run_invariant (I := fun s => s.includeAutoDelete = l.includeAutoDelete) (exec pmDebug)
    (fun call s h => (exec_includeAutoDelete pmDebug call s).trans h) calls rfl

theorem history_includeAutoDelete (pmDebug : DebugFlags) (includeAutoDelete : Bool)
    (calls : List (ListenerCall ObjectId Value)) :
    (history pmDebug includeAutoDelete calls).includeAutoDelete = includeAutoDelete :=
  run_includeAutoDelete pmDebug calls (start includeAutoDelete)

theorem run_getProps {pmDebug : DebugFlags} {x : ObjectId}
    {calls : List (ListenerCall ObjectId Value)} (h : ∀ call ∈ calls, isAbout x call = false)
    (l : ConsoleListener ObjectId Value) :
    (run (exec pmDebug) calls l).getProps x = l.getProps x := by
  induction calls generalizing l with
  | nil => rfl
  | cons call calls ih =>
    rw [run_cons, ih fun c hc => h c (List.mem_cons_of_mem call hc), exec_getProps,
      propsFor_of_not_about (h call List.mem_cons_self), Option.none_or]

theorem history_propsTested (pmDebug : DebugFlags) (includeAutoDelete : Bool)
    (calls : List (ListenerCall ObjectId Value)) :
    PropsTested pmDebug (history pmDebug includeAutoDelete calls) :=
  run_invariant (exec pmDebug) (fun call _ h => exec_propsTested call h) calls
    (propsTested_start pmDebug includeAutoDelete)

theorem history_concat (pmDebug : DebugFlags) (includeAutoDelete : Bool)
    (calls : List (ListenerCall ObjectId Value)) (call : ListenerCall ObjectId Value) :
    history pmDebug includeAutoDelete (calls ++ [call]) =
      exec pmDebug call (history pmDebug includeAutoDelete calls) := run_concat ..

/-- The properties of an object are those last saved for it. -/
theorem history_getProps (pmDebug : DebugFlags) (includeAutoDelete : Bool)
    (calls : List (ListenerCall ObjectId Value)) (x : ObjectId) :
    (history pmDebug includeAutoDelete calls).getProps x =
      lastOf (propsFor pmDebug includeAutoDelete x) calls := by
  induction calls using List.reverseRecOn with
  | nil => simp [history, start, setIncludeAutoDelete, new, getProps]
  | append_singleton calls call ih =>
    rw [history_concat, exec_getProps, ih, lastOf_concat, history_includeAutoDelete]

/-- The statistics of an object are those last offered once its properties were known. -/
theorem history_getStats (pmDebug : DebugFlags) (includeAutoDelete : Bool)
    (calls : List (ListenerCall ObjectId Value)) (x : ObjectId) :
    (history pmDebug includeAutoDelete calls).getStats x =
      lastOf (statsFor pmDebug x) (sinceKnown pmDebug includeAutoDelete x calls) := by
  induction calls using List.reverseRecOn with
  | nil => cases includeAutoDelete <;> rfl
  | append_singleton calls call ih =>
    rw [history_concat, exec_getStats x call (history_propsTested pmDebug includeAutoDelete calls),
      ih, history_getProps, history_includeAutoDelete]
    cases includeAutoDelete with
    | true => simp [sinceKnown, lastOf_concat]
    | false =>
      simp only [sinceKnown, Bool.false_eq_true, if_false, Bool.false_or]
      by_cases hk : calls.any fun call => (propsFor pmDebug false x call).isSome
      · have hs : (lastOf (propsFor pmDebug false x) calls).isSome := by
          rw [lastOf_isSome_iff]; simpa using hk
        rw [if_pos hs, sinceFirst_concat_of_any hk, lastOf_concat]
      · have hs : ¬ (lastOf (propsFor pmDebug false x) calls).isSome := by
          rw [lastOf_isSome_iff]; simpa using hk
        rw [if_neg hs, sinceFirst_eq_nil hk, sinceFirst_concat_of_not_any hk]
        split_ifs with hnew
        · rw [lastOf_nil, ← List.nil_append [call], lastOf_concat, statsFor_of_propsFor hnew]
          rfl
        · rfl

/-- The entries of an object depend on the updates of this object only. -/
theorem history_filter (pmDebug : DebugFlags) (includeAutoDelete : Bool)
    (calls : List (ListenerCall ObjectId Value)) (x : ObjectId) :
    (history pmDebug includeAutoDelete (calls.filter (isAbout x))).getProps x =
        (history pmDebug includeAutoDelete calls).getProps x ∧
      (history pmDebug includeAutoDelete (calls.filter (isAbout x))).getStats x =
        (history pmDebug includeAutoDelete calls).getStats x := by
  refine ⟨?_, ?_⟩
  · rw [history_getProps, history_getProps, lastOf_filter _ _ _ fun _ _ => propsFor_of_not_about]
  · rw [history_getStats, history_getStats]
    unfold sinceKnown
    split_ifs
    · exact lastOf_filter _ _ _ fun _ _ => statsFor_of_not_about
    · rw [sinceFirst_filter, lastOf_filter _ _ _ fun _ _ => statsFor_of_not_about]
      intro call hsome
      by_contra hcall
      rw [propsFor_of_not_about (by simpa using hcall)] at hsome
      exact absurd hsome (by simp)

theorem history_reorder (pmDebug : DebugFlags) (includeAutoDelete : Bool)
    {calls calls' : List (ListenerCall ObjectId Value)}
    (h : ∀ x, calls'.filter (isAbout x) = calls.filter (isAbout x)) :
    (history pmDebug includeAutoDelete calls').props =
        (history pmDebug includeAutoDelete calls).props ∧
      (history pmDebug includeAutoDelete calls').stats =
        (history pmDebug includeAutoDelete calls).stats := by
  refine ⟨Finmap.ext_lookup fun x => ?_, Finmap.ext_lookup fun x => ?_⟩
  · have h₁ := (history_filter pmDebug includeAutoDelete calls' x).1
    have h₂ := (history_filter pmDebug includeAutoDelete calls x).1
    rw [h x] at h₁
    exact h₁.symm.trans h₂
  · have h₁ := (history_filter pmDebug includeAutoDelete calls' x).2
    have h₂ := (history_filter pmDebug includeAutoDelete calls x).2
    rw [h x] at h₁
    exact h₁.symm.trans h₂

theorem history_not_autoDelete (pmDebug : DebugFlags)
    (calls : List (ListenerCall ObjectId Value)) {x : ObjectId} {object : Object ObjectId Value}
    (h : (history pmDebug false calls).getProps x = some object) :
    autoDeleteSet object = false :=
  (isAutoDelete_ok (history_propsTested pmDebug false calls
    (history_includeAutoDelete ..) x object h)).symm

theorem history_stats_known (pmDebug : DebugFlags) (calls : List (ListenerCall ObjectId Value))
    {x : ObjectId} (h : ((history pmDebug false calls).getStats x).isSome) :
    ((history pmDebug false calls).getProps x).isSome := by
  rw [history_getStats, lastOf_isSome_iff] at h
  obtain ⟨call, hcall, -⟩ := h
  rw [history_getProps, lastOf_isSome_iff]
  by_contra hnone
  have hany : ¬ calls.any fun call => (propsFor pmDebug false x call).isSome := by
    simpa using hnone
  simp [sinceKnown, sinceFirst_eq_nil hany] at hcall

end ListenerCall

end QpidPmda.Qmf1
