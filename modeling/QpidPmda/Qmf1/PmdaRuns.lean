import QpidPmda.Qmf1.ListenerHistory
import QpidPmda.Qmf1.PmdaCalls

/-! # Runs of the PMDA between the callbacks of the console

The callbacks may come at any moment, also in the middle of
`begin_fetch_values`: before the next id is taken, between taking the id and
asking for its properties, and between that and the registration. The PMDA's own
thread makes one call at a time. The trace keeps how the iterations ended.
-/

namespace QpidPmda.Qmf1
open Qpid Pcp ConsoleUtils ConsoleValue Foundations ConsoleListener

/-- Where the PMDA's thread stands in `begin_fetch_values`. -/
inductive Progress (ObjectId Value : Type) where
  | idle
  /-- About to take the next new id. -/
  | looping
  | popped (objectId : ObjectId)
  | fetched (objectId : ObjectId) (props : Option (Object ObjectId Value))

structure System {ObjectId : Type} (P : Library ObjectId) (Value : Type) where
  pmda : Pmda P Value
  progress : Progress ObjectId Value
  trace : List (ObjectId × IterationExit ObjectId Value)

/-- The callbacks, the two calls of the PMDA, and the steps of the first of them. -/
inductive Action (ObjectId Value : Type) where
  | objectProps (object : Object ObjectId Value)
  | objectStats (object : Object ObjectId Value)
  | beginFetch
  | advance
  | fetchValue (metric : MetricId)

namespace System
variable {ObjectId Value : Type} {P : Library ObjectId}

/-- The callbacks of a run, as calls of the listener. -/
def updates (actions : List (Action ObjectId Value)) : List (ListenerCall ObjectId Value) :=
  actions.filterMap fun
    | .objectProps object => some (.objectProps object)
    | .objectStats object => some (.objectStats object)
    | _ => none

def initial (P : Library ObjectId) (Value : Type) (includeAutoDelete : Bool) : System P Value :=
  ⟨Pmda.initial P Value includeAutoDelete, .idle, []⟩

/-- The PMDA after its listener changed. -/
def withListener (s : System P Value) (listener : ConsoleListener ObjectId Value) :
    System P Value := { s with pmda := { s.pmda with listener := listener } }

variable [ConsoleValue Value ObjectId] [ToString ObjectId] [DecidableEq ObjectId]

/-- One step of `begin_fetch_values`. -/
def advance (s : System P Value) : System P Value :=
  match s.progress with
  | .idle => s
  | .looping =>
    match s.pmda.listener.getNewObjectId with
    | (none, listener) => { s.withListener listener with progress := .idle }
    | (some objectId, listener) => { s.withListener listener with progress := .popped objectId }
  | .popped objectId =>
    { s with progress := .fetched objectId (s.pmda.listener.getProps objectId) }
  | .fetched objectId props =>
    let next := Pmda.register objectId props s.pmda
    { pmda := next.2
      progress := if next.1.leaves.isNone then .looping else .idle
      trace := s.trace ++ [(objectId, next.1)] }

/-- An action that the PMDA's thread cannot begin where it stands is left out. -/
def exec (pmDebug : DebugFlags) (action : Action ObjectId Value) (s : System P Value) :
    System P Value :=
  match action with
  | .objectProps object => s.withListener (objectProps pmDebug object s.pmda.listener).2
  | .objectStats object => s.withListener (objectStats pmDebug object s.pmda.listener).2
  | .beginFetch =>
    match s.progress with
    | .idle => { s with progress := .looping }
    | _ => s
  | .advance => s.advance
  | .fetchValue metric =>
    match s.progress with
    | .idle => { s with pmda := (Pmda.fetchValue metric s.pmda).2 }
    | _ => s

/-- The system that a run from the first callback on leaves. -/
def after (P : Library ObjectId) (pmDebug : DebugFlags) (includeAutoDelete : Bool)
    (actions : List (Action ObjectId Value)) : System P Value :=
  run (exec pmDebug) actions (initial P Value includeAutoDelete)

/-- What an action can do to the system. -/
inductive Does (pmDebug : DebugFlags) (s : System P Value) :
    Action ObjectId Value → System P Value → Prop
  | objectProps (object) : Does pmDebug s (.objectProps object)
      (s.withListener (ConsoleListener.objectProps pmDebug object s.pmda.listener).2)
  | objectStats (object) : Does pmDebug s (.objectStats object)
      (s.withListener (ConsoleListener.objectStats pmDebug object s.pmda.listener).2)
  | begun (h : s.progress = .idle) : Does pmDebug s .beginFetch { s with progress := .looping }
  | nothing (action) (h : updates [action] = []) : Does pmDebug s action s
  | drained (h : s.progress = .looping) (hq : s.pmda.listener.newObjects = []) :
      Does pmDebug s .advance { s with progress := .idle }
  | popped (objectId rest) (h : s.progress = .looping)
      (hq : s.pmda.listener.newObjects = objectId :: rest) :
      Does pmDebug s .advance { s.withListener { s.pmda.listener with newObjects := rest } with
        progress := .popped objectId }
  | fetched (objectId) (h : s.progress = .popped objectId) : Does pmDebug s .advance
      { s with progress := .fetched objectId (s.pmda.listener.getProps objectId) }
  | ended (objectId props exit pmda) (h : s.progress = .fetched objectId props)
      (hr : Pmda.Registers objectId s.pmda props exit pmda) : Does pmDebug s .advance
      { pmda := pmda
        progress := if exit.leaves.isNone then .looping else .idle
        trace := s.trace ++ [(objectId, exit)] }

theorem exec_does (pmDebug : DebugFlags) (action : Action ObjectId Value) (s : System P Value) :
    Does pmDebug s action (exec pmDebug action s) := by
  cases action with
  | objectProps object => exact .objectProps object
  | objectStats object => exact .objectStats object
  | beginFetch =>
    cases h : s.progress with
    | idle =>
      simp only [exec, h]
      exact .begun h
    | _ =>
      simp only [exec, h]
      exact .nothing _ rfl
  | advance =>
    unfold exec advance
    cases h : s.progress with
    | idle => exact .nothing _ rfl
    | looping =>
      rw [getNewObjectId_listener]
      cases hq : s.pmda.listener.newObjects with
      | nil =>
        have hsame : s.withListener { s.pmda.listener with newObjects := [] } = s := by
          simp only [withListener, ← hq]
        simp only [List.head?_nil, List.tail_nil, hsame]
        exact .drained h hq
      | cons objectId rest => exact .popped objectId rest h hq
    | popped objectId => exact .fetched objectId h
    | fetched objectId props =>
      exact .ended objectId props _ _ h (Pmda.register_exit objectId props s.pmda)
  | fetchValue metric =>
    have hsame : exec pmDebug (.fetchValue metric) s = s := by
      change (match s.progress with | .idle => s | _ => s) = s
      split <;> rfl
    rw [hsame]
    exact .nothing _ rfl

theorem after_concat (P : Library ObjectId) (pmDebug : DebugFlags) (includeAutoDelete : Bool)
    (actions : List (Action ObjectId Value)) (action : Action ObjectId Value) :
    after P pmDebug includeAutoDelete (actions ++ [action]) =
      exec pmDebug action (after P pmDebug includeAutoDelete actions) := run_concat ..

variable {pmDebug : DebugFlags} {includeAutoDelete : Bool}

omit [ConsoleValue Value ObjectId] [ToString ObjectId] [DecidableEq ObjectId] in
theorem updates_concat (actions : List (Action ObjectId Value)) (action : Action ObjectId Value) :
    updates (actions ++ [action]) = updates actions ++ updates [action] := by
  simp [updates, List.filterMap_append]

/-- Two listeners with the same setting, properties and statistics. -/
def SameMaps (l l' : ConsoleListener ObjectId Value) : Prop :=
  l.includeAutoDelete = l'.includeAutoDelete ∧ l.props = l'.props ∧ l.stats = l'.stats

theorem SameMaps.objectProps {l l' : ConsoleListener ObjectId Value} (h : SameMaps l l')
    (object : Object ObjectId Value) :
    SameMaps (objectProps pmDebug object l).2 (objectProps pmDebug object l').2 := by
  obtain ⟨hi, hp, hs⟩ := h
  refine ⟨?_, ?_, ?_⟩
  · simp [hi]
  · simp [objectProps_props, hi, hp]
  · simp [hs]

theorem SameMaps.objectStats {l l' : ConsoleListener ObjectId Value} (h : SameMaps l l')
    (object : Object ObjectId Value) :
    SameMaps (objectStats pmDebug object l).2 (objectStats pmDebug object l').2 := by
  obtain ⟨hi, hp, hs⟩ := h
  have hsaved : statsSaved pmDebug object l = statsSaved pmDebug object l' := by
    simp [statsSaved, checkProps, hi, hp]
  refine ⟨by simp [hi], by simp [hp], ?_⟩
  rw [objectStats_listener, objectStats_listener, hsaved]
  split_ifs
  · simp [saveStats, hs]
  · exact hs

/-- The listener's maps are those that the callbacks alone leave. -/
theorem after_sameMaps (actions : List (Action ObjectId Value)) :
    SameMaps (after P pmDebug includeAutoDelete actions).pmda.listener
      (ListenerCall.history pmDebug includeAutoDelete (updates actions)) := by
  induction actions using List.reverseRecOn with
  | nil => exact ⟨rfl, rfl, rfl⟩
  | append_singleton actions action ih =>
    rw [after_concat, updates_concat]
    have hdoes := exec_does pmDebug action (after P pmDebug includeAutoDelete actions)
    have hnone (hu : updates [action] = []) : ListenerCall.history pmDebug includeAutoDelete
        (updates actions ++ updates [action]) =
          ListenerCall.history pmDebug includeAutoDelete (updates actions) := by
      rw [hu, List.append_nil]
    generalize exec pmDebug action (after P pmDebug includeAutoDelete actions) = s' at hdoes
    cases hdoes with
    | objectProps object =>
      have hhistory := ListenerCall.history_concat pmDebug includeAutoDelete (updates actions)
        (.objectProps object)
      exact hhistory ▸ ih.objectProps object
    | objectStats object =>
      have hhistory := ListenerCall.history_concat pmDebug includeAutoDelete (updates actions)
        (.objectStats object)
      exact hhistory ▸ ih.objectStats object
    | ended objectId props exit pmda h hr =>
      rw [hnone rfl]
      exact hr.listener ▸ ih
    | nothing action hu => exact hnone hu ▸ ih
    | _ => exact hnone rfl ▸ ih

theorem isPrefix_trace_run (pmDebug : DebugFlags) (actions : List (Action ObjectId Value))
    (s : System P Value) : s.trace <+: (run (exec pmDebug) actions s).trace := by
  have hstep (action : Action ObjectId Value) (s' : System P Value) (h : s.trace <+: s'.trace) :
      s.trace <+: (exec pmDebug action s').trace := by
    refine h.trans ?_
    have hdoes := exec_does pmDebug action s'
    generalize exec pmDebug action s' = s'' at hdoes
    cases hdoes with
    | ended objectId props exit pmda hfetched hr => exact List.prefix_append _ _
    | _ => exact List.prefix_rfl
  exact run_invariant (exec pmDebug) hstep actions List.prefix_rfl

/-- Queues are announced, and one call of `begin_fetch_values` handles all of them. -/
def registerQueues (queues : List (Object Nat (QmfValue Nat))) :
    List (Action Nat (QmfValue Nat)) :=
  queues.map .objectProps ++ .beginFetch :: List.replicate (3 * queues.length + 1) .advance

end System

end QpidPmda.Qmf1
