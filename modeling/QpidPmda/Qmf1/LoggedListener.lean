import QpidPmda.Qmf1.ConsoleLogger
import QpidPmda.Qmf1.ListenerHistory

/-! # The listener with its log

The callbacks of the listener once more, with every line that they write. A
line has no part in what a callback does: the listener and the exceptions are
those of the callbacks without a log, and the state of the logger decides
nothing but which lines are written.
-/

namespace QpidPmda.Qmf1.Logged
open Qpid Pcp ConsoleUtils ConsoleValue Foundations

/-- The listener together with the log. -/
structure LoggedListener (ObjectId Value : Type) where
  listener : ConsoleListener ObjectId Value
  log : ConsoleLog

abbrev ListenerM (ObjectId Value : Type) := EStateM QpidException (LoggedListener ObjectId Value)

variable {ObjectId Value : Type}

/-- A part of a callback that has to do with the log only. -/
def onLog {α : Type} (m : LogM α) : ListenerM ObjectId Value α := fun s =>
  match m s.log with
  | .ok a log => .ok a { s with log := log }
  | .error e log => .error e { s with log := log }

namespace ConsoleListener
variable [ConsoleValue Value ObjectId] [ToString ObjectId]

def isAutoDelete (pmDebug : DebugFlags) (object : Object ObjectId Value) : LogM Bool :=
  match object.attributes.lookup "autoDelete" with
  | none => do
    whenTracing pmDebug.appl1 do
      let text ← liftExcept (toStringObject object false)
      notifyErr .logDebug "%s has no autoDelete property" [text]
    return false
  | some autoDelete =>
    if isBool autoDelete then do
      whenTracing pmDebug.appl2 do
        let text ← liftExcept (toStringObject object false)
        let value ← liftExcept (asBool autoDelete)
        notifyErr .logDebug "%s autoDelete: %s" [text, if value then "true" else "false"]
      liftExcept (asBool autoDelete)
    else do
      let text ← liftExcept (toStringObject object false)
      notifyErr .logNotice "autoDelete property for %s is not a boolean" [text]
      return false

variable [ToString Value]

/-- The part of `objectProps` before the lock: `true` when the properties are to be saved. -/
def filterProps (pmDebug : DebugFlags) (includeAutoDelete : Bool)
    (object : Reported ObjectId Value) : LogM Bool := do
  ConsoleLogger.objectProps pmDebug object
  if !ConsoleListener.isSupported object.classKey then return false
  else if includeAutoDelete then return true
  else return !(← isAutoDelete pmDebug object.toObject)

/-- The part of `objectStats` before the first lock. -/
def filterStats (pmDebug : DebugFlags) (object : Reported ObjectId Value) : LogM Bool := do
  ConsoleLogger.objectStats pmDebug object
  return ConsoleListener.isSupported object.classKey

omit [ToString Value] in
/-- The part of `objectStats` under `propsMutex`, from the properties that it finds there: `true`
when the statistics are to be saved. -/
def checkProps (pmDebug : DebugFlags) (object : Object ObjectId Value)
    (props : Option (Object ObjectId Value)) : LogM Bool :=
  match props with
  | none => do
    whenTracing pmDebug.appl1 do
      let text ← liftExcept (toStringObject object false)
      notifyErr .logDebug "ignoring statistics for %s since we have no properties" [text]
    return false
  | some props => do
    return !(← isAutoDelete pmDebug props)

variable [DecidableEq ObjectId]

/-- The part of `objectProps` under `propsMutex`. -/
def saveProps (object : Object ObjectId Value) : ListenerM ObjectId Value Unit := do
  let s ← get
  match s.listener.props.lookup object.objectId with
  | some _ => modify fun s => { s with listener := { s.listener with
      props := s.listener.props.insert object.objectId object } }
  | none =>
    modify fun s => { s with listener := { s.listener with
      props := s.listener.props.insert object.objectId object } }
    onLog do
      let text ← liftExcept (toStringObject object false)
      notifyErr .logInfo "new %s" [text]
    modify fun s => { s with listener := { s.listener with
      newObjects := s.listener.newObjects ++ [object.objectId] } }

def objectProps (pmDebug : DebugFlags) (object : Reported ObjectId Value) :
    ListenerM ObjectId Value Unit := do
  let s ← get
  if ← onLog (filterProps pmDebug s.listener.includeAutoDelete object) then
    saveProps object.toObject

/-- The part of `objectStats` under `statsMutex`. -/
def saveStats (object : Object ObjectId Value) : ListenerM ObjectId Value Unit :=
  modify fun s => { s with listener := { s.listener with
    stats := s.listener.stats.insert object.objectId object } }

/-- The two locked parts of `objectStats`. -/
def saveCheckedStats (pmDebug : DebugFlags) (object : Object ObjectId Value) :
    ListenerM ObjectId Value Unit := do
  let s ← get
  if s.listener.includeAutoDelete then saveStats object
  else if ← onLog (checkProps pmDebug object (s.listener.props.lookup object.objectId)) then
    saveStats object

def objectStats (pmDebug : DebugFlags) (object : Reported ObjectId Value) :
    ListenerM ObjectId Value Unit := do
  if ← onLog (filterStats pmDebug object) then saveCheckedStats pmDebug object.toObject

end ConsoleListener

section Erasure

theorem yields_notifyErr (level : LogLevel) (format : String) (args : List String) :
    Yields (notifyErr level format args) (pure ()) := yields_modify _

theorem yields_whenTracing (flag : Bool) {m : LogM Unit} {x : CallbackResult} (h : Yields m x) :
    Yields (whenTracing flag m) (if flag then x else pure ()) := yields_ite h (yields_pure ())

theorem yields_notifyErr_of (text : Except QpidException String) (level : LogLevel)
    (format : String) (args : String → List String) :
    Yields (liftExcept text >>= fun text => notifyErr level format (args text))
      (text.map fun _ => ()) := by
  have h := (yields_liftExcept text).bind fun text => yields_notifyErr level format (args text)
  intro s
  rw [h s]
  cases text <;> rfl

variable [ConsoleValue Value ObjectId] [ToString ObjectId]

theorem yields_notifyErrIf (flag : Bool) (text : Except QpidException String) (level : LogLevel)
    (format : String) (args : String → List String) (message : String → String) :
    Yields (whenTracing flag (liftExcept text >>= fun text => notifyErr level format (args text)))
      (notifyErrIf flag (message <$> text)) := by
  have h := yields_whenTracing flag (yields_notifyErr_of text level format args)
  intro s
  rw [h s, notifyErrIf]
  cases text <;> rfl

theorem yields_isAutoDelete (pmDebug : DebugFlags) (object : Object ObjectId Value) :
    Yields (ConsoleListener.isAutoDelete pmDebug object)
      (Qmf1.ConsoleListener.isAutoDelete pmDebug object) := by
  unfold ConsoleListener.isAutoDelete Qmf1.ConsoleListener.isAutoDelete
  cases object.attributes.lookup "autoDelete" with
  | none => exact (yields_notifyErrIf _ _ _ _ _ _).bind fun _ => yields_pure false
  | some autoDelete =>
    refine yields_ite (Yields.bind ?_ fun _ => yields_liftExcept _) ?_
    · have hline (value : Bool) (text : String) := yields_notifyErr .logDebug "%s autoDelete: %s"
        [text, if value then "true" else "false"]
      have h := yields_whenTracing pmDebug.appl2
        ((yields_liftExcept (toStringObject object false)).bind fun text =>
          (yields_liftExcept (asBool autoDelete)).bind fun value => hline value text)
      intro s
      rw [h s]
      cases toStringObject object false <;> cases asBool autoDelete <;> rfl
    · have hline (text : String) := yields_notifyErr .logNotice
        "autoDelete property for %s is not a boolean" [text]
      have h := (yields_liftExcept (toStringObject object false)).bind fun text =>
        (hline text).bind fun _ => yields_pure false
      intro s
      rw [h s]
      cases toStringObject object false <;> rfl

omit [ConsoleValue Value ObjectId] [ToString ObjectId] in
theorem yields_logSchemaObject (pmDebug : DebugFlags) (object : Reported ObjectId Value) :
    Yields (ConsoleLogger.logSchemaObject pmDebug object) (pure ()) := by
  unfold ConsoleLogger.logSchemaObject
  cases object.schema with
  | none => exact yields_pure ()
  | some schema =>
    refine yields_get_bind fun log => ?_
    split_ifs
    · refine (yields_notifyErr _ _ _).bind fun _ => ?_
      refine (Yields.forM (fun _ => yields_notifyErr _ _ _) schema.properties).bind fun _ => ?_
      exact (Yields.forM (fun _ => yields_notifyErr _ _ _) schema.statistics).bind fun _ =>
        yields_modify _
    · exact yields_pure ()

variable [ToString Value]

omit [ConsoleValue Value ObjectId] [ToString ObjectId] in
theorem yields_logAttributes (function : String) (attributes : AttributeMap Value) :
    Yields (ConsoleLogger.logAttributes function attributes) (pure ()) :=
  Yields.forM (fun _ => yields_notifyErr _ _ _) _

theorem yields_logObject (function : String) (pmDebug : DebugFlags)
    (object : Reported ObjectId Value) (message : String → String) :
    Yields (ConsoleLogger.logObject function pmDebug object)
      (notifyErrIf pmDebug.appl2 (message <$> toStringObject object.toObject true)) := by
  have hline (text : String) := yields_notifyErr .logDebug "%s object: %s" [function, text]
  have h := yields_whenTracing pmDebug.appl2
    ((yields_liftExcept (toStringObject object.toObject true)).bind fun text =>
      (hline text).bind fun _ => (yields_logSchemaObject pmDebug object).bind fun _ =>
        yields_logAttributes function object.attributes)
  intro s
  refine (h s).trans ?_
  unfold notifyErrIf
  cases toStringObject object.toObject true <;> rfl

theorem yields_filterProps (pmDebug : DebugFlags) (includeAutoDelete : Bool)
    (object : Reported ObjectId Value) :
    Yields (ConsoleListener.filterProps pmDebug includeAutoDelete object)
      (Qmf1.ConsoleListener.filterProps pmDebug includeAutoDelete object.toObject) := by
  refine (yields_logObject _ _ _ _).bind fun _ => yields_ite (yields_pure false) ?_
  exact yields_ite (yields_pure true) ((yields_isAutoDelete _ _).bind fun b => yields_pure !b)

theorem yields_filterStats (pmDebug : DebugFlags) (object : Reported ObjectId Value) :
    Yields (ConsoleListener.filterStats pmDebug object)
      (Qmf1.ConsoleListener.filterStats pmDebug object.toObject) :=
  (yields_logObject _ _ _ _).bind fun _ => yields_pure _

omit [ToString Value] in
theorem yields_checkProps [DecidableEq ObjectId] (pmDebug : DebugFlags)
    (object : Object ObjectId Value) (l : ConsoleListener ObjectId Value) :
    Yields (ConsoleListener.checkProps pmDebug object (l.props.lookup object.objectId))
      (Qmf1.ConsoleListener.checkProps pmDebug object l) := by
  unfold ConsoleListener.checkProps Qmf1.ConsoleListener.checkProps
  cases l.props.lookup object.objectId with
  | none => exact (yields_notifyErrIf _ _ _ _ _ _).bind fun _ => yields_pure false
  | some props => exact (yields_isAutoDelete _ _).bind fun b => yields_pure !b

/-- What a callback does, without the log. -/
def erased (result : EStateM.Result QpidException (LoggedListener ObjectId Value) Unit) :
    CallbackResult × ConsoleListener ObjectId Value :=
  (resultOf result, (stateOf result).listener)

/-- A part that may raise comes before the rest of a callback. -/
def followedBy {α : Type} (x : Except QpidException α) (l : ConsoleListener ObjectId Value)
    (rest : α → CallbackResult × ConsoleListener ObjectId Value) :
    CallbackResult × ConsoleListener ObjectId Value :=
  match x with
  | .error e => (.error e, l)
  | .ok a => rest a

omit [ConsoleValue Value ObjectId] [ToString ObjectId] [ToString Value] in
/-- A part that has to do with the log only leaves the listener, and raises or goes on. -/
theorem erased_onLog_bind {α : Type} {m : LogM α} {x : Except QpidException α} (hm : Yields m x)
    {k : α → ListenerM ObjectId Value Unit} {s : LoggedListener ObjectId Value}
    (f : α → CallbackResult × ConsoleListener ObjectId Value)
    (hk : ∀ a log, erased (k a { s with log := log }) = f a) :
    erased ((onLog m >>= k) s) = followedBy x s.listener f := by
  have hx := hm s.log
  simp only [bind, EStateM.bind, onLog]
  cases hr : m s.log with
  | ok a log =>
    rw [hr] at hx
    subst hx
    exact hk a log
  | error e log =>
    rw [hr] at hx
    subst hx
    rfl

section Calls
variable [DecidableEq ObjectId]

omit [ToString Value] in
theorem saveProps_erased (object : Object ObjectId Value) (s : LoggedListener ObjectId Value) :
    erased (ConsoleListener.saveProps object s) =
      Qmf1.ConsoleListener.saveProps object s.listener := by
  unfold ConsoleListener.saveProps Qmf1.ConsoleListener.saveProps
  simp only [get_bind_apply]
  cases s.listener.props.lookup object.objectId with
  | some known => rfl
  | none =>
    refine (erased_onLog_bind (yields_notifyErr_of _ _ _ _) (fun _ => (.ok (), { s.listener with
      props := s.listener.props.insert object.objectId object
      newObjects := s.listener.newObjects ++ [object.objectId] })) fun _ _ => rfl).trans ?_
    cases toStringObject object false <;> rfl

theorem objectProps_erased (pmDebug : DebugFlags) (object : Reported ObjectId Value)
    (s : LoggedListener ObjectId Value) :
    erased (ConsoleListener.objectProps pmDebug object s) =
      Qmf1.ConsoleListener.objectProps pmDebug object.toObject s.listener := by
  have hsave (save : Bool) (log : ConsoleLog) :
      erased ((if save then ConsoleListener.saveProps object.toObject else pure ())
        { s with log := log }) = if save then
          Qmf1.ConsoleListener.saveProps object.toObject s.listener else (.ok (), s.listener) := by
    cases save with
    | false => rfl
    | true => exact saveProps_erased object.toObject { s with log := log }
  refine (erased_onLog_bind (yields_filterProps pmDebug s.listener.includeAutoDelete object) _
    hsave).trans ?_
  unfold Qmf1.ConsoleListener.objectProps followedBy
  cases Qmf1.ConsoleListener.filterProps pmDebug s.listener.includeAutoDelete object.toObject with
  | error e => rfl
  | ok save => cases save <;> rfl

/-- The two locked parts of `objectStats`, without their lines. -/
def checkedStats (pmDebug : DebugFlags) (object : Object ObjectId Value)
    (l : ConsoleListener ObjectId Value) : CallbackResult × ConsoleListener ObjectId Value :=
  if l.includeAutoDelete then (.ok (), Qmf1.ConsoleListener.saveStats object l)
  else followedBy (Qmf1.ConsoleListener.checkProps pmDebug object l) l fun save =>
    (.ok (), if save then Qmf1.ConsoleListener.saveStats object l else l)

omit [ToString Value] in
theorem saveCheckedStats_erased (pmDebug : DebugFlags) (object : Object ObjectId Value)
    (s : LoggedListener ObjectId Value) :
    erased (ConsoleListener.saveCheckedStats pmDebug object s) =
      checkedStats pmDebug object s.listener := by
  change erased ((if s.listener.includeAutoDelete then ConsoleListener.saveStats object
    else onLog (ConsoleListener.checkProps pmDebug object
      (s.listener.props.lookup object.objectId)) >>= fun save =>
        if save then ConsoleListener.saveStats object else pure ()) s) = _
  unfold checkedStats
  split_ifs
  · rfl
  · refine erased_onLog_bind (yields_checkProps pmDebug object s.listener) _ fun save log => ?_
    cases save <;> rfl

theorem objectStats_erased (pmDebug : DebugFlags) (object : Reported ObjectId Value)
    (s : LoggedListener ObjectId Value) :
    erased (ConsoleListener.objectStats pmDebug object s) =
      Qmf1.ConsoleListener.objectStats pmDebug object.toObject s.listener := by
  refine (erased_onLog_bind (yields_filterStats pmDebug object)
    (fun save => if save then checkedStats pmDebug object.toObject s.listener
      else (.ok (), s.listener)) fun save log => ?_).trans ?_
  · cases save with
    | false => rfl
    | true => exact saveCheckedStats_erased pmDebug object.toObject { s with log := log }
  · unfold Qmf1.ConsoleListener.objectStats checkedStats followedBy
    cases Qmf1.ConsoleListener.filterStats pmDebug object.toObject with
    | error e => rfl
    | ok save =>
      cases save with
      | false => rfl
      | true =>
        cases s.listener.includeAutoDelete with
        | true => rfl
        | false =>
          cases Qmf1.ConsoleListener.checkProps pmDebug object.toObject s.listener with
          | error e => rfl
          | ok saved => cases saved <;> rfl

end Calls

end Erasure

/-- The callbacks of the console library. -/
inductive Callback (ObjectId Value : Type) where
  | brokerConnected (broker : Broker)
  | brokerDisconnected (broker : Broker)
  | newPackage (package : String)
  | newClass (classKey : ClassKey)
  | newAgent (agent : Agent)
  | delAgent (agent : Agent)
  | objectProps (object : Reported ObjectId Value)
  | objectStats (object : Reported ObjectId Value)
  | event (raised : Event Value)
  | brokerInfo (broker : Broker)

namespace Callback

/-- The callbacks that the listener overrides, as its calls. -/
def update : Callback ObjectId Value → Option (ListenerCall ObjectId Value)
  | .objectProps object => some (.objectProps object.toObject)
  | .objectStats object => some (.objectStats object.toObject)
  | _ => none

variable [ConsoleValue Value ObjectId] [ToString ObjectId] [ToString Value]
  [DecidableEq ObjectId]

def perform (pmDebug : DebugFlags) : Callback ObjectId Value → ListenerM ObjectId Value Unit
  | .brokerConnected broker => onLog (ConsoleLogger.brokerConnected broker)
  | .brokerDisconnected broker => onLog (ConsoleLogger.brokerDisconnected broker)
  | .newPackage package => onLog (ConsoleLogger.newPackage pmDebug package)
  | .newClass classKey => onLog (ConsoleLogger.newClass pmDebug classKey)
  | .newAgent agent => onLog (ConsoleLogger.newAgent pmDebug agent)
  | .delAgent agent => onLog (ConsoleLogger.delAgent pmDebug agent)
  | .objectProps object => ConsoleListener.objectProps pmDebug object
  | .objectStats object => ConsoleListener.objectStats pmDebug object
  | .event raised => onLog (ConsoleLogger.event pmDebug raised)
  | .brokerInfo broker => onLog (ConsoleLogger.brokerInfo pmDebug broker)

/-- The state after a callback. The console library goes on after one that raises. -/
def exec (pmDebug : DebugFlags) (callback : Callback ObjectId Value)
    (s : LoggedListener ObjectId Value) : LoggedListener ObjectId Value :=
  stateOf (callback.perform pmDebug s)

/-- The callback without its log: a call of the listener, or nothing at all. -/
def plain (pmDebug : DebugFlags) (callback : Callback ObjectId Value)
    (l : ConsoleListener ObjectId Value) : CallbackResult × ConsoleListener ObjectId Value :=
  match callback with
  | .objectProps object => Qmf1.ConsoleListener.objectProps pmDebug object.toObject l
  | .objectStats object => Qmf1.ConsoleListener.objectStats pmDebug object.toObject l
  | _ => (.ok (), l)

omit [ConsoleValue Value ObjectId] [ToString ObjectId] [ToString Value] [DecidableEq ObjectId] in
theorem erased_onLog {m : LogM Unit} (hm : Yields m (pure ())) (s : LoggedListener ObjectId Value) :
    erased (onLog m s) = (.ok (), s.listener) := by
  have hok := hm s.log
  unfold onLog
  cases hr : m s.log with
  | ok => rfl
  | error e log => exact absurd hok (by simp [hr, resultOf, pure, Except.pure])

omit [ConsoleValue Value ObjectId] [ToString ObjectId] [ToString Value] [DecidableEq ObjectId] in
theorem yields_traced (flag : Bool) {m : LogM Unit} (h : Yields m (pure ())) :
    Yields (whenTracing flag m) (pure ()) := by
  have hflag := yields_whenTracing flag h
  cases flag <;> exact hflag

theorem perform_erased (pmDebug : DebugFlags) (callback : Callback ObjectId Value)
    (s : LoggedListener ObjectId Value) :
    erased (callback.perform pmDebug s) = callback.plain pmDebug s.listener := by
  cases callback with
  | brokerConnected broker | brokerDisconnected broker =>
    exact erased_onLog (yields_notifyErr _ _ _) s
  | objectProps object => exact objectProps_erased pmDebug object s
  | objectStats object => exact objectStats_erased pmDebug object s
  | event raised =>
    exact erased_onLog (yields_traced _
      ((yields_notifyErr _ _ _).bind fun _ => yields_logAttributes _ _)) s
  | _ => exact erased_onLog (yields_traced _ (yields_notifyErr _ _ _)) s

theorem exec_listener (pmDebug : DebugFlags) (callback : Callback ObjectId Value)
    (s : LoggedListener ObjectId Value) :
    (callback.exec pmDebug s).listener = (callback.plain pmDebug s.listener).2 :=
  congrArg Prod.snd (perform_erased pmDebug callback s)

theorem run_listener (pmDebug : DebugFlags) (callbacks : List (Callback ObjectId Value))
    (s : LoggedListener ObjectId Value) : (run (exec pmDebug) callbacks s).listener =
      run (ListenerCall.exec pmDebug) (callbacks.filterMap update) s.listener := by
  induction callbacks using List.reverseRecOn with
  | nil => rfl
  | append_singleton callbacks callback ih =>
    rw [run_concat, exec_listener, ih, List.filterMap_append, run_append]
    cases callback <;> rfl

/-- The log has no part in what the callbacks do: over every run the listener is the one that the
updates alone leave, and the next callback returns or raises as it does on that listener. -/
theorem log_erased (pmDebug : DebugFlags) (callbacks : List (Callback ObjectId Value))
    (s : LoggedListener ObjectId Value) (next : Callback ObjectId Value) :
    (run (exec pmDebug) callbacks s).listener =
        run (ListenerCall.exec pmDebug) (callbacks.filterMap update) s.listener ∧
      resultOf (next.perform pmDebug (run (exec pmDebug) callbacks s)) =
        (next.plain pmDebug
          (run (ListenerCall.exec pmDebug) (callbacks.filterMap update) s.listener)).1 := by
  refine ⟨run_listener pmDebug callbacks s, ?_⟩
  rw [← run_listener]
  exact congrArg Prod.fst (perform_erased pmDebug next _)

end Callback

end QpidPmda.Qmf1.Logged
