import QpidPmda.Pcp.Library
import QpidPmda.Qmf1.ConsoleUtils

/-! # The console listener

The callbacks of the QMF console keep two maps, of the properties and of the
statistics last accepted for an object, and a queue of the objects not yet
announced. The functions here are whole calls, as one thread alone runs them.
The part of a callback that comes before its first lock is a function of its
own, and so is the part under the lock, so that the interleaved calls can be
built from the same text.
-/

namespace QpidPmda.Qmf1
open Qpid Pcp ConsoleUtils ConsoleValue

/-- `ConsoleListener::ObjectMap`. -/
abbrev ObjectMap (ObjectId Value : Type) := Finmap fun _ : ObjectId => Object ObjectId Value

structure ConsoleListener (ObjectId Value : Type) where
  includeAutoDelete : Bool
  props : ObjectMap ObjectId Value
  stats : ObjectMap ObjectId Value
  /-- The queue, its front first. -/
  newObjects : List ObjectId

/-- What a callback leaves: a normal return, or the exception that left it. -/
abbrev CallbackResult := Except QpidException Unit

/-- `__pmNotifyErr` under a trace flag. The text is built only when the flag is set, and
building it may raise. -/
def notifyErrIf (flag : Bool) (text : Except QpidException String) : CallbackResult :=
  if flag then text.map fun _ => () else .ok ()

variable {ObjectId Value : Type}

theorem notifyErrIf_returns_iff {flag : Bool} {text : Except QpidException String} :
    notifyErrIf flag text = .ok () ↔ (flag = true → ∃ t, text = .ok t) := by
  cases flag <;> cases text <;> simp [notifyErrIf, Except.map]

theorem notifyErrIf_ok_iff [ConsoleValue Value ObjectId] [ToString ObjectId] {flag : Bool}
    {object : Object ObjectId Value} {includePackageName : Bool} {message : String → String} :
    notifyErrIf flag (message <$> toStringObject object includePackageName) = .ok () ↔
      (flag = true → Nameable object) := by
  rw [← @toStringObject_ok_iff _ _ _ _ object includePackageName, notifyErrIf_returns_iff]
  cases toStringObject object includePackageName <;> simp

namespace ConsoleLogger
variable [ConsoleValue Value ObjectId] [ToString ObjectId]

/-- The base class logs every properties update under `DBG_TRACE_APPL2`. The lines about the schema
and the attributes raise nothing and are left out. -/
def objectProps (pmDebug : DebugFlags) (object : Object ObjectId Value) : CallbackResult :=
  notifyErrIf pmDebug.appl2 (("objectProps object: " ++ ·) <$> toStringObject object true)

/-- The base class logs every statistics update under `DBG_TRACE_APPL2`. -/
def objectStats (pmDebug : DebugFlags) (object : Object ObjectId Value) : CallbackResult :=
  notifyErrIf pmDebug.appl2 (("objectStats object: " ++ ·) <$> toStringObject object true)

end ConsoleLogger

namespace ConsoleListener

/-- The default constructor. -/
def new : ConsoleListener ObjectId Value := ⟨false, ∅, ∅, []⟩

def setIncludeAutoDelete (include_ : Bool) (l : ConsoleListener ObjectId Value) :
    ConsoleListener ObjectId Value := { l with includeAutoDelete := include_ }

/-- A listener as the first callback finds it. -/
def start (includeAutoDelete : Bool) : ConsoleListener ObjectId Value :=
  setIncludeAutoDelete includeAutoDelete new

def getNewObjectId (l : ConsoleListener ObjectId Value) :
    Option ObjectId × ConsoleListener ObjectId Value :=
  match l.newObjects with
  | [] => (none, l)
  | id :: rest => (some id, { l with newObjects := rest })

section Maps
variable [DecidableEq ObjectId]

def getProps (id : ObjectId) (l : ConsoleListener ObjectId Value) :
    Option (Object ObjectId Value) := l.props.lookup id

def getStats (id : ObjectId) (l : ConsoleListener ObjectId Value) :
    Option (Object ObjectId Value) := l.stats.lookup id

end Maps

def isSupported (classKey : ClassKey) : Bool := getType classKey != .other

variable [ConsoleValue Value ObjectId] [ToString ObjectId]

/-- A boolean `autoDelete` attribute that is true. Each log text that the function builds
on the way may raise. -/
def isAutoDelete (pmDebug : DebugFlags) (object : Object ObjectId Value) :
    Except QpidException Bool :=
  match object.attributes.lookup "autoDelete" with
  | none => do
    notifyErrIf pmDebug.appl1 ((· ++ " has no autoDelete property") <$> toStringObject object false)
    return false
  | some autoDelete =>
    if isBool autoDelete then do
      notifyErrIf pmDebug.appl2 do
        let text ← toStringObject object false
        let value ← asBool autoDelete
        return text ++ " autoDelete: " ++ (if value then "true" else "false")
      asBool autoDelete
    else do
      -- this notice is logged whatever the trace flags are
      notifyErrIf true (("autoDelete property for " ++ · ++ " is not a boolean") <$>
        toStringObject object false)
      return false

/-- The part of `objectProps` before the lock: `true` when the properties are to be saved. -/
def filterProps (pmDebug : DebugFlags) (includeAutoDelete : Bool)
    (object : Object ObjectId Value) : Except QpidException Bool := do
  ConsoleLogger.objectProps pmDebug object
  if !isSupported object.classKey then return false
  else if includeAutoDelete then return true
  else return !(← isAutoDelete pmDebug object)

/-- The part of `objectStats` before the first lock. -/
def filterStats (pmDebug : DebugFlags) (object : Object ObjectId Value) :
    Except QpidException Bool := do
  ConsoleLogger.objectStats pmDebug object
  return isSupported object.classKey

variable [DecidableEq ObjectId]

/-- The part of `objectProps` under `propsMutex`. -/
def saveProps (object : Object ObjectId Value) (l : ConsoleListener ObjectId Value) :
    CallbackResult × ConsoleListener ObjectId Value :=
  match l.props.lookup object.objectId with
  | some _ => (.ok (), { l with props := l.props.insert object.objectId object })
  | none =>
    let l := { l with props := l.props.insert object.objectId object }
    -- the text of this message is built between the insertion and the push
    match notifyErrIf true (("new " ++ ·) <$> toStringObject object false) with
    | .error e => (.error e, l)
    | .ok _ => (.ok (), { l with newObjects := l.newObjects ++ [object.objectId] })

def objectProps (pmDebug : DebugFlags) (object : Object ObjectId Value)
    (l : ConsoleListener ObjectId Value) : CallbackResult × ConsoleListener ObjectId Value :=
  match filterProps pmDebug l.includeAutoDelete object with
  | .error e => (.error e, l)
  | .ok false => (.ok (), l)
  | .ok true => saveProps object l

/-- The part of `objectStats` under `propsMutex`: `true` when the statistics are to be saved. -/
def checkProps (pmDebug : DebugFlags) (object : Object ObjectId Value)
    (l : ConsoleListener ObjectId Value) : Except QpidException Bool :=
  match l.props.lookup object.objectId with
  | none => do
    notifyErrIf pmDebug.appl1 (("ignoring statistics for " ++ · ++ " since we have no properties")
      <$> toStringObject object false)
    return false
  | some props => do
    return !(← isAutoDelete pmDebug props)

/-- The part of `objectStats` under `statsMutex`. -/
def saveStats (object : Object ObjectId Value) (l : ConsoleListener ObjectId Value) :
    ConsoleListener ObjectId Value :=
  { l with stats := l.stats.insert object.objectId object }

def objectStats (pmDebug : DebugFlags) (object : Object ObjectId Value)
    (l : ConsoleListener ObjectId Value) : CallbackResult × ConsoleListener ObjectId Value :=
  match filterStats pmDebug object with
  | .error e => (.error e, l)
  | .ok false => (.ok (), l)
  | .ok true =>
    if l.includeAutoDelete then (.ok (), saveStats object l)
    else
      match checkProps pmDebug object l with
      | .error e => (.error e, l)
      | .ok false => (.ok (), l)
      | .ok true => (.ok (), saveStats object l)

end ConsoleListener

end QpidPmda.Qmf1
