import QpidPmda.Foundations.StatePrograms
import QpidPmda.Qmf1.ConsoleListener
import Mathlib.Data.Finset.Sort
import Mathlib.Data.String.Basic

/-! # The log of the console callbacks

The callbacks of `ConsoleLogger` with every line that they write. The lines are
kept as the calls of `__pmNotifyErr`, an argument of which may raise while its
text is built; what was logged before that stays logged. The schemas that were
logged already are kept in a static set, which all threads share.
-/

namespace QpidPmda.Qmf1.Logged
open Qpid Pcp ConsoleUtils ConsoleValue Foundations

/-- The log, and the set of `logSchema`. -/
structure ConsoleLog where
  lines : List LogLine
  seenAlready : Finset String

/-- The log when the program starts. -/
def ConsoleLog.empty : ConsoleLog := ⟨[], ∅⟩

/-- A program that may write to the log and may raise. -/
abbrev LogM := EStateM QpidException ConsoleLog

/-- `__pmNotifyErr`, once its arguments are evaluated. -/
def notifyErr (level : LogLevel) (format : String) (args : List String) : LogM Unit :=
  modify fun log => { log with lines := log.lines ++ [.printed level format args] }

/-- Lines that are written only while a trace flag is set. -/
def whenTracing (flag : Bool) (m : LogM Unit) : LogM Unit := if flag then m else pure ()

namespace ConsoleLogger
variable {ObjectId Value : Type}

def brokerConnected (broker : Broker) : LogM Unit :=
  notifyErr .logInfo "broker %s (%s) connected" [broker.url, broker.brokerId]

def brokerDisconnected (broker : Broker) : LogM Unit :=
  notifyErr .logInfo "broker %s (%s) disconnected" [broker.url, broker.brokerId]

def newPackage (pmDebug : DebugFlags) (package : String) : LogM Unit :=
  whenTracing pmDebug.appl2 (notifyErr .logDebug "%s %s" ["newPackage", package])

def newClass (pmDebug : DebugFlags) (classKey : ClassKey) : LogM Unit :=
  whenTracing pmDebug.appl2 (notifyErr .logDebug "%s %s" ["newClass", toStringClassKey classKey])

def newAgent (pmDebug : DebugFlags) (agent : Agent) : LogM Unit :=
  whenTracing pmDebug.appl2 (notifyErr .logDebug "%s %s" ["newAgent", agent.label])

def delAgent (pmDebug : DebugFlags) (agent : Agent) : LogM Unit :=
  whenTracing pmDebug.appl2 (notifyErr .logDebug "%s %s" ["delAgent", agent.label])

/-- The schema, unless one with this class key was logged before. -/
def logSchema (pmDebug : DebugFlags) (schema : SchemaClass) : LogM Unit := do
  let log ← get
  if pmDebug.appl2 && schema.classKeyStr ∉ log.seenAlready then
    notifyErr .logDebug "%s %s" ["logSchema", toStringClassKey schema.classKey]
    schema.properties.forM fun property =>
      notifyErr .logDebug "%s   property: %s" ["logSchema", toStringProperty property]
    schema.statistics.forM fun statistic =>
      notifyErr .logDebug "%s   statistic: %s" ["logSchema", toStringStatistic statistic]
    modify fun log => { log with seenAlready := insert schema.classKeyStr log.seenAlready }

/-- The overload of `logSchema` that takes an object. -/
def logSchemaObject (pmDebug : DebugFlags) (object : Reported ObjectId Value) : LogM Unit :=
  match object.schema with
  | none => pure ()
  | some schema => logSchema pmDebug schema

section Attributes
variable [ToString Value]

/-- One line for each attribute, in the order of the map. -/
def logAttributes (function : String) (attributes : AttributeMap Value) : LogM Unit :=
  (attributes.keys.sort.filterMap fun key => (key, ·) <$> attributes.lookup key).forM
    fun entry => notifyErr .logDebug "%s   attribute: %s => %s"
      [function, entry.1, toString entry.2]

variable [ConsoleValue Value ObjectId] [ToString ObjectId]

/-- The body that `objectProps` and `objectStats` share. -/
def logObject (function : String) (pmDebug : DebugFlags) (object : Reported ObjectId Value) :
    LogM Unit :=
  whenTracing pmDebug.appl2 do
    let text ← liftExcept (toStringObject object.toObject true)
    notifyErr .logDebug "%s object: %s" [function, text]
    logSchemaObject pmDebug object
    logAttributes function object.attributes

def objectProps (pmDebug : DebugFlags) (object : Reported ObjectId Value) : LogM Unit :=
  logObject "objectProps" pmDebug object

def objectStats (pmDebug : DebugFlags) (object : Reported ObjectId Value) : LogM Unit :=
  logObject "objectStats" pmDebug object

def event (pmDebug : DebugFlags) (event : Event Value) : LogM Unit :=
  whenTracing pmDebug.appl2 do
    notifyErr .logDebug "%s %s" ["event", event.classKey.className]
    logAttributes "event" event.attributes

end Attributes

def brokerInfo (pmDebug : DebugFlags) (broker : Broker) : LogM Unit :=
  whenTracing pmDebug.appl1 (notifyErr .logDebug "%s %s" ["brokerInfo", broker.url])

end ConsoleLogger

end QpidPmda.Qmf1.Logged
