import QpidPmda.Qmf1.ConsoleListener
import QpidPmda.Qmf1.Metrics

/-! # The PMDA: registering new objects and fetching metric values

`begin_fetch_values` takes the new object ids from the listener one at a time
and stores each under the name of its object; an iteration has six exits, and
three of them leave the whole call with ids still in the queue. `fetch_value`
goes the way back, from an instance to the id last stored for it and on to the
properties or the statistics of that object, by the parity of the cluster.
-/

namespace QpidPmda.Qmf1
open Qpid Pcp ConsoleUtils ConsoleValue ConsoleListener

/-- How a call ends that does not return: with an exception, or undefined. -/
inductive Fault where
  | pcp (e : PcpException)
  | qpid (e : QpidException)
  | outOfRange
  | undefinedBehaviour
  deriving DecidableEq, Repr

/-- The PCP types that `fetch_value` converts to, and any other. -/
inductive PmType where
  | pmType32
  | pmType64
  | pmTypeU32
  | pmTypeU64
  | pmTypeFloat
  | pmTypeDouble
  | pmTypeString
  | other (code : Int)
  deriving DecidableEq, Repr

/-- `pcp::type`: the PCP type of a metric of the table. -/
def SourceType.pmType : SourceType → PmType
  | .uint16 => .pmTypeU32
  | .uint32 => .pmTypeU32
  | .uint64 => .pmTypeU64
  | .string => .pmTypeString

inductive AtomValue where
  | int32 (i : Int32)
  | int64 (i : Int64)
  | uint32 (n : UInt32)
  | uint64 (n : UInt64)
  | float (x : Float32)
  | double (x : Float)
  | string (s : String)

/-- `pcp::atom`. -/
structure Atom where
  type : PmType
  value : AtomValue

/-- `pcp::pmda::metric_id`, as far as `fetch_value` reads it. -/
structure MetricId where
  cluster : Nat
  item : Nat
  inst : Int
  type : PmType

section FetchValue
variable {ObjectId Value : Type}

/-- The copy is one of the C string. -/
def strdup (text : String) : String := cString text

def caught {α : Type} : Except Fault α → Except Fault α
  | .error (.qpid e) => .error (.pcp ⟨.pmErrType, some e.message⟩)
  | result => result

variable [ConsoleValue Value ObjectId] [ToString ObjectId]

/-- The text of a value under `PM_TYPE_STRING`. -/
def stringOf (value : Value) : Except QpidException String :=
  if isBool value then (fun b => if b then "true" else "false") <$> asBool value
  else if isMap value then asMap value
  else if isNull value then .ok "null"
  else if isObjectId value then toStringObjectId <$> asObjectId value
  else if isUuid value then asUuid value
  else asString value

/-- The body of the `try` block of `fetch_value`. -/
def convert (type : PmType) (value : Value) : Except Fault Atom :=
  match type with
  | .pmType32 => (asInt value).mapError .qpid >>= fun i => .ok ⟨type, .int32 i⟩
  | .pmType64 => (asInt64 value).mapError .qpid >>= fun i => .ok ⟨type, .int64 i⟩
  | .pmTypeU32 => (asUint value).mapError .qpid >>= fun n => .ok ⟨type, .uint32 n⟩
  | .pmTypeU64 => (asUint64 value).mapError .qpid >>= fun n => .ok ⟨type, .uint64 n⟩
  | .pmTypeFloat => (asFloat value).mapError .qpid >>= fun x => .ok ⟨type, .float x⟩
  | .pmTypeDouble => (asDouble value).mapError .qpid >>= fun x => .ok ⟨type, .double x⟩
  | .pmTypeString => (stringOf value).mapError .qpid >>= fun s => .ok ⟨type, .string (strdup s)⟩
  | .other _ => .error (.pcp ⟨.pmErrType, none⟩)

/-- The part of `fetch_value` that reads the attribute of a metric from its object. -/
def metricValue (metric : MetricId) (object : Object ObjectId Value) : Except Fault Atom :=
  match supportedMetric metric.cluster metric.item with
  | none => .error .outOfRange
  | some description =>
    match object.attributes.lookup description.metricName with
    | none => do
      let _ ← (toStringObject object false).mapError .qpid
      .error (.pcp ⟨.pmErrValue, none⟩)
    | some value => caught (convert metric.type value)

/-- The content of a `boost::optional`, which must be set. -/
def dereference {α : Type} : Option α → Except Fault α
  | none => .error .undefinedBehaviour
  | some a => .ok a

end FetchValue

structure Pmda {ObjectId : Type} (P : Library ObjectId) (Value : Type) where
  listener : ConsoleListener ObjectId Value
  cache : P.Cache
  /-- `broker_domain`, `queue_domain` and `system_domain`. -/
  domains : Domain → P.InstanceDomain

/-- A new object that was stored in the cache and added to a domain. -/
structure Registration (ObjectId Value : Type) where
  domain : Domain
  inst : Int
  name : String
  objectId : ObjectId
  props : Object ObjectId Value

/-- How one iteration of the loop of `begin_fetch_values` ends. -/
inductive IterationExit (ObjectId Value : Type) where
  | noProperties
  | unsupportedType
  | noName
  | qpidException (e : QpidException)
  | storeException (e : PcpException)
  | registered (r : Registration ObjectId Value)

/-- What the call returns where the exit leaves it; the other exits go on to the next id. -/
def IterationExit.leaves {ObjectId Value : Type} :
    IterationExit ObjectId Value → Option (Except Fault Unit)
  | .noProperties => none
  | .unsupportedType => some (.ok ())
  | .noName => some (.ok ())
  | .qpidException e => some (.error (.qpid e))
  | .storeException e => some (.error (.pcp e))
  | .registered _ => none

namespace Pmda
variable {ObjectId Value : Type} {P : Library ObjectId}

/-- The PMDA as the first callback finds it. -/
def initial (P : Library ObjectId) (Value : Type) (includeAutoDelete : Bool) : Pmda P Value :=
  ⟨start includeAutoDelete, P.emptyCache, fun _ => P.emptyDomain⟩

variable [ConsoleValue Value ObjectId]

/-- One iteration, from the properties that the listener returned for the id. -/
def register (objectId : ObjectId) (props : Option (Object ObjectId Value)) (s : Pmda P Value) :
    IterationExit ObjectId Value × Pmda P Value :=
  match props with
  | none => (.noProperties, s)
  | some props =>
    match domainOfType (getTypeObject props) with
    | none => (.unsupportedType, s)
    | some domain =>
      match getName props true with
      | .error e => (.qpidException e, s)
      | .ok instanceName =>
        if instanceName = "" then (.noName, s)
        else
          match P.store s.cache domain.indom instanceName objectId with
          | .error e => (.storeException e, s)
          | .ok (instanceId, cache) =>
            (.registered ⟨domain, instanceId, instanceName, objectId, props⟩, { s with
              cache := cache
              domains := Function.update s.domains domain
                (P.addInstance (s.domains domain) instanceId instanceName) })

variable [DecidableEq ObjectId]

/-- The loop of `begin_fetch_values`, with a bound on the number of its rounds. -/
def beginFetchLoop : Nat → Pmda P Value → Option (Except Fault Unit × Pmda P Value)
  | 0, _ => none
  | rounds + 1, s =>
    match s.listener.getNewObjectId with
    | (none, listener) => some (.ok (), { s with listener := listener })
    | (some objectId, listener) =>
      let next := register objectId (listener.getProps objectId) { s with listener := listener }
      match next.1.leaves with
      | none => beginFetchLoop rounds next.2
      | some result => some (result, next.2)

/-- A call during which no callback runs: one round for each queued id and one for the empty
queue. -/
def beginFetchValues (s : Pmda P Value) : Option (Except Fault Unit × Pmda P Value) :=
  beginFetchLoop (s.listener.newObjects.length + 1) s

variable [ToString ObjectId]

/-- Properties for the even clusters, statistics for the odd ones. -/
def readObject (cluster : Nat) (objectId : ObjectId) (listener : ConsoleListener ObjectId Value) :
    Option (Object ObjectId Value) :=
  if cluster % 2 = 0 then listener.getProps objectId else listener.getStats objectId

def fetchResult (metric : MetricId) (s : Pmda P Value) : Except Fault Atom :=
  match domainOfCluster metric.cluster with
  | none => .error .undefinedBehaviour
  | some domain =>
    match P.lookup s.cache domain.indom metric.inst with
    | .error e => .error (.pcp e)
    | .ok entry =>
      match entry.opaquePointer with
      | none => .error (.pcp ⟨.pmErrInst, none⟩)
      | some objectId =>
        match readObject metric.cluster objectId s.listener with
        | none => do
          -- the arguments of the message are evaluated first, and they dereference the object
          let object ← dereference (none : Option (Object ObjectId Value))
          let _ ← (toStringObject object false).mapError .qpid
          .error (.pcp ⟨.pmErrInst, none⟩)
        | some object => metricValue metric object

/-- `fetch_value`: nothing that it reads is written. -/
def fetchValue (metric : MetricId) (s : Pmda P Value) : Except Fault Atom × Pmda P Value :=
  (fetchResult metric s, s)

end Pmda

end QpidPmda.Qmf1
