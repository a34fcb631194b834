import QpidPmda.Qpid.Console

/-! # What the console library reports besides objects

Brokers, agents, events and the schemas of the QMF classes, as far as the log
messages about them read them. The texts that these classes give of themselves
are taken as data.
-/

namespace QpidPmda.Qpid

/-- `qpid::console::Broker`: the texts of its URL and of its id. -/
structure Broker where
  url : String
  brokerId : String
  deriving DecidableEq, Repr

/-- `qpid::console::Agent`. -/
structure Agent where
  label : String
  deriving DecidableEq, Repr

/-- `qpid::console::Event`. -/
structure Event (Value : Type) where
  classKey : ClassKey
  attributes : AttributeMap Value

/-- `qpid::console::SchemaProperty`. -/
structure SchemaProperty where
  name : String
  typeCode : UInt8
  unit : String
  desc : String
  deriving DecidableEq, Repr

/-- `qpid::console::SchemaStatistic`. -/
structure SchemaStatistic where
  name : String
  typeCode : UInt8
  unit : String
  desc : String
  deriving DecidableEq, Repr

/-- `qpid::console::SchemaClass`. The text that its class key gives of itself shows the hash of
the schema, too. -/
structure SchemaClass where
  classKey : ClassKey
  classKeyStr : String
  properties : List SchemaProperty
  statistics : List SchemaStatistic
  deriving DecidableEq, Repr

/-- An object as a callback receives it, with what `getSchema` returns for it. -/
structure Reported (ObjectId Value : Type) extends Object ObjectId Value where
  schema : Option SchemaClass

/-- `qpid::console::Value::str`, for concrete runs. -/
instance (ObjectId : Type) [ToString ObjectId] : ToString (QmfValue ObjectId) where
  toString
    | .null => "<Null>"
    | .bool b => toString b
    | .int i => toString i
    | .int64 i => toString i
    | .uint n => toString n
    | .uint64 n => toString n
    | .float x => toString x
    | .double x => toString x
    | .string s => s
    | .map text => text
    | .objectId id => toString id
    | .uuid text => text

end QpidPmda.Qpid
