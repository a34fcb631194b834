import Mathlib.Data.Finmap

/-! # The QMF console library, as far as the PMDA reads it

Object identifiers and attribute values belong to the Qpid client library, so
both stay parameters. A value is known only through its kind predicates and its
typed accessors, and every typed accessor may raise a `qpid::Exception`.
-/

namespace QpidPmda.Qpid

/-- `qpid::Exception`, with the text that `getMessage` returns. -/
structure QpidException where
  message : String
  deriving DecidableEq, Repr

/-- The package and the class a QMF object belongs to. -/
structure ClassKey where
  packageName : String
  className : String
  deriving DecidableEq, Repr

theorem bind_eq_ok_iff {ε α β : Type} {x : Except ε α} {f : α → Except ε β} {b : β} :
    (x >>= f) = .ok b ↔ ∃ a, x = .ok a ∧ f a = .ok b := by
  cases x with
  | error e => simp [bind, Except.bind]
  | ok a => simp [bind, Except.bind]

/-- The interface of `qpid::console::Value`. `asMap` and `asUuid` give the text that the
PMDA prints for the map and for the UUID. -/
class ConsoleValue (Value : Type) (ObjectId : outParam Type) where
  isBool : Value → Bool
  isMap : Value → Bool
  isNull : Value → Bool
  isObjectId : Value → Bool
  isUuid : Value → Bool
  asBool : Value → Except QpidException Bool
  asInt : Value → Except QpidException Int32
  asInt64 : Value → Except QpidException Int64
  asUint : Value → Except QpidException UInt32
  asUint64 : Value → Except QpidException UInt64
  asFloat : Value → Except QpidException Float32
  asDouble : Value → Except QpidException Float
  asString : Value → Except QpidException String
  asMap : Value → Except QpidException String
  asObjectId : Value → Except QpidException ObjectId
  asUuid : Value → Except QpidException String

/-- `qpid::console::Object::AttributeMap`. -/
abbrev AttributeMap (Value : Type) := Finmap fun _ : String => Value

/-- A QMF properties or statistics object. -/
structure Object (ObjectId Value : Type) where
  classKey : ClassKey
  objectId : ObjectId
  attributes : AttributeMap Value

/-- The value kinds the console library distinguishes, one constructor a kind. -/
inductive QmfValue (ObjectId : Type) where
  | null
  | bool (b : Bool)
  | int (i : Int32)
  | int64 (i : Int64)
  | uint (n : UInt32)
  | uint64 (n : UInt64)
  | float (x : Float32)
  | double (x : Float)
  | string (s : String)
  | map (text : String)
  | objectId (id : ObjectId)
  | uuid (text : String)

/-- What a typed accessor does on a value of another kind. -/
def incompatible {α : Type} : Except QpidException α := .error ⟨"incompatible type"⟩

/-- A typed accessor returns the payload of its own kind and raises on every other kind. -/
instance (ObjectId : Type) : ConsoleValue (QmfValue ObjectId) ObjectId where
  isBool | .bool _ => true | _ => false
  isMap | .map _ => true | _ => false
  isNull | .null => true | _ => false
  isObjectId | .objectId _ => true | _ => false
  isUuid | .uuid _ => true | _ => false
  asBool | .bool b => .ok b | _ => incompatible
  asInt | .int i => .ok i | _ => incompatible
  asInt64 | .int64 i => .ok i | _ => incompatible
  asUint | .uint n => .ok n | _ => incompatible
  asUint64 | .uint64 n => .ok n | _ => incompatible
  asFloat | .float x => .ok x | _ => incompatible
  asDouble | .double x => .ok x | _ => incompatible
  asString | .string s => .ok s | _ => incompatible
  asMap | .map text => .ok text | _ => incompatible
  asObjectId | .objectId id => .ok id | _ => incompatible
  asUuid | .uuid text => .ok text | _ => incompatible

/-- An object of one of the broker's own classes, for concrete runs. -/
def brokerObject (className : String) (id : Nat) (attributes : List (String × QmfValue Nat)) :
    Object Nat (QmfValue Nat) where
  classKey := ⟨"org.apache.qpid.broker", className⟩
  objectId := id
  attributes := (attributes.map fun a => ⟨a.1, a.2⟩ : List (Σ _ : String, QmfValue Nat)).toFinmap

end QpidPmda.Qpid
