import QpidPmda.Qpid.Console

/-! # The kinds of attribute values

A value is of one kind. The predicates of the console library tell the kind, and
a typed accessor returns on the values of its own kind and raises on all others.
-/

namespace QpidPmda.Qpid
open ConsoleValue

/-- The kinds with an accessor that the PMDA calls, and any other. -/
inductive Kind where
  | null
  | bool
  | int
  | int64
  | uint
  | uint64
  | float
  | double
  | string
  | map
  | objectId
  | uuid
  | other
  deriving DecidableEq, Repr

/-- The accessor returns on the values of one kind and raises on all others. -/
def Reads {Value α : Type} (accessor : Value → Except QpidException α) (kind : Value → Kind)
    (own : Kind) : Prop :=
  ∀ value, (∃ a, accessor value = .ok a) ↔ kind value = own

/-- The documented behaviour of the predicates and of the typed accessors. -/
structure Kinded {Value ObjectId : Type} [ConsoleValue Value ObjectId] (kind : Value → Kind) :
    Prop where
  isBool : ∀ value : Value, isBool value = true ↔ kind value = .bool
  isMap : ∀ value : Value, isMap value = true ↔ kind value = .map
  isNull : ∀ value : Value, isNull value = true ↔ kind value = .null
  isObjectId : ∀ value : Value, isObjectId value = true ↔ kind value = .objectId
  isUuid : ∀ value : Value, isUuid value = true ↔ kind value = .uuid
  asBool : Reads asBool kind .bool
  asInt : Reads asInt kind .int
  asInt64 : Reads asInt64 kind .int64
  asUint : Reads asUint kind .uint
  asUint64 : Reads asUint64 kind .uint64
  asFloat : Reads asFloat kind .float
  asDouble : Reads asDouble kind .double
  asString : Reads asString kind .string
  asMap : Reads asMap kind .map
  asObjectId : Reads asObjectId kind .objectId
  asUuid : Reads asUuid kind .uuid

def QmfValue.kind {ObjectId : Type} : QmfValue ObjectId → Kind
  | .null => .null
  | .bool _ => .bool
  | .int _ => .int
  | .int64 _ => .int64
  | .uint _ => .uint
  | .uint64 _ => .uint64
  | .float _ => .float
  | .double _ => .double
  | .string _ => .string
  | .map _ => .map
  | .objectId _ => .objectId
  | .uuid _ => .uuid

theorem QmfValue.kinded (ObjectId : Type) :
    Kinded (QmfValue.kind : QmfValue ObjectId → Kind) := by
  constructor <;> intro value <;> cases value <;>
    simp [QmfValue.kind, ConsoleValue.isBool, ConsoleValue.isMap, ConsoleValue.isNull,
      ConsoleValue.isObjectId, ConsoleValue.isUuid, ConsoleValue.asBool, ConsoleValue.asInt,
      ConsoleValue.asInt64, ConsoleValue.asUint, ConsoleValue.asUint64, ConsoleValue.asFloat,
      ConsoleValue.asDouble, ConsoleValue.asString, ConsoleValue.asMap, ConsoleValue.asObjectId,
      ConsoleValue.asUuid, incompatible]

end QpidPmda.Qpid
