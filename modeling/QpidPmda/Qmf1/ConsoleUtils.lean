import QpidPmda.Qpid.Schema

/-! # Names, schema types and log texts of QMF objects

The functions of the `ConsoleUtils` class that the listener, the logger and the PMDA call.
`getName` reads an attribute with `asString`, so it may raise, and so may every
log text that is built from it.
-/

namespace QpidPmda.Qmf1.ConsoleUtils
open Qpid ConsoleValue

variable {ObjectId Value : Type}

/-- `ConsoleUtils::ObjectSchemaType`. -/
inductive ObjectSchemaType where
  | broker
  | queue
  | system
  | other
  deriving DecidableEq, Repr

/-- The attribute that names an object: `name`, or `nodeName` when that is allowed. -/
def nameAttribute (object : Object ObjectId Value) (allowNodeName : Bool) : Option Value :=
  match object.attributes.lookup "name" with
  | some name => some name
  | none => if allowNodeName then object.attributes.lookup "nodeName" else none

def getName [ConsoleValue Value ObjectId] (object : Object ObjectId Value)
    (allowNodeName : Bool) : Except QpidException String :=
  match nameAttribute object allowNodeName with
  | none => .ok ""
  | some name => asString name

def getType (classKey : ClassKey) : ObjectSchemaType :=
  if classKey.packageName = "org.apache.qpid.broker" then
    if classKey.className = "broker" then .broker
    else if classKey.className = "queue" then .queue
    else if classKey.className = "system" then .system
    else .other
  else .other

/-- The overload of `getType` that takes an object. -/
def getTypeObject (object : Object ObjectId Value) : ObjectSchemaType :=
  getType object.classKey

/-- The names of the QMF type codes, and for any other code the byte itself: `boost::lexical_cast`
takes it for a character, not for a number. -/
def qmfTypeCodeToString (typeCode : UInt8) : String :=
  match typeCode.toNat with
  | 1 => "UINT8"
  | 2 => "UINT16"
  | 3 => "UINT32"
  | 4 => "UINT64"
  | 6 => "SSTR"
  | 7 => "LSTR"
  | 8 => "ABSTIME"
  | 9 => "DELTATIME"
  | 10 => "REF"
  | 11 => "BOOL"
  | 12 => "FLOAT"
  | 13 => "DOUBLE"
  | 14 => "UUID"
  | 15 => "MAP"
  | 16 => "INT8"
  | 17 => "INT16"
  | 18 => "INT32"
  | 19 => "INT64"
  | 20 => "OBJECT"
  | 21 => "LIST"
  | 22 => "ARRAY"
  | _ => "unknown (" ++ String.singleton (Char.ofUInt8 typeCode) ++ ")"

/-- The log text of a property or of a statistic of a schema. -/
def toStringMember (name : String) (typeCode : UInt8) (unit desc : String) : String :=
  name ++ ":" ++ qmfTypeCodeToString typeCode ++ ":" ++ unit ++ ":" ++ desc

def toStringProperty (property : SchemaProperty) : String :=
  toStringMember property.name property.typeCode property.unit property.desc

def toStringStatistic (statistic : SchemaStatistic) : String :=
  toStringMember statistic.name statistic.typeCode statistic.unit statistic.desc

def toStringClassKey (classKey : ClassKey) : String :=
  classKey.packageName ++ ":" ++ classKey.className

/-- The stream operator of `ObjectId` gives the text. -/
def toStringObjectId [ToString ObjectId] (id : ObjectId) : String := toString id

/-- The log text of an object raises exactly when its name does. -/
def toStringObject [ConsoleValue Value ObjectId] [ToString ObjectId]
    (object : Object ObjectId Value) (includePackageName : Bool) :
    Except QpidException String := do
  let name ← getName object true
  return (if includePackageName then toStringClassKey object.classKey
    else object.classKey.className) ++ " '" ++ name ++ "' (" ++
      toStringObjectId object.objectId ++ ")"

variable [ConsoleValue Value ObjectId]

/-- The object carries a name that is a nonempty string. -/
def Named (object : Object ObjectId Value) : Prop :=
  ∃ name, getName object true = .ok name ∧ name ≠ ""

/-- The object can be named in a log text. -/
def Nameable (object : Object ObjectId Value) : Prop :=
  ∃ name, getName object true = .ok name

/-- The texts about an object raise exactly when its name does. -/
theorem toStringObject_ok_iff [ToString ObjectId] {object : Object ObjectId Value}
    {includePackageName : Bool} :
    (∃ text, toStringObject object includePackageName = .ok text) ↔ Nameable object := by
  unfold toStringObject Nameable
  cases getName object true <;> simp [bind, Except.bind, pure, Except.pure]

theorem not_named_of_nameless {object : Object ObjectId Value}
    (h : getName object true = .ok "") : ¬ Named object := by
  rintro ⟨name, hname, hne⟩
  exact hne (Except.ok.inj (hname.symm.trans h))

end QpidPmda.Qmf1.ConsoleUtils
