import QpidPmda.Qpid.ValueKinds
import QpidPmda.Qmf1.InstanceIntegrity

/-! # How a fetch ends, by the kinds of the attribute values

What the conversions raise is caught and becomes `PM_ERR_TYPE`. The message
about a missing attribute names the object, outside the `try` block: where the
object is named by a value that is not a string, the exception of the console
library leaves `fetch_value` in place of `PM_ERR_VALUE`.
-/

namespace QpidPmda.Qmf1
open Qpid Pcp ConsoleUtils ConsoleValue

/-- The kinds of values that the conversion to a PCP type is written for. -/
def PmType.fits : PmType → Kind → Bool
  | .pmType32, .int => true
  | .pmType64, .int64 => true
  | .pmTypeU32, .uint => true
  | .pmTypeU64, .uint64 => true
  | .pmTypeFloat, .float => true
  | .pmTypeDouble, .double => true
  | .pmTypeString, .bool => true
  | .pmTypeString, .map => true
  | .pmTypeString, .null => true
  | .pmTypeString, .objectId => true
  | .pmTypeString, .uuid => true
  | .pmTypeString, .string => true
  | _, _ => false

section Outcome
variable {ObjectId Value : Type} [ConsoleValue Value ObjectId] [ToString ObjectId]
  {kind : Value → Kind} {value : Value} {metric : MetricId} {object : Object ObjectId Value}

/-- A fetch ends as the attribute of its metric decides: a value that fits gives an atom of the
type of the metric, and everything else ends in a `pcp::exception`. -/
def Classified (kind : Value → Kind) (type : PmType) (found : Option Value)
    (result : Except Fault Atom) : Prop :=
  match found with
  | none => result = .error (.pcp ⟨.pmErrValue, none⟩)
  | some value =>
    if type.fits (kind value) then ∃ atom, result = .ok atom ∧ atom.type = type
    else ∃ message, result = .error (.pcp ⟨.pmErrType, message⟩)

theorem map_returns_iff {α β : Type} {x : Except QpidException α} {f : α → β} :
    (∃ b, f <$> x = .ok b) ↔ ∃ a, x = .ok a := by
  cases x <;> simp [Functor.map, Except.map]

theorem mapError_returns_iff {α : Type} {x : Except QpidException α} {f : α → Atom} :
    (∃ atom, (x.mapError Fault.qpid >>= fun a => .ok (f a)) = .ok atom) ↔ ∃ a, x = .ok a := by
  cases x <;> simp [Except.mapError, bind, Except.bind]

theorem stringOf_returns_iff (hkind : Kinded kind) :
    (∃ text, stringOf value = .ok text) ↔ PmType.pmTypeString.fits (kind value) = true := by
  unfold stringOf
  simp only [hkind.isBool value, hkind.isMap value, hkind.isNull value, hkind.isObjectId value,
    hkind.isUuid value]
  cases hk : kind value with
  | bool => simpa [map_returns_iff, PmType.fits] using (hkind.asBool value).mpr hk
  | map => simpa [PmType.fits] using (hkind.asMap value).mpr hk
  | objectId => simpa [map_returns_iff, PmType.fits] using (hkind.asObjectId value).mpr hk
  | uuid => simpa [PmType.fits] using (hkind.asUuid value).mpr hk
  | _ => simp [PmType.fits, hkind.asString value, hk]

theorem accessor_returns_iff {α : Type} {accessor : Value → Except QpidException α} {own : Kind}
    {type : PmType} {f : α → Atom} (hreads : Reads accessor kind own)
    (hfits : ∀ k, type.fits k = true ↔ k = own) :
    (∃ atom, ((accessor value).mapError Fault.qpid >>= fun a => .ok (f a)) = .ok atom) ↔
      type.fits (kind value) = true := by
  rw [mapError_returns_iff, hreads value, hfits]

theorem convert_returns_iff (hkind : Kinded kind) {type : PmType} :
    (∃ atom, convert type value = .ok atom) ↔ type.fits (kind value) = true := by
  cases type with
  | pmType32 =>
    exact accessor_returns_iff hkind.asInt fun k => by cases k <;> simp [PmType.fits]
  | pmType64 =>
    exact accessor_returns_iff hkind.asInt64 fun k => by cases k <;> simp [PmType.fits]
  | pmTypeU32 =>
    exact accessor_returns_iff hkind.asUint fun k => by cases k <;> simp [PmType.fits]
  | pmTypeU64 =>
    exact accessor_returns_iff hkind.asUint64 fun k => by cases k <;> simp [PmType.fits]
  | pmTypeFloat =>
    exact accessor_returns_iff hkind.asFloat fun k => by cases k <;> simp [PmType.fits]
  | pmTypeDouble =>
    exact accessor_returns_iff hkind.asDouble fun k => by cases k <;> simp [PmType.fits]
  | pmTypeString => exact mapError_returns_iff.trans (stringOf_returns_iff hkind)
  | other code => simp [convert, PmType.fits]

/-- What leaves the `try` block is an atom of the right type or `PM_ERR_TYPE`. -/
theorem caught_convert_classified (hkind : Kinded kind) (type : PmType) (value : Value) :
    Classified kind type (some value) (caught (convert type value)) := by
  unfold Classified
  cases hc : convert type value with
  | ok atom =>
    have hfits := (convert_returns_iff hkind).mp ⟨atom, hc⟩
    simp [hfits, caught, convert_type hc]
  | error fault =>
    have hfits : ¬ type.fits (kind value) = true := fun hfits => by
      obtain ⟨atom, hatom⟩ := (convert_returns_iff hkind).mpr hfits
      exact absurd (hc.symm.trans hatom) (by simp)
    obtain ⟨e, rfl⟩ | rfl := convert_fault hc <;> simp [hfits, caught]

/-- The object has no name, or is named by a string. -/
def NamedByString (kind : Value → Kind) (object : Object ObjectId Value) : Prop :=
  ∀ name, nameAttribute object true = some name → kind name = .string

omit [ToString ObjectId] in
theorem nameable_iff (hkind : Kinded kind) : Nameable object ↔ NamedByString kind object := by
  unfold Nameable NamedByString getName
  cases nameAttribute object true with
  | none => simp
  | some name => simp [hkind.asString name]

/-- An object that is there gives the classified result, unless its attribute is missing and it
cannot be named. -/
theorem metricValue_classified_iff (hkind : Kinded kind) {description : MetricDescription}
    (hsupported : supportedMetric metric.cluster metric.item = some description) :
    Classified kind metric.type (object.attributes.lookup description.metricName)
        (metricValue metric object) ↔
      (object.attributes.lookup description.metricName).isSome ∨ NamedByString kind object := by
  unfold metricValue
  simp only [hsupported]
  cases hfound : object.attributes.lookup description.metricName with
  | some value => simpa using caught_convert_classified hkind metric.type value
  | none =>
    rw [← nameable_iff hkind, ← @toStringObject_ok_iff _ _ _ _ object false]
    cases toStringObject object false with
    | error e => simp [Classified, Except.mapError, bind, Except.bind]
    | ok text => simp [Classified, Except.mapError, bind, Except.bind]

end Outcome

namespace System
variable {ObjectId Value : Type} {P : Library ObjectId} [ConsoleValue Value ObjectId]
  [ToString ObjectId] [DecidableEq ObjectId] {pmDebug : DebugFlags} {includeAutoDelete : Bool}
  {kind : Value → Kind}

/-- A fetch of a listed instance whose object the listener holds ends as the attribute of the metric
decides exactly when the attribute is there or the object is not named by another value than a
string. -/
theorem fetch_classified_iff (hkind : Kinded kind) (hP : P.Lawful)
    (actions : List (Action ObjectId Value)) (metric : MetricId) {description : MetricDescription}
    {name : String}
    (hsupported : supportedMetric metric.cluster metric.item = some description)
    (hlisted : P.instanceName ((after P pmDebug includeAutoDelete actions).pmda.domains
      description.domain) metric.inst = some name) :
    ∃ r, (after P pmDebug includeAutoDelete actions).lastRegistration description.domain
        metric.inst = some r ∧
      ∀ object, Pmda.readObject metric.cluster r.objectId
          (after P pmDebug includeAutoDelete actions).pmda.listener = some object →
        (Classified kind metric.type (object.attributes.lookup description.metricName)
            (Pmda.fetchValue metric (after P pmDebug includeAutoDelete actions).pmda).1 ↔
          (object.attributes.lookup description.metricName).isSome ∨
            NamedByString kind object) := by
  have hc : Cached (after P pmDebug includeAutoDelete actions) := after_cached hP actions
  obtain ⟨r, hr, -⟩ := hc.listed hlisted
  refine ⟨r, hr, fun object hobject => ?_⟩
  rw [Pmda.fetchValue, fetchResult_registered hc (domainOfCluster_supported hsupported) hr, hobject,
    Pmda.resultOf]
  exact metricValue_classified_iff hkind hsupported

/-- A queue that was registered under a string, and its properties of a later update. -/
def namedQueue : Object Nat (QmfValue Nat) := brokerObject "queue" 1 [("name", .string "orders")]

def numberedName : Object Nat (QmfValue Nat) := brokerObject "queue" 1 [("name", .uint 7)]

def numbering : List (Action Nat (QmfValue Nat)) :=
  registerQueues [namedQueue] ++ [.objectProps numberedName]

theorem numbering_supported : supportedMetric 2 5 = some ⟨5, "name", .string, .queue⟩ := rfl

theorem numbering_registered : (after (NameTable.library Nat) ⟨false, false⟩ false
    numbering).lastRegistration .queue 0 = some ⟨.queue, 0, "orders", 1, namedQueue⟩ := rfl

theorem numbering_read : Pmda.readObject 2 1 (after (NameTable.library Nat) ⟨false, false⟩ false
    numbering).pmda.listener = some numberedName := rfl

theorem numbering_listed : (NameTable.library Nat).instanceName ((after (NameTable.library Nat)
    ⟨false, false⟩ false numbering).pmda.domains .queue) 0 = some "orders" := by decide

theorem fetch_classified_numbering : ∃ message, (Pmda.fetchValue ⟨2, 5, 0, .pmTypeString⟩
    (after (NameTable.library Nat) ⟨false, false⟩ false numbering).pmda).1 =
      .error (.pcp ⟨.pmErrType, message⟩) := by
  obtain ⟨r, hr, hiff⟩ := fetch_classified_iff (QmfValue.kinded Nat) (NameTable.library_lawful Nat)
    numbering ⟨2, 5, 0, .pmTypeString⟩ numbering_supported numbering_listed
  obtain rfl := Option.some.inj (numbering_registered.symm.trans hr)
  exact (hiff numberedName numbering_read).mpr (.inl rfl)

/-- An attribute of the queue that is missing is reported with the exception that its name
raises. -/
theorem fetch_raises_qpid :
    ¬ ∀ (actions : List (Action Nat (QmfValue Nat))) (metric : MetricId)
      (description : MetricDescription) (name : String) (r : Registration Nat (QmfValue Nat))
      (object : Object Nat (QmfValue Nat)),
      supportedMetric metric.cluster metric.item = some description →
      metric.type = description.type.pmType →
      (NameTable.library Nat).instanceName ((after (NameTable.library Nat) ⟨false, false⟩ false
        actions).pmda.domains description.domain) metric.inst = some name →
      (after (NameTable.library Nat) ⟨false, false⟩ false actions).lastRegistration
        description.domain metric.inst = some r →
      Pmda.readObject metric.cluster r.objectId (after (NameTable.library Nat) ⟨false, false⟩ false
        actions).pmda.listener = some object →
      Classified QmfValue.kind metric.type (object.attributes.lookup description.metricName)
        (Pmda.fetchValue metric (after (NameTable.library Nat) ⟨false, false⟩ false
          actions).pmda).1 := by
  intro h
  have hvalue : (Pmda.fetchValue ⟨2, 2, 0, .pmTypeString⟩ (after (NameTable.library Nat)
      ⟨false, false⟩ false numbering).pmda).1 = .error (.pcp ⟨.pmErrValue, none⟩) :=
    h numbering ⟨2, 2, 0, .pmTypeString⟩ ⟨2, "autoDelete", .string, .queue⟩ "orders" _ numberedName
      rfl rfl numbering_listed numbering_registered numbering_read
  have hraised : (Pmda.fetchValue ⟨2, 2, 0, .pmTypeString⟩ (after (NameTable.library Nat)
      ⟨false, false⟩ false numbering).pmda).1 = .error (.qpid ⟨"incompatible type"⟩) := rfl
  exact absurd (hvalue.symm.trans hraised) (by simp)

end System

end QpidPmda.Qmf1
