import QpidPmda.Qmf1.ListenerCalls
import QpidPmda.Qmf1.QpidPmdaQmf1

/-! # What one call can do to the PMDA

An iteration registers the id or leaves the PMDA as it is, and never touches
the listener. The result of a fetch is settled by the cache entry, by the
object that the listener holds for it, and by one attribute of that object;
`PM_ERR_INST` is thrown before an object is found, never after.
-/

namespace QpidPmda.Qmf1
open Qpid Pcp ConsoleUtils ConsoleValue ConsoleListener

variable {ObjectId Value : Type}

section Convert
variable [ConsoleValue Value ObjectId] [ToString ObjectId]

/-- The faults that `metricValue` leaves to its caller: no fetch of an object that is there ends
undefined, or for want of an instance. -/
def Fault.isValueFault : Fault → Bool
  | .pcp e => e.code != .pmErrInst
  | .qpid _ => true
  | .outOfRange => true
  | .undefinedBehaviour => false

theorem mapError_qpid_bind {α : Type} {x : Except QpidException α} {f : α → Except Fault Atom}
    {fault : Fault} (h : (x.mapError .qpid >>= f) = .error fault)
    (hf : ∀ a, f a ≠ .error fault) : ∃ e, fault = .qpid e := by
  cases x with
  | error e => exact ⟨e, (Except.error.inj h).symm⟩
  | ok a => exact absurd h (hf a)

theorem convert_fault {type : PmType} {value : Value} {fault : Fault}
    (h : convert type value = .error fault) :
    (∃ e, fault = .qpid e) ∨ fault = .pcp ⟨.pmErrType, none⟩ := by
  cases type with
  | other code => exact .inr (Except.error.inj h).symm
  | _ => exact .inl (mapError_qpid_bind h fun a => by simp)

theorem convert_type {type : PmType} {value : Value} {atom : Atom}
    (h : convert type value = .ok atom) : atom.type = type := by
  cases type with
  | other code => exact absurd h (by simp [convert])
  | _ =>
    obtain ⟨a, -, ha⟩ := bind_eq_ok_iff.mp h
    obtain rfl := Except.ok.inj ha
    rfl

theorem caught_ok {α : Type} {result : Except Fault α} {a : α} :
    caught result = .ok a ↔ result = .ok a := by
  cases result with
  | ok b => rfl
  | error fault => cases fault <;> simp [caught]

theorem metricValue_ok {metric : MetricId} {object : Object ObjectId Value} {atom : Atom} :
    metricValue metric object = .ok atom ↔ ∃ (description : MetricDescription) (value : Value),
      supportedMetric metric.cluster metric.item = some description ∧
        object.attributes.lookup description.metricName = some value ∧
        convert metric.type value = .ok atom := by
  unfold metricValue
  cases hm : supportedMetric metric.cluster metric.item with
  | none => simp
  | some description =>
    cases ha : object.attributes.lookup description.metricName with
    | none =>
      cases toStringObject object false <;> simp [Except.mapError, bind, Except.bind, ha]
    | some value => simp [ha, caught_ok]

theorem metricValue_fault {metric : MetricId} {object : Object ObjectId Value} {fault : Fault}
    (h : metricValue metric object = .error fault) : fault.isValueFault = true := by
  unfold metricValue at h
  cases hm : supportedMetric metric.cluster metric.item with
  | none =>
    rw [hm] at h
    obtain rfl := Except.error.inj h
    rfl
  | some description =>
    cases ha : object.attributes.lookup description.metricName with
    | none =>
      cases htext : toStringObject object false with
      | error e | ok text =>
        simp only [hm, ha, htext] at h
        obtain rfl := Except.error.inj h
        rfl
    | some value =>
      cases hc : convert metric.type value with
      | ok atom => simp [hm, ha, hc, caught] at h
      | error f =>
        simp only [hm, ha, hc] at h
        obtain ⟨e, rfl⟩ | rfl := convert_fault hc <;> obtain rfl := Except.error.inj h <;> rfl

end Convert

namespace Pmda
variable {P : Library ObjectId} [ConsoleValue Value ObjectId]

/-- The state after a registration. -/
def addRegistration (r : Registration ObjectId Value) (cache : P.Cache) (s : Pmda P Value) :
    Pmda P Value :=
  { s with
    cache := cache
    domains := Function.update s.domains r.domain
      (P.addInstance (s.domains r.domain) r.inst r.name) }

/-- The six exits of an iteration. -/
inductive Registers (objectId : ObjectId) (s : Pmda P Value) :
    Option (Object ObjectId Value) → IterationExit ObjectId Value → Pmda P Value → Prop
  | noProperties : Registers objectId s none .noProperties s
  | unsupportedType (props) (h : domainOfType (getTypeObject props) = none) :
      Registers objectId s (some props) .unsupportedType s
  | qpidException (props domain e) (hdomain : domainOfType (getTypeObject props) = some domain)
      (h : getName props true = .error e) :
      Registers objectId s (some props) (.qpidException e) s
  | noName (props domain) (hdomain : domainOfType (getTypeObject props) = some domain)
      (h : getName props true = .ok "") : Registers objectId s (some props) .noName s
  | storeException (props domain name e)
      (hdomain : domainOfType (getTypeObject props) = some domain)
      (hname : getName props true = .ok name) (hne : name ≠ "")
      (h : P.store s.cache domain.indom name objectId = .error e) :
      Registers objectId s (some props) (.storeException e) s
  | registered (r : Registration ObjectId Value) (cache) (hid : r.objectId = objectId)
      (hdomain : domainOfType (getTypeObject r.props) = some r.domain)
      (hname : getName r.props true = .ok r.name) (hne : r.name ≠ "")
      (h : P.store s.cache r.domain.indom r.name objectId = .ok (r.inst, cache)) :
      Registers objectId s (some r.props) (.registered r) (addRegistration r cache s)

theorem register_exit (objectId : ObjectId) (props : Option (Object ObjectId Value))
    (s : Pmda P Value) :
    Registers objectId s props (register objectId props s).1 (register objectId props s).2 := by
  unfold register
  cases props with
  | none => exact .noProperties
  | some props =>
    dsimp only
    cases hdomain : domainOfType (getTypeObject props) with
    | none => exact .unsupportedType props hdomain
    | some domain =>
      dsimp only
      cases hname : getName props true with
      | error e => exact .qpidException props domain e hdomain hname
      | ok name =>
        dsimp only
        split_ifs with hempty
        · exact .noName props domain hdomain (hempty ▸ hname)
        · cases hstore : P.store s.cache domain.indom name objectId with
          | error e => exact .storeException props domain name e hdomain hname hempty hstore
          | ok result =>
            exact .registered ⟨domain, result.1, name, objectId, props⟩ result.2 rfl hdomain hname
              hempty hstore

theorem Registers.listener {objectId : ObjectId} {s s' : Pmda P Value}
    {props : Option (Object ObjectId Value)} {exit : IterationExit ObjectId Value}
    (h : Registers objectId s props exit s') : s'.listener = s.listener := by
  cases h <;> rfl

theorem Registers.same {objectId : ObjectId} {s s' : Pmda P Value}
    {props : Option (Object ObjectId Value)} {exit : IterationExit ObjectId Value}
    (h : Registers objectId s props exit s') (hexit : ∀ r, exit ≠ .registered r) : s' = s := by
  cases h with
  | registered r cache => exact absurd rfl (hexit r)
  | _ => rfl

/-- An iteration whose name the cache takes ends with a registration under this name. -/
theorem Registers.of_stored {objectId : ObjectId} {props : Object ObjectId Value}
    {s s' : Pmda P Value} {exit : IterationExit ObjectId Value} {domain : Domain} {name : String}
    {result : Int × P.Cache} (h : Registers objectId s (some props) exit s')
    (hdomain : domainOfType (getTypeObject props) = some domain)
    (hname : getName props true = .ok name) (hne : name ≠ "")
    (hstore : P.store s.cache domain.indom name objectId = .ok result) :
    ∃ r, exit = .registered r ∧ r.domain = domain ∧ r.name = name := by
  cases h with
  | unsupportedType _ hnone => exact absurd (hdomain.symm.trans hnone) (by simp)
  | qpidException _ _ e _ hraised => exact absurd (hname.symm.trans hraised) (by simp)
  | noName _ _ _ hempty => exact absurd (Except.ok.inj (hname.symm.trans hempty)) hne
  | storeException _ domain' name' e hdomain' hname' _ hrejected =>
    obtain rfl := Option.some.inj (hdomain.symm.trans hdomain')
    obtain rfl := Except.ok.inj (hname.symm.trans hname')
    exact absurd (hstore.symm.trans hrejected) (by simp)
  | registered r _ _ hdomain' hname' =>
    exact ⟨r, rfl, Option.some.inj (hdomain'.symm.trans hdomain),
      Except.ok.inj (hname'.symm.trans hname)⟩

omit [ConsoleValue Value ObjectId] in
theorem domainOfType_supported {props : Object ObjectId Value}
    (h : isSupported props.classKey = true) : domainOfType (getTypeObject props) ≠ none := by
  rw [← Option.isSome_iff_ne_none, domainOfType_isSome]
  exact h

variable [DecidableEq ObjectId] [ToString ObjectId]

/-- The result of a fetch, from what the listener holds for the object. -/
def resultOf (metric : MetricId) (object : Option (Object ObjectId Value)) : Except Fault Atom :=
  match object with
  | none => .error .undefinedBehaviour
  | some object => metricValue metric object

theorem fetchResult_cached {metric : MetricId} {s : Pmda P Value} {domain : Domain}
    {entry : LookupResult ObjectId} {objectId : ObjectId}
    (hdomain : domainOfCluster metric.cluster = some domain)
    (hlookup : P.lookup s.cache domain.indom metric.inst = .ok entry)
    (hpointer : entry.opaquePointer = some objectId) :
    fetchResult metric s = resultOf metric (readObject metric.cluster objectId s.listener) := by
  unfold fetchResult
  simp only [hdomain, hlookup, hpointer]
  cases readObject metric.cluster objectId s.listener <;> rfl

end Pmda

end QpidPmda.Qmf1
