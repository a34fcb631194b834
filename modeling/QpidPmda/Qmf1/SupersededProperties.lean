import QpidPmda.Qmf1.AutoDeleteFilter

/-! # Properties that an auto-delete update supersedes

`objectProps` tests the object that comes in, and `objectStats` the properties
that are stored. An update that is skipped as auto-delete leaves what was stored
before it, and that copy never is auto-delete. So the skipped update withdraws
its object only if nothing was accepted for the object before.
-/

namespace QpidPmda.Qmf1
open Qpid Pcp ConsoleUtils ConsoleValue Foundations ConsoleListener

namespace ListenerCall
variable {ObjectId Value : Type} [ConsoleValue Value ObjectId] [ToString ObjectId]

/-- While auto-delete objects are left out, the update gets past the log and the two tests. -/
def Accepted (pmDebug : DebugFlags) (object : Object ObjectId Value) : Prop :=
  ConsoleLogger.objectProps pmDebug object = .ok () ∧ isSupported object.classKey = true ∧
    isAutoDelete pmDebug object = .ok false

theorem propsSaved_iff_accepted (pmDebug : DebugFlags) (object : Object ObjectId Value) :
    propsSaved pmDebug false object = true ↔ Accepted pmDebug object := by
  rw [propsSaved_iff, filterProps_ok_iff]
  simp [Accepted]

variable [DecidableEq ObjectId]

/-- Of the properties that came before none is served for `x`, and no statistics of `x` are
stored. -/
structure Withdrawn (pmDebug : DebugFlags) (before : List (ListenerCall ObjectId Value))
    (x : ObjectId) (l : ConsoleListener ObjectId Value) : Prop where
  props : ∀ older, .objectProps older ∈ before → older.objectId = x → l.getProps x ≠ some older
  stats : ∀ stats : Object ObjectId Value, stats.objectId = x →
    (ConsoleListener.objectStats pmDebug stats l).2 = l

variable {pmDebug : DebugFlags} {before after : List (ListenerCall ObjectId Value)}
  {object : Object ObjectId Value} {x : ObjectId}

theorem propsFor_of_not_passed {call : ListenerCall ObjectId Value}
    (h : ∀ object, call = .objectProps object → object.objectId = x →
      isAutoDelete pmDebug object ≠ .ok false) : propsFor pmDebug false x call = none := by
  rw [propsFor_eq_none_iff]
  intro object hcall hx hsaved
  exact h object hcall hx ((propsSaved_iff_accepted pmDebug object).mp hsaved).2.2

/-- The skipped update and those after it leave the properties that were stored before. -/
theorem getProps_superseded (before : List (ListenerCall ObjectId Value))
    (hauto : isAutoDelete pmDebug object = .ok true)
    (hafter : ∀ later, .objectProps later ∈ after → later.objectId = x →
      isAutoDelete pmDebug later ≠ .ok false) :
    (history pmDebug false (before ++ .objectProps object :: after)).getProps x =
      lastOf (propsFor pmDebug false x) before := by
  rw [history_getProps]
  refine lastOf_append_of_none before fun call hcall => propsFor_of_not_passed ?_
  rcases List.mem_cons.mp hcall with rfl | hcall
  · rintro _ ⟨⟩ -
    simp [hauto]
  · rintro later rfl hx
    exact hafter later hcall hx

theorem lastOf_propsFor_eq_none_iff :
    lastOf (propsFor pmDebug false x) before = none ↔
      ∀ older, .objectProps older ∈ before → older.objectId = x → ¬ Accepted pmDebug older := by
  simp only [lastOf_eq_none_iff, propsFor_eq_none_iff, propsSaved_iff_accepted]
  constructor
  · intro h older holder
    exact h _ holder older rfl
  · rintro h call hcall older rfl
    exact h older hcall

theorem withdrawn_of_getProps_eq_none (calls : List (ListenerCall ObjectId Value))
    (h : (history pmDebug false calls).getProps x = none) :
    Withdrawn pmDebug before x (history pmDebug false calls) where
  props older _ _ := by simp [h]
  stats stats hx := by
    subst hx
    have hunknown : (history pmDebug false calls).props.lookup stats.objectId = none := h
    rw [objectStats_listener, statsSaved_eq (history_propsTested pmDebug false calls), hunknown,
      history_includeAutoDelete]
    simp

/-- From an auto-delete update on, until one that passes as not auto-delete, the object is withdrawn
exactly when none of its updates was accepted before. -/
theorem superseded_withdrawn_iff (before after : List (ListenerCall ObjectId Value))
    (object : Object ObjectId Value) (hauto : isAutoDelete pmDebug object = .ok true)
    (hafter : ∀ later, .objectProps later ∈ after → later.objectId = object.objectId →
      isAutoDelete pmDebug later ≠ .ok false) :
    Withdrawn pmDebug before object.objectId
        (history pmDebug false (before ++ .objectProps object :: after)) ↔
      ∀ older, .objectProps older ∈ before → older.objectId = object.objectId →
        ¬ Accepted pmDebug older := by
  have hprops := getProps_superseded before hauto hafter
  rw [← lastOf_propsFor_eq_none_iff]
  constructor
  · intro h
    cases hstored : lastOf (propsFor pmDebug false object.objectId) before with
    | none => rfl
    | some older =>
      obtain ⟨call, hcall, hwrites⟩ := exists_of_lastOf_eq_some hstored
      obtain ⟨rfl, hid, -⟩ := propsFor_eq_some_iff.mp hwrites
      exact absurd (hprops.trans hstored) (h.props older hcall hid)
  · intro hnone
    exact withdrawn_of_getProps_eq_none _ (hprops.trans hnone)

def autoDeleteQueue : Object Nat (QmfValue Nat) :=
  brokerObject "queue" 1 [("name", .string "orders"), ("autoDelete", .bool true)]

theorem superseded_withdrawn_newQueue :
    Withdrawn ⟨false, false⟩ [.objectStats plainQueueStats] 1 (history ⟨false, false⟩ false
      [.objectStats plainQueueStats, .objectProps autoDeleteQueue, .objectStats plainQueueStats]) :=
  (superseded_withdrawn_iff [.objectStats plainQueueStats] [.objectStats plainQueueStats]
    autoDeleteQueue rfl (by simp)).mpr (by simp)

/-- The properties of a queue are served on after an update that makes it auto-delete. -/
theorem superseded_still_served :
    ¬ ∀ (before after : List (ListenerCall Nat (QmfValue Nat)))
      (object : Object Nat (QmfValue Nat)),
      isSupported object.classKey = true → isAutoDelete ⟨false, false⟩ object = .ok true →
      (∀ later, .objectProps later ∈ after → later.objectId = object.objectId →
        isAutoDelete ⟨false, false⟩ later ≠ .ok false) →
      Withdrawn ⟨false, false⟩ before object.objectId
        (history ⟨false, false⟩ false (before ++ .objectProps object :: after)) := by
  intro h
  have hwithdrawn := h [.objectProps plainQueue] [] autoDeleteQueue (by decide) rfl (by simp)
  exact hwithdrawn.props plainQueue (List.mem_singleton.mpr rfl) rfl rfl

end ListenerCall

end QpidPmda.Qmf1
