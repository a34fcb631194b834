import QpidPmda.Qmf1.InstanceIntegrity

/-! # What a fetched value is, and when a fetch is defined

A value that is returned comes from the last update the listener accepted of
the right kind, for the object last registered at the instance. An object is
registered from its properties alone, so its statistics may be missing, and
then the message of the error path dereferences an object that is not there.
-/

namespace QpidPmda.Qmf1
open Qpid Pcp ConsoleUtils ConsoleValue Foundations ConsoleListener ListenerCall

namespace System
variable {ObjectId Value : Type} {P : Library ObjectId} [ConsoleValue Value ObjectId]
  [ToString ObjectId] [DecidableEq ObjectId] {pmDebug : DebugFlags} {includeAutoDelete : Bool}

/-- The last accepted update of an object, of the kind that the cluster reads. -/
def lastAccepted (pmDebug : DebugFlags) (includeAutoDelete : Bool) (cluster : Nat) (x : ObjectId)
    (actions : List (Action ObjectId Value)) : Option (Object ObjectId Value) :=
  if cluster % 2 = 0 then lastOf (propsFor pmDebug includeAutoDelete x) (updates actions)
  else lastOf (statsFor pmDebug x) (sinceKnown pmDebug includeAutoDelete x (updates actions))

theorem readObject_after (actions : List (Action ObjectId Value)) (cluster : Nat) (x : ObjectId) :
    Pmda.readObject cluster x (after P pmDebug includeAutoDelete actions).pmda.listener =
      lastAccepted pmDebug includeAutoDelete cluster x actions := by
  obtain ⟨-, hprops, hstats⟩ : SameMaps (after P pmDebug includeAutoDelete actions).pmda.listener
    (ListenerCall.history pmDebug includeAutoDelete (updates actions)) := after_sameMaps actions
  unfold Pmda.readObject lastAccepted
  split_ifs
  · rw [getProps, hprops, ← history_getProps, getProps]
  · rw [getStats, hstats, ← history_getStats, getStats]

theorem lastAccepted_objectId {cluster : Nat} {x : ObjectId}
    {actions : List (Action ObjectId Value)} {object : Object ObjectId Value}
    (h : lastAccepted pmDebug includeAutoDelete cluster x actions = some object) :
    object.objectId = x := by
  unfold lastAccepted at h
  split_ifs at h
  · obtain ⟨call, -, hcall⟩ := exists_of_lastOf_eq_some h
    exact objectId_of_propsFor hcall
  · obtain ⟨call, -, hcall⟩ := exists_of_lastOf_eq_some h
    exact objectId_of_statsFor hcall

/-- A fetch of a listed instance is a matter of the last registration and the last update. -/
theorem fetchValue_after (hP : P.Lawful) (actions : List (Action ObjectId Value))
    (metric : MetricId) {description : MetricDescription} {name : String}
    (hsupported : supportedMetric metric.cluster metric.item = some description)
    (hlisted : P.instanceName ((after P pmDebug includeAutoDelete actions).pmda.domains
      description.domain) metric.inst = some name) :
    ∃ r, (after P pmDebug includeAutoDelete actions).lastRegistration description.domain
        metric.inst = some r ∧
      (Pmda.fetchValue metric (after P pmDebug includeAutoDelete actions).pmda).1 =
        Pmda.resultOf metric
          (lastAccepted pmDebug includeAutoDelete metric.cluster r.objectId actions) := by
  have hc : Cached (after P pmDebug includeAutoDelete actions) := after_cached hP actions
  obtain ⟨r, hr, -⟩ := hc.listed hlisted
  refine ⟨r, hr, ?_⟩
  change Pmda.fetchResult metric (after P pmDebug includeAutoDelete actions).pmda = _
  rw [fetchResult_registered hc (domainOfCluster_supported hsupported) hr, readObject_after]

/-- The statistics of the second queue arrive after it took over the instance. -/
def sharingStats : List (Action Nat (QmfValue Nat)) :=
  registerQueues sameNames ++
    [.objectStats (brokerObject "queue" 2 [("acquires", .uint64 7)])]

theorem sharingStats_supported :
    supportedMetric 3 0 = some ⟨0, "acquires", .uint64, .queue⟩ := by decide

theorem sharingStats_listed : (NameTable.library Nat).instanceName ((after (NameTable.library Nat)
    ⟨false, false⟩ false sharingStats).pmda.domains .queue) 0 = some "orders" := by decide

/-- Exactly when the cluster is even or there are statistics, the fetch of a listed instance is
defined and a missing object makes it throw `PM_ERR_INST` and nothing else. -/
theorem fetch_defined_iff (hP : P.Lawful) (actions : List (Action ObjectId Value))
    (metric : MetricId) {description : MetricDescription} {name : String}
    (hsupported : supportedMetric metric.cluster metric.item = some description)
    (hlisted : P.instanceName ((after P pmDebug includeAutoDelete actions).pmda.domains
      description.domain) metric.inst = some name) :
    ∃ r, (after P pmDebug includeAutoDelete actions).lastRegistration description.domain
        metric.inst = some r ∧
      (((Pmda.fetchValue metric (after P pmDebug includeAutoDelete actions).pmda).1 ≠
            .error .undefinedBehaviour ∧
          (Pmda.readObject metric.cluster r.objectId
              (after P pmDebug includeAutoDelete actions).pmda.listener = none →
            Pmda.fetchValue metric (after P pmDebug includeAutoDelete actions).pmda =
              (.error (.pcp ⟨.pmErrInst, none⟩),
                (after P pmDebug includeAutoDelete actions).pmda))) ↔
        (metric.cluster % 2 = 0 ∨
          ((after P pmDebug includeAutoDelete actions).pmda.listener.getStats
            r.objectId).isSome)) := by
  obtain ⟨r, hr, hvalue⟩ := fetchValue_after hP actions metric hsupported hlisted
  have ha : Accounted (after P pmDebug includeAutoDelete actions) := after_accounted actions
  rw [← readObject_after (P := P)] at hvalue
  refine ⟨r, hr, ?_⟩
  cases hread : Pmda.readObject metric.cluster r.objectId
      (after P pmDebug includeAutoDelete actions).pmda.listener with
  | none =>
    rw [hread] at hvalue
    constructor
    · rintro ⟨hdefined, -⟩
      exact absurd hvalue hdefined
    · unfold Pmda.readObject at hread
      split_ifs at hread with heven
      · exact absurd (ha.known hr) (by simp [hread])
      · simp [heven, hread]
  | some object =>
    rw [hread] at hvalue
    constructor
    · intro _
      unfold Pmda.readObject at hread
      split_ifs at hread with heven
      · exact .inl heven
      · exact .inr (by simp [hread])
    · intro _
      refine ⟨fun hundefined => ?_, by simp⟩
      exact absurd (metricValue_fault (hvalue.symm.trans hundefined)) (by simp [Fault.isValueFault])

theorem fetch_defined_iff_acquires :
    (Pmda.fetchValue ⟨3, 0, 0, .pmTypeU64⟩
      (after (NameTable.library Nat) ⟨false, false⟩ false sharingStats).pmda).1 ≠
        .error .undefinedBehaviour := by
  obtain ⟨r, hr, hiff⟩ := fetch_defined_iff (NameTable.library_lawful Nat) sharingStats
    ⟨3, 0, 0, .pmTypeU64⟩ sharingStats_supported sharingStats_listed
  have hid : r.objectId = 2 := by
    have hlast : ((after (NameTable.library Nat) ⟨false, false⟩ false
      sharingStats).lastRegistration .queue 0).map (·.objectId) = some 2 := rfl
    rw [show (after (NameTable.library Nat) ⟨false, false⟩ false sharingStats).lastRegistration
      .queue 0 = some r from hr] at hlast
    exact Option.some.inj hlast
  exact (hiff.mpr (.inr (by rw [hid]; decide))).1

/-- The queues above, fetched before any statistics arrived. -/
theorem fetch_undefined_without_stats :
    ¬ ∀ (actions : List (Action Nat (QmfValue Nat))) (metric : MetricId)
      (description : MetricDescription) (name : String),
      supportedMetric metric.cluster metric.item = some description →
      (NameTable.library Nat).instanceName ((after (NameTable.library Nat) ⟨false, false⟩ false
        actions).pmda.domains description.domain) metric.inst = some name →
      (Pmda.fetchValue metric (after (NameTable.library Nat) ⟨false, false⟩ false
        actions).pmda).1 ≠ .error .undefinedBehaviour := by
  intro h
  exact h (registerQueues sameNames) ⟨3, 0, 0, .pmTypeU64⟩ _ "orders" sharingStats_supported
    (by decide) rfl

end System

end QpidPmda.Qmf1
