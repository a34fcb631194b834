import QpidPmda.Qmf1.FetchedValues
import QpidPmda.Qmf1.RegistrationOrder

/-! # What the PMDA shows of objects that keep their names

As long as no object changes its name or its type and the cache takes every
name, the callbacks alone determine what a client sees. A domain lists the
names of the objects taken so far, and the instance of a name shows the last
accepted update of the object that was discovered last under it.
-/

namespace QpidPmda.Qmf1
open Qpid Pcp ConsoleUtils ConsoleValue Foundations ConsoleListener

namespace System
variable {ObjectId Value : Type} {P : Library ObjectId} [ConsoleValue Value ObjectId]
  [ToString ObjectId] [DecidableEq ObjectId] {pmDebug : DebugFlags} {includeAutoDelete : Bool}

omit [ConsoleValue Value ObjectId] [ToString ObjectId] [DecidableEq ObjectId] in
theorem objectProps_mem_of_updates {actions : List (Action ObjectId Value)}
    {object : Object ObjectId Value} (h : .objectProps object ∈ updates actions) :
    .objectProps object ∈ actions := by
  obtain ⟨action, hmem, haction⟩ := List.mem_filterMap.mp h
  cases action with
  | objectProps update =>
    obtain rfl := ListenerCall.objectProps.inj (Option.some.inj haction)
    exact hmem
  | _ => exact absurd haction (by simp)

/-- The objects that the PMDA's thread got from the listener, or can get. -/
structure Drawn (Q : Object ObjectId Value → Prop) (s : System P Value) : Prop where
  stored : ∀ x object, s.pmda.listener.getProps x = some object → Q object
  fetched : ∀ x object, s.progress = .fetched x (some object) → Q object
  traced : ∀ x exit, (x, exit) ∈ s.trace → ∃ (props : Option (Object ObjectId Value))
    (pmda pmda' : Pmda P Value), (∀ object, props = some object → Q object) ∧
      Pmda.Registers x pmda props exit pmda'

theorem drawn_exec {Q : Object ObjectId Value → Prop} (action : Action ObjectId Value)
    {s : System P Value} (h : Drawn Q s)
    (hsaved : ∀ object, action = .objectProps object →
      propsSaved pmDebug s.pmda.listener.includeAutoDelete object = true → Q object) :
    Drawn Q (exec pmDebug action s) := by
  have hdoes := exec_does pmDebug action s
  generalize exec pmDebug action s = s' at hdoes
  cases hdoes with
  | objectProps object =>
    refine ⟨fun x stored hx => ?_, h.fetched, h.traced⟩
    rcases objectProps_getProps hx with hx | ⟨hobject, -, rfl⟩
    · exact h.stored x stored hx
    · exact hsaved stored rfl hobject
  | objectStats object =>
    refine ⟨fun x stored hx => h.stored x stored ?_, h.fetched, h.traced⟩
    simpa [withListener, getProps] using hx
  | begun hidle => exact ⟨h.stored, by simp, h.traced⟩
  | nothing => exact h
  | drained hlooping hq => exact ⟨h.stored, by simp, h.traced⟩
  | popped objectId rest hlooping hq => exact ⟨h.stored, by simp, h.traced⟩
  | fetched objectId hpopped =>
    refine ⟨h.stored, fun x object hx => ?_, h.traced⟩
    obtain ⟨rfl, hobject⟩ := Progress.fetched.inj hx
    exact h.stored objectId object hobject
  | ended objectId props exit pmda hfetched hr =>
    refine ⟨?_, fun x object hx => ?_, fun x exit' hx => ?_⟩
    · rw [hr.listener]
      exact h.stored
    · split_ifs at hx
    · rcases List.mem_append.mp hx with hx | hx
      · exact h.traced x exit' hx
      · obtain ⟨rfl, rfl⟩ := Prod.mk.inj (List.mem_singleton.mp hx)
        refine ⟨props, s.pmda, pmda, ?_, hr⟩
        rintro object rfl
        exact h.fetched x object hfetched

theorem drawn_after {Q : Object ObjectId Value → Prop} {actions : List (Action ObjectId Value)}
    (hsaved : ∀ object, .objectProps object ∈ actions →
      propsSaved pmDebug includeAutoDelete object = true → Q object) :
    Drawn Q (after P pmDebug includeAutoDelete actions) := by
  induction actions using List.reverseRecOn with
  | nil =>
    refine ⟨fun x object hx => ?_, fun x object hx => ?_, fun x exit hx => ?_⟩
    · simp [after, initial, Pmda.initial, start, setIncludeAutoDelete, new, getProps] at hx
    · simp [after, initial] at hx
    · simp [after, initial] at hx
  | append_singleton actions action ih =>
    rw [after_concat]
    obtain ⟨hinclude, -⟩ : SameMaps (after P pmDebug includeAutoDelete actions).pmda.listener
      (ListenerCall.history pmDebug includeAutoDelete (updates actions)) := after_sameMaps actions
    refine drawn_exec action
      (ih fun object hobject => hsaved object (List.mem_append_left _ hobject)) ?_
    rintro object rfl hobject
    rw [hinclude, ListenerCall.history_includeAutoDelete] at hobject
    exact hsaved object (by simp) hobject

section Names
variable (nameOf : ObjectId → String) (domainOf : ObjectId → Domain)

/-- The object carries the name and belongs to the domain that its id stands for. -/
structure Steady (object : Object ObjectId Value) : Prop where
  name : getName object true = .ok (nameOf object.objectId)
  named : nameOf object.objectId ≠ ""
  domain : domainOfType (getTypeObject object) = some (domainOf object.objectId)

/-- The object of these ids that comes last under a name of a domain. -/
def lastCalled (d : Domain) (name : String) (ids : List ObjectId) : Option ObjectId :=
  lastOf (fun x => if domainOf x = d ∧ nameOf x = name then some x else none) ids

variable {nameOf domainOf}

omit [ToString ObjectId] in
/-- Of steady objects that the cache takes, every iteration is a registration. -/
theorem Drawn.exit_steady {s : System P Value} (h : Drawn (Steady nameOf domainOf) s)
    (ha : Accounted s) (hstored : ∀ x e, (x, .storeException e) ∉ s.trace) {x : ObjectId}
    {exit : IterationExit ObjectId Value} (hx : (x, exit) ∈ s.trace) :
    ∃ r : Registration ObjectId Value, exit = .registered r ∧ r.objectId = x ∧
      r.name = nameOf x ∧ r.domain = domainOf x := by
  obtain ⟨-, hproperties, hsupported⟩ := ha.traced x exit hx
  obtain ⟨props, pmda, pmda', hprops, hr⟩ := h.traced x exit hx
  cases hr with
  | noProperties => exact absurd rfl hproperties
  | unsupportedType => exact absurd rfl hsupported
  | qpidException object domain e _ hraised =>
    exact absurd ((hprops object rfl).name.symm.trans hraised) (by simp)
  | noName object domain _ hempty =>
    have hsteady := hprops object rfl
    exact absurd (Except.ok.inj (hsteady.name.symm.trans hempty)) hsteady.named
  | storeException object domain name e => exact absurd hx (hstored x e)
  | registered r cache hid hdomain hname =>
    have hsteady := hprops r.props rfl
    obtain ⟨-, -, -, -, hpid⟩ := ha.registered x r hx
    rw [← hpid]
    exact ⟨r, rfl, hid.trans hpid.symm, Except.ok.inj (hname.symm.trans hsteady.name),
      Option.some.inj (hdomain.symm.trans hsteady.domain)⟩

omit [ConsoleValue Value ObjectId] [ToString ObjectId] [DecidableEq ObjectId] in
theorem lastNamed_eq_some {s : System P Value} {d : Domain} {name : String}
    {r : Registration ObjectId Value} (h : s.lastNamed d name = some r) :
    (∃ x, (x, .registered r) ∈ s.trace) ∧ r.domain = d ∧ r.name = name := by
  obtain ⟨⟨x, exit⟩, hmem, hat⟩ := exists_of_lastOf_eq_some h
  cases exit with
  | registered r' =>
    dsimp only at hat
    split_ifs at hat with hname
    obtain rfl := Option.some.inj hat
    exact ⟨⟨x, hmem⟩, hname⟩
  | _ => exact absurd hat (by simp)

omit [ToString ObjectId] in
/-- The registration that counts for a name is that of the object taken last under it. -/
theorem Drawn.lastNamed_objectId {s : System P Value} (h : Drawn (Steady nameOf domainOf) s)
    (ha : Accounted s) (hstored : ∀ x e, (x, .storeException e) ∉ s.trace) (d : Domain)
    (name : String) : (s.lastNamed d name).map (·.objectId) =
      lastCalled nameOf domainOf d name (s.trace.map Prod.fst) := by
  rw [lastNamed, map_lastOf, lastCalled, lastOf_map]
  apply lastOf_congr
  rintro ⟨x, exit⟩ hx
  obtain ⟨r, rfl, rfl, hname, hdomain⟩ := h.exit_steady ha hstored hx
  simp only [hname, hdomain]
  split_ifs <;> rfl

theorem taken_steady {actions : List (Action ObjectId Value)}
    (hsteady : ∀ object, .objectProps object ∈ actions →
      propsSaved pmDebug includeAutoDelete object = true → Steady nameOf domainOf object) :
    (after P pmDebug includeAutoDelete actions).taken =
      ListenerCall.discovered pmDebug includeAutoDelete (updates actions) := by
  rw [taken_after, ListenerCall.announced_eq_discovered]
  intro object hobject
  obtain ⟨call, hcall, hsaved⟩ := List.mem_filterMap.mp hobject
  cases call with
  | objectProps update =>
    simp only [ListenerCall.savedProps, Option.ite_none_right_eq_some, Option.some.injEq] at hsaved
    obtain ⟨hsaved, rfl⟩ := hsaved
    have hname := (hsteady update (objectProps_mem_of_updates hcall) hsaved).name
    simp [ListenerCall.loggable, toStringObject, hname, bind, Except.bind, pure, Except.pure]
  | _ => exact absurd hsaved (by simp [ListenerCall.savedProps])

/-- While the objects keep their names and types and the cache takes every name, the ids taken are
the known objects in the order of their discovery. A domain lists the names of those whose
iteration has ended and no other, each at one instance, and there a fetch gives the metric of the
last accepted update of the object that was discovered last under the name. -/
theorem steady_objects (hP : P.Lawful) (actions : List (Action ObjectId Value))
    (hsteady : ∀ object, .objectProps object ∈ actions →
      propsSaved pmDebug includeAutoDelete object = true → Steady nameOf domainOf object)
    (hstored : ∀ x e, (x, .storeException e) ∉
      (after P pmDebug includeAutoDelete actions).trace) :
    (after P pmDebug includeAutoDelete actions).trace.map Prod.fst ++
        (after P pmDebug includeAutoDelete actions).progress.inHand.toList ++
        (after P pmDebug includeAutoDelete actions).pmda.listener.newObjects =
      ListenerCall.discovered pmDebug includeAutoDelete (updates actions) ∧
    (∀ x, x ∈ ListenerCall.discovered pmDebug includeAutoDelete (updates actions) ↔
      ((after P pmDebug includeAutoDelete actions).pmda.listener.getProps x).isSome) ∧
    (∀ d name, lastCalled nameOf domainOf d name
        ((after P pmDebug includeAutoDelete actions).trace.map Prod.fst) = none →
      ∀ i, P.instanceName ((after P pmDebug includeAutoDelete actions).pmda.domains d) i ≠
        some name) ∧
    ∀ d name x, lastCalled nameOf domainOf d name
        ((after P pmDebug includeAutoDelete actions).trace.map Prod.fst) = some x →
      ∃ i, (∀ j, P.instanceName
          ((after P pmDebug includeAutoDelete actions).pmda.domains d) j = some name ↔ j = i) ∧
        ∀ metric, domainOfCluster metric.cluster = some d → metric.inst = i →
          Pmda.fetchValue metric (after P pmDebug includeAutoDelete actions).pmda =
            (Pmda.resultOf metric
              (lastAccepted pmDebug includeAutoDelete metric.cluster x actions),
            (after P pmDebug includeAutoDelete actions).pmda) := by
  have ha : Accounted (after P pmDebug includeAutoDelete actions) := after_accounted actions
  have hc : Cached (after P pmDebug includeAutoDelete actions) := after_cached hP actions
  have hlast (d : Domain) (name : String) :
      ((after P pmDebug includeAutoDelete actions).lastNamed d name).map (·.objectId) = _ :=
    (drawn_after hsteady).lastNamed_objectId ha hstored d name
  refine ⟨taken_steady hsteady, fun x => ?_, fun d name hnone i hlisted => ?_,
    fun d name x hx => ?_⟩
  · obtain ⟨-, hprops, -⟩ : SameMaps (after P pmDebug includeAutoDelete actions).pmda.listener
      (ListenerCall.history pmDebug includeAutoDelete (updates actions)) := after_sameMaps actions
    rw [ListenerCall.mem_discovered, getProps, getProps, hprops]
  · obtain ⟨r, hr, rfl, -⟩ := hc.listed hlisted
    obtain ⟨⟨y, hy⟩, rfl, rfl⟩ := lastRegistration_mem hr
    have hsome := congrArg (Option.map (·.objectId)) ((hc.lastNamed_eq hy).trans hr)
    rw [hlast, hnone] at hsome
    exact absurd hsome (by simp)
  · rw [← hlast, Option.map_eq_some_iff] at hx
    obtain ⟨r, hnamed, rfl⟩ := hx
    obtain ⟨⟨y, hy⟩, rfl, rfl⟩ := lastNamed_eq_some hnamed
    have hr := (hc.lastNamed_eq hy).symm.trans hnamed
    refine ⟨r.inst, fun j => ⟨fun hj => ?_, ?_⟩, fun metric hcluster hinst => ?_⟩
    · obtain ⟨r', hr', hname, -⟩ := hc.listed hj
      exact hc.names r.domain j r.inst r' r hr' hr hname
    · rintro rfl
      exact (hc.registered _ _ r hr).2
    · rw [Pmda.fetchValue, fetchResult_registered hc hcluster (hinst ▸ hr), readObject_after]

end Names

theorem sharingStats_steady (object : Object Nat (QmfValue Nat))
    (h : .objectProps object ∈ sharingStats) :
    Steady (fun _ => "orders") (fun _ => .queue) object := by
  have hmem : object ∈ sameNames := by
    simpa [sharingStats, registerQueues] using h
  simp only [sameNames, List.mem_cons, List.not_mem_nil, or_false] at hmem
  rcases hmem with rfl | rfl
  · exact ⟨rfl, by decide, rfl⟩
  · exact ⟨rfl, by decide, rfl⟩

theorem sharingStats_stored (x : Nat) (e : PcpException) : (x, .storeException e) ∉
    (after (NameTable.library Nat) ⟨false, false⟩ false sharingStats).trace := by
  have htrace : (after (NameTable.library Nat) ⟨false, false⟩ false sharingStats).trace =
      sharing.trace := rfl
  rw [htrace, sharing_trace]
  simp

theorem steady_objects_sharingStats :
    ∃ i, (∀ j, (NameTable.library Nat).instanceName ((after (NameTable.library Nat) ⟨false, false⟩
        false sharingStats).pmda.domains .queue) j = some "orders" ↔ j = i) ∧
      (Pmda.fetchValue ⟨3, 0, i, .pmTypeU64⟩
        (after (NameTable.library Nat) ⟨false, false⟩ false sharingStats).pmda).1 =
          .ok ⟨.pmTypeU64, .uint64 7⟩ := by
  obtain ⟨-, -, -, hshown⟩ := steady_objects (NameTable.library_lawful Nat) sharingStats
    (fun object h _ => sharingStats_steady object h) sharingStats_stored
  obtain ⟨i, hlisted, hfetch⟩ := hshown .queue "orders" 2 (by decide)
  have hobject : lastAccepted ⟨false, false⟩ false 3 2 sharingStats =
      some (brokerObject "queue" 2 [("acquires", .uint64 7)]) := rfl
  refine ⟨i, hlisted, ?_⟩
  rw [hfetch ⟨3, 0, i, .pmTypeU64⟩ rfl rfl, hobject]
  rfl

end System

end QpidPmda.Qmf1
