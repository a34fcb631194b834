import QpidPmda.Pcp.NameTable
import QpidPmda.Qmf1.PmdaInvariants

/-! # What a listed instance stands for

A listed instance leads through the cache of its domain to an object whose
properties the listener holds, and the domain was chosen by the type of the
properties that the registration read. An instance belongs to a name, not to an
object: objects registered in one domain under one name share it, and the last
of them is the one that is fetched.
-/

namespace QpidPmda.Qmf1
open Qpid Pcp ConsoleUtils ConsoleValue Foundations ConsoleListener

namespace System
variable {ObjectId Value : Type} {P : Library ObjectId} [ConsoleValue Value ObjectId]
  [ToString ObjectId] [DecidableEq ObjectId] {pmDebug : DebugFlags} {includeAutoDelete : Bool}

omit [ConsoleValue Value ObjectId] [ToString ObjectId] [DecidableEq ObjectId] in
theorem lastRegistration_mem {s : System P Value} {d : Domain} {i : Int}
    {r : Registration ObjectId Value} (h : s.lastRegistration d i = some r) :
    (∃ x, (x, .registered r) ∈ s.trace) ∧ r.domain = d ∧ r.inst = i := by
  obtain ⟨⟨x, exit⟩, hmem, hat⟩ := exists_of_lastOf_eq_some h
  cases exit with
  | registered r' =>
    simp only [registrationAt] at hat
    split_ifs at hat with hdi
    obtain rfl := Option.some.inj hat
    exact ⟨⟨x, hmem⟩, hdi⟩
  | _ => exact absurd hat (by simp [registrationAt])

omit [ConsoleValue Value ObjectId] [ToString ObjectId] [DecidableEq ObjectId] in
theorem Cached.listed {s : System P Value} (h : Cached s) {d : Domain} {i : Int} {name : String}
    (hlisted : P.instanceName (s.pmda.domains d) i = some name) :
    ∃ r, s.lastRegistration d i = some r ∧ r.name = name ∧
      P.lookup s.pmda.cache d.indom i = .ok ⟨name, some r.objectId⟩ := by
  obtain ⟨r, hr⟩ := h.exists_registration (.inl (by rw [hlisted]; simp))
  obtain ⟨hlookup, hname⟩ := h.registered d i r hr
  obtain rfl := Option.some.inj (hlisted.symm.trans hname)
  exact ⟨r, hr, rfl, hlookup⟩

omit [ConsoleValue Value ObjectId] [ToString ObjectId] [DecidableEq ObjectId] in
theorem Cached.listed_iff {s : System P Value} (h : Cached s) (d : Domain) (i : Int)
    (name : String) : P.instanceName (s.pmda.domains d) i = some name ↔
      ∃ entry, P.lookup s.pmda.cache d.indom i = .ok entry ∧ entry.name = name := by
  constructor
  · intro hlisted
    obtain ⟨r, -, -, hlookup⟩ := h.listed hlisted
    exact ⟨_, hlookup, rfl⟩
  · rintro ⟨entry, hentry, rfl⟩
    obtain ⟨r, hr⟩ := h.exists_registration (.inr ⟨entry, hentry⟩)
    obtain ⟨hlookup, hname⟩ := h.registered d i r hr
    obtain rfl := Except.ok.inj (hentry.symm.trans hlookup)
    exact hname

/-- Behind the last registration of an instance, the listener decides what a fetch gives. -/
theorem fetchResult_registered {s : System P Value} (h : Cached s) {metric : MetricId}
    {d : Domain} {r : Registration ObjectId Value} (hd : domainOfCluster metric.cluster = some d)
    (hr : s.lastRegistration d metric.inst = some r) :
    Pmda.fetchResult metric s.pmda =
      Pmda.resultOf metric (Pmda.readObject metric.cluster r.objectId s.pmda.listener) :=
  Pmda.fetchResult_cached hd (h.registered d metric.inst r hr).1 rfl

omit [ToString ObjectId] in
theorem Accounted.known {s : System P Value} (h : Accounted s) {d : Domain} {i : Int}
    {r : Registration ObjectId Value} (hr : s.lastRegistration d i = some r) :
    (s.pmda.listener.getProps r.objectId).isSome := by
  obtain ⟨⟨x, hx⟩, -⟩ := lastRegistration_mem hr
  rw [(h.registered x r hx).1]
  exact (h.traced x _ hx).1

/-- The references of the instances are sound. -/
structure Integral (s : System P Value) : Prop where
  /-- A listed instance leads to an object with properties, whose type chose the domain. -/
  leads : ∀ d i name, P.instanceName (s.pmda.domains d) i = some name →
    ∃ r, s.lastRegistration d i = some r ∧
      P.lookup s.pmda.cache d.indom i = .ok ⟨name, some r.objectId⟩ ∧
      (s.pmda.listener.getProps r.objectId).isSome ∧
      r.props.objectId = r.objectId ∧ domainOfType (getTypeObject r.props) = some d
  /-- The domains list what their caches hold. -/
  pairs : ∀ d i name, P.instanceName (s.pmda.domains d) i = some name ↔
    ∃ entry, P.lookup s.pmda.cache d.indom i = .ok entry ∧ entry.name = name
  oneInstance : ∀ d i j name, P.instanceName (s.pmda.domains d) i = some name →
    P.instanceName (s.pmda.domains d) j = some name → i = j
  exits : ∀ x exit, (x, exit) ∈ s.trace → exit ≠ .noProperties ∧ exit ≠ .unsupportedType
  /-- A fetch of a properties metric does not fail for want of an instance. -/
  propertiesFound : ∀ metric d e, domainOfCluster metric.cluster = some d →
    metric.cluster % 2 = 0 → (P.instanceName (s.pmda.domains d) metric.inst).isSome →
    (Pmda.fetchValue metric s.pmda).1 = .error (.pcp e) → e.code ≠ .pmErrInst

theorem instances_integral (hP : P.Lawful) (actions : List (Action ObjectId Value)) :
    Integral (after P pmDebug includeAutoDelete actions) := by
  have hc : Cached (after P pmDebug includeAutoDelete actions) := after_cached hP actions
  have ha : Accounted (after P pmDebug includeAutoDelete actions) := after_accounted actions
  refine ⟨fun d i name hlisted => ?_, hc.listed_iff, fun d i j name hi hj => ?_,
    fun x exit hx => (ha.traced x exit hx).2, fun metric d e hd heven hlisted hfetch => ?_⟩
  · obtain ⟨r, hr, -, hlookup⟩ := hc.listed hlisted
    obtain ⟨⟨x, hx⟩, hdomain, -⟩ := lastRegistration_mem hr
    obtain ⟨hid, htype, -, -, hprops⟩ := ha.registered x r hx
    exact ⟨r, hr, hlookup, ha.known hr, hprops.trans hid.symm, hdomain ▸ htype⟩
  · obtain ⟨r, hr, hrname, -⟩ := hc.listed hi
    obtain ⟨r', hr', hrname', -⟩ := hc.listed hj
    exact hc.names d i j r r' hr hr' (hrname.trans hrname'.symm)
  · obtain ⟨name, hname⟩ := Option.isSome_iff_exists.mp hlisted
    obtain ⟨r, hr, -⟩ := hc.listed hname
    obtain ⟨props, hprops⟩ := Option.isSome_iff_exists.mp (ha.known hr)
    rw [Pmda.fetchValue, fetchResult_registered hc hd hr, Pmda.readObject, if_pos heven,
      hprops] at hfetch
    have hfault := metricValue_fault hfetch
    simpa [Fault.isValueFault] using hfault

/-- Two queues of one name. -/
def sameNames : List (Object Nat (QmfValue Nat)) :=
  [brokerObject "queue" 1 [("name", .string "orders")],
    brokerObject "queue" 2 [("name", .string "orders")]]

theorem instances_integral_sameNames :
    Integral (after (NameTable.library Nat) ⟨false, false⟩ false (registerQueues sameNames)) ∧
      (NameTable.library Nat).instanceName ((after (NameTable.library Nat) ⟨false, false⟩ false
        (registerQueues sameNames)).pmda.domains .queue) 0 = some "orders" :=
  ⟨instances_integral (NameTable.library_lawful Nat) _, by decide⟩

/-- The most recent registration under a name of a domain. -/
def lastNamed (s : System P Value) (domain : Domain) (name : String) :
    Option (Registration ObjectId Value) :=
  lastOf (fun x : ObjectId × IterationExit ObjectId Value => match x.2 with
    | .registered r => if r.domain = domain ∧ r.name = name then some r else none
    | _ => none) s.trace

omit [ConsoleValue Value ObjectId] [ToString ObjectId] [DecidableEq ObjectId] in
/-- In one domain, the same instance and the same name go together. -/
theorem Cached.inst_eq_iff {s : System P Value} (h : Cached s) {x₁ x₂ : ObjectId}
    {r₁ r₂ : Registration ObjectId Value} (h₁ : (x₁, .registered r₁) ∈ s.trace)
    (h₂ : (x₂, .registered r₂) ∈ s.trace) (hd : r₁.domain = r₂.domain) :
    r₁.inst = r₂.inst ↔ r₁.name = r₂.name := by
  obtain ⟨r₁', hr₁, hn₁⟩ := h.stable x₁ r₁ h₁
  obtain ⟨r₂', hr₂, hn₂⟩ := h.stable x₂ r₂ h₂
  constructor
  · intro hi
    rw [hd, hi, hr₂] at hr₁
    obtain rfl := Option.some.inj hr₁
    exact hn₁.symm.trans hn₂
  · intro hn
    rw [hd] at hr₁
    exact h.names _ _ _ r₁' r₂' hr₁ hr₂ ((hn₁.trans hn).trans hn₂.symm)

omit [ConsoleValue Value ObjectId] [ToString ObjectId] [DecidableEq ObjectId] in
theorem Cached.lastNamed_eq {s : System P Value} (h : Cached s) {x : ObjectId}
    {r : Registration ObjectId Value} (hr : (x, .registered r) ∈ s.trace) :
    s.lastNamed r.domain r.name = s.lastRegistration r.domain r.inst := by
  apply lastOf_congr
  rintro ⟨y, exit⟩ hy
  cases exit with
  | registered r' =>
    by_cases hd : r'.domain = r.domain
    · simp [registrationAt, hd, h.inst_eq_iff hy hr hd]
    · simp [registrationAt, hd]
  | _ => rfl

/-- An iteration of the run took the id, found this name in the properties that it read, and could
store it in the cache of the domain. -/
def StoredUnder (P : Library ObjectId) (pmDebug : DebugFlags) (includeAutoDelete : Bool)
    (actions : List (Action ObjectId Value)) (x : ObjectId) (d : Domain) (name : String) : Prop :=
  ∃ before rest props result, actions = before ++ .advance :: rest ∧
    (after P pmDebug includeAutoDelete before).progress = .fetched x (some props) ∧
    domainOfType (getTypeObject props) = some d ∧ getName props true = .ok name ∧ name ≠ "" ∧
    P.store (after P pmDebug includeAutoDelete before).pmda.cache d.indom name x = .ok result

theorem StoredUnder.registered {actions : List (Action ObjectId Value)} {x : ObjectId} {d : Domain}
    {name : String} (h : StoredUnder P pmDebug includeAutoDelete actions x d name) :
    ∃ r, (x, .registered r) ∈ (after P pmDebug includeAutoDelete actions).trace ∧
      r.domain = d ∧ r.name = name := by
  obtain ⟨before, rest, props, result, rfl, hprogress, hdomain, hname, hne, hstore⟩ := h
  obtain ⟨r, hexit, hd, hn⟩ := Pmda.Registers.of_stored
    (Pmda.register_exit x (some props) (after P pmDebug includeAutoDelete before).pmda)
    hdomain hname hne hstore
  refine ⟨r, ?_, hd, hn⟩
  rw [after, run_append, run_cons]
  refine (isPrefix_trace_run pmDebug rest _).subset ?_
  change (x, IterationExit.registered r) ∈
    (exec pmDebug .advance (after P pmDebug includeAutoDelete before)).trace
  simp [exec, advance, hprogress, hexit]

/-- The object was registered at the instance, which is listed under the name and whose fetches read
the object that was registered under the name last. -/
structure Served (s : System P Value) (x : ObjectId) (d : Domain) (i : Int) (name : String) :
    Prop where
  registered : ∃ r, (x, .registered r) ∈ s.trace ∧ r.domain = d ∧ r.inst = i ∧ r.name = name
  listed : P.instanceName (s.pmda.domains d) i = some name
  fetched : ∃ last, s.lastNamed d name = some last ∧ ∀ metric object,
    domainOfCluster metric.cluster = some d → metric.inst = i →
    Pmda.readObject metric.cluster last.objectId s.pmda.listener = some object →
    (Pmda.fetchValue metric s.pmda).1 = metricValue metric object

theorem Cached.served {s : System P Value} (h : Cached s) {x : ObjectId}
    {r : Registration ObjectId Value} (hr : (x, .registered r) ∈ s.trace) :
    Served s x r.domain r.inst r.name := by
  obtain ⟨last, hlast, -⟩ := h.stable x r hr
  refine ⟨⟨r, hr, rfl, rfl, rfl⟩, (h.kept hr).1, last, (h.lastNamed_eq hr).trans hlast, ?_⟩
  intro metric object hcluster hinst hobject
  rw [Pmda.fetchValue, fetchResult_registered h hcluster (hinst ▸ hlast), hobject, Pmda.resultOf]

/-- Two objects of one domain that were consumed under names which the cache took are both listed,
each under its name, and share an instance exactly when the names are equal. A fetch at an instance
reads the object that was last registered under its name. -/
theorem registrations_by_name (hP : P.Lawful) (actions : List (Action ObjectId Value))
    {x₁ x₂ : ObjectId} {d : Domain} {name₁ name₂ : String}
    (h₁ : StoredUnder P pmDebug includeAutoDelete actions x₁ d name₁)
    (h₂ : StoredUnder P pmDebug includeAutoDelete actions x₂ d name₂) :
    ∃ i₁ i₂, Served (after P pmDebug includeAutoDelete actions) x₁ d i₁ name₁ ∧
      Served (after P pmDebug includeAutoDelete actions) x₂ d i₂ name₂ ∧
      (i₁ = i₂ ↔ name₁ = name₂) := by
  have hc : Cached (after P pmDebug includeAutoDelete actions) := after_cached hP actions
  obtain ⟨r₁, hr₁, rfl, rfl⟩ := h₁.registered
  obtain ⟨r₂, hr₂, hd, rfl⟩ := h₂.registered
  exact ⟨r₁.inst, r₂.inst, hc.served hr₁, hd ▸ hc.served hr₂, hc.inst_eq_iff hr₁ hr₂ hd.symm⟩

/-- The system after the two queues were registered. -/
def sharing : System (NameTable.library Nat) (QmfValue Nat) :=
  after (NameTable.library Nat) ⟨false, false⟩ false (registerQueues sameNames)

theorem sharing_trace : sharing.trace = sameNames.map fun queue =>
    (queue.objectId, .registered ⟨.queue, 0, "orders", queue.objectId, queue⟩) := rfl

theorem mem_sharing_trace {queue : Object Nat (QmfValue Nat)} (h : queue ∈ sameNames) :
    (queue.objectId, .registered ⟨.queue, 0, "orders", queue.objectId, queue⟩) ∈ sharing.trace := by
  rw [sharing_trace]
  exact List.mem_map_of_mem h

theorem registrations_by_name_sameNames :
    ∃ i₁ i₂, Served sharing 1 .queue i₁ "orders" ∧ Served sharing 2 .queue i₂ "orders" ∧
      i₁ = i₂ := by
  have h₁ : StoredUnder (NameTable.library Nat) ⟨false, false⟩ false (registerQueues sameNames) 1
      .queue "orders" :=
    ⟨(registerQueues sameNames).take 5, _, _, _, rfl, rfl, rfl, rfl, by decide, rfl⟩
  have h₂ : StoredUnder (NameTable.library Nat) ⟨false, false⟩ false (registerQueues sameNames) 2
      .queue "orders" :=
    ⟨(registerQueues sameNames).take 8, _, _, _, rfl, rfl, rfl, rfl, by decide, rfl⟩
  obtain ⟨i₁, i₂, hserved₁, hserved₂, hinst⟩ := registrations_by_name
    (NameTable.library_lawful Nat) (registerQueues sameNames) h₁ h₂
  exact ⟨i₁, i₂, hserved₁, hserved₂, hinst.mpr rfl⟩

/-- Two queues of one name do not get two instances. -/
theorem same_name_same_instance :
    ¬ ∀ (actions : List (Action Nat (QmfValue Nat))) (d : Domain) (a b : Nat), a ≠ b →
      (∀ x ∈ [a, b], ∃ object, .objectProps object ∈ actions ∧ object.objectId = x ∧
        propsSaved ⟨false, false⟩ false object = true ∧ Named object ∧
        domainOfType (getTypeObject object) = some d) →
      (∀ x ∈ [a, b], x ∈ (after (NameTable.library Nat) ⟨false, false⟩ false actions).trace.map
        Prod.fst) →
      ∃ i j, i ≠ j ∧
        (∃ name, (NameTable.library Nat).lookup (after (NameTable.library Nat) ⟨false, false⟩ false
          actions).pmda.cache d.indom i = .ok ⟨name, some a⟩) ∧
        ∃ name, (NameTable.library Nat).lookup (after (NameTable.library Nat) ⟨false, false⟩ false
          actions).pmda.cache d.indom j = .ok ⟨name, some b⟩ := by
  intro h
  have hdelivered : ∀ x ∈ [1, 2], ∃ object, .objectProps object ∈ registerQueues sameNames ∧
      object.objectId = x ∧ propsSaved ⟨false, false⟩ false object = true ∧ Named object ∧
      domainOfType (getTypeObject object) = some .queue := by
    intro x hx
    have hx' : x = 1 ∨ x = 2 := by simpa using hx
    rcases hx' with rfl | rfl
    · exact ⟨sameNames[0], List.mem_append_left _ (List.mem_map_of_mem (by simp [sameNames])), rfl,
        by decide, ⟨"orders", rfl, by decide⟩, rfl⟩
    · exact ⟨sameNames[1], List.mem_append_left _ (List.mem_map_of_mem (by simp [sameNames])), rfl,
        by decide, ⟨"orders", rfl, by decide⟩, rfl⟩
  obtain ⟨i, -, -, ⟨name, hi⟩, -⟩ := h (registerQueues sameNames) .queue 1 2 (by decide) hdelivered
    (by decide)
  have hc : Cached sharing := after_cached (NameTable.library_lawful Nat) _
  obtain ⟨r, hr⟩ := hc.exists_registration (.inr ⟨_, hi⟩)
  obtain ⟨hlookup, -⟩ := hc.registered .queue i r hr
  have hid : r.objectId = 1 := by
    have hentry := Except.ok.inj (hlookup.symm.trans hi)
    exact Option.some.inj (LookupResult.mk.inj hentry).2
  -- the instance that still leads to the first queue would show the second one
  obtain ⟨⟨x, hx⟩, hdomain, rfl⟩ := lastRegistration_mem hr
  have hname : r.name = "orders" := by
    rw [sharing_trace] at hx
    obtain ⟨queue, -, heq⟩ := List.mem_map.mp hx
    obtain rfl := IterationExit.registered.inj (Prod.mk.inj heq).2
    rfl
  have hnamed := (hc.lastNamed_eq hx).trans (hdomain ▸ hr)
  rw [hdomain, hname] at hnamed
  have hsecond : (sharing.lastNamed .queue "orders").map (·.objectId) = some 2 := rfl
  rw [hnamed, Option.map_some, hid] at hsecond
  exact absurd hsecond (by decide)

end System

end QpidPmda.Qmf1
