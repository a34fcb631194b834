import QpidPmda.Qmf1.FetchedValues
import QpidPmda.Qmf1.ListenerLinearization
import QpidPmda.Qmf1.PmdaThreads

/-! # The PMDA's thread among the threads of the console

While the PMDA's thread registers and fetches, the threads of the console run
the callbacks. Every schedule of these threads does what some run of whole calls
does: it carries out the callbacks in the order in which they take effect, and
gives each fetch the value that it has at one moment of that run.
-/

namespace QpidPmda.Qmf1
open Qpid Pcp ConsoleUtils ConsoleValue Foundations ConsoleListener ListenerThreads

variable {ObjectId Value : Type} {P : Library ObjectId} [ConsoleValue Value ObjectId]
  [ToString ObjectId] [DecidableEq ObjectId]

namespace System

theorem exists_of_mem_fetches {pmDebug : DebugFlags} {actions : List (Action ObjectId Value)}
    {s : System P Value} {metric : MetricId} {result : Except Fault Atom}
    (h : (metric, result) ∈ fetches pmDebug actions s) :
    ∃ earlier later, actions = earlier ++ later ∧
      result = (Pmda.fetchValue metric (run (exec pmDebug) earlier s).pmda).1 := by
  induction actions generalizing s with
  | nil => exact absurd h (by simp [fetches])
  | cons action actions ih =>
    rcases List.mem_append.mp h with h | h
    · refine ⟨[], action :: actions, rfl, ?_⟩
      unfold fetched at h
      split at h
      · obtain ⟨rfl, rfl⟩ := Prod.mk.inj (List.mem_singleton.mp h)
        rfl
      · exact absurd h (by simp)
    · obtain ⟨earlier, later, rfl, hresult⟩ := ih h
      exact ⟨action :: earlier, later, rfl, hresult⟩

/-- Behind every value there is a registration, and an accepted update of its object. -/
theorem fetchValue_ok {pmDebug : DebugFlags} {includeAutoDelete : Bool} (hP : P.Lawful)
    {actions : List (Action ObjectId Value)} {metric : MetricId} {atom : Atom}
    (h : (Pmda.fetchValue metric (after P pmDebug includeAutoDelete actions).pmda).1 = .ok atom) :
    ∃ description r object value,
      supportedMetric metric.cluster metric.item = some description ∧
      (after P pmDebug includeAutoDelete actions).lastRegistration description.domain metric.inst =
        some r ∧
      lastAccepted pmDebug includeAutoDelete metric.cluster r.objectId actions = some object ∧
      object.objectId = r.objectId ∧
      object.attributes.lookup description.metricName = some value ∧
      convert metric.type value = .ok atom := by
  rw [Pmda.fetchValue, Pmda.fetchResult_parts] at h
  obtain ⟨objectId, hlookup, hresult⟩ := bind_eq_ok_iff.mp h
  have hc : Cached (after P pmDebug includeAutoDelete actions) := after_cached hP actions
  rw [readObject_after] at hresult
  cases hobject : lastAccepted pmDebug includeAutoDelete metric.cluster objectId actions with
  | none => exact absurd hresult (by simp [hobject, Pmda.resultOf])
  | some object =>
    rw [hobject] at hresult
    obtain ⟨description, value, hsupported, hvalue, hconvert⟩ := metricValue_ok.mp hresult
    unfold Pmda.lookupObjectId at hlookup
    rw [domainOfCluster_supported hsupported] at hlookup
    dsimp only at hlookup
    split at hlookup
    · exact absurd hlookup (by simp)
    · rename_i entry hentry
      obtain ⟨r, hr⟩ := hc.exists_registration (.inr ⟨entry, hentry⟩)
      have hpair := Except.ok.inj (hentry.symm.trans (hc.registered _ _ r hr).1)
      rw [hpair] at hlookup
      obtain rfl : r.objectId = objectId := Except.ok.inj hlookup
      exact ⟨description, r, object, value, hsupported, hr, hobject, lastAccepted_objectId hobject,
        hvalue, hconvert⟩

end System

/-- The PMDA's thread among the threads of the console. -/
abbrev Threaded (Tid : Type) (P : Library ObjectId) (Value : Type) :=
  ClientWorld Tid Mutex (Section ObjectId Value) (ConsoleListener ObjectId Value)
    (ThreadCall ObjectId Value) (ThreadRet ObjectId Value) (PmdaThread P Value)

namespace Threaded
variable {Tid : Type} [DecidableEq Tid] {pmDebug : DebugFlags} {includeAutoDelete : Bool}
  {pmda : Tid}

def initial (Tid : Type) (P : Library ObjectId) (Value : Type) (includeAutoDelete : Bool) :
    Threaded Tid P Value := ⟨World.initial (start includeAutoDelete), PmdaThread.initial P Value⟩

/-- One move of a schedule, in which the thread `pmda` is that of the PMDA. -/
def perform (pmDebug : DebugFlags) (pmda : Tid) (s : Threaded Tid P Value)
    (move : ClientMove Tid (ThreadCall ObjectId Value) PmdaAct) : Option (Threaded Tid P Value) :=
  (PmdaThread.client Value P).perform (calls ObjectId Value pmDebug) pmda isCallback s move

/-- What the threads did, as a run of whole calls. -/
structure Refines (pmDebug : DebugFlags) (includeAutoDelete : Bool) (pmda : Tid)
    (s : Threaded Tid P Value) (actions : List (Action ObjectId Value)) : Prop where
  cache : (System.after P pmDebug includeAutoDelete actions).pmda.cache = s.own.cache
  domains : (System.after P pmDebug includeAutoDelete actions).pmda.domains = s.own.domains
  trace : (System.after P pmDebug includeAutoDelete actions).trace = s.own.trace
  /-- Unless the PMDA's thread is in a call of the listener, it stands where the run ends, and its
  fetches have returned what those of the run return. -/
  outside : s.world.threads pmda = none →
    (System.after P pmDebug includeAutoDelete actions).progress = s.own.activity.progress ∧
    s.own.results =
      System.fetches pmDebug actions (System.initial P Value includeAutoDelete)
  /-- The callbacks of the run are those of the console's threads, in the order in which they take
  effect. -/
  linearized : ∃ order, Linearization (atomic pmDebug) (start includeAutoDelete) s.world.completed
      order (System.after P pmDebug includeAutoDelete actions).pmda.listener ∧
    System.updates actions = (Client.otherCalls pmda order).filterMap callback
  listener : (∀ t p object, s.world.threads t = some p → p.call = .objectProps object →
      .propsMutex ∉ p.code.holds needs) →
    (System.after P pmDebug includeAutoDelete actions).pmda.listener = s.world.state

/-- The threads came to where they stand by events that are these actions. -/
def Traced (pmDebug : DebugFlags) (includeAutoDelete : Bool) (pmda : Tid)
    (s : Threaded Tid P Value) (actions : List (Action ObjectId Value)) : Prop :=
  ∃ events order final, Client.Accompanied (calls ObjectId Value pmDebug) (atomic pmDebug)
      (start includeAutoDelete) (Views pmDebug) pmda isCallback (PmdaThread.client Value P)
      (PmdaThread.initial P Value) s events order final ∧
    System.updates actions = (ClientEvent.calls events).filterMap callback ∧
    PmdaThread.Steps pmDebug actions (start includeAutoDelete) final
      (PmdaThread.initial P Value) ((PmdaThread.client Value P).ahead pmda s)

theorem traced_initial : Traced pmDebug includeAutoDelete pmda
    (initial Tid P Value includeAutoDelete) [] :=
  ⟨[], [], _, .initial (simulation includeAutoDelete), rfl, .refl (by
    simp [PmdaThread.Found, PmdaThread.initial])⟩

theorem Traced.schedule {s s' : Threaded Tid P Value} {actions : List (Action ObjectId Value)}
    (h : Traced pmDebug includeAutoDelete pmda s actions)
    {moves : List (ClientMove Tid (ThreadCall ObjectId Value) PmdaAct)}
    (hmoves : moves.foldlM (perform pmDebug pmda) s = some s') :
    ∃ more, Traced pmDebug includeAutoDelete pmda s' (actions ++ more) := by
  obtain ⟨events, order, final, hacc, hupdates, hsteps⟩ := h
  obtain ⟨moreEvents, order', final', hacc'⟩ :=
    hacc.schedule (simulation includeAutoDelete) moves hmoves
  have hrun : run ((PmdaThread.client Value P).happen (atomic pmDebug)) moreEvents
      (final, (PmdaThread.client Value P).ahead pmda s) =
        (final', (PmdaThread.client Value P).ahead pmda s') := by
    rw [← hacc.happened, ← run_append, hacc'.happened]
  obtain ⟨more, hmore, hsteps'⟩ := PmdaThread.steps_events pmDebug moreEvents
    (l := final) hsteps.found fun c hc => hacc'.calls_allowed c (by
      rw [ClientEvent.calls_append]
      exact List.mem_append_right _ hc)
  rw [hrun] at hsteps'
  refine ⟨more, events ++ moreEvents, order', final', hacc', ?_, hsteps.trans hsteps'⟩
  rw [System.updates_append, hupdates, hmore, ClientEvent.calls_append, List.filterMap_append]

theorem Traced.refines {s : Threaded Tid P Value} {actions : List (Action ObjectId Value)}
    (h : Traced pmDebug includeAutoDelete pmda s actions) :
    Refines pmDebug includeAutoDelete pmda s actions := by
  obtain ⟨events, order, final, hacc, hupdates, hsteps⟩ := h
  have hafter : System.after P pmDebug includeAutoDelete actions =
      ((PmdaThread.client Value P).ahead pmda s).system final := hsteps.system
  obtain ⟨hcache, hdomains, htrace⟩ : ((PmdaThread.client Value P).ahead pmda s).cache =
      s.own.cache ∧ ((PmdaThread.client Value P).ahead pmda s).domains = s.own.domains ∧
      ((PmdaThread.client Value P).ahead pmda s).trace = s.own.trace := by
    unfold Client.ahead
    split
    · exact ⟨rfl, rfl, rfl⟩
    · exact PmdaThread.resume_own s.own _
  have hlistener : (System.after P pmDebug includeAutoDelete actions).pmda.listener = final := by
    rw [hafter]
    rfl
  refine ⟨by rw [hafter]; exact hcache, by rw [hafter]; exact hdomains,
    by rw [hafter]; exact htrace, fun hnone => ⟨?_, ?_⟩, ⟨order, ?_, ?_⟩, fun houtside => ?_⟩
  · rw [hafter, Client.ahead_idle hnone]
    rfl
  · have hresults := hsteps.results
    rw [Client.ahead_idle hnone] at hresults
    exact hresults
  · rw [hlistener]
    exact hacc.linearized.linearization
  · rw [hupdates, hacc.calls]
  · rw [hlistener, hacc.linearized.related.state, pending_eq_none hacc.reachable houtside]
    rfl

/-- Every schedule of the threads refines a run of whole calls, and a longer schedule refines a
longer run. -/
theorem threads_refine
    {moves₁ moves₂ : List (ClientMove Tid (ThreadCall ObjectId Value) PmdaAct)}
    {s₁ s₂ : Threaded Tid P Value}
    (h₁ : moves₁.foldlM (perform pmDebug pmda) (initial Tid P Value includeAutoDelete) = some s₁)
    (h₂ : moves₂.foldlM (perform pmDebug pmda) s₁ = some s₂) :
    ∃ actions₁ actions₂, Refines pmDebug includeAutoDelete pmda s₁ actions₁ ∧
      Refines pmDebug includeAutoDelete pmda s₂ (actions₁ ++ actions₂) := by
  obtain ⟨actions₁, ht₁⟩ := traced_initial.schedule h₁
  obtain ⟨actions₂, ht₂⟩ := ht₁.schedule h₂
  rw [List.nil_append] at ht₁ ht₂
  exact ⟨actions₁, actions₂, ht₁.refines, ht₂.refines⟩

/-- A queue is announced and registered. -/
def announced : List (ClientMove Bool (ThreadCall Nat (QmfValue Nat)) PmdaAct) :=
  let queue : Object Nat (QmfValue Nat) := brokerObject "queue" 1 [("name", .string "orders")]
  .begin false (.objectProps queue) :: List.replicate 9 (.goOn false) ++
    .act .beginFetch :: .call :: List.replicate 4 .goOnSelf ++
    .call :: List.replicate 4 .goOnSelf ++ .act .register :: .call :: List.replicate 4 .goOnSelf

/-- Statistics are saved while the fetch of one of them waits for the mutex. -/
def fetchedMeanwhile : List (ClientMove Bool (ThreadCall Nat (QmfValue Nat)) PmdaAct) :=
  .begin false (.objectStats (brokerObject "queue" 1 [("acquires", .uint64 7)])) ::
    List.replicate 6 (.goOn false) ++ [.act (.fetch ⟨3, 0, 0, .pmTypeU64⟩), .call, .goOn false] ++
    List.replicate 4 .goOnSelf

theorem threads_refine_fetchedMeanwhile :
    ∃ (s₁ s₂ : Threaded Bool (NameTable.library Nat) (QmfValue Nat))
      (actions₁ actions₂ : List (Action Nat (QmfValue Nat))),
      announced.foldlM (perform ⟨false, false⟩ true) (initial Bool _ _ false) = some s₁ ∧
      fetchedMeanwhile.foldlM (perform ⟨false, false⟩ true) s₁ = some s₂ ∧
      s₂.own.trace.length = 1 ∧ s₂.own.results.length = 1 ∧
      Refines ⟨false, false⟩ false true s₁ actions₁ ∧
      Refines ⟨false, false⟩ false true s₂ (actions₁ ++ actions₂) := by
  have hcheck : ∀ s₁ ∈ announced.foldlM (perform ⟨false, false⟩ true)
      (initial Bool (NameTable.library Nat) (QmfValue Nat) false),
      ∀ s₂ ∈ fetchedMeanwhile.foldlM (perform ⟨false, false⟩ true) s₁,
        s₂.own.trace.length = 1 ∧ s₂.own.results.length = 1 := by decide
  obtain ⟨s₁, h₁⟩ : ∃ s₁, announced.foldlM (perform ⟨false, false⟩ true)
      (initial Bool (NameTable.library Nat) (QmfValue Nat) false) = some s₁ :=
    Option.isSome_iff_exists.mp (by decide)
  obtain ⟨s₂, h₂⟩ : ∃ s₂, fetchedMeanwhile.foldlM (perform ⟨false, false⟩ true) s₁ = some s₂ := by
    have hsome : ((announced.foldlM (perform ⟨false, false⟩ true)
        (initial Bool (NameTable.library Nat) (QmfValue Nat) false)).bind
          (fetchedMeanwhile.foldlM (perform ⟨false, false⟩ true))).isSome := by decide
    rw [h₁] at hsome
    exact Option.isSome_iff_exists.mp hsome
  obtain ⟨actions₁, actions₂, hr₁, hr₂⟩ := threads_refine h₁ h₂
  obtain ⟨htrace, hresults⟩ := hcheck s₁ h₁ s₂ h₂
  exact ⟨s₁, s₂, actions₁, actions₂, h₁, h₂, htrace, hresults, hr₁, hr₂⟩

/-- A value that a fetch returns between two moments at which the thread is outside the listener
is read from one state in between: it has seen all callbacks that took effect before the first
moment, and none that takes effect after the second. -/
theorem value_fresh (hP : P.Lawful)
    {moves₁ moves₂ : List (ClientMove Tid (ThreadCall ObjectId Value) PmdaAct)}
    {s₁ s₂ : Threaded Tid P Value}
    (h₁ : moves₁.foldlM (perform pmDebug pmda) (initial Tid P Value includeAutoDelete) = some s₁)
    (h₂ : moves₂.foldlM (perform pmDebug pmda) s₁ = some s₂)
    (outside₁ : s₁.world.threads pmda = none) (outside₂ : s₂.world.threads pmda = none)
    {metric : MetricId} {atom : Atom}
    (hvalue : (metric, .ok atom) ∈ s₂.own.results.drop s₁.own.results.length) :
    ∃ actions₁ earlier later, Refines pmDebug includeAutoDelete pmda s₁ actions₁ ∧
      Refines pmDebug includeAutoDelete pmda s₂ (actions₁ ++ earlier ++ later) ∧
      ∃ description r object value,
        supportedMetric metric.cluster metric.item = some description ∧
        (System.after P pmDebug includeAutoDelete (actions₁ ++ earlier)).lastRegistration
          description.domain metric.inst = some r ∧
        System.lastAccepted pmDebug includeAutoDelete metric.cluster r.objectId
          (actions₁ ++ earlier) = some object ∧
        object.objectId = r.objectId ∧
        object.attributes.lookup description.metricName = some value ∧
        convert metric.type value = .ok atom := by
  obtain ⟨actions₁, ht₁⟩ := traced_initial.schedule h₁
  obtain ⟨actions₂, ht₂⟩ := ht₁.schedule h₂
  rw [List.nil_append] at ht₁ ht₂
  have hr₁ := ht₁.refines
  have hr₂ := ht₂.refines
  obtain ⟨-, hresults₁⟩ := hr₁.outside outside₁
  obtain ⟨-, hresults₂⟩ := hr₂.outside outside₂
  rw [hresults₂, System.fetches_append, hresults₁, List.drop_left] at hvalue
  obtain ⟨earlier, later, rfl, hfetch⟩ := System.exists_of_mem_fetches hvalue
  have hok : (Pmda.fetchValue metric
      (System.after P pmDebug includeAutoDelete (actions₁ ++ earlier)).pmda).1 = .ok atom := by
    rw [System.after, run_append]
    exact hfetch.symm
  exact ⟨actions₁, earlier, later, hr₁, by rwa [List.append_assoc], System.fetchValue_ok hP hok⟩

theorem value_fresh_fetchedMeanwhile :
    ∃ (s₁ s₂ : Threaded Bool (NameTable.library Nat) (QmfValue Nat))
      (actions₁ earlier : List (Action Nat (QmfValue Nat)))
      (object : Object Nat (QmfValue Nat)) (value : QmfValue Nat),
      announced.foldlM (perform ⟨false, false⟩ true) (initial Bool _ _ false) = some s₁ ∧
      fetchedMeanwhile.foldlM (perform ⟨false, false⟩ true) s₁ = some s₂ ∧
      Refines ⟨false, false⟩ false true s₁ actions₁ ∧
      (∃ r, (System.after (NameTable.library Nat) ⟨false, false⟩ false
          (actions₁ ++ earlier)).lastRegistration .queue 0 = some r ∧
        System.lastAccepted ⟨false, false⟩ false 3 r.objectId (actions₁ ++ earlier) =
          some object) ∧
      object.attributes.lookup "acquires" = some value ∧
      convert .pmTypeU64 value = .ok ⟨.pmTypeU64, .uint64 7⟩ := by
  obtain ⟨s₁, h₁, houtside₁, hresults₁⟩ : ∃ s₁, announced.foldlM (perform ⟨false, false⟩ true)
      (initial Bool (NameTable.library Nat) (QmfValue Nat) false) = some s₁ ∧
        s₁.world.threads true = none ∧ s₁.own.results = [] := ⟨_, rfl, rfl, rfl⟩
  obtain ⟨s₂, h₂, houtside₂, hresults₂⟩ : ∃ s₂, (announced.foldlM (perform ⟨false, false⟩ true)
      (initial Bool (NameTable.library Nat) (QmfValue Nat) false)).bind
        (fetchedMeanwhile.foldlM (perform ⟨false, false⟩ true)) = some s₂ ∧
        s₂.world.threads true = none ∧
        s₂.own.results = [(⟨3, 0, 0, .pmTypeU64⟩, .ok ⟨.pmTypeU64, .uint64 7⟩)] :=
    ⟨_, rfl, rfl, rfl⟩
  rw [h₁] at h₂
  have hnew : ((⟨3, 0, 0, .pmTypeU64⟩ : MetricId),
      (.ok ⟨.pmTypeU64, .uint64 7⟩ : Except Fault Atom)) ∈
        s₂.own.results.drop s₁.own.results.length := by
    rw [hresults₁, hresults₂]
    exact List.mem_singleton_self _
  obtain ⟨actions₁, earlier, -, hr₁, -, description, r, object, value, hsupported, hr, hobject, -,
    hvalue, hconvert⟩ :=
    value_fresh (NameTable.library_lawful Nat) h₁ h₂ houtside₁ houtside₂ hnew
  obtain rfl := Option.some.inj (System.sharingStats_supported.symm.trans hsupported)
  exact ⟨s₁, s₂, actions₁, earlier, object, value, h₁, h₂, hr₁, ⟨r, hr, hobject⟩, hvalue, hconvert⟩

end Threaded

end QpidPmda.Qmf1
