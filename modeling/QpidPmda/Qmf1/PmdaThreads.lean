import QpidPmda.Foundations.LockedClients
import QpidPmda.Qmf1.ListenerThreads
import QpidPmda.Qmf1.PmdaRuns

/-! # The PMDA's thread

The PMDA is a client of the listener. Its thread takes the mutexes in its calls
of `getNewObjectId`, `getProps` and `getStats`, and works on its own cache and
domains between them. Each answer of the listener, and each thing that the
thread does by itself, is at most one action of a run of whole calls; a fetch
is the action at which the listener gives it the object.
-/

namespace QpidPmda.Qmf1
open Qpid Pcp ConsoleUtils ConsoleValue Foundations ConsoleListener ListenerThreads

variable {ObjectId Value : Type} {P : Library ObjectId}

namespace Pmda

/-- The part of `fetch_value` before it asks the listener. -/
def lookupObjectId (metric : MetricId) (cache : P.Cache) : Except Fault ObjectId :=
  match domainOfCluster metric.cluster with
  | none => .error .undefinedBehaviour
  | some domain =>
    match P.lookup cache domain.indom metric.inst with
    | .error e => .error (.pcp e)
    | .ok entry =>
      match entry.opaquePointer with
      | none => .error (.pcp ⟨.pmErrInst, none⟩)
      | some objectId => .ok objectId

variable [ConsoleValue Value ObjectId] [ToString ObjectId] [DecidableEq ObjectId]

/-- A fetch asks the cache, then the listener, and then reads the answer. -/
theorem fetchResult_parts (metric : MetricId) (s : Pmda P Value) :
    fetchResult metric s = lookupObjectId metric s.cache >>= fun objectId =>
      resultOf metric (readObject metric.cluster objectId s.listener) := by
  unfold fetchResult lookupObjectId
  cases domainOfCluster metric.cluster with
  | none => rfl
  | some domain =>
    dsimp only
    cases P.lookup s.cache domain.indom metric.inst with
    | error e => rfl
    | ok entry =>
      rcases entry with ⟨name, _ | objectId⟩
      · rfl
      · change _ = resultOf metric (readObject metric.cluster objectId s.listener)
        dsimp only
        cases readObject metric.cluster objectId s.listener <;> rfl

end Pmda

/-- What the PMDA's thread is doing: it may be in `begin_fetch_values`, or wait in `fetch_value`
for the object that the cache led to. -/
inductive Activity (ObjectId Value : Type) where
  | registering (progress : Progress ObjectId Value)
  | fetching (metric : MetricId) (objectId : ObjectId)

/-- Where the thread stands in `begin_fetch_values`. -/
def Activity.progress : Activity ObjectId Value → Progress ObjectId Value
  | .registering progress => progress
  | .fetching _ _ => .idle

/-- What belongs to the PMDA's thread alone. -/
structure PmdaThread (P : Library ObjectId) (Value : Type) where
  cache : P.Cache
  domains : Domain → P.InstanceDomain
  activity : Activity ObjectId Value
  trace : List (ObjectId × IterationExit ObjectId Value)
  /-- The fetches that have returned. -/
  results : List (MetricId × Except Fault Atom)

/-- What the thread does without the listener. -/
inductive PmdaAct where
  | beginFetch
  | register
  | fetch (metric : MetricId)

namespace PmdaThread

/-- The PMDA with this listener, as the runs of whole calls see it. -/
def system (listener : ConsoleListener ObjectId Value) (t : PmdaThread P Value) :
    System P Value := ⟨⟨listener, t.cache, t.domains⟩, t.activity.progress, t.trace⟩

def initial (P : Library ObjectId) (Value : Type) : PmdaThread P Value :=
  ⟨P.emptyCache, fun _ => P.emptyDomain, .registering .idle, [], []⟩

/-- The call of the listener that the thread makes next, if any. -/
def next (t : PmdaThread P Value) : Option (ThreadCall ObjectId Value) :=
  match t.activity with
  | .registering .looping => some .getNewObjectId
  | .registering (.popped objectId) => some (.getProps objectId)
  | .registering _ => none
  | .fetching metric objectId =>
    some (if metric.cluster % 2 = 0 then .getProps objectId else .getStats objectId)

variable [ConsoleValue Value ObjectId] [ToString ObjectId]

/-- Go on with what the listener returned. -/
def resume (t : PmdaThread P Value) (r : ThreadRet ObjectId Value) : PmdaThread P Value :=
  match t.activity, r with
  | .registering .looping, .id none => { t with activity := .registering .idle }
  | .registering .looping, .id (some objectId) =>
    { t with activity := .registering (.popped objectId) }
  | .registering (.popped objectId), .object props =>
    { t with activity := .registering (.fetched objectId props) }
  | .fetching metric _, .object object => { t with
      activity := .registering .idle
      results := t.results ++ [(metric, Pmda.resultOf metric object)] }
  | _, _ => t

/-- What the thread cannot do where it stands is left out. -/
def act (a : PmdaAct) (t : PmdaThread P Value) : PmdaThread P Value :=
  match t.activity, a with
  | .registering .idle, .beginFetch => { t with activity := .registering .looping }
  | .registering .idle, .fetch metric =>
    match Pmda.lookupObjectId metric t.cache with
    | .error fault => { t with results := t.results ++ [(metric, .error fault)] }
    | .ok objectId => { t with activity := .fetching metric objectId }
  | .registering (.fetched objectId props), .register =>
    -- the registration does not read the listener
    let next := Pmda.register objectId props ⟨ConsoleListener.new, t.cache, t.domains⟩
    { t with
      cache := next.2.cache
      domains := next.2.domains
      activity := .registering (if next.1.leaves.isNone then .looping else .idle)
      trace := t.trace ++ [(objectId, next.1)] }
  | _, _ => t

variable (P Value) in
/-- The PMDA as a client of the listener. -/
def client : Client (PmdaThread P Value) PmdaAct (ThreadCall ObjectId Value)
    (ThreadRet ObjectId Value) where
  next := next
  resume := resume
  act := act

/-- Only registrations touch the cache, the domains and the trace. -/
theorem resume_own (t : PmdaThread P Value) (r : ThreadRet ObjectId Value) :
    (t.resume r).cache = t.cache ∧ (t.resume r).domains = t.domains ∧
      (t.resume r).trace = t.trace := by
  unfold resume
  split <;> exact ⟨rfl, rfl, rfl⟩

end PmdaThread

theorem register_withListener [ConsoleValue Value ObjectId] (objectId : ObjectId)
    (props : Option (Object ObjectId Value)) (s : Pmda P Value)
    (l : ConsoleListener ObjectId Value) :
    Pmda.register objectId props { s with listener := l } =
      ((Pmda.register objectId props s).1,
        { (Pmda.register objectId props s).2 with listener := l }) := by
  unfold Pmda.register
  split
  · rfl
  · split
    · rfl
    · split
      · rfl
      · split_ifs
        · rfl
        · dsimp only
          split <;> rfl

/-- The callback that a call of the listener is, if it is one. -/
def callback : ThreadCall ObjectId Value → Option (ListenerCall ObjectId Value)
  | .objectProps object => some (.objectProps object)
  | .objectStats object => some (.objectStats object)
  | _ => none

/-- The threads of the console make no other calls. -/
def isCallback (c : ThreadCall ObjectId Value) : Bool := (callback c).isSome

variable [ConsoleValue Value ObjectId] [ToString ObjectId] [DecidableEq ObjectId]

namespace System

/-- The fetch that an action carries out, with its result. -/
def fetched (action : Action ObjectId Value) (s : System P Value) :
    Option (MetricId × Except Fault Atom) :=
  match action, s.progress with
  | .fetchValue metric, .idle => some (metric, (Pmda.fetchValue metric s.pmda).1)
  | _, _ => none

/-- The fetches of a run, each with its result in the state that it finds. -/
def fetches (pmDebug : DebugFlags) :
    List (Action ObjectId Value) → System P Value → List (MetricId × Except Fault Atom)
  | [], _ => []
  | action :: actions, s => (fetched action s).toList ++ fetches pmDebug actions
      (exec pmDebug action s)

theorem fetches_append (pmDebug : DebugFlags) (first second : List (Action ObjectId Value))
    (s : System P Value) : fetches pmDebug (first ++ second) s =
      fetches pmDebug first s ++ fetches pmDebug second (run (exec pmDebug) first s) := by
  induction first generalizing s with
  | nil => rfl
  | cons action first ih => simp only [List.cons_append, fetches, ih, run_cons, List.append_assoc]

omit [ConsoleValue Value ObjectId] [ToString ObjectId] [DecidableEq ObjectId] in
theorem updates_append (first second : List (Action ObjectId Value)) :
    updates (first ++ second) = updates first ++ updates second := List.filterMap_append ..

end System

namespace PmdaThread
variable {pmDebug : DebugFlags} {l : ConsoleListener ObjectId Value} {t : PmdaThread P Value}

/-- A fetch that waits for the listener waits for the object that the cache led to. -/
def Found (t : PmdaThread P Value) : Prop := ∀ metric objectId,
  t.activity = .fetching metric objectId → Pmda.lookupObjectId metric t.cache = .ok objectId

variable (pmDebug) in
/-- These actions take the system from where the thread and the listener stand to where they
stand next, with the fetches that the thread completes on the way. -/
structure Steps (actions : List (Action ObjectId Value)) (l l' : ConsoleListener ObjectId Value)
    (t t' : PmdaThread P Value) : Prop where
  system : run (System.exec pmDebug) actions (t.system l) = t'.system l'
  results : t'.results = t.results ++ System.fetches pmDebug actions (t.system l)
  found : t'.Found

theorem Steps.trans {l' l'' : ConsoleListener ObjectId Value} {t' t'' : PmdaThread P Value}
    {first second : List (Action ObjectId Value)} (h₁ : Steps pmDebug first l l' t t')
    (h₂ : Steps pmDebug second l' l'' t' t'') :
    Steps pmDebug (first ++ second) l l'' t t'' where
  system := by rw [run_append, h₁.system, h₂.system]
  results := by
    rw [System.fetches_append, h₁.system, h₂.results, h₁.results, List.append_assoc]
  found := h₂.found

theorem Steps.refl (h : t.Found) : Steps pmDebug [] l l t t :=
  ⟨rfl, by simp [System.fetches], h⟩

theorem steps_call (h : t.Found) : ∃ actions, System.updates actions = [] ∧
    Steps pmDebug actions l ((client Value P).happen (atomic pmDebug) .call (l, t)).1 t
      ((client Value P).happen (atomic pmDebug) .call (l, t)).2 := by
  rcases t with ⟨cache, domains, activity, trace, results⟩
  cases activity with
  | fetching metric objectId =>
    have hlookup : Pmda.lookupObjectId metric cache = .ok objectId := h metric objectId rfl
    have hfetch : (Pmda.fetchValue metric ⟨l, cache, domains⟩ : _ × Pmda P Value).1 =
        Pmda.resultOf metric (Pmda.readObject metric.cluster objectId l) := by
      rw [Pmda.fetchValue, Pmda.fetchResult_parts, hlookup]
      rfl
    refine ⟨[.fetchValue metric], rfl, ?_⟩
    by_cases heven : metric.cluster % 2 = 0
    · simp only [Client.happen, client, next, heven, if_true, atomic, resume]
      refine ⟨rfl, ?_, by simp [Found]⟩
      rw [Pmda.readObject, if_pos heven] at hfetch
      simp [System.fetches, System.fetched, system, Activity.progress, hfetch]
    · simp only [Client.happen, client, next, heven, if_false, atomic, resume]
      refine ⟨rfl, ?_, by simp [Found]⟩
      rw [Pmda.readObject, if_neg heven] at hfetch
      simp [System.fetches, System.fetched, system, Activity.progress, hfetch]
  | registering progress =>
    cases progress with
    | idle => exact ⟨[], rfl, .refl h⟩
    | looping =>
      refine ⟨[.advance], rfl, ?_⟩
      simp only [Client.happen, client, next, atomic, resume, getNewObjectId_listener]
      cases hq : l.newObjects with
      | nil =>
        refine ⟨?_, by simp [System.fetches, System.fetched], by simp [Found]⟩
        simp [System.exec, System.advance, system, Activity.progress, getNewObjectId_listener, hq,
          System.withListener]
      | cons objectId rest =>
        refine ⟨?_, by simp [System.fetches, System.fetched], by simp [Found]⟩
        simp [System.exec, System.advance, system, Activity.progress, getNewObjectId_listener, hq,
          System.withListener]
    | popped objectId =>
      exact ⟨[.advance], rfl, rfl, by simp [System.fetches, System.fetched, Client.happen, client,
        next, resume, atomic], by simp [Found, Client.happen, client, next, resume, atomic]⟩
    | fetched objectId props => exact ⟨[], rfl, .refl h⟩

omit [ToString ObjectId] in
theorem system_register {objectId : ObjectId} {props : Option (Object ObjectId Value)}
    (h : t.activity = .registering (.fetched objectId props)) :
    (act .register t).system l = (t.system l).advance := by
  rcases t with ⟨cache, domains, activity, trace, results⟩
  obtain rfl : activity = .registering (.fetched objectId props) := h
  have hregister := register_withListener objectId props
    (⟨ConsoleListener.new, cache, domains⟩ : Pmda P Value) l
  change _ = (⟨(Pmda.register objectId props ⟨l, cache, domains⟩).2,
    if (Pmda.register objectId props ⟨l, cache, domains⟩).1.leaves.isNone then .looping else .idle,
    trace ++ [(objectId, (Pmda.register objectId props ⟨l, cache, domains⟩).1)]⟩ : System P Value)
  rw [hregister]
  rfl

theorem steps_act (h : t.Found) (a : PmdaAct) : ∃ actions, System.updates actions = [] ∧
    Steps pmDebug actions l l t (act a t) := by
  rcases t with ⟨cache, domains, activity, trace, results⟩
  cases activity with
  | fetching metric objectId =>
    have hsame : act a (⟨cache, domains, .fetching metric objectId, trace, results⟩ :
        PmdaThread P Value) = ⟨cache, domains, .fetching metric objectId, trace, results⟩ := by
      cases a <;> rfl
    exact ⟨[], rfl, hsame.symm ▸ .refl h⟩
  | registering progress =>
    -- where the thread can do nothing, nothing is done
    have hnothing (hsame : act a (⟨cache, domains, .registering progress, trace, results⟩ :
        PmdaThread P Value) = ⟨cache, domains, .registering progress, trace, results⟩) :
        ∃ actions, System.updates actions = [] ∧
          Steps pmDebug actions l l (⟨cache, domains, .registering progress, trace, results⟩ :
            PmdaThread P Value)
            (act a ⟨cache, domains, .registering progress, trace, results⟩) :=
      ⟨[], rfl, hsame.symm ▸ .refl h⟩
    cases progress with
    | idle =>
      cases a with
      | beginFetch =>
        exact ⟨[.beginFetch], rfl, rfl, by simp [System.fetches, System.fetched, act],
          by simp [Found, act]⟩
      | register => exact hnothing rfl
      | fetch metric =>
        cases hlookup : Pmda.lookupObjectId metric cache with
        | error fault =>
          have hfetch : (Pmda.fetchValue metric ⟨l, cache, domains⟩ : _ × Pmda P Value).1 =
              .error fault := by
            rw [Pmda.fetchValue, Pmda.fetchResult_parts, hlookup]
            rfl
          refine ⟨[.fetchValue metric], rfl, ?_⟩
          simp only [act, hlookup]
          refine ⟨rfl, ?_, by simp [Found]⟩
          simp [System.fetches, System.fetched, system, Activity.progress, hfetch]
        | ok objectId =>
          refine ⟨[], rfl, ?_⟩
          simp only [act, hlookup]
          refine ⟨rfl, by simp [System.fetches], fun metric' objectId' heq => ?_⟩
          obtain ⟨rfl, rfl⟩ := Activity.fetching.inj heq
          exact hlookup
    | looping | popped objectId => exact hnothing (by cases a <;> rfl)
    | fetched objectId props =>
      cases a with
      | beginFetch | fetch metric => exact hnothing rfl
      | register =>
        refine ⟨[.advance], rfl, ?_, by simp [System.fetches, System.fetched, act],
          by simp [Found, act]⟩
        rw [system_register rfl]
        rfl

theorem steps_happen (pmDebug : DebugFlags) (h : t.Found)
    (event : ClientEvent (ThreadCall ObjectId Value) PmdaAct)
    (hcallback : ∀ c ∈ ClientEvent.calls [event], isCallback c = true) :
    ∃ actions, System.updates actions = (ClientEvent.calls [event]).filterMap callback ∧
      Steps pmDebug actions l ((client Value P).happen (atomic pmDebug) event (l, t)).1 t
        ((client Value P).happen (atomic pmDebug) event (l, t)).2 := by
  cases event with
  | call => exact steps_call h
  | act a => exact steps_act h a
  | other c =>
    cases c with
    | objectProps object =>
      exact ⟨[.objectProps object], rfl, rfl,
        by simp [System.fetches, System.fetched, Client.happen], h⟩
    | objectStats object =>
      exact ⟨[.objectStats object], rfl, rfl,
        by simp [System.fetches, System.fetched, Client.happen], h⟩
    | _ => exact absurd (hcallback _ List.mem_cons_self) (by simp [isCallback, callback])

/-- A run of events is a run of actions. -/
theorem steps_events (pmDebug : DebugFlags)
    (events : List (ClientEvent (ThreadCall ObjectId Value) PmdaAct))
    {l : ConsoleListener ObjectId Value} {t : PmdaThread P Value} (h : t.Found)
    (hcallback : ∀ c ∈ ClientEvent.calls events, isCallback c = true) :
    ∃ actions, System.updates actions = (ClientEvent.calls events).filterMap callback ∧
      Steps pmDebug actions l (run ((client Value P).happen (atomic pmDebug)) events (l, t)).1 t
        (run ((client Value P).happen (atomic pmDebug)) events (l, t)).2 := by
  induction events generalizing l t with
  | nil => exact ⟨[], rfl, .refl h⟩
  | cons event events ih =>
    rw [ClientEvent.calls_cons] at hcallback ⊢
    obtain ⟨first, hfirst, hsteps⟩ := steps_happen pmDebug (l := l) h event
      fun c hc => hcallback c (List.mem_append_left _ hc)
    obtain ⟨rest, hrest, hsteps'⟩ := ih hsteps.found fun c hc =>
      hcallback c (List.mem_append_right _ hc)
    refine ⟨first ++ rest, ?_, hsteps.trans hsteps'⟩
    rw [System.updates_append, hfirst, hrest, List.filterMap_append]

end PmdaThread

end QpidPmda.Qmf1
