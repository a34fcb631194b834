import QpidPmda.Foundations.LoneCalls
import QpidPmda.Qmf1.ThreadRefinement

/-! # Schedules that let every call finish

A call that a thread runs alone goes through its sections and does what the
whole function does. So the threads lose nothing of the runs of whole calls:
each of them is carried out by a schedule of the PMDA's thread and one thread of
the console.
-/

namespace QpidPmda.Qmf1
open Qpid Pcp ConsoleUtils ConsoleValue Foundations ConsoleListener ListenerThreads

variable {ObjectId Value : Type} {P : Library ObjectId} [ConsoleValue Value ObjectId]
  [ToString ObjectId] [DecidableEq ObjectId]

namespace ListenerThreads

theorem alone_objectProps (pmDebug : DebugFlags) (object : Object ObjectId Value)
    (l : ConsoleListener ObjectId Value) :
    (calls ObjectId Value pmDebug).Alone (.run (.filterProps object)) l
      (.callback (objectProps pmDebug object l).1) (objectProps pmDebug object l).2 := by
  refine .run ?_
  simp only [calls, exec, objectProps]
  cases filterProps pmDebug l.includeAutoDelete object with
  | error e => exact .ret _ _
  | ok saved =>
    cases saved with
    | false => exact .ret _ _
    | true =>
      refine .lock (.run ?_)
      simp only [exec, saveProps]
      cases l.props.lookup object.objectId with
      | some known => exact .unlock (.ret _ _)
      | none =>
        refine .run ?_
        simp only [exec, newText]
        cases notifyErrIf true (("new " ++ ·) <$> toStringObject object false) with
        | error e => exact .unlock (.ret _ _)
        | ok _ => exact .lock (.run (.unlock (.unlock (.ret _ _))))

theorem alone_objectStats (pmDebug : DebugFlags) (object : Object ObjectId Value)
    (l : ConsoleListener ObjectId Value) :
    (calls ObjectId Value pmDebug).Alone (.run (.filterStats object)) l
      (.callback (objectStats pmDebug object l).1) (objectStats pmDebug object l).2 := by
  refine .run ?_
  simp only [calls, exec, objectStats]
  cases filterStats pmDebug object with
  | error e => exact .ret _ _
  | ok passed =>
    cases passed with
    | false => exact .ret _ _
    | true =>
      dsimp only
      split_ifs with hincluded
      · exact .lock (.run (.unlock (.ret _ _)))
      · refine .lock (.run ?_)
        simp only [exec]
        cases checkProps pmDebug object l with
        | error e => exact .unlock (.ret _ _)
        | ok checked =>
          cases checked with
          | false => exact .unlock (.ret _ _)
          | true => exact .unlock (.lock (.run (.unlock (.ret _ _))))

theorem alone_atomic (pmDebug : DebugFlags) (c : ThreadCall ObjectId Value)
    (l : ConsoleListener ObjectId Value) :
    (calls ObjectId Value pmDebug).Alone ((calls ObjectId Value pmDebug).entry c) l
      (atomic pmDebug c l).1 (atomic pmDebug c l).2 := by
  cases c with
  | objectProps object => exact alone_objectProps pmDebug object l
  | objectStats object => exact alone_objectStats pmDebug object l
  | getProps id => exact .lock (.run (.unlock (.ret _ _)))
  | getStats id => exact .lock (.run (.unlock (.ret _ _)))
  | getNewObjectId => exact .lock (.run (.unlock (.ret _ _)))

end ListenerThreads

namespace PmdaThread
variable {pmDebug : DebugFlags} {l : ConsoleListener ObjectId Value} {t : PmdaThread P Value}

omit [DecidableEq ObjectId] in
theorem act_waiting (a : PmdaAct) (t : PmdaThread P Value)
    (h : (client Value P).next t ≠ none) : (client Value P).act a t = t := by
  rcases t with ⟨cache, domains, activity, trace, results⟩
  cases activity with
  | fetching metric objectId => cases a <;> rfl
  | registering progress =>
    cases progress with
    | idle | fetched objectId props => exact absurd rfl h
    | looping | popped objectId => cases a <;> rfl

variable (pmDebug) in
/-- These events take the thread and the listener through a whole action. -/
structure Performs (events : List (ClientEvent (ThreadCall ObjectId Value) PmdaAct))
    (action : Action ObjectId Value) (l l' : ConsoleListener ObjectId Value)
    (t t' : PmdaThread P Value) : Prop where
  callbacks : ∀ c ∈ ClientEvent.calls events, isCallback c = true
  happened : run ((client Value P).happen (atomic pmDebug)) events (l, t) = (l', t')
  system : t'.system l' = System.exec pmDebug action (t.system l)
  results : t'.results = t.results ++ (System.fetched action (t.system l)).toList
  between : ∃ progress, t'.activity = .registering progress

/-- Every action is a list of events. -/
theorem performs_action (pmDebug : DebugFlags) (action : Action ObjectId Value)
    (h : ∃ progress, t.activity = .registering progress) :
    ∃ events l' t', Performs pmDebug events action l l' t t' := by
  rcases t with ⟨cache, domains, activity, trace, results⟩
  obtain ⟨progress, rfl⟩ := h
  have hnone :
      ∀ c ∈ ClientEvent.calls ([] : List (ClientEvent (ThreadCall ObjectId Value) PmdaAct)),
        isCallback c = true := by simp [ClientEvent.calls]
  cases action with
  | objectProps object =>
    exact ⟨[.other (.objectProps object)], _, _, by simp [ClientEvent.calls, isCallback, callback],
      rfl, rfl, by simp [System.fetched], progress, rfl⟩
  | objectStats object =>
    exact ⟨[.other (.objectStats object)], _, _, by simp [ClientEvent.calls, isCallback, callback],
      rfl, rfl, by simp [System.fetched], progress, rfl⟩
  | beginFetch =>
    cases progress with
    | idle =>
      exact ⟨[.act .beginFetch], _, _, by simp [ClientEvent.calls], rfl, rfl,
        by simp [System.fetched, client, act], _, rfl⟩
    | looping | popped objectId | fetched objectId props =>
      exact ⟨[], _, _, hnone, rfl, rfl, by simp [System.fetched], _, rfl⟩
  | advance =>
    cases progress with
    | idle => exact ⟨[], _, _, hnone, rfl, rfl, by simp [System.fetched], _, rfl⟩
    | looping =>
      have hpop : (client Value P).happen (atomic pmDebug) .call
          (l, (⟨cache, domains, .registering .looping, trace, results⟩ : PmdaThread P Value)) =
        (l.getNewObjectId.2, resume ⟨cache, domains, .registering .looping, trace, results⟩
          (.id l.getNewObjectId.1)) := rfl
      cases hid : l.getNewObjectId with
      | mk id l' =>
        rw [hid] at hpop
        cases id with
        | none => exact ⟨[.call], _, _, by simp [ClientEvent.calls], hpop,
            by simp [System.exec, System.advance, system, Activity.progress, resume, hid,
              System.withListener], by simp [System.fetched, resume], _, rfl⟩
        | some objectId => exact ⟨[.call], _, _, by simp [ClientEvent.calls], hpop,
            by simp [System.exec, System.advance, system, Activity.progress, resume, hid,
              System.withListener], by simp [System.fetched, resume], _, rfl⟩
    | popped objectId =>
      exact ⟨[.call], _, _, by simp [ClientEvent.calls], rfl, rfl,
        by simp [System.fetched, client, resume, atomic], _, rfl⟩
    | fetched objectId props =>
      exact ⟨[.act .register], _, _, by simp [ClientEvent.calls], rfl, system_register rfl,
        by simp [System.fetched, client, act], _, rfl⟩
  | fetchValue metric =>
    cases progress with
    | looping | popped objectId | fetched objectId props =>
      exact ⟨[], _, _, hnone, rfl, rfl, by simp [System.fetched, system, Activity.progress], _, rfl⟩
    | idle =>
      have hfetch (x : Except Fault ObjectId) (hx : Pmda.lookupObjectId metric cache = x) :
          (Pmda.fetchValue metric ⟨l, cache, domains⟩ : _ × Pmda P Value).1 = x >>= fun objectId =>
            Pmda.resultOf metric (Pmda.readObject metric.cluster objectId l) := by
        rw [Pmda.fetchValue, Pmda.fetchResult_parts, hx]
      -- the thread asks the cache, and the listener if the cache leads to an object
      refine ⟨[.act (.fetch metric), .call], l, ⟨cache, domains, .registering .idle, trace,
        results ++ [(metric, (Pmda.fetchValue metric ⟨l, cache, domains⟩ : _ × Pmda P Value).1)]⟩,
        by simp [ClientEvent.calls], ?_, rfl,
        by simp [System.fetched, system, Activity.progress], _, rfl⟩
      cases hlookup : Pmda.lookupObjectId metric cache with
      | error fault =>
        rw [hfetch _ hlookup]
        simp [Client.happen, client, act, next, hlookup, bind, Except.bind]
      | ok objectId =>
        rw [hfetch _ hlookup]
        by_cases heven : metric.cluster % 2 = 0
        · simp [Client.happen, client, act, next, resume, atomic, hlookup, heven, Pmda.readObject,
            bind, Except.bind]
        · simp [Client.happen, client, act, next, resume, atomic, hlookup, heven, Pmda.readObject,
            bind, Except.bind]

theorem performs_run (pmDebug : DebugFlags) (actions : List (Action ObjectId Value))
    {l : ConsoleListener ObjectId Value} {t : PmdaThread P Value}
    (h : ∃ progress, t.activity = .registering progress) :
    ∃ events l' t', (∀ c ∈ ClientEvent.calls events, isCallback c = true) ∧
      run ((client Value P).happen (atomic pmDebug)) events (l, t) = (l', t') ∧
      t'.system l' = run (System.exec pmDebug) actions (t.system l) ∧
      t'.results = t.results ++ System.fetches pmDebug actions (t.system l) := by
  induction actions generalizing l t with
  | nil => exact ⟨[], l, t, by simp [ClientEvent.calls], rfl, rfl, by simp [System.fetches]⟩
  | cons action actions ih =>
    obtain ⟨events, l₁, t₁, hfirst⟩ := performs_action pmDebug (l := l) action h
    obtain ⟨more, l', t', hcallbacks, hrun, hsystem, hresults⟩ := ih (l := l₁) hfirst.between
    refine ⟨events ++ more, l', t', ?_, ?_, ?_, ?_⟩
    · intro c hc
      rcases List.mem_append.mp (ClientEvent.calls_append .. ▸ hc) with hc | hc
      · exact hfirst.callbacks c hc
      · exact hcallbacks c hc
    · rw [run_append, hfirst.happened, hrun]
    · rw [hsystem, hfirst.system, run_cons]
    · rw [hresults, hfirst.results, hfirst.system, System.fetches, List.append_assoc]

end PmdaThread

namespace Threaded
variable {Tid : Type} [DecidableEq Tid] {pmDebug : DebugFlags} {includeAutoDelete : Bool}
  {pmda console : Tid}

/-- Every run of whole calls is carried out by a schedule, with the results of its fetches. -/
theorem runs_scheduled (hconsole : console ≠ pmda) (actions : List (Action ObjectId Value)) :
    ∃ (moves : List (ClientMove Tid (ThreadCall ObjectId Value) PmdaAct))
      (s : Threaded Tid P Value),
      moves.foldlM (perform pmDebug pmda) (initial Tid P Value includeAutoDelete) = some s ∧
      (∀ t, s.world.threads t = none) ∧
      s.own.system s.world.state = System.after P pmDebug includeAutoDelete actions ∧
      s.own.results =
        System.fetches pmDebug actions (System.initial P Value includeAutoDelete) := by
  have hrest : Client.AtRest needs rank (initial Tid P Value includeAutoDelete) :=
    ⟨fun _ => rfl, LockedCalls.Reachable.owned disciplined
      (P := calls ObjectId Value pmDebug) (s := start includeAutoDelete) .refl⟩
  obtain ⟨events, l', t', hcallbacks, hrun, hsystem, hresults⟩ :=
    PmdaThread.performs_run pmDebug actions (l := start includeAutoDelete)
      (t := PmdaThread.initial P Value) ⟨.idle, rfl⟩
  obtain ⟨moves, s, hmoves, hrest', hs⟩ := hrest.run (PmdaThread.client Value P) isCallback
    disciplined (alone_atomic pmDebug) PmdaThread.act_waiting hconsole events
    hcallbacks
  obtain ⟨hstate, hown⟩ := Prod.mk.inj (hs.trans hrun)
  refine ⟨moves, s, hmoves, hrest'.idle, ?_, ?_⟩
  · rw [hstate, hown, hsystem]
    rfl
  · rw [hown, hresults]
    rfl

/-- The two queues of one name, registered by these two threads. -/
theorem runs_scheduled_sameNames :
    ∃ (moves : List (ClientMove Bool (ThreadCall Nat (QmfValue Nat)) PmdaAct))
      (s : Threaded Bool (NameTable.library Nat) (QmfValue Nat)),
      moves.foldlM (perform ⟨false, false⟩ true) (initial Bool _ _ false) = some s ∧
      s.own.trace.length = 2 := by
  obtain ⟨moves, s, hmoves, -, hs, -⟩ : ∃ (moves : List _)
      (s : Threaded Bool (NameTable.library Nat) (QmfValue Nat)),
      moves.foldlM (perform ⟨false, false⟩ true) (initial Bool _ _ false) = some s ∧ _ :=
    runs_scheduled (by decide : false ≠ true) (System.registerQueues System.sameNames)
  refine ⟨moves, s, hmoves, ?_⟩
  have htrace : s.own.trace = _ := congrArg System.trace hs
  rw [htrace]
  decide

end Threaded

end QpidPmda.Qmf1
