import Mathlib.Data.Finset.Insert
import Mathlib.Data.Finset.Erase
import QpidPmda.Foundations.LockedCalls
import QpidPmda.Qmf1.ListenerCalls

/-! # The listener's calls as threads run them

Each call is cut where the source takes or releases a mutex. `objectProps` holds
`propsMutex` from the lookup to the end, and takes `newObjectsMutex` inside it;
between the insertion and the push it builds the text of a log message, which
may raise. `objectStats` releases `propsMutex` before it takes `statsMutex`.
An exception releases what the call holds, as the scopes of the locks do.

The set of schemas that `logSchema` keeps under `DBG_TRACE_APPL2` is shared by
all threads and no mutex protects it. It has no part in the listener's state and
is left out here.
-/

namespace QpidPmda.Qmf1.ListenerThreads
open Qpid Pcp ConsoleUtils ConsoleValue Foundations ConsoleListener

inductive Mutex where
  | propsMutex
  | statsMutex
  | newObjectsMutex
  deriving DecidableEq

inductive ThreadCall (ObjectId Value : Type) where
  | objectProps (object : Object ObjectId Value)
  | objectStats (object : Object ObjectId Value)
  | getProps (id : ObjectId)
  | getStats (id : ObjectId)
  | getNewObjectId

inductive ThreadRet (ObjectId Value : Type) where
  | callback (result : CallbackResult)
  | object (object : Option (Object ObjectId Value))
  | id (id : Option ObjectId)

/-- The parts between the locks; `filterProps` and `filterStats` run without one. -/
inductive Section (ObjectId Value : Type) where
  | filterProps (object : Object ObjectId Value)
  | findProps (object : Object ObjectId Value)
  | logNew (object : Object ObjectId Value)
  | pushNew (object : Object ObjectId Value)
  | filterStats (object : Object ObjectId Value)
  | checkProps (object : Object ObjectId Value)
  | saveStats (object : Object ObjectId Value)
  | readProps (id : ObjectId)
  | readStats (id : ObjectId)
  | popNew

variable {ObjectId Value : Type}

abbrev ThreadCode (ObjectId Value : Type) :=
  Code Mutex (Section ObjectId Value) (ThreadRet ObjectId Value)

/-- Leave a callback with this result. -/
def leave (result : CallbackResult) : ThreadCode ObjectId Value := .ret (.callback result)

def entry : ThreadCall ObjectId Value → ThreadCode ObjectId Value
  | .objectProps object => .run (.filterProps object)
  | .objectStats object => .run (.filterStats object)
  | .getProps id => .lock .propsMutex (.run (.readProps id))
  | .getStats id => .lock .statsMutex (.run (.readStats id))
  | .getNewObjectId => .lock .newObjectsMutex (.run .popNew)

variable [ConsoleValue Value ObjectId] [ToString ObjectId]

/-- The text of the message about a new object, which is logged whatever the trace flags are. -/
def newText (object : Object ObjectId Value) : CallbackResult :=
  notifyErrIf true (("new " ++ ·) <$> toStringObject object false)

variable [DecidableEq ObjectId]

def exec (pmDebug : DebugFlags) : Section ObjectId Value → ConsoleListener ObjectId Value →
    ConsoleListener ObjectId Value × ThreadCode ObjectId Value
  | .filterProps object, l => (l, match filterProps pmDebug l.includeAutoDelete object with
    | .error e => leave (.error e)
    | .ok false => leave (.ok ())
    | .ok true => .lock .propsMutex (.run (.findProps object)))
  | .findProps object, l => ({ l with props := l.props.insert object.objectId object },
    match l.props.lookup object.objectId with
    | some _ => .unlock .propsMutex (leave (.ok ()))
    | none => .run (.logNew object))
  | .logNew object, l => (l, match newText object with
    | .error e => .unlock .propsMutex (leave (.error e))
    | .ok _ => .lock .newObjectsMutex (.run (.pushNew object)))
  | .pushNew object, l => ({ l with newObjects := l.newObjects ++ [object.objectId] },
    .unlock .newObjectsMutex (.unlock .propsMutex (leave (.ok ()))))
  | .filterStats object, l => (l, match filterStats pmDebug object with
    | .error e => leave (.error e)
    | .ok false => leave (.ok ())
    | .ok true =>
      if l.includeAutoDelete then .lock .statsMutex (.run (.saveStats object))
      else .lock .propsMutex (.run (.checkProps object)))
  | .checkProps object, l => (l, match checkProps pmDebug object l with
    | .error e => .unlock .propsMutex (leave (.error e))
    | .ok false => .unlock .propsMutex (leave (.ok ()))
    | .ok true => .unlock .propsMutex (.lock .statsMutex (.run (.saveStats object))))
  | .saveStats object, l => (saveStats object l, .unlock .statsMutex (leave (.ok ())))
  | .readProps id, l => (l, .unlock .propsMutex (.ret (.object (l.getProps id))))
  | .readStats id, l => (l, .unlock .statsMutex (.ret (.object (l.getStats id))))
  | .popNew, l => (l.getNewObjectId.2, .unlock .newObjectsMutex (.ret (.id l.getNewObjectId.1)))

/-- The calls that threads make on one listener. -/
def calls (ObjectId Value : Type) [ConsoleValue Value ObjectId] [ToString ObjectId]
    [DecidableEq ObjectId] (pmDebug : DebugFlags) :
    LockedCalls Mutex (Section ObjectId Value) (ConsoleListener ObjectId Value)
      (ThreadCall ObjectId Value) (ThreadRet ObjectId Value) where
  entry := entry
  exec := exec pmDebug

/-- A call as one thread alone runs it. -/
def atomic (pmDebug : DebugFlags) : ThreadCall ObjectId Value → ConsoleListener ObjectId Value →
    ThreadRet ObjectId Value × ConsoleListener ObjectId Value
  | .objectProps object, l =>
    (.callback (objectProps pmDebug object l).1, (objectProps pmDebug object l).2)
  | .objectStats object, l =>
    (.callback (objectStats pmDebug object l).1, (objectStats pmDebug object l).2)
  | .getProps id, l => (.object (l.getProps id), l)
  | .getStats id, l => (.object (l.getStats id), l)
  | .getNewObjectId, l => (.id l.getNewObjectId.1, l.getNewObjectId.2)

/-- The mutexes each section runs under. -/
def needs : Section ObjectId Value → Finset Mutex
  | .filterProps _ => ∅
  | .findProps _ => {.propsMutex}
  | .logNew _ => {.propsMutex}
  | .pushNew _ => {.newObjectsMutex, .propsMutex}
  | .filterStats _ => ∅
  | .checkProps _ => {.propsMutex}
  | .saveStats _ => {.statsMutex}
  | .readProps _ => {.propsMutex}
  | .readStats _ => {.statsMutex}
  | .popNew => {.newObjectsMutex}

/-- `newObjectsMutex` is the only mutex taken while another one is held. -/
def rank : Mutex → Nat
  | .propsMutex => 0
  | .statsMutex => 0
  | .newObjectsMutex => 1

/-- The object that is inserted but not yet pushed before this section. -/
def inserts : Section ObjectId Value → Option (Object ObjectId Value)
  | .logNew object => some object
  | .pushNew object => some object
  | _ => none

/-- What each section can do in a state: the state it leaves and the code it goes on with. -/
inductive Exit (pmDebug : DebugFlags) (l : ConsoleListener ObjectId Value) :
    Section ObjectId Value → ConsoleListener ObjectId Value → ThreadCode ObjectId Value → Prop
  | propsRaised (object e) (h : filterProps pmDebug l.includeAutoDelete object = .error e) :
      Exit pmDebug l (.filterProps object) l (leave (.error e))
  | propsDropped (object) (h : filterProps pmDebug l.includeAutoDelete object = .ok false) :
      Exit pmDebug l (.filterProps object) l (leave (.ok ()))
  | propsPassed (object) (h : filterProps pmDebug l.includeAutoDelete object = .ok true) :
      Exit pmDebug l (.filterProps object) l (.lock .propsMutex (.run (.findProps object)))
  | updated (object known) (h : l.props.lookup object.objectId = some known) :
      Exit pmDebug l (.findProps object) { l with props := l.props.insert object.objectId object }
        (.unlock .propsMutex (leave (.ok ())))
  | inserted (object) (h : l.props.lookup object.objectId = none) :
      Exit pmDebug l (.findProps object) { l with props := l.props.insert object.objectId object }
        (.run (.logNew object))
  | newRaised (object e) (h : newText object = .error e) :
      Exit pmDebug l (.logNew object) l (.unlock .propsMutex (leave (.error e)))
  | newLogged (object) (h : newText object = .ok ()) :
      Exit pmDebug l (.logNew object) l (.lock .newObjectsMutex (.run (.pushNew object)))
  | pushed (object) :
      Exit pmDebug l (.pushNew object) { l with newObjects := l.newObjects ++ [object.objectId] }
        (.unlock .newObjectsMutex (.unlock .propsMutex (leave (.ok ()))))
  | statsRaised (object e) (h : filterStats pmDebug object = .error e) :
      Exit pmDebug l (.filterStats object) l (leave (.error e))
  | statsDropped (object) (h : filterStats pmDebug object = .ok false) :
      Exit pmDebug l (.filterStats object) l (leave (.ok ()))
  | statsIncluded (object) (h : filterStats pmDebug object = .ok true)
      (hi : l.includeAutoDelete = true) :
      Exit pmDebug l (.filterStats object) l (.lock .statsMutex (.run (.saveStats object)))
  | statsPassed (object) (h : filterStats pmDebug object = .ok true)
      (hi : l.includeAutoDelete = false) :
      Exit pmDebug l (.filterStats object) l (.lock .propsMutex (.run (.checkProps object)))
  | checkRaised (object e) (h : checkProps pmDebug object l = .error e) :
      Exit pmDebug l (.checkProps object) l (.unlock .propsMutex (leave (.error e)))
  | checkDropped (object) (h : checkProps pmDebug object l = .ok false) :
      Exit pmDebug l (.checkProps object) l (.unlock .propsMutex (leave (.ok ())))
  | checkPassed (object) (h : checkProps pmDebug object l = .ok true) :
      Exit pmDebug l (.checkProps object) l
        (.unlock .propsMutex (.lock .statsMutex (.run (.saveStats object))))
  | saved (object) :
      Exit pmDebug l (.saveStats object) (saveStats object l) (.unlock .statsMutex (leave (.ok ())))
  | propsRead (id) :
      Exit pmDebug l (.readProps id) l (.unlock .propsMutex (.ret (.object (l.getProps id))))
  | statsRead (id) :
      Exit pmDebug l (.readStats id) l (.unlock .statsMutex (.ret (.object (l.getStats id))))
  | popped :
      Exit pmDebug l .popNew l.getNewObjectId.2
        (.unlock .newObjectsMutex (.ret (.id l.getNewObjectId.1)))

theorem exec_exit (pmDebug : DebugFlags) (s : Section ObjectId Value)
    (l : ConsoleListener ObjectId Value) :
    Exit pmDebug l s (exec pmDebug s l).1 (exec pmDebug s l).2 := by
  cases s with
  | filterProps object =>
    simp only [exec]
    split
    · exact .propsRaised object _ ‹_›
    · exact .propsDropped object ‹_›
    · exact .propsPassed object ‹_›
  | findProps object =>
    simp only [exec]
    split
    · exact .updated object _ ‹_›
    · exact .inserted object ‹_›
  | logNew object =>
    simp only [exec]
    split
    · exact .newRaised object _ ‹_›
    · exact .newLogged object ‹_›
  | pushNew object => exact .pushed object
  | filterStats object =>
    simp only [exec]
    split
    · exact .statsRaised object _ ‹_›
    · exact .statsDropped object ‹_›
    · split_ifs with hi
      · exact .statsIncluded object ‹_› hi
      · exact .statsPassed object ‹_› (by simpa using hi)
  | checkProps object =>
    simp only [exec]
    split
    · exact .checkRaised object _ ‹_›
    · exact .checkDropped object ‹_›
    · exact .checkPassed object ‹_›
  | saveStats object => exact .saved object
  | readProps id => exact .propsRead id
  | readStats id => exact .statsRead id
  | popNew => exact .popped

variable {pmDebug : DebugFlags}

theorem Exit.holds {l l' : ConsoleListener ObjectId Value} {s : Section ObjectId Value}
    {code : ThreadCode ObjectId Value} (h : Exit pmDebug l s l' code) :
    code.holds needs = needs s := by
  cases h <;> rfl

theorem Exit.ordered {l l' : ConsoleListener ObjectId Value} {s : Section ObjectId Value}
    {code : ThreadCode ObjectId Value} (h : Exit pmDebug l s l' code) :
    code.Ordered needs rank := by
  cases h <;> simp [leave, Code.Ordered, Code.holds, needs, rank]

theorem disciplined : (calls ObjectId Value pmDebug).Disciplined needs rank where
  entry_holds c := by cases c <;> rfl
  entry_ordered c := by cases c <;> simp [calls, entry, Code.Ordered, Code.holds, needs]
  exec_holds s l := (exec_exit pmDebug s l).holds
  exec_ordered s l := (exec_exit pmDebug s l).ordered

/-- Between the insertion and the push `propsMutex` is not released. -/
theorem Exit.not_touches {l l' : ConsoleListener ObjectId Value} {s s' : Section ObjectId Value}
    {code : ThreadCode ObjectId Value} (h : Exit pmDebug l s l' code) (hnext : code.next = some s')
    (hin : (inserts s').isSome) : ¬ code.Touches .propsMutex := by
  cases h <;> simp only [leave, Code.next, Option.some.injEq, reduceCtorEq] at hnext <;>
    subst hnext <;> simp_all [inserts, Code.Touches]

theorem keptInto_inserts : (calls ObjectId Value pmDebug).KeptInto .propsMutex
    fun s => (inserts s).isSome where
  entry c s hs hin := by
    cases c <;> obtain rfl := Option.some.inj hs <;> simp [inserts] at hin
  exec s l s' hs hin := (exec_exit pmDebug s l).not_touches hs hin

abbrev ListenerWorld (Tid ObjectId Value : Type) :=
  World Tid Mutex (Section ObjectId Value) (ConsoleListener ObjectId Value)
    (ThreadCall ObjectId Value) (ThreadRet ObjectId Value)

section CallOf
omit [DecidableEq ObjectId] [ConsoleValue Value ObjectId] [ToString ObjectId]

/-- The call that a section is a part of. -/
def callOf : Section ObjectId Value → ThreadCall ObjectId Value
  | .filterProps object => .objectProps object
  | .findProps object => .objectProps object
  | .logNew object => .objectProps object
  | .pushNew object => .objectProps object
  | .filterStats object => .objectStats object
  | .checkProps object => .objectStats object
  | .saveStats object => .objectStats object
  | .readProps id => .getProps id
  | .readStats id => .getStats id
  | .popNew => .getNewObjectId

theorem callOf_entry {c : ThreadCall ObjectId Value} {s : Section ObjectId Value}
    (h : (entry c).next = some s) : callOf s = c := by
  cases c <;> obtain rfl := Option.some.inj h <;> rfl

variable [DecidableEq ObjectId] [ConsoleValue Value ObjectId] [ToString ObjectId]
  {Tid : Type} [DecidableEq Tid] {start : ConsoleListener ObjectId Value}
  {w : ListenerWorld Tid ObjectId Value}

theorem Exit.callOf {l l' : ConsoleListener ObjectId Value} {s s' : Section ObjectId Value}
    {code : ThreadCode ObjectId Value} (h : Exit pmDebug l s l' code)
    (hnext : code.next = some s') : callOf s' = callOf s := by
  cases h <;> simp only [leave, Code.next, Option.some.injEq, reduceCtorEq] at hnext <;>
    subst hnext <;> rfl

theorem callOf_next (h : (calls ObjectId Value pmDebug).Reachable start w) :
    ∀ t c s, w.next t = some (c, s) → callOf s = c := by
  refine h.invariant (I := fun w => ∀ t c s, w.next t = some (c, s) → callOf s = c)
    (by simp [World.next_initial]) ?_
  intro w w' _ ih step u c s hnext
  rcases step.quiet_or_ran with htrace | ⟨t, p, s', busy, at_, rfl⟩
  · obtain ⟨-, heq | ⟨t, c', -, heq⟩⟩ := step.quiet htrace
    · exact ih u c s (heq ▸ hnext)
    · rcases update_eq_some (heq ▸ hnext) with ⟨-, hnew⟩ | ⟨-, hold⟩
      · obtain ⟨s', hs', hpair⟩ := Option.map_eq_some_iff.mp hnew
        obtain ⟨rfl, rfl⟩ := Prod.mk.inj hpair
        exact callOf_entry hs'
      · exact ih u c s hold
  · rw [LockedCalls.next_ran] at hnext
    rcases update_eq_some hnext with ⟨-, hnew⟩ | ⟨-, hold⟩
    · obtain ⟨s'', hs'', hpair⟩ := Option.map_eq_some_iff.mp hnew
      obtain ⟨rfl, rfl⟩ := Prod.mk.inj hpair
      have hat : w.next t = some (p.call, s') :=
        World.next_eq_some.mpr ⟨p, busy, rfl, by rw [at_]; rfl⟩
      exact ((exec_exit pmDebug s' w.state).callOf hs'').trans (ih t _ _ hat)
    · exact ih u c s hold

end CallOf

section Pending
variable {Tid : Type}

omit [DecidableEq ObjectId] [ConsoleValue Value ObjectId] [ToString ObjectId]

/-- The object that was inserted by the owner of `propsMutex` and is not yet pushed. -/
def pending (w : ListenerWorld Tid ObjectId Value) : Option (Object ObjectId Value) :=
  (w.owner .propsMutex).bind fun t => (w.next t).bind fun q => inserts q.2

theorem needs_of_inserts {s : Section ObjectId Value} (h : (inserts s).isSome) :
    .propsMutex ∈ needs s := by
  cases s <;> simp [inserts, needs] at h ⊢

variable [DecidableEq ObjectId] [ConsoleValue Value ObjectId] [ToString ObjectId]
  [DecidableEq Tid] {start : ConsoleListener ObjectId Value}
  {w w' : ListenerWorld Tid ObjectId Value}

theorem pending_eq_some_iff (h : (calls ObjectId Value pmDebug).Reachable start w)
    (object : Object ObjectId Value) : pending w = some object ↔
      ∃ t c s, w.next t = some (c, s) ∧ inserts s = some object := by
  constructor
  · intro hp
    obtain ⟨t, -, ht⟩ := Option.bind_eq_some_iff.mp hp
    obtain ⟨⟨c, s⟩, hnext, hs⟩ := Option.bind_eq_some_iff.mp ht
    exact ⟨t, c, s, hnext, hs⟩
  · rintro ⟨t, c, s, hnext, hs⟩
    have hin : (inserts s).isSome := by rw [hs]; rfl
    have howner := keptInto_inserts.owner disciplined h hnext hin (needs_of_inserts hin)
    simp [pending, howner, hnext, hs]

/-- Outside the section under `propsMutex` no insertion waits for its push. -/
theorem pending_eq_none (h : (calls ObjectId Value pmDebug).Reachable start w)
    (houtside : ∀ t p object, w.threads t = some p → p.call = .objectProps object →
      .propsMutex ∉ p.code.holds needs) : pending w = none := by
  cases hp : pending w with
  | none => rfl
  | some object =>
    obtain ⟨t, c, s, hnext, hs⟩ := (pending_eq_some_iff h object).mp hp
    have hin : (inserts s).isSome := by rw [hs]; rfl
    have howner := keptInto_inserts.owner disciplined h hnext hin (needs_of_inserts hin)
    have hcallOf := callOf_next h t c s hnext
    obtain ⟨p, hthread, hholds⟩ := ((h.owned disciplined).owner t .propsMutex).mp howner
    obtain ⟨q, hq, hcall, -⟩ := World.next_eq_some.mp hnext
    obtain rfl := Option.some.inj (hthread.symm.trans hq)
    cases s with
    | logNew o => exact absurd hholds (houtside t p o hthread (hcall.trans hcallOf.symm))
    | pushNew o => exact absurd hholds (houtside t p o hthread (hcall.trans hcallOf.symm))
    | _ => exact absurd hs (by simp [inserts])

theorem pending_quiet (h : (calls ObjectId Value pmDebug).Reachable start w)
    (step : (calls ObjectId Value pmDebug).Step w w') (htrace : w'.trace = w.trace) :
    pending w' = pending w := by
  apply Option.ext
  intro object
  rw [pending_eq_some_iff h, pending_eq_some_iff (h.tail step)]
  obtain ⟨-, heq | ⟨t, c, hidle, heq⟩⟩ := step.quiet htrace
  · rw [heq]
  · have hentry (s : Section ObjectId Value) (hs : (entry c).next = some s) : inserts s = none := by
      cases c <;> obtain rfl := Option.some.inj hs <;> rfl
    constructor
    · rintro ⟨u, c', s, hnext, hs⟩
      rcases update_eq_some (heq ▸ hnext) with ⟨-, hnew⟩ | ⟨-, hold⟩
      · obtain ⟨s', hs', hpair⟩ := Option.map_eq_some_iff.mp hnew
        obtain ⟨-, rfl⟩ := Prod.mk.inj hpair
        exact absurd (hs.symm.trans (hentry s' hs')) (by simp)
      · exact ⟨u, c', s, hold, hs⟩
    · rintro ⟨u, c', s, hnext, hs⟩
      have hu : u ≠ t := by
        rintro rfl
        exact absurd (hidle.symm.trans hnext) (by simp)
      exact ⟨u, c', s, by rw [heq, Function.update_of_ne hu]; exact hnext, hs⟩

variable {t : Tid} {p : Running Mutex (Section ObjectId Value) (ThreadCall ObjectId Value)
  (ThreadRet ObjectId Value)} {s : Section ObjectId Value}

theorem pending_ran_of_mem (h : (calls ObjectId Value pmDebug).Reachable start w)
    (busy : w.threads t = some p) (at_ : p.code = .run s) (hs : .propsMutex ∈ needs s) :
    pending w = inserts s ∧ pending ((calls ObjectId Value pmDebug).ran w t p s) =
      (exec pmDebug s w.state).2.next.bind inserts := by
  have howner : w.owner .propsMutex = some t :=
    ((h.owned disciplined).owner t .propsMutex).mpr ⟨p, busy, by rw [at_]; exact hs⟩
  have hnext : w.next t = some (p.call, s) :=
    World.next_eq_some.mpr ⟨p, busy, rfl, by rw [at_]; rfl⟩
  refine ⟨by simp [pending, howner, hnext], ?_⟩
  have howner' : ((calls ObjectId Value pmDebug).ran w t p s).owner .propsMutex = some t := howner
  simp only [pending, howner', Option.bind_some, LockedCalls.next_ran, Function.update_self]
  cases hn : (exec pmDebug s w.state).2.next with
  | none => simp [calls, hn]
  | some s' => simp [calls, hn]

theorem pending_ran_of_not_mem (h : (calls ObjectId Value pmDebug).Reachable start w)
    (busy : w.threads t = some p) (at_ : p.code = .run s) (hs : .propsMutex ∉ needs s) :
    pending ((calls ObjectId Value pmDebug).ran w t p s) = pending w := by
  have howner : w.owner .propsMutex ≠ some t := by
    intro heq
    obtain ⟨q, hq, hmem⟩ := ((h.owned disciplined).owner t .propsMutex).mp heq
    obtain rfl := Option.some.inj (busy.symm.trans hq)
    rw [at_] at hmem
    exact hs hmem
  unfold pending
  rw [LockedCalls.next_ran]
  change (w.owner .propsMutex).bind _ = _
  cases ho : w.owner .propsMutex with
  | none => rfl
  | some u =>
    have hu : u ≠ t := fun heq => howner (ho.trans (congrArg some heq))
    simp [Function.update_of_ne hu]

end Pending

end QpidPmda.Qmf1.ListenerThreads
