import QpidPmda.Foundations.LinearizedCalls
import QpidPmda.Qmf1.ListenerThreads

/-! # The listener is linearizable

A call takes effect with its last section. While an insertion waits for its
push, the atomic listener does not have it yet; `propsMutex` is held, so no
other section can tell. A statistics update that passed its check under
`propsMutex` is still right when it is saved, since properties are never
removed and stored properties stay as good as they were.
-/

namespace QpidPmda.Qmf1.ListenerThreads
open Qpid Pcp ConsoleUtils ConsoleValue Foundations ConsoleListener

variable {ObjectId Value : Type} [ConsoleValue Value ObjectId] [ToString ObjectId]
  [DecidableEq ObjectId]

/-- What the call found out before this section, as it holds of the atomic listener. -/
def Guard (pmDebug : DebugFlags) (a : ConsoleListener ObjectId Value) :
    Section ObjectId Value → Prop
  | .findProps object => filterProps pmDebug a.includeAutoDelete object = .ok true
  | .logNew object => filterProps pmDebug a.includeAutoDelete object = .ok true
  | .pushNew object => filterProps pmDebug a.includeAutoDelete object = .ok true ∧
      newText object = .ok ()
  | .checkProps object => filterStats pmDebug object = .ok true ∧ a.includeAutoDelete = false
  | .saveStats object => filterStats pmDebug object = .ok true ∧
      (a.includeAutoDelete = true ∨ (a.props.lookup object.objectId).isSome)
  | _ => True

/-- The atomic listener, with the insertion that waits for its push. -/
def shown (a : ConsoleListener ObjectId Value) :
    Option (Object ObjectId Value) → ConsoleListener ObjectId Value
  | none => a
  | some object => { a with props := a.props.insert object.objectId object }

variable {pmDebug : DebugFlags} {a a' : ConsoleListener ObjectId Value}

/-- What was found out stays true while entries are only added. -/
theorem Guard.mono {s : Section ObjectId Value} (h : Guard pmDebug a s)
    (hincl : a'.includeAutoDelete = a.includeAutoDelete)
    (hkeys : ∀ x, (a.props.lookup x).isSome → (a'.props.lookup x).isSome) :
    Guard pmDebug a' s := by
  cases s with
  | findProps object | logNew object => rwa [Guard, hincl]
  | pushNew object => exact ⟨hincl.symm ▸ h.1, h.2⟩
  | checkProps object => exact ⟨h.1, hincl.trans h.2⟩
  | saveStats object => exact ⟨h.1, h.2.imp hincl.trans (hkeys _)⟩
  | _ => trivial

omit [ConsoleValue Value ObjectId] [ToString ObjectId] in
@[simp] theorem shown_includeAutoDelete (a : ConsoleListener ObjectId Value)
    (object : Option (Object ObjectId Value)) :
    (shown a object).includeAutoDelete = a.includeAutoDelete := by
  cases object <;> rfl

omit [ConsoleValue Value ObjectId] [ToString ObjectId] in
@[simp] theorem shown_stats (a : ConsoleListener ObjectId Value)
    (object : Option (Object ObjectId Value)) : (shown a object).stats = a.stats := by
  cases object <;> rfl

omit [ConsoleValue Value ObjectId] [ToString ObjectId] in
@[simp] theorem shown_newObjects (a : ConsoleListener ObjectId Value)
    (object : Option (Object ObjectId Value)) : (shown a object).newObjects = a.newObjects := by
  cases object <;> rfl

theorem objectStats_save {object : Object ObjectId Value} (h : PropsTested pmDebug a)
    (hg : Guard pmDebug a (.saveStats object)) :
    objectStats pmDebug object a = (.ok (), saveStats object a) := by
  obtain ⟨hfilter, hknown⟩ := hg
  unfold objectStats
  rw [hfilter]
  cases hi : a.includeAutoDelete with
  | true => rfl
  | false =>
    obtain ⟨props, hprops⟩ := Option.isSome_iff_exists.mp (hknown.resolve_left (by simp [hi]))
    simp [checkProps_known hprops (h hi _ _ hprops)]

variable {Tid : Type} {w w' : ListenerWorld Tid ObjectId Value}

/-- How the world shows the atomic listener. -/
structure Views (pmDebug : DebugFlags) (w : ListenerWorld Tid ObjectId Value)
    (a : ConsoleListener ObjectId Value) : Prop where
  state : w.state = shown a (pending w)
  fresh : ∀ object, pending w = some object → a.props.lookup object.objectId = none
  tested : PropsTested pmDebug a
  guards : ∀ t c s, w.next t = some (c, s) → Guard pmDebug a s

/-- After a section the world shows the same atomic listener, or the one after the call. -/
def Follows (pmDebug : DebugFlags) (w' : ListenerWorld Tid ObjectId Value)
    (a : ConsoleListener ObjectId Value) (call : ThreadCall ObjectId Value)
    (result : Option (ThreadRet ObjectId Value)) : Prop :=
  match result with
  | none => Views pmDebug w' a
  | some r => (atomic pmDebug call a).1 = r ∧ Views pmDebug w' (atomic pmDebug call a).2

theorem follows_some {call : ThreadCall ObjectId Value} {r : ThreadRet ObjectId Value}
    (hatomic : atomic pmDebug call a = (r, a')) (h : Views pmDebug w' a') :
    Follows pmDebug w' a call (some r) := by
  simp [Follows, hatomic, h]

variable [DecidableEq Tid] {start : ConsoleListener ObjectId Value}

theorem views_quiet (hreach : (calls ObjectId Value pmDebug).Reachable start w)
    (h : Views pmDebug w a) (step : (calls ObjectId Value pmDebug).Step w w')
    (htrace : w'.trace = w.trace) : Views pmDebug w' a := by
  have hpending := pending_quiet hreach step htrace
  obtain ⟨hstate, hnext⟩ := step.quiet htrace
  refine ⟨by rw [hstate, hpending, h.state], fun object ho => h.fresh object (hpending ▸ ho),
    h.tested, fun u c s hs => ?_⟩
  rcases hnext with heq | ⟨t, c', -, heq⟩
  · exact h.guards u c s (heq ▸ hs)
  · rcases update_eq_some (heq ▸ hs) with ⟨-, hnew⟩ | ⟨-, hold⟩
    · obtain ⟨s', hs', hpair⟩ := Option.map_eq_some_iff.mp hnew
      obtain ⟨-, rfl⟩ := Prod.mk.inj hpair
      cases c' <;> obtain rfl := Option.some.inj hs' <;> trivial
    · exact h.guards u c s hold

variable {t : Tid} {p : Running Mutex (Section ObjectId Value) (ThreadCall ObjectId Value)
  (ThreadRet ObjectId Value)} {s : Section ObjectId Value}

theorem Views.ran (h : Views pmDebug w a)
    (hstate : ((calls ObjectId Value pmDebug).ran w t p s).state =
      shown a' (pending ((calls ObjectId Value pmDebug).ran w t p s)))
    (hfresh : ∀ object, pending ((calls ObjectId Value pmDebug).ran w t p s) = some object →
      a'.props.lookup object.objectId = none)
    (htested : PropsTested pmDebug a') (hincl : a'.includeAutoDelete = a.includeAutoDelete)
    (hkeys : ∀ x, (a.props.lookup x).isSome → (a'.props.lookup x).isSome)
    (hguard : ∀ s', (exec pmDebug s w.state).2.next = some s' → Guard pmDebug a' s') :
    Views pmDebug ((calls ObjectId Value pmDebug).ran w t p s) a' where
  state := hstate
  fresh := hfresh
  tested := htested
  guards u c s' hs := by
    rw [LockedCalls.next_ran] at hs
    rcases update_eq_some hs with ⟨-, hnew⟩ | ⟨-, hold⟩
    · obtain ⟨s'', hs'', hpair⟩ := Option.map_eq_some_iff.mp hnew
      obtain ⟨-, rfl⟩ := Prod.mk.inj hpair
      exact hguard _ hs''
    · exact (h.guards u c s' hold).mono hincl hkeys

theorem Views.stay (h : Views pmDebug w a)
    (hstate : ((calls ObjectId Value pmDebug).ran w t p s).state = w.state)
    (hpending : pending ((calls ObjectId Value pmDebug).ran w t p s) = pending w)
    (hguard : ∀ s', (exec pmDebug s w.state).2.next = some s' → Guard pmDebug a s') :
    Views pmDebug ((calls ObjectId Value pmDebug).ran w t p s) a :=
  h.ran (by rw [hstate, hpending, h.state]) (fun object ho => h.fresh object (hpending ▸ ho))
    h.tested rfl (fun _ => id) hguard

theorem Views.ended (h : Views pmDebug w a) {call : ThreadCall ObjectId Value}
    {r : ThreadRet ObjectId Value} (hatomic : atomic pmDebug call a = (r, a))
    (hstate : ((calls ObjectId Value pmDebug).ran w t p s).state = w.state)
    (hpending : pending ((calls ObjectId Value pmDebug).ran w t p s) = pending w)
    (hlast : (exec pmDebug s w.state).2.next = none) :
    Follows pmDebug ((calls ObjectId Value pmDebug).ran w t p s) a call (some r) :=
  follows_some hatomic (h.stay hstate hpending (by simp [hlast]))

omit [DecidableEq Tid] in
/-- A section without a pending insertion sees the atomic listener. -/
theorem Views.same (h : Views pmDebug w a) (hpending : pending w = none) : w.state = a := by
  rw [h.state, hpending]
  rfl

/-- The last section of a properties update, which brings the atomic listener up to date. -/
theorem Views.propsEnded (h : Views pmDebug w a) {object : Object ObjectId Value}
    {result : Except QpidException Unit} (hatomic : objectProps pmDebug object a = (result, a'))
    (hstate : ((calls ObjectId Value pmDebug).ran w t p s).state = a')
    (hpending : pending ((calls ObjectId Value pmDebug).ran w t p s) = none)
    (hlast : (exec pmDebug s w.state).2.next = none) :
    Follows pmDebug ((calls ObjectId Value pmDebug).ran w t p s) a (.objectProps object)
      (some (.callback result)) := by
  have htook : atomic pmDebug (.objectProps object) a = (.callback result, a') := by
    simp only [atomic, hatomic]
  obtain rfl : (objectProps pmDebug object a).2 = a' := by rw [hatomic]
  refine follows_some htook (h.ran ?_ ?_ ?_ ?_ ?_ ?_)
  · rw [hstate, hpending]
    rfl
  · simp [hpending]
  · exact propsTested_objectProps object h.tested
  · exact objectProps_includeAutoDelete pmDebug object a
  · exact fun x => objectProps_kept pmDebug object
  · simp [hlast]

theorem views_ran (hreach : (calls ObjectId Value pmDebug).Reachable start w)
    (h : Views pmDebug w a) (busy : w.threads t = some p) (at_ : p.code = .run s) :
    Follows pmDebug ((calls ObjectId Value pmDebug).ran w t p s) a p.call
      (exec pmDebug s w.state).2.result := by
  have hat : w.next t = some (p.call, s) :=
    World.next_eq_some.mpr ⟨p, busy, rfl, by rw [at_]; rfl⟩
  have hcall : p.call = callOf s := (callOf_next hreach t _ _ hat).symm
  have hguard := h.guards t _ _ hat
  have hmem := pending_ran_of_mem hreach busy at_
  have hnot := pending_ran_of_not_mem hreach busy at_
  have hview := h.state
  have hincl : w.state.includeAutoDelete = a.includeAutoDelete := by rw [hview]; simp
  obtain ⟨⟨l, code⟩, hexec⟩ : ∃ r, exec pmDebug s w.state = r := ⟨_, rfl⟩
  have hexit := exec_exit pmDebug s w.state
  have hstate : ((calls ObjectId Value pmDebug).ran w t p s).state = l := congrArg Prod.fst hexec
  have hcode : (exec pmDebug s w.state).2 = code := congrArg Prod.snd hexec
  rw [hexec] at hexit
  rw [hcode] at hmem ⊢
  rw [hcall]
  cases hexit with
  | propsRaised object e hfilter =>
    rw [hincl] at hfilter
    exact h.ended (by simp [atomic, callOf, objectProps, hfilter]) hstate (hnot (by simp [needs]))
      (by rw [hcode]; rfl)
  | propsDropped object hfilter =>
    rw [hincl] at hfilter
    exact h.ended (by simp [atomic, callOf, objectProps, hfilter]) hstate (hnot (by simp [needs]))
      (by rw [hcode]; rfl)
  | propsPassed object hfilter =>
    rw [hincl] at hfilter
    exact h.stay hstate (hnot (by simp [needs])) (by simpa [hcode, Code.next, Guard] using hfilter)
  | updated object known hknown =>
    obtain ⟨hbefore, hafter⟩ := hmem (by simp [needs])
    have hsame : w.state = a := h.same hbefore
    rw [hsame] at hknown hstate
    have hatomic : objectProps pmDebug object a =
        (.ok (), { a with props := a.props.insert object.objectId object }) := by
      have hfilter : filterProps pmDebug a.includeAutoDelete object = .ok true := hguard
      simp [objectProps, hfilter, saveProps, hknown]
    exact h.propsEnded hatomic hstate hafter (by rw [hcode]; rfl)
  | inserted object habsent =>
    obtain ⟨hbefore, hafter⟩ := hmem (by simp [needs])
    have hsame : w.state = a := h.same hbefore
    rw [hsame] at habsent hstate
    have hpending : pending ((calls ObjectId Value pmDebug).ran w t p (.findProps object)) =
        some object := hafter
    refine h.ran ?_ ?_ h.tested rfl (fun _ => id) ?_
    · rw [hstate, hpending]; rfl
    · intro o ho
      obtain rfl := Option.some.inj (hpending.symm.trans ho)
      exact habsent
    · simpa [hcode, Code.next, Guard] using hguard
  | newRaised object e hraised =>
    obtain ⟨hbefore, hafter⟩ := hmem (by simp [needs])
    have hpending : pending w = some object := hbefore
    have hfresh := h.fresh object hpending
    have hatomic : objectProps pmDebug object a =
        (.error e, { a with props := a.props.insert object.objectId object }) := by
      have hfilter : filterProps pmDebug a.includeAutoDelete object = .ok true := hguard
      rw [newText] at hraised
      simp [objectProps, hfilter, saveProps, hfresh, hraised]
    rw [hpending] at hview
    exact h.propsEnded hatomic (hstate.trans hview) hafter (by rw [hcode]; rfl)
  | newLogged object hok =>
    obtain ⟨hbefore, hafter⟩ := hmem (by simp [needs])
    exact h.stay hstate (hafter.trans hbefore.symm)
      (by simpa [hcode, Code.next, Guard, hok] using hguard)
  | pushed object =>
    obtain ⟨hbefore, hafter⟩ := hmem (by simp [needs])
    have hpending : pending w = some object := hbefore
    have hfresh := h.fresh object hpending
    have hatomic : objectProps pmDebug object a = (.ok (), { a with
        props := a.props.insert object.objectId object
        newObjects := a.newObjects ++ [object.objectId] }) := by
      obtain ⟨hfilter, hok⟩ := hguard
      rw [newText] at hok
      simp [objectProps, hfilter, saveProps, hfresh, hok]
    rw [hview, hpending] at hstate
    exact h.propsEnded hatomic hstate hafter (by rw [hcode]; rfl)
  | statsRaised object e hfilter =>
    exact h.ended (by simp [atomic, callOf, objectStats, hfilter]) hstate (hnot (by simp [needs]))
      (by rw [hcode]; rfl)
  | statsDropped object hfilter =>
    exact h.ended (by simp [atomic, callOf, objectStats, hfilter]) hstate (hnot (by simp [needs]))
      (by rw [hcode]; rfl)
  | statsIncluded object hfilter hi =>
    rw [hincl] at hi
    exact h.stay hstate (hnot (by simp [needs])) (by simp [hcode, Code.next, Guard, hfilter, hi])
  | statsPassed object hfilter hi =>
    rw [hincl] at hi
    exact h.stay hstate (hnot (by simp [needs])) (by simp [hcode, Code.next, Guard, hfilter, hi])
  | checkRaised object e hcheck =>
    obtain ⟨hbefore, hafter⟩ := hmem (by simp [needs])
    have hsame : w.state = a := h.same hbefore
    obtain ⟨hfilter, hi⟩ := hguard
    rw [hsame] at hcheck
    exact h.ended (by simp [atomic, callOf, objectStats, hfilter, hi, hcheck]) hstate
      (hafter.trans hbefore.symm) (by rw [hcode]; rfl)
  | checkDropped object hcheck =>
    obtain ⟨hbefore, hafter⟩ := hmem (by simp [needs])
    have hsame : w.state = a := h.same hbefore
    obtain ⟨hfilter, hi⟩ := hguard
    rw [hsame] at hcheck
    exact h.ended (by simp [atomic, callOf, objectStats, hfilter, hi, hcheck]) hstate
      (hafter.trans hbefore.symm) (by rw [hcode]; rfl)
  | checkPassed object hcheck =>
    obtain ⟨hbefore, hafter⟩ := hmem (by simp [needs])
    have hsame : w.state = a := h.same hbefore
    rw [hsame] at hcheck
    have hknown : (a.props.lookup object.objectId).isSome := by
      by_contra hnone
      exact checkProps_unknown (by simpa using hnone) hcheck
    exact h.stay hstate (hafter.trans hbefore.symm)
      (by simp [hcode, Code.next, Guard, hguard.1, hknown])
  | saved object =>
    have hpending := hnot (by simp [needs])
    have hatomic := objectStats_save h.tested hguard
    have hviews : Views pmDebug ((calls ObjectId Value pmDebug).ran w t p (.saveStats object))
        (saveStats object a) := by
      refine h.ran ?_ (fun o ho => h.fresh o (hpending ▸ ho)) h.tested rfl (fun _ => id) ?_
      · rw [hstate, hpending, hview]
        cases pending w <;> rfl
      · simp [hcode, leave, Code.next]
    exact follows_some (by simp only [atomic, callOf, hatomic]) hviews
  | propsRead id =>
    obtain ⟨hbefore, hafter⟩ := hmem (by simp [needs])
    have hsame : w.state = a := h.same hbefore
    exact h.ended (by simp [atomic, callOf, hsame]) hstate (hafter.trans hbefore.symm)
      (by rw [hcode]; rfl)
  | statsRead id =>
    exact h.ended (by simp [atomic, callOf, getStats, hview]) hstate (hnot (by simp [needs]))
      (by rw [hcode]; rfl)
  | popped =>
    have hpending := hnot (by simp [needs])
    rw [getNewObjectId_listener] at hstate
    have hviews : Views pmDebug ((calls ObjectId Value pmDebug).ran w t p .popNew)
        { a with newObjects := a.newObjects.tail } := by
      refine h.ran ?_ (fun o ho => h.fresh o (hpending ▸ ho)) h.tested rfl (fun _ => id) ?_
      · rw [hstate, hpending, hview]
        cases pending w <;> rfl
      · simp [hcode, Code.next]
    exact follows_some (by simp [atomic, callOf, getNewObjectId_listener, hview]) hviews

theorem simulation (includeAutoDelete : Bool) : LockedCalls.Simulation
    (calls ObjectId Value pmDebug) (atomic pmDebug) (ConsoleListener.start includeAutoDelete)
    (fun w : ListenerWorld Tid ObjectId Value => Views pmDebug w) where
  entry_result c := by cases c <;> rfl
  initial := ⟨rfl, by simp [pending, World.initial], propsTested_start pmDebug includeAutoDelete,
    by simp [World.next_initial]⟩
  quiet w w' a hreach h step htrace := views_quiet hreach h step htrace
  goesOn w a t p s hreach h busy at_ hres := by
    have hfollows := views_ran hreach h busy at_
    rwa [show (exec pmDebug s w.state).2.result = none from hres] at hfollows
  takesEffect w a t p s r hreach h busy at_ hres := by
    have hfollows := views_ran hreach h busy at_
    rwa [show (exec pmDebug s w.state).2.result = some r from hres] at hfollows

omit [DecidableEq Tid] in
/-- The check that a pending save relies on would still be passed. -/
theorem checkProps_pending (h : Views pmDebug w a) {t : Tid} {c : ThreadCall ObjectId Value}
    {object : Object ObjectId Value} (hnext : w.next t = some (c, .saveStats object)) :
    w.state.includeAutoDelete = true ∨ checkProps pmDebug object w.state = .ok true := by
  obtain ⟨-, hi | hknown⟩ := h.guards t c _ hnext
  · exact .inl (by rw [h.state]; simpa using hi)
  · by_cases hi : a.includeAutoDelete = true
    · exact .inl (by rw [h.state]; simpa using hi)
    · obtain ⟨props, hprops⟩ := Option.isSome_iff_exists.mp hknown
      have hshown : w.state.props.lookup object.objectId = some props := by
        rw [h.state]
        cases hp : pending w with
        | none => exact hprops
        | some inserting =>
          have hne : object.objectId ≠ inserting.objectId := by
            intro heq
            exact absurd (h.fresh inserting hp) (by rw [← heq, hprops]; simp)
          rw [shown, Finmap.lookup_insert_of_ne _ hne]
          exact hprops
      exact .inr (checkProps_known hshown (h.tested (by simpa using hi) _ _ hprops))

/-- Every reachable world has a linearization. Outside the section of `objectProps` under
`propsMutex` it ends in the state of the world, and a decision to save statistics stays right
until they are saved. -/
theorem listener_linearizable {includeAutoDelete : Bool}
    (h : (calls ObjectId Value pmDebug).Reachable (ConsoleListener.start includeAutoDelete) w) :
    ∃ order final, Linearization (atomic pmDebug) (ConsoleListener.start includeAutoDelete)
        w.completed order final ∧
      ((∀ t p object, w.threads t = some p → p.call = .objectProps object →
        .propsMutex ∉ p.code.holds needs) → final = w.state) ∧
      ((∀ t, w.threads t = none) → order.Perm w.completed ∧ final = w.state) ∧
      (final.stats = w.state.stats ∧ final.newObjects = w.state.newObjects) ∧
      ∀ t p object, w.threads t = some p → p.code.next = some (.saveStats object) →
        objectStats pmDebug object final = (.ok (), saveStats object final) ∧
          (w.state.includeAutoDelete = true ∨ checkProps pmDebug object w.state = .ok true) := by
  obtain ⟨order, final, hlin, htracked, hviews⟩ := (simulation includeAutoDelete).linearizable h
  have hfinal (houtside : ∀ t p object, w.threads t = some p → p.call = .objectProps object →
      .propsMutex ∉ p.code.holds needs) : final = w.state := by
    rw [hviews.state, pending_eq_none h houtside]
    rfl
  refine ⟨order, final, hlin, hfinal, fun hidle => ⟨?_, hfinal ?_⟩, ?_, ?_⟩
  · have hover : order.filter (·.responded.isSome) = order := by
      refine List.filter_eq_self.mpr fun x hx => ?_
      by_contra hopen
      obtain ⟨p, hp, -⟩ := htracked.isOpen x hx (by simpa using hopen)
      exact absurd ((hidle x.thread).symm.trans hp) (by simp)
    exact hover ▸ hlin.complete
  · intro t p object hp
    exact absurd ((hidle t).symm.trans hp) (by simp)
  · rw [hviews.state]
    simp
  · intro t p object hp hs
    have hnext : w.next t = some (p.call, .saveStats object) :=
      World.next_eq_some.mpr ⟨p, hp, rfl, hs⟩
    exact ⟨objectStats_save hviews.tested (hviews.guards t _ _ hnext),
      checkProps_pending hviews hnext⟩

/-- A properties update comes between the check and the save of a statistics update. -/
def overtaken : List (LockedCalls.Move Bool (ThreadCall Nat (QmfValue Nat))) :=
  let queue : Object Nat (QmfValue Nat) := brokerObject "queue" 1 [("name", .string "first")]
  .begin true (.objectProps queue) :: List.replicate 9 (.goOn true) ++
    .begin false (.objectStats queue) :: List.replicate 4 (.goOn false) ++
    .begin true (.objectProps queue) :: List.replicate 4 (.goOn true) ++
    List.replicate 4 (.goOn false) ++ [.goOn true]

theorem listener_linearizable_overtaken :
    ∃ (w : ListenerWorld Bool Nat (QmfValue Nat)) (order : List _) (final : _),
      overtaken.foldlM (calls Nat (QmfValue Nat) ⟨false, false⟩).perform
          (World.initial (ConsoleListener.start false)) = some w ∧
        w.completed.length = 3 ∧ Linearization (atomic ⟨false, false⟩)
          (ConsoleListener.start false) w.completed order final ∧
        order.Perm w.completed ∧ final = w.state := by
  have hcheck : ∀ w ∈ overtaken.foldlM (calls Nat (QmfValue Nat) ⟨false, false⟩).perform
      (World.initial (ConsoleListener.start false)),
      w.completed.length = 3 ∧ ∀ t, (w.threads t).isNone := by decide
  cases hw : overtaken.foldlM (calls Nat (QmfValue Nat) ⟨false, false⟩).perform
      (World.initial (ConsoleListener.start false)) with
  | none => exact absurd (congrArg Option.isSome hw) (by decide)
  | some w =>
    obtain ⟨hlength, hidle⟩ := hcheck w hw
    obtain ⟨order, final, hlin, -, hperm, -⟩ :=
      listener_linearizable (LockedCalls.reachable_foldlM overtaken .refl hw)
    exact ⟨w, order, final, rfl, hlength, hlin, hperm fun t => by simpa using hidle t⟩

end QpidPmda.Qmf1.ListenerThreads
