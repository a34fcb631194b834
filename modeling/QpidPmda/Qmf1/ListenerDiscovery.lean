import QpidPmda.Qmf1.ListenerThreads

/-! # Every object is announced once

The trace of a world records which ids were inserted into the properties and
which were popped from the queue. While no message about a new object raises,
the inserted ids are the popped ones, then those in the queue, then the one
that `pending` names. An insertion finds no entry, so no id is inserted twice.
-/

namespace QpidPmda.Qmf1.ListenerThreads
open Qpid Pcp ConsoleUtils ConsoleValue Foundations ConsoleListener

variable {ObjectId Value : Type}

abbrev ListenerTrace (ObjectId Value : Type) :=
  List (Section ObjectId Value × ConsoleListener ObjectId Value)

/-- The id this section pops, if any. -/
def poppedBy : Section ObjectId Value × ConsoleListener ObjectId Value → Option ObjectId
  | (.popNew, l) => l.newObjects.head?
  | _ => none

def popped (trace : ListenerTrace ObjectId Value) : List ObjectId := trace.filterMap poppedBy

variable [DecidableEq ObjectId]

/-- The id this section inserts into the properties, if any. -/
def insertedBy : Section ObjectId Value × ConsoleListener ObjectId Value → Option ObjectId
  | (.findProps object, l) =>
    if (l.props.lookup object.objectId).isNone then some object.objectId else none
  | _ => none

def inserted (trace : ListenerTrace ObjectId Value) : List ObjectId := trace.filterMap insertedBy

variable [ConsoleValue Value ObjectId] [ToString ObjectId]

/-- No message about a new object raised. -/
def NewLogged (trace : ListenerTrace ObjectId Value) : Prop :=
  trace.all fun x => match x.1 with
    | .logNew object => (newText object matches .ok ())
    | _ => true

instance (trace : ListenerTrace ObjectId Value) : Decidable (NewLogged trace) :=
  inferInstanceAs (Decidable (_ = true))

omit [DecidableEq ObjectId] in
theorem NewLogged.of_append {before after : ListenerTrace ObjectId Value}
    (h : NewLogged (before ++ after)) : NewLogged before := by
  rw [NewLogged, List.all_append, Bool.and_eq_true] at h
  exact h.1

/-- How the trace, the properties and the queue of a world fit together. -/
structure Discovered {Tid : Type} (w : ListenerWorld Tid ObjectId Value) : Prop where
  nodup : (inserted w.trace).Nodup
  keys : ∀ x, x ∈ inserted w.trace ↔ (w.state.props.lookup x).isSome
  queued : inserted w.trace =
    popped w.trace ++ w.state.newObjects ++ ((pending w).map (·.objectId)).toList

variable {Tid : Type} [DecidableEq Tid] {pmDebug : DebugFlags} {includeAutoDelete : Bool}
  {w w' : ListenerWorld Tid ObjectId Value}

omit [DecidableEq Tid] [ConsoleValue Value ObjectId] [ToString ObjectId] in
theorem Discovered.still (h : Discovered w) (hinserted : inserted w'.trace = inserted w.trace)
    (hpopped : popped w'.trace = popped w.trace)
    (hkeys : ∀ x, (w'.state.props.lookup x).isSome = (w.state.props.lookup x).isSome)
    (hnew : w'.state.newObjects = w.state.newObjects) (hpending : pending w' = pending w) :
    Discovered w' where
  nodup := hinserted ▸ h.nodup
  keys x := by rw [hinserted, h.keys, hkeys]
  queued := by rw [hinserted, hpopped, hnew, hpending, h.queued]

theorem inserted_ran (w : ListenerWorld Tid ObjectId Value) (t : Tid) (p : Running Mutex
      (Section ObjectId Value) (ThreadCall ObjectId Value) (ThreadRet ObjectId Value))
    (s : Section ObjectId Value) : inserted ((calls ObjectId Value pmDebug).ran w t p s).trace =
      inserted w.trace ++ (insertedBy (s, w.state)).toList := by
  change (w.trace ++ [(s, w.state)]).filterMap insertedBy = _
  cases hs : insertedBy (s, w.state) <;> simp [inserted, hs]

theorem popped_ran (w : ListenerWorld Tid ObjectId Value) (t : Tid) (p : Running Mutex
      (Section ObjectId Value) (ThreadCall ObjectId Value) (ThreadRet ObjectId Value))
    (s : Section ObjectId Value) : popped ((calls ObjectId Value pmDebug).ran w t p s).trace =
      popped w.trace ++ (poppedBy (s, w.state)).toList := by
  change (w.trace ++ [(s, w.state)]).filterMap poppedBy = _
  cases hs : poppedBy (s, w.state) <;> simp [popped, hs]

theorem discovered_ran (hreach : (calls ObjectId Value pmDebug).Reachable
      (start includeAutoDelete) w) {t : Tid} {p : Running Mutex (Section ObjectId Value)
      (ThreadCall ObjectId Value) (ThreadRet ObjectId Value)} {s : Section ObjectId Value}
    (busy : w.threads t = some p) (at_ : p.code = .run s)
    (hlog : NewLogged ((calls ObjectId Value pmDebug).ran w t p s).trace) (h : Discovered w) :
    Discovered ((calls ObjectId Value pmDebug).ran w t p s) := by
  have hmem := pending_ran_of_mem hreach busy at_
  have hnot := pending_ran_of_not_mem hreach busy at_
  have hinserted : inserted ((calls ObjectId Value pmDebug).ran w t p s).trace = _ :=
    inserted_ran w t p s
  have hpopped : popped ((calls ObjectId Value pmDebug).ran w t p s).trace = _ :=
    popped_ran w t p s
  obtain ⟨⟨l, code⟩, hexec⟩ : ∃ r, exec pmDebug s w.state = r := ⟨_, rfl⟩
  have hexit := exec_exit pmDebug s w.state
  have hstate : ((calls ObjectId Value pmDebug).ran w t p s).state = l := congrArg Prod.fst hexec
  rw [hexec] at hmem hexit
  cases hexit with
  | updated object known hknown =>
    obtain ⟨hbefore, hafter⟩ := hmem (by simp [needs])
    simp only [insertedBy, hknown, poppedBy, Option.isNone_some, Bool.false_eq_true, if_false,
      Option.toList_none, List.append_nil] at hinserted hpopped
    refine h.still hinserted hpopped (fun x => ?_) (by rw [hstate]) (hafter.trans hbefore.symm)
    rw [hstate, lookup_insert_isSome]
    by_cases hx : x = object.objectId
    · subst hx; simp [hknown]
    · simp [hx]
  | inserted object habsent =>
    obtain ⟨hbefore, hafter⟩ := hmem (by simp [needs])
    simp only [insertedBy, habsent, poppedBy, Option.isNone_none, if_true, Option.toList_none,
      Option.toList_some, List.append_nil] at hinserted hpopped
    have hnew : object.objectId ∉ inserted w.trace := by simp [h.keys, habsent]
    refine ⟨?_, fun x => ?_, ?_⟩
    · rw [hinserted, ← List.concat_eq_append]
      exact h.nodup.concat hnew
    · rw [hinserted, hstate, lookup_insert_isSome]
      simp [h.keys, or_comm]
    · have hqueued := h.queued
      rw [hbefore] at hqueued
      rw [hinserted, hpopped, hafter, hqueued, hstate]
      simp [Code.next, inserts]
  | newRaised object e hraised =>
    have hlast := List.all_eq_true.mp hlog (.logNew object, w.state)
      (List.mem_append_right _ (List.mem_singleton_self _))
    simp [hraised] at hlast
  | pushed object =>
    obtain ⟨hbefore, hafter⟩ := hmem (by simp [needs])
    simp only [insertedBy, poppedBy, Option.toList_none, List.append_nil] at hinserted hpopped
    refine ⟨hinserted ▸ h.nodup, fun x => by rw [hinserted, hstate, h.keys], ?_⟩
    have hqueued := h.queued
    rw [hbefore] at hqueued
    rw [hinserted, hpopped, hafter, hqueued, hstate]
    simp [Code.next, inserts, leave]
  | popped =>
    have hpending := hnot (by simp [needs])
    simp only [insertedBy, poppedBy, Option.toList_none, List.append_nil] at hinserted hpopped
    refine ⟨hinserted ▸ h.nodup, fun x => ?_, ?_⟩
    · rw [hinserted, hstate, getNewObjectId_listener, h.keys]
    · rw [hinserted, hpopped, hpending, hstate, getNewObjectId_listener, h.queued]
      cases w.state.newObjects <;> simp
  | propsRaised | propsDropped | propsPassed | statsRaised | statsDropped | statsIncluded
  | statsPassed | saved | statsRead =>
    simp only [insertedBy, poppedBy, Option.toList_none, List.append_nil] at hinserted hpopped
    exact h.still hinserted hpopped (fun x => by rw [hstate]) (by rw [hstate])
      (hnot (by simp [needs]))
  | newLogged | checkRaised | checkDropped | checkPassed | propsRead =>
    obtain ⟨hbefore, hafter⟩ := hmem (by simp [needs])
    simp only [insertedBy, poppedBy, Option.toList_none, List.append_nil] at hinserted hpopped
    exact h.still hinserted hpopped (fun x => by rw [hstate]) (by rw [hstate])
      (hafter.trans hbefore.symm)

/-- The accounts fit together in every reachable world. -/
theorem discovered (h : (calls ObjectId Value pmDebug).Reachable (start includeAutoDelete) w)
    (hlog : NewLogged w.trace) : Discovered w := by
  refine h.invariant (I := fun w => NewLogged w.trace → Discovered w) ?_ ?_ hlog
  · intro _
    refine ⟨by simp [World.initial, inserted], fun x => ?_, ?_⟩
    · simp [World.initial, inserted, start, setIncludeAutoDelete, new]
    · simp [World.initial, inserted, popped, pending, start, setIncludeAutoDelete, new]
  · intro w w' hreach ih step hlog
    rcases step.quiet_or_ran with htrace | ⟨t, p, s, busy, at_, rfl⟩
    · have hstate := (step.quiet htrace).1
      exact (ih (htrace ▸ hlog)).still (by rw [htrace]) (by rw [htrace]) (fun x => by rw [hstate])
        (by rw [hstate]) (pending_quiet hreach step htrace)
    · exact discovered_ran hreach busy at_ hlog (ih (NewLogged.of_append hlog))

/-- The ids that completed calls returned. -/
def returned (completed : List (Operation Tid (ThreadCall ObjectId Value)
    (ThreadRet ObjectId Value))) : List ObjectId :=
  completed.filterMap fun op => match op.ret with
    | .id id => id
    | _ => none

/-- The thread is about to return this id. -/
def AboutToReturn (w : ListenerWorld Tid ObjectId Value) (t : Tid) (x : ObjectId) : Prop :=
  ∃ p, w.threads t = some p ∧ p.code.result = some (.id (some x))

/-- A popped id was returned by one call, or one thread is about to return it. -/
structure Returned (w : ListenerWorld Tid ObjectId Value) : Prop where
  nodup : (returned w.completed).Nodup
  exactlyOne : ∀ t u x, AboutToReturn w t x → AboutToReturn w u x → t = u
  notYet : ∀ t x, AboutToReturn w t x → x ∉ returned w.completed
  popped_iff : ∀ x, x ∈ popped w.trace ↔ x ∈ returned w.completed ∨ ∃ t, AboutToReturn w t x

omit [DecidableEq Tid] [ConsoleValue Value ObjectId] [ToString ObjectId] [DecidableEq ObjectId] in
theorem Returned.still (h : Returned w) (hcompleted : w'.completed = w.completed)
    (hpopped : popped w'.trace = popped w.trace)
    (habout : ∀ t x, AboutToReturn w' t x ↔ AboutToReturn w t x) : Returned w' where
  nodup := hcompleted ▸ h.nodup
  exactlyOne t u x ht hu := h.exactlyOne t u x ((habout t x).mp ht) ((habout u x).mp hu)
  notYet t x ht := hcompleted ▸ h.notYet t x ((habout t x).mp ht)
  popped_iff x := by rw [hpopped, hcompleted, h.popped_iff]; simp only [habout]

omit [ConsoleValue Value ObjectId] [ToString ObjectId] [DecidableEq ObjectId] in
theorem aboutToReturn_update {t : Tid} {next : Option (Running Mutex (Section ObjectId Value)
      (ThreadCall ObjectId Value) (ThreadRet ObjectId Value))}
    (hthreads : w'.threads = Function.update w.threads t next) (u : Tid) (x : ObjectId) :
    AboutToReturn w' u x ↔
      if u = t then ∃ p, next = some p ∧ p.code.result = some (.id (some x))
      else AboutToReturn w u x := by
  unfold AboutToReturn
  rw [hthreads]
  by_cases hu : u = t
  · subst hu; simp
  · simp [hu]

omit [ConsoleValue Value ObjectId] [ToString ObjectId] [DecidableEq ObjectId] in
theorem Returned.moved (h : Returned w) {t : Tid} {next : Option (Running Mutex
      (Section ObjectId Value) (ThreadCall ObjectId Value) (ThreadRet ObjectId Value))}
    (hthreads : w'.threads = Function.update w.threads t next)
    (hcompleted : w'.completed = w.completed) (hpopped : popped w'.trace = popped w.trace)
    (hsame : ∀ x, (∃ p, next = some p ∧ p.code.result = some (.id (some x))) ↔
      AboutToReturn w t x) : Returned w' := by
  refine h.still hcompleted hpopped fun u x => ?_
  rw [aboutToReturn_update hthreads]
  split_ifs with hu
  · subst hu
    exact hsame x
  · rfl

theorem Exit.result_id {l l' : ConsoleListener ObjectId Value} {s : Section ObjectId Value}
    {code : ThreadCode ObjectId Value} (h : Exit pmDebug l s l' code) (x : ObjectId) :
    code.result = some (.id (some x)) ↔ poppedBy (s, l) = some x := by
  cases h <;> simp [leave, Code.result, poppedBy, getNewObjectId_listener]

theorem returned_ran (hreach : (calls ObjectId Value pmDebug).Reachable
      (start includeAutoDelete) w) {t : Tid} {p : Running Mutex (Section ObjectId Value)
      (ThreadCall ObjectId Value) (ThreadRet ObjectId Value)} {s : Section ObjectId Value}
    (busy : w.threads t = some p) (at_ : p.code = .run s) (hlog : NewLogged w.trace)
    (h : Returned w) : Returned ((calls ObjectId Value pmDebug).ran w t p s) := by
  have hidle (x : ObjectId) : ¬ AboutToReturn w t x := by
    simp [AboutToReturn, busy, at_, Code.result]
  have habout (u : Tid) (x : ObjectId) :
      AboutToReturn ((calls ObjectId Value pmDebug).ran w t p s) u x ↔
        if u = t then poppedBy (s, w.state) = some x else AboutToReturn w u x := by
    rw [aboutToReturn_update (w := w) rfl]
    simp [calls, (exec_exit pmDebug s w.state).result_id]
  have htrace : popped ((calls ObjectId Value pmDebug).ran w t p s).trace = _ :=
    popped_ran w t p s
  cases hp : poppedBy (s, w.state) with
  | none =>
    refine h.moved rfl rfl (by simp [htrace, hp]) fun x => ?_
    simp [hidle, calls, (exec_exit pmDebug s w.state).result_id, hp]
  | some y =>
    have hfresh : y ∉ popped w.trace := by
      have hd := discovered hreach hlog
      have hnodup := hd.nodup
      rw [hd.queued, List.append_assoc] at hnodup
      have hy : y ∈ w.state.newObjects := by
        cases s with
        | popNew => exact List.mem_of_mem_head? hp
        | _ => exact absurd hp (by simp [poppedBy])
      exact fun hmem => (List.nodup_append.mp hnodup).2.2 y hmem y (by simp [hy]) rfl
    have hnot : ∀ u, ¬ AboutToReturn w u y := fun u hu =>
      hfresh ((h.popped_iff y).mpr (.inr ⟨u, hu⟩))
    refine ⟨h.nodup, ?_, ?_, ?_⟩
    · intro u v x hu hv
      rw [habout, hp] at hu hv
      split_ifs at hu hv with hut hvt hvt
      · exact hut.trans hvt.symm
      · obtain rfl := Option.some.inj hu
        exact absurd hv (hnot v)
      · obtain rfl := Option.some.inj hv
        exact absurd hu (hnot u)
      · exact h.exactlyOne u v x hu hv
    · intro u x hu
      rw [habout, hp] at hu
      split_ifs at hu with hut
      · obtain rfl := Option.some.inj hu
        exact fun hret => hfresh ((h.popped_iff y).mpr (.inl hret))
      · exact h.notYet u x hu
    · intro x
      simp only [htrace, hp, Option.toList_some, List.mem_append, List.mem_singleton,
        h.popped_iff x, habout]
      constructor
      · rintro ((hret | ⟨u, hu⟩) | rfl)
        · exact .inl hret
        · refine .inr ⟨u, ?_⟩
          have hut : u ≠ t := by
            rintro rfl
            exact hidle x hu
          simpa [hut] using hu
        · exact .inr ⟨t, by simp⟩
      · rintro (hret | ⟨u, hu⟩)
        · exact .inl (.inl hret)
        · split_ifs at hu with hut
          · exact .inr (Option.some.inj hu).symm
          · exact .inl (.inr ⟨u, hu⟩)

omit [DecidableEq ObjectId] [ConsoleValue Value ObjectId] [ToString ObjectId] in
theorem returned_respond {t : Tid} {p : Running Mutex (Section ObjectId Value)
      (ThreadCall ObjectId Value) (ThreadRet ObjectId Value)} {r : ThreadRet ObjectId Value}
    (busy : w.threads t = some p) (at_ : p.code = .ret r) (h : Returned w)
    (hthreads : w'.threads = Function.update w.threads t none) (htrace : w'.trace = w.trace)
    {time : Nat} (hcompleted : w'.completed = w.completed ++ [⟨t, p.call, r, p.since, some time⟩]) :
    Returned w' := by
  have hself (x : ObjectId) : AboutToReturn w t x ↔ r = .id (some x) := by
    simp [AboutToReturn, busy, at_, Code.result]
  have habout (u : Tid) (x : ObjectId) : AboutToReturn w' u x ↔ u ≠ t ∧ AboutToReturn w u x := by
    rw [aboutToReturn_update hthreads]
    by_cases hu : u = t <;> simp [hu]
  have hmem (x : ObjectId) :
      x ∈ returned w'.completed ↔ x ∈ returned w.completed ∨ r = .id (some x) := by
    rw [hcompleted]
    cases r with
    | id id => cases id <;> simp [returned, eq_comm]
    | callback result => simp [returned]
    | object object => simp [returned]
  refine ⟨?_, ?_, ?_, ?_⟩
  · rw [hcompleted]
    cases r with
    | id id =>
      cases id with
      | none => simpa [returned] using h.nodup
      | some x =>
        have hnodup := h.nodup.concat (h.notYet t x ((hself x).mpr rfl))
        simpa [returned, List.concat_eq_append] using hnodup
    | callback result => simpa [returned] using h.nodup
    | object object => simpa [returned] using h.nodup
  · intro u v x hu hv
    exact h.exactlyOne u v x ((habout u x).mp hu).2 ((habout v x).mp hv).2
  · intro u x hu hret
    obtain ⟨hut, hu⟩ := (habout u x).mp hu
    rcases (hmem x).mp hret with hret | hret
    · exact h.notYet u x hu hret
    · exact hut (h.exactlyOne u t x hu ((hself x).mpr hret))
  · intro x
    rw [htrace, h.popped_iff, hmem, or_assoc]
    refine or_congr_right ⟨?_, ?_⟩
    · rintro ⟨u, hu⟩
      by_cases hut : u = t
      · subst hut
        exact .inl ((hself x).mp hu)
      · exact .inr ⟨u, (habout u x).mpr ⟨hut, hu⟩⟩
    · rintro (hret | ⟨u, hu⟩)
      · exact ⟨t, (hself x).mpr hret⟩
      · exact ⟨u, ((habout u x).mp hu).2⟩

/-- What was popped and what was returned agree in every reachable world. -/
theorem returned_popped (h : (calls ObjectId Value pmDebug).Reachable (start includeAutoDelete) w)
    (hlog : NewLogged w.trace) : Returned w := by
  refine h.invariant (I := fun w => NewLogged w.trace → Returned w) ?_ ?_ hlog
  · intro _
    exact ⟨by simp [World.initial, returned], by simp [AboutToReturn, World.initial],
      by simp [AboutToReturn, World.initial],
      by simp [AboutToReturn, World.initial, popped, returned]⟩
  · intro w w' hreach ih step hlog
    cases step with
    | invoke t c idle =>
      refine (ih hlog).moved rfl rfl rfl fun x => ?_
      cases c <;> simp [AboutToReturn, idle, calls, entry, Code.result]
    | lock t p m next busy at_ free =>
      refine (ih hlog).moved rfl rfl rfl fun x => ?_
      simp [AboutToReturn, busy, at_, Code.result]
    | unlock t p m next busy at_ =>
      refine (ih hlog).moved rfl rfl rfl fun x => ?_
      simp [AboutToReturn, busy, at_, Code.result]
    | exec t p s busy at_ =>
      have hbefore : NewLogged w.trace := NewLogged.of_append hlog
      exact returned_ran hreach busy at_ hbefore (ih hbefore)
    | respond t p r busy at_ => exact returned_respond busy at_ (ih hlog) rfl rfl rfl

theorem getProps_kept (h : Relation.ReflTransGen (calls ObjectId Value pmDebug).Step w w')
    {x : ObjectId} (hx : (w.state.getProps x).isSome) : (w'.state.getProps x).isSome := by
  induction h with
  | refl => exact hx
  | tail _ step ih =>
    rename_i w₁ w₂ _
    rcases step.quiet_or_ran with htrace | ⟨t, p, s, -, -, rfl⟩
    · rw [(step.quiet htrace).1]
      exact ih
    · have hexit := exec_exit pmDebug s w₁.state
      change ((exec pmDebug s w₁.state).1.getProps x).isSome
      generalize (exec pmDebug s w₁.state).1 = l at hexit ⊢
      generalize (exec pmDebug s w₁.state).2 = code at hexit
      cases hexit with
      | updated object | inserted object =>
        rw [getProps, lookup_insert_isSome]
        exact decide_eq_true (.inr ih)
      | popped =>
        rw [getNewObjectId_listener]
        exact ih
      | _ => exact ih

/-- Every object is announced exactly once, in the order of the insertions, and an announced
object has properties from then on. -/
theorem discovered_once (h : (calls ObjectId Value pmDebug).Reachable (start includeAutoDelete) w)
    (hlog : NewLogged w.trace) :
    ((∀ t p object, w.threads t = some p → p.call = .objectProps object →
        .propsMutex ∉ p.code.holds needs) →
      (popped w.trace ++ w.state.newObjects).Nodup ∧
      popped w.trace ++ w.state.newObjects = inserted w.trace ∧
      ∀ x, x ∈ popped w.trace ++ w.state.newObjects ↔ (w.state.getProps x).isSome) ∧
    (returned w.completed).Nodup ∧
    (∀ x, x ∈ popped w.trace ↔ x ∈ returned w.completed ∨ ∃ t, AboutToReturn w t x) ∧
    (∀ w', Relation.ReflTransGen (calls ObjectId Value pmDebug).Step w w' →
      ∀ x ∈ popped w.trace, (w'.state.getProps x).isSome) ∧
    ∀ before x l after, w.trace = before ++ (.readProps x, l) :: after → x ∈ popped before →
      (l.getProps x).isSome := by
  have hd := discovered h hlog
  have hr := returned_popped h hlog
  refine ⟨fun houtside => ?_, hr.nodup, hr.popped_iff, fun w' hw' x hx => ?_, ?_⟩
  · have hqueued := hd.queued
    rw [pending_eq_none h houtside, Option.map_none, Option.toList_none, List.append_nil] at hqueued
    exact ⟨hqueued ▸ hd.nodup, hqueued.symm, fun x => by rw [← hqueued, hd.keys, getProps]⟩
  · have hinserted : x ∈ inserted w.trace := by
      rw [hd.queued]
      simp [hx]
    exact getProps_kept hw' ((hd.keys x).mp hinserted)
  · intro before x l after htrace hx
    obtain ⟨w₀, hreach, rfl, rfl⟩ := h.before_section htrace
    have hd₀ := discovered hreach (NewLogged.of_append (htrace ▸ hlog))
    refine (hd₀.keys x).mp ?_
    rw [hd₀.queued]
    simp [hx]

/-- Two queues are announced, and one of them is consumed by another thread. -/
def twoQueues : List (LockedCalls.Move Bool (ThreadCall Nat (QmfValue Nat))) :=
  let queue (id : Nat) (name : String) : ThreadCall Nat (QmfValue Nat) :=
    .objectProps (brokerObject "queue" id [("name", .string name)])
  .begin true (queue 1 "first") :: List.replicate 9 (.goOn true) ++
    .begin true (queue 2 "second") :: List.replicate 9 (.goOn true) ++
    .begin false .getNewObjectId :: List.replicate 4 (.goOn false)

theorem discovered_once_twoQueues :
    ∃ w : ListenerWorld Bool Nat (QmfValue Nat),
      twoQueues.foldlM (calls Nat (QmfValue Nat) ⟨false, false⟩).perform
          (World.initial (start false)) = some w ∧
        popped w.trace = [1] ∧ w.state.newObjects = [2] ∧ (returned w.completed).Nodup := by
  have hcheck : ∀ w ∈ twoQueues.foldlM (calls Nat (QmfValue Nat) ⟨false, false⟩).perform
      (World.initial (start false)),
      NewLogged w.trace ∧ popped w.trace = [1] ∧ w.state.newObjects = [2] := by decide
  cases hw : twoQueues.foldlM (calls Nat (QmfValue Nat) ⟨false, false⟩).perform
      (World.initial (start false)) with
  | none => exact absurd (congrArg Option.isSome hw) (by decide)
  | some w =>
    obtain ⟨hlog, hpopped, hqueue⟩ := hcheck w hw
    have hreach := LockedCalls.reachable_foldlM twoQueues .refl hw
    exact ⟨w, rfl, hpopped, hqueue, (discovered_once hreach hlog).2.1⟩

end QpidPmda.Qmf1.ListenerThreads
