import QpidPmda.Pcp.NameTable
import QpidPmda.Qmf1.PmdaInvariants

/-! # One call of `begin_fetch_values` without callbacks

The call is the run of its steps, three for each id it takes and one to find
the queue empty. It registers the ids in their order up to the first object
without a name, and there it returns, whatever is still queued.
-/

namespace QpidPmda.Qmf1
open Qpid Pcp ConsoleUtils ConsoleValue Foundations ConsoleListener

variable {ObjectId Value : Type} {P : Library ObjectId} [ConsoleValue Value ObjectId]
  [DecidableEq ObjectId]

/-- The bound on the rounds is never met. -/
theorem Pmda.beginFetchLoop_isSome (rounds : Nat) (s : Pmda P Value)
    (h : s.listener.newObjects.length < rounds) : (Pmda.beginFetchLoop rounds s).isSome := by
  induction rounds generalizing s with
  | zero => exact absurd h (Nat.not_lt_zero _)
  | succ rounds ih =>
    rw [Pmda.beginFetchLoop, getNewObjectId_listener]
    cases hq : s.listener.newObjects with
    | nil => rfl
    | cons objectId rest =>
      rw [hq] at h
      simp only [List.head?_cons, List.tail_cons]
      split
      · apply ih
        have hlistener := (Pmda.register_exit objectId
          (({ s.listener with newObjects := rest } : ConsoleListener ObjectId Value).getProps
            objectId) { s with listener := { s.listener with newObjects := rest } }).listener
        rw [hlistener]
        exact Nat.lt_of_succ_lt_succ h
      · rfl

theorem Pmda.beginFetchValues_isSome (s : Pmda P Value) : (Pmda.beginFetchValues s).isSome :=
  Pmda.beginFetchLoop_isSome _ s (Nat.lt_succ_self _)

namespace System
variable [ToString ObjectId] {pmDebug : DebugFlags} {includeAutoDelete : Bool}

/-- One round: three steps take the next id, ask for its properties and end its iteration, and the
loop goes on unless the exit leaves it. -/
theorem loop_round (pmDebug : DebugFlags) (rounds : Nat) {s : System P Value}
    (hlooping : s.progress = .looping) {objectId : ObjectId} {rest : List ObjectId}
    (hq : s.pmda.listener.newObjects = objectId :: rest) :
    ∃ exit pmda, Pmda.Registers objectId
        { s.pmda with listener := { s.pmda.listener with newObjects := rest } }
        (s.pmda.listener.getProps objectId) exit pmda ∧
      run (exec pmDebug) [.advance, .advance, .advance] s =
        { pmda := pmda
          progress := if exit.leaves.isNone then .looping else .idle
          trace := s.trace ++ [(objectId, exit)] } ∧
      Pmda.beginFetchLoop (rounds + 1) s.pmda =
        match exit.leaves with
        | none => Pmda.beginFetchLoop rounds pmda
        | some result => some (result, pmda) := by
  refine ⟨_, _, Pmda.register_exit objectId (s.pmda.listener.getProps objectId) _, ?_, ?_⟩
  · simp [exec, advance, hlooping, getNewObjectId_listener, hq, withListener, getProps]
  · rw [Pmda.beginFetchLoop, getNewObjectId_listener, hq]
    rfl

/-- The objects are registered from the properties that the listener holds for them. -/
def AllRegistered (s : System P Value) (objectIds : List ObjectId) : Prop :=
  ∀ x ∈ objectIds, ∃ r, (x, .registered r) ∈ s.trace ∧
    s.pmda.listener.getProps x = some r.props

/-- How a call that returns normally leaves the queue it found: empty, or cut off behind an object
without a name. -/
def Handled (queue : List ObjectId) (s' : System P Value) : Prop :=
  s'.pmda.listener.newObjects = [] ∧ AllRegistered s' queue ∨
    ∃ handled x object, queue = handled ++ x :: s'.pmda.listener.newObjects ∧
      AllRegistered s' handled ∧ s'.pmda.listener.getProps x = some object ∧
      getName object true = .ok ""

omit [ToString ObjectId] in
theorem Handled.cons {queue : List ObjectId} {s' : System P Value} (h : Handled queue s')
    {objectId : ObjectId} {r : Registration ObjectId Value}
    (hr : (objectId, .registered r) ∈ s'.trace)
    (hprops : s'.pmda.listener.getProps objectId = some r.props) :
    Handled (objectId :: queue) s' := by
  have hadd {ids : List ObjectId} (hall : AllRegistered s' ids) :
      AllRegistered s' (objectId :: ids) := by
    intro x hx
    rcases List.mem_cons.mp hx with rfl | hx
    · exact ⟨r, hr, hprops⟩
    · exact hall x hx
  rcases h with ⟨hempty, hall⟩ | ⟨handled, x, object, hqueue, hall, hnameless⟩
  · exact .inl ⟨hempty, hadd hall⟩
  · exact .inr ⟨objectId :: handled, x, object, by rw [hqueue, List.cons_append], hadd hall,
      hnameless⟩

omit [DecidableEq ObjectId] [ToString ObjectId] in
theorem registers_leaving {objectId : ObjectId} {s s' : Pmda P Value}
    {props : Option (Object ObjectId Value)} {exit : IterationExit ObjectId Value}
    (h : Pmda.Registers objectId s props exit s') (hsupported : exit ≠ .unsupportedType)
    (hleaves : exit.leaves = some (.ok ())) :
    s' = s ∧ ∃ object, props = some object ∧ getName object true = .ok "" := by
  cases h with
  | unsupportedType => exact absurd rfl hsupported
  | noName object domain hdomain hempty => exact ⟨rfl, object, rfl, hempty⟩
  | _ => exact absurd hleaves (by simp [IterationExit.leaves])

omit [DecidableEq ObjectId] [ToString ObjectId] in
theorem registers_staying {objectId : ObjectId} {s s' : Pmda P Value}
    {props : Option (Object ObjectId Value)} {exit : IterationExit ObjectId Value}
    (h : Pmda.Registers objectId s props exit s') (hproperties : exit ≠ .noProperties)
    (hleaves : exit.leaves = none) :
    ∃ r, exit = .registered r ∧ props = some r.props := by
  cases h with
  | noProperties => exact absurd rfl hproperties
  | registered r => exact ⟨r, rfl, rfl⟩
  | _ => exact absurd hleaves (by simp [IterationExit.leaves])

theorem loop_handled (rounds : Nat) {s : System P Value} (ha : Accounted s)
    (hlooping : s.progress = .looping) {pmda : Pmda P Value}
    (h : Pmda.beginFetchLoop rounds s.pmda = some (.ok (), pmda)) :
    ∃ steps s', run (exec pmDebug) (List.replicate steps .advance) s = s' ∧ s'.pmda = pmda ∧
      s'.progress = .idle ∧ s.trace ⊆ s'.trace ∧
      s'.pmda.listener.props = s.pmda.listener.props ∧
      Handled s.pmda.listener.newObjects s' := by
  induction rounds generalizing s with
  | zero => exact absurd h (by simp [Pmda.beginFetchLoop])
  | succ rounds ih =>
    cases hq : s.pmda.listener.newObjects with
    | nil =>
      simp only [Pmda.beginFetchLoop, getNewObjectId_listener, hq, List.head?_nil, List.tail_nil,
        Option.some.injEq, Prod.mk.injEq, true_and] at h
      subst h
      refine ⟨1, { s.withListener { s.pmda.listener with newObjects := [] } with
        progress := .idle }, ?_, rfl, rfl, fun _ => id, rfl, .inl ⟨rfl, ?_⟩⟩
      · simp [exec, advance, hlooping, getNewObjectId_listener, hq]
      · exact fun x hx => absurd hx List.not_mem_nil
    | cons objectId rest =>
      obtain ⟨exit, pmda₁, hr, hrun, hloop⟩ := loop_round pmDebug rounds hlooping hq
      rw [hloop] at h
      have ha₁ : Accounted (run (exec pmDebug) [.advance, .advance, .advance] s) :=
        run_invariant (exec pmDebug) (fun action _ h => accounted_exec action h) _ ha
      obtain ⟨-, hproperties, hsupported⟩ := ha₁.traced objectId exit (by simp [hrun])
      cases hleaves : exit.leaves with
      | none =>
        obtain ⟨r, rfl, hprops⟩ := registers_staying hr hproperties hleaves
        -- the rest of the queue is handled from the state that the registration leaves
        have hnext : run (exec pmDebug) [.advance, .advance, .advance] s =
            { pmda := pmda₁
              progress := .looping
              trace := s.trace ++ [(objectId, .registered r)] } := hrun
        rw [hnext] at ha₁
        obtain ⟨steps, s', hsteps, hpmda, hidle, htrace, hkept, hhandled⟩ := ih ha₁ rfl h
        rw [hr.listener] at hkept hhandled
        have hregistered : (objectId, .registered r) ∈ s'.trace :=
          htrace (List.mem_append_right _ (List.mem_singleton_self _))
        refine ⟨3 + steps, s', ?_, hpmda, hidle, ?_, hkept, hhandled.cons hregistered ?_⟩
        · rw [List.replicate_add, run_append]
          exact (congrArg _ hnext).trans hsteps
        · exact fun x hx => htrace (List.mem_append_left _ hx)
        · rw [getProps, hkept]
          exact hprops
      | some result =>
        simp only [hleaves, Option.some.injEq, Prod.mk.injEq] at h
        obtain ⟨rfl, rfl⟩ := h
        obtain ⟨rfl, object, hobject, hnameless⟩ := registers_leaving hr hsupported hleaves
        refine ⟨3, _, hrun, rfl, by simp [hleaves], fun x hx => List.mem_append_left _ hx, rfl, ?_⟩
        refine .inr ⟨[], objectId, object, rfl, ?_, hobject, hnameless⟩
        exact fun x hx => absurd hx List.not_mem_nil

/-- A call of `begin_fetch_values`, as the PMDA's thread makes it. -/
def fetchCall (pmDebug : DebugFlags) (steps : Nat) (s : System P Value) : System P Value :=
  run (exec pmDebug) (.beginFetch :: List.replicate steps .advance) s

theorem after_fetchCall (actions : List (Action ObjectId Value)) (steps : Nat) :
    fetchCall pmDebug steps (after P pmDebug includeAutoDelete actions) =
      after P pmDebug includeAutoDelete
        (actions ++ .beginFetch :: List.replicate steps .advance) := (run_append ..).symm

theorem call_handled {s : System P Value} (ha : Accounted s) (hidle : s.progress = .idle)
    {pmda : Pmda P Value} (h : Pmda.beginFetchValues s.pmda = some (.ok (), pmda)) :
    ∃ steps s', fetchCall pmDebug steps s = s' ∧ s'.pmda = pmda ∧ s'.progress = .idle ∧
      s'.pmda.listener.props = s.pmda.listener.props ∧ Handled s.pmda.listener.newObjects s' := by
  have hbegun : exec pmDebug .beginFetch s = { s with progress := .looping } := by
    simp only [exec, hidle]
  have ha₁ : Accounted (exec pmDebug .beginFetch s) := accounted_exec .beginFetch ha
  rw [hbegun] at ha₁
  obtain ⟨steps, s', hsteps, hpmda, hidle', -, hkept, hhandled⟩ := loop_handled _ ha₁ rfl h
  exact ⟨steps, s', (congrArg (run (exec pmDebug) _) hbegun).trans hsteps, hpmda, hidle', hkept,
    hhandled⟩

/-- The queue of the first state is empty in the second, and each of its objects that has a name is
stored in the cache under this name and listed in the domain of its type. -/
def RegistersWaiting (s s' : System P Value) : Prop :=
  s'.pmda.listener.newObjects = [] ∧
    ∀ x ∈ s.pmda.listener.newObjects, ∀ object, s.pmda.listener.getProps x = some object →
      Named object → ∃ r, (x, .registered r) ∈ s'.trace ∧ r.props = object ∧
        domainOfType (getTypeObject object) = some r.domain ∧ getName object true = .ok r.name ∧
        P.instanceName (s'.pmda.domains r.domain) r.inst = some r.name ∧
        ∃ entry, P.lookup s'.pmda.cache r.domain.indom r.inst = .ok entry ∧ entry.name = r.name

omit [ToString ObjectId] in
theorem AllRegistered.listed {s : System P Value} {objectIds : List ObjectId}
    (h : AllRegistered s objectIds) (ha : Accounted s) (hc : Cached s) {x : ObjectId}
    (hx : x ∈ objectIds) {object : Object ObjectId Value}
    (hobject : s.pmda.listener.getProps x = some object) :
    Named object ∧ ∃ r, (x, .registered r) ∈ s.trace ∧ r.props = object ∧
      domainOfType (getTypeObject object) = some r.domain ∧ getName object true = .ok r.name ∧
      P.instanceName (s.pmda.domains r.domain) r.inst = some r.name ∧
      ∃ entry, P.lookup s.pmda.cache r.domain.indom r.inst = .ok entry ∧ entry.name = r.name := by
  obtain ⟨r, hr, hprops⟩ := h x hx
  obtain rfl := Option.some.inj (hobject.symm.trans hprops)
  obtain ⟨-, hdomain, hname, hne, -⟩ := ha.registered x r hr
  exact ⟨⟨r.name, hname, hne⟩, r, hr, rfl, hdomain, hname, hc.kept hr⟩

omit [ToString ObjectId] in
/-- Whether the objects before the last one have names shows in how the queue was handled. -/
theorem Handled.registersWaiting_iff {s s' : System P Value}
    (h : Handled s.pmda.listener.newObjects s') (ha : Accounted s') (hc : Cached s')
    (hkept : s'.pmda.listener.props = s.pmda.listener.props) :
    RegistersWaiting s s' ↔ ∀ x ∈ s.pmda.listener.newObjects.dropLast,
      ∃ object, s.pmda.listener.getProps x = some object ∧ Named object := by
  have hsame (x : ObjectId) : s.pmda.listener.getProps x = s'.pmda.listener.getProps x := by
    rw [getProps, getProps, hkept]
  simp only [RegistersWaiting, hsame]
  rcases h with ⟨hempty, hall⟩ | ⟨handled, x, object, hqueue, hall, hobject, hnameless⟩
  · -- the whole queue was registered, and nothing is registered without a name
    constructor
    · intro _ x hx
      obtain ⟨r, -, hprops⟩ := hall x (List.mem_of_mem_dropLast hx)
      exact ⟨r.props, hprops, (hall.listed ha hc (List.mem_of_mem_dropLast hx) hprops).1⟩
    · intro _
      exact ⟨hempty, fun x hx object hobject _ => (hall.listed ha hc hx hobject).2⟩
  · rw [hqueue]
    constructor
    · rintro ⟨hempty, -⟩ y hy
      rw [hempty, List.dropLast_concat] at hy
      obtain ⟨r, -, hprops⟩ := hall y hy
      exact ⟨r.props, hprops, (hall.listed ha hc hy hprops).1⟩
    · intro hnamed
      have hempty : s'.pmda.listener.newObjects = [] := by
        by_contra hne
        -- the object without a name is not the last of the queue
        have hx : x ∈ (handled ++ x :: s'.pmda.listener.newObjects).dropLast := by
          rw [List.dropLast_append_of_ne_nil (List.cons_ne_nil _ _),
            List.dropLast_cons_of_ne_nil hne]
          exact List.mem_append_right _ List.mem_cons_self
        obtain ⟨object', hobject', hnamed'⟩ := hnamed x hx
        obtain rfl := Option.some.inj (hobject.symm.trans hobject')
        exact not_named_of_nameless hnameless hnamed'
      refine ⟨hempty, fun y hy object' hobject' hnamed' => ?_⟩
      rw [hempty] at hy
      rcases List.mem_append.mp hy with hy | hy
      · exact (hall.listed ha hc hy hobject').2
      · obtain rfl := List.mem_singleton.mp hy
        obtain rfl := Option.some.inj (hobject.symm.trans hobject')
        exact absurd hnamed' (not_named_of_nameless hnameless)

/-- A call that no exception leaves empties the queue and registers every named object of it,
exactly when the objects before the last one have names. -/
theorem begin_fetch_registers_iff (hP : P.Lawful) (actions : List (Action ObjectId Value))
    (hidle : (after P pmDebug includeAutoDelete actions).progress = .idle)
    (hraises : ∀ fault pmda, Pmda.beginFetchValues
      (after P pmDebug includeAutoDelete actions).pmda ≠ some (.error fault, pmda)) :
    ∃ steps s', fetchCall pmDebug steps (after P pmDebug includeAutoDelete actions) = s' ∧
      s'.progress = .idle ∧
      Pmda.beginFetchValues (after P pmDebug includeAutoDelete actions).pmda =
        some (.ok (), s'.pmda) ∧
      (RegistersWaiting (after P pmDebug includeAutoDelete actions) s' ↔
        ∀ x ∈ (after P pmDebug includeAutoDelete actions).pmda.listener.newObjects.dropLast,
          ∃ object, (after P pmDebug includeAutoDelete actions).pmda.listener.getProps x =
            some object ∧ Named object) := by
  obtain ⟨⟨result, pmda⟩, hresult⟩ := Option.isSome_iff_exists.mp
    (Pmda.beginFetchValues_isSome (after P pmDebug includeAutoDelete actions).pmda)
  cases result with
  | error fault => exact absurd hresult (hraises fault pmda)
  | ok _ =>
    obtain ⟨steps, s', hcall, rfl, hidle', hkept, hhandled⟩ :=
      call_handled (after_accounted actions) hidle hresult
    have hafter := (after_fetchCall actions steps).symm.trans hcall
    have ha : Accounted s' := hafter ▸ after_accounted _
    have hc : Cached s' := hafter ▸ after_cached hP _
    exact ⟨steps, s', hcall, hidle', hresult, hhandled.registersWaiting_iff ha hc hkept⟩

/-- Two queues that wait for their registration. -/
def waitingQueues (first : List (String × QmfValue Nat)) : List (Action Nat (QmfValue Nat)) :=
  [brokerObject "queue" 1 first, brokerObject "queue" 2 [("name", .string "orders")]].map
    .objectProps

omit [ToString ObjectId] in
theorem not_raised {s : Pmda P Value}
    (h : (Pmda.beginFetchValues s).map Prod.fst = some (.ok ())) (fault : Fault)
    (pmda : Pmda P Value) : Pmda.beginFetchValues s ≠ some (.error fault, pmda) := by
  intro hfault
  rw [hfault] at h
  exact absurd h (by simp)

/-- The system in which they wait. -/
def waiting (first : List (String × QmfValue Nat)) :
    System (NameTable.library Nat) (QmfValue Nat) :=
  after (NameTable.library Nat) ⟨false, false⟩ false (waitingQueues first)

theorem begin_fetch_registers_both :
    ∃ steps, RegistersWaiting (waiting [("name", .string "billing")])
      (fetchCall ⟨false, false⟩ steps (waiting [("name", .string "billing")])) := by
  obtain ⟨steps, s', hcall, -, -, hiff⟩ :
      ∃ steps s', fetchCall ⟨false, false⟩ steps (waiting [("name", .string "billing")]) = s' ∧ _ :=
    begin_fetch_registers_iff (NameTable.library_lawful Nat)
      (waitingQueues [("name", .string "billing")]) rfl (not_raised rfl)
  refine ⟨steps, hcall ▸ hiff.mpr fun x hx => ?_⟩
  obtain rfl : x = 1 := List.mem_singleton.mp hx
  exact ⟨_, rfl, "billing", rfl, by decide⟩

/-- Behind a queue without a name, a named queue goes on waiting. -/
theorem nameless_ends_call :
    ¬ ∀ (actions : List (Action Nat (QmfValue Nat))),
      (after (NameTable.library Nat) ⟨false, false⟩ false actions).progress = .idle →
      (∀ fault pmda, Pmda.beginFetchValues
        (after (NameTable.library Nat) ⟨false, false⟩ false actions).pmda ≠
          some (.error fault, pmda)) →
      ∃ steps s', fetchCall ⟨false, false⟩ steps
          (after (NameTable.library Nat) ⟨false, false⟩ false actions) = s' ∧
        s'.progress = .idle ∧
        Pmda.beginFetchValues (after (NameTable.library Nat) ⟨false, false⟩ false actions).pmda =
          some (.ok (), s'.pmda) ∧
        RegistersWaiting (after (NameTable.library Nat) ⟨false, false⟩ false actions) s' := by
  intro h
  obtain ⟨steps, s', -, -, hcall, hempty, -⟩ := h (waitingQueues []) rfl (not_raised rfl)
  have hleft : (Pmda.beginFetchValues (after (NameTable.library Nat) ⟨false, false⟩ false
      (waitingQueues [])).pmda).map (·.2.listener.newObjects) = some [2] := rfl
  rw [hcall, Option.map_some, hempty] at hleft
  exact absurd hleft (by decide)

end System

end QpidPmda.Qmf1
