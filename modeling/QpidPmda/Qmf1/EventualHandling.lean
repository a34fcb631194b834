import QpidPmda.Qmf1.FetchWork

/-! # Every announced object is handled in the end

A call that returns either found the queue empty or handled an object at least,
so an object in the queue waits for no more calls than there are objects up to
it. With finitely many objects every call returns, and nothing that was
announced waits for ever.
-/

namespace QpidPmda.Qmf1
open Qpid Pcp ConsoleUtils ConsoleValue Foundations ConsoleListener

namespace System
variable {ObjectId Value : Type} {P : Library ObjectId} [ConsoleValue Value ObjectId]
  [ToString ObjectId] [DecidableEq ObjectId] {pmDebug : DebugFlags} {includeAutoDelete : Bool}

section Returns

/-- A step with which a call returns. -/
def returned (pmDebug : DebugFlags) (action : Action ObjectId Value) (s : System P Value) : ℕ :=
  if !s.progress.isIdle && (exec pmDebug action s).progress.isIdle then 1 else 0

/-- The ids whose iteration is still to end: the one in hand, and those in the queue. -/
def unhandled (s : System P Value) : List ObjectId :=
  s.progress.inHand.toList ++ s.pmda.listener.newObjects

theorem isPrefix_taken_run (pmDebug : DebugFlags) (actions : List (Action ObjectId Value))
    (s : System P Value) : s.taken <+: (run (exec pmDebug) actions s).taken := by
  have hstep (action : Action ObjectId Value) (s' : System P Value) (h : s.taken <+: s'.taken) :
      s.taken <+: (exec pmDebug action s').taken := by
    rw [taken_exec]
    exact h.trans (List.prefix_append _ _)
  exact run_invariant (exec pmDebug) hstep actions List.prefix_rfl

/-- A step with which a call returns ends an iteration, unless nothing is left to handle. -/
theorem returned_exec (pmDebug : DebugFlags) (action : Action ObjectId Value)
    (s : System P Value) :
    s.trace.length + returned pmDebug action s ≤ (exec pmDebug action s).trace.length ∨
      s.taken.length ≤ (exec pmDebug action s).trace.length := by
  have hdoes := exec_does pmDebug action s
  unfold returned
  generalize exec pmDebug action s = s' at hdoes ⊢
  cases hdoes with
  | drained hlooping hq =>
    right
    simp [length_taken, hlooping, hq, Progress.inHand]
  | ended objectId props exit pmda hfetched hr =>
    left
    rw [List.length_append, List.length_singleton]
    exact Nat.add_le_add_left (by split_ifs <;> simp) _
  | begun hidle => simp [hidle, Progress.isIdle]
  | popped objectId rest hlooping hq => simp [hlooping, Progress.isIdle, withListener]
  | fetched objectId hpopped => simp [Progress.isIdle]
  | _ => simp [withListener]

theorem min_le_length_trace (pmDebug : DebugFlags) (actions : List (Action ObjectId Value))
    (s : System P Value) :
    min s.taken.length (s.trace.length + spent (exec pmDebug) (returned pmDebug) actions s) ≤
      (run (exec pmDebug) actions s).trace.length := by
  induction actions generalizing s with
  | nil => simp [spent]
  | cons action actions ih =>
    have hstep := returned_exec pmDebug action s
    have htaken := (isPrefix_taken_run pmDebug [action] s).length_le
    have hlength := length_taken (exec pmDebug action s)
    have hrest := ih (exec pmDebug action s)
    simp only [run_cons, run_nil, spent] at htaken ⊢
    omega

omit [ConsoleValue Value ObjectId] [ToString ObjectId] [DecidableEq ObjectId] in
theorem exists_exit_of_lt {s : System P Value} {x : ObjectId} {i : ℕ}
    (hx : s.taken[i]? = some x) (hi : i < s.trace.length) : ∃ exit, (x, exit) ∈ s.trace := by
  have hfirst : (s.trace.map Prod.fst)[i]? = some x := by
    rw [taken, List.append_assoc, List.getElem?_append_left (by simpa using hi)] at hx
    exact hx
  obtain ⟨⟨y, exit⟩, hmem, rfl⟩ := List.mem_map.mp (List.mem_of_getElem? hfirst)
  exact ⟨exit, hmem⟩

theorem getElem?_taken {s : System P Value} {x : ObjectId} {i : ℕ}
    (hx : s.unhandled[i]? = some x) (actions : List (Action ObjectId Value)) :
    (run (exec pmDebug) actions s).taken[s.trace.length + i]? = some x := by
  obtain ⟨rest, hrest⟩ := isPrefix_taken_run pmDebug actions s
  have hplace : s.taken[s.trace.length + i]? = some x := by
    rw [taken, List.append_assoc, List.getElem?_append_right (by simp)]
    simpa [unhandled] using hx
  rw [← hrest, List.getElem?_append_left (List.getElem?_eq_some_iff.mp hplace).1]
  exact hplace

/-- What waits is handled before as many calls return as there are ids up to it. -/
theorem exists_exit_of_returned {s : System P Value} {x : ObjectId} {i : ℕ}
    (hx : s.unhandled[i]? = some x) {actions : List (Action ObjectId Value)}
    (hreturns : i < spent (exec pmDebug) (returned pmDebug) actions s) :
    ∃ exit, (x, exit) ∈ (run (exec pmDebug) actions s).trace := by
  have hmin := min_le_length_trace pmDebug actions s
  have hlength := length_taken s
  have hlt := (List.getElem?_eq_some_iff.mp hx).1
  rw [unhandled, List.length_append] at hlt
  refine exists_exit_of_lt (getElem?_taken hx actions) ?_
  omega

theorem one_le_returned {actions : List (Action ObjectId Value)} {s : System P Value}
    (hbusy : s.progress ≠ .idle) (hidle : (run (exec pmDebug) actions s).progress = .idle) :
    1 ≤ spent (exec pmDebug) (returned pmDebug) actions s := by
  induction actions generalizing s with
  | nil => exact absurd hidle hbusy
  | cons action actions ih =>
    by_cases hnext : (exec pmDebug action s).progress = .idle
    · have hreturned : returned pmDebug action s = 1 := by
        rw [returned, isIdle_iff.mpr hnext, Bool.eq_false_iff.mpr (mt isIdle_iff.mp hbusy)]
        rfl
      rw [spent, hreturned]
      exact Nat.le_add_right _ _
    · exact (ih hnext hidle).trans (Nat.le_add_left _ _)

theorem idle_exec {action : Action ObjectId Value} {s : System P Value}
    (hidle : s.progress = .idle) (hcall : action ≠ .beginFetch) :
    (exec pmDebug action s).progress = .idle := by
  have hdoes := exec_does pmDebug action s
  generalize exec pmDebug action s = s' at hdoes ⊢
  cases hdoes with
  | objectProps object => exact hidle
  | objectStats object => exact hidle
  | begun => exact absurd rfl hcall
  | nothing => exact hidle
  | drained => rfl
  | popped objectId rest hlooping => exact absurd (hlooping.symm.trans hidle) (by simp)
  | fetched objectId hpopped => exact absurd (hpopped.symm.trans hidle) (by simp)
  | ended objectId props exit pmda hfetched => exact absurd (hfetched.symm.trans hidle) (by simp)

/-- An id in the queue waits for no more calls to return than there are ids up to it, counting the
one in hand, whatever the callbacks add to the queue meanwhile. -/
theorem handled_within (before during : List (Action ObjectId Value)) {x : ObjectId} {i : ℕ}
    (hx : (after P pmDebug includeAutoDelete before).unhandled[i]? = some x)
    (hreturns : i < spent (exec pmDebug) (returned pmDebug) during
      (after P pmDebug includeAutoDelete before)) :
    ∃ exit, (x, exit) ∈ (after P pmDebug includeAutoDelete (before ++ during)).trace := by
  have hrun : after P pmDebug includeAutoDelete (before ++ during) =
      run (exec pmDebug) during (after P pmDebug includeAutoDelete before) := run_append ..
  rw [hrun]
  exact exists_exit_of_returned hx hreturns

/-- A queue behind one without a name is handled by the second call. -/
theorem handled_within_two : ∃ exit, (2, exit) ∈
    (after (NameTable.library Nat) ⟨false, false⟩ false
      ([brokerObject "queue" 1 [], brokerObject "queue" 2 [("name", .string "orders")]].map
          .objectProps ++
        [.beginFetch, .advance, .advance, .advance,
          .beginFetch, .advance, .advance, .advance, .advance])).trace :=
  handled_within (i := 1) _ _ rfl (by decide)

end Returns

theorem mem_announced {actions : List (Action ObjectId Value)} {x : ObjectId}
    (h : x ∈ ListenerCall.announced pmDebug includeAutoDelete (updates actions)) :
    ∃ object, .objectProps object ∈ actions ∧ object.objectId = x := by
  obtain ⟨object, hobject, rfl⟩ := List.mem_map.mp h
  have hsaved := mem_of_mem_firsts _ (List.mem_of_mem_filter hobject)
  obtain ⟨call, hcall, hcallSaved⟩ := List.mem_filterMap.mp hsaved
  obtain ⟨action, haction, hupdate⟩ := List.mem_filterMap.mp hcall
  refine ⟨object, ?_, rfl⟩
  cases action with
  | objectProps reported =>
    obtain rfl := Option.some.inj hupdate
    simp only [ListenerCall.savedProps, Option.ite_none_right_eq_some, Option.some.injEq]
      at hcallSaved
    exact hcallSaved.2 ▸ haction
  | objectStats reported =>
    obtain rfl := Option.some.inj hupdate
    exact absurd hcallSaved (by simp [ListenerCall.savedProps])
  | _ => exact absurd hupdate (by simp)

section Endless
variable {schedule : ℕ → Action ObjectId Value}

/-- The system at a moment of an endless schedule. -/
def moment (P : Library ObjectId) (pmDebug : DebugFlags) (includeAutoDelete : Bool)
    (schedule : ℕ → Action ObjectId Value) (n : ℕ) : System P Value :=
  after P pmDebug includeAutoDelete (segment schedule 0 n)

theorem moment_add (n steps : ℕ) : moment P pmDebug includeAutoDelete schedule (n + steps) =
    run (exec pmDebug) (segment schedule n steps)
      (moment P pmDebug includeAutoDelete schedule n) := by
  have hsplit : segment schedule 0 (n + steps) =
      segment schedule 0 n ++ segment schedule n steps := by
    rw [segment_add, Nat.zero_add]
  rw [moment, hsplit]
  exact run_append ..

theorem moment_succ (n : ℕ) : moment P pmDebug includeAutoDelete schedule (n + 1) =
    exec pmDebug (schedule n) (moment P pmDebug includeAutoDelete schedule n) := moment_add n 1

theorem spent_moment (cost : Action ObjectId Value → System P Value → ℕ) (n steps more : ℕ) :
    spent (exec pmDebug) cost (segment schedule n (steps + more))
        (moment P pmDebug includeAutoDelete schedule n) =
      spent (exec pmDebug) cost (segment schedule n steps)
          (moment P pmDebug includeAutoDelete schedule n) +
        spent (exec pmDebug) cost (segment schedule (n + steps) more)
          (moment P pmDebug includeAutoDelete schedule (n + steps)) := by
  rw [segment_add, spent_append, ← moment_add]

/-- Where the thread keeps getting steps and the brokers have finitely many objects, every call
returns, for each object keeps it going once only. -/
theorem exists_idle (hfair : ∀ n, ∃ m ≥ n, (schedule m).isAdvance = true)
    (objectIds : Finset ObjectId)
    (hobjects : ∀ n object, schedule n = .objectProps object → object.objectId ∈ objectIds)
    (n : ℕ) : ∃ m ≥ n, (moment P pmDebug includeAutoDelete schedule m).progress = .idle := by
  by_contra hbusy
  push Not at hbusy
  obtain ⟨steps, hsteps⟩ := exists_countP_segment hfair n
    ((moment P pmDebug includeAutoDelete schedule n).stepsLeft + 3 * objectIds.card + 1)
  have hsplit (steps : ℕ) : segment schedule 0 n ++ segment schedule n steps =
      segment schedule 0 (n + steps) := by
    rw [segment_add, Nat.zero_add]
  have hduring (first : List (Action ObjectId Value))
      (hfirst : first <+: segment schedule n steps) :
      (after P pmDebug includeAutoDelete (segment schedule 0 n ++ first)).progress ≠ .idle := by
    rw [eq_segment_of_isPrefix_segment hfirst, hsplit]
    exact hbusy _ (Nat.le_add_right _ _)
  have hfew : (ListenerCall.announced pmDebug includeAutoDelete
      (updates (segment schedule 0 n ++ segment schedule n steps))).length ≤ objectIds.card := by
    rw [← List.toFinset_card_of_nodup (ListenerCall.nodup_announced _)]
    refine Finset.card_le_card fun x hx => ?_
    obtain ⟨object, hobject, rfl⟩ := mem_announced (List.mem_toFinset.mp hx)
    rw [hsplit] at hobject
    obtain ⟨m, -, hm⟩ := List.mem_map.mp hobject
    exact hobjects m object hm
  have hle := countP_advance_le (segment schedule 0 n) (segment schedule n steps) hduring
  rw [← moment] at hle
  omega

theorem exists_call (hpolls : ∀ n, ∃ m ≥ n, schedule m = .beginFetch) {n : ℕ}
    (hidle : (moment P pmDebug includeAutoDelete schedule n).progress = .idle) :
    ∃ m ≥ n, (moment P pmDebug includeAutoDelete schedule m).progress ≠ .idle := by
  obtain ⟨m, hm, hcall⟩ := hpolls n
  obtain ⟨steps, rfl⟩ := Nat.exists_eq_add_of_le hm
  induction steps generalizing n with
  | zero =>
    refine ⟨n + 1, Nat.le_succ n, ?_⟩
    rw [moment_succ, show schedule n = .beginFetch from hcall]
    simp [exec, hidle]
  | succ steps ih =>
    by_cases hfirst : schedule n = .beginFetch
    · refine ⟨n + 1, Nat.le_succ n, ?_⟩
      rw [moment_succ, hfirst]
      simp [exec, hidle]
    · have hnext : (moment P pmDebug includeAutoDelete schedule (n + 1)).progress = .idle := by
        rw [moment_succ]
        exact idle_exec hidle hfirst
      have hcall' : schedule (n + 1 + steps) = .beginFetch := by
        rw [← hcall]
        congr 1
        omega
      obtain ⟨m, hm, hbusy⟩ := ih hnext (Nat.le_add_right _ _) hcall'
      exact ⟨m, by omega, hbusy⟩

theorem exists_returned (hpolls : ∀ n, ∃ m ≥ n, schedule m = .beginFetch)
    (hidle : ∀ n, ∃ m ≥ n, (moment P pmDebug includeAutoDelete schedule m).progress = .idle)
    (n count : ℕ) : ∃ steps, count ≤ spent (exec pmDebug) (returned pmDebug)
      (segment schedule n steps) (moment P pmDebug includeAutoDelete schedule n) := by
  induction count with
  | zero => exact ⟨0, Nat.zero_le _⟩
  | succ count ih =>
    obtain ⟨steps, hsteps⟩ := ih
    obtain ⟨rest, hrest, hrestIdle⟩ := hidle (n + steps)
    obtain ⟨call, hcall, hbusy⟩ := exists_call hpolls hrestIdle
    obtain ⟨back, hback, hbackIdle⟩ := hidle call
    obtain ⟨more, rfl⟩ := Nat.exists_eq_add_of_le (hrest.trans hcall)
    obtain ⟨during, rfl⟩ := Nat.exists_eq_add_of_le hback
    rw [moment_add] at hbackIdle
    have hone := one_le_returned hbusy hbackIdle
    refine ⟨steps + more + during, ?_⟩
    rw [spent_moment, spent_moment, ← Nat.add_assoc n steps more]
    omega

/-- Where the thread keeps getting steps and keeps making calls, and the brokers have finitely many
objects, every call returns and every object that was announced is handled in the end, however
often the objects are reported and whenever the callbacks come. -/
theorem eventually_handled (hfair : ∀ n, ∃ m ≥ n, (schedule m).isAdvance = true)
    (hpolls : ∀ n, ∃ m ≥ n, schedule m = .beginFetch) (objectIds : Finset ObjectId)
    (hobjects : ∀ n object, schedule n = .objectProps object → object.objectId ∈ objectIds)
    (n : ℕ) :
    (∃ m ≥ n, (moment P pmDebug includeAutoDelete schedule m).progress = .idle) ∧
    ∀ x ∈ (moment P pmDebug includeAutoDelete schedule n).unhandled,
      ∃ m ≥ n, ∃ exit, (x, exit) ∈ (moment P pmDebug includeAutoDelete schedule m).trace := by
  have hidle (n : ℕ) : ∃ m ≥ n,
      (moment P pmDebug includeAutoDelete schedule m).progress = .idle :=
    exists_idle hfair objectIds hobjects n
  refine ⟨hidle n, fun x hx => ?_⟩
  obtain ⟨i, hi⟩ := List.mem_iff_getElem?.mp hx
  obtain ⟨steps, hsteps⟩ := exists_returned hpolls hidle n (i + 1)
  refine ⟨n + steps, Nat.le_add_right _ _, ?_⟩
  rw [moment_add]
  exact exists_exit_of_returned hi hsteps

end Endless

/-- A queue is reported before every call and while it is under way. -/
def pollSchedule (n : ℕ) : Action Nat (QmfValue Nat) :=
  if n % 2 = 0 then .objectProps (brokerObject "queue" 1 [("name", .string "orders")])
  else if n % 4 = 1 then .beginFetch else .advance

theorem eventually_handled_orders : ∃ m ≥ 1, ∃ exit, (1, exit) ∈
    (moment (NameTable.library Nat) ⟨false, false⟩ false pollSchedule m).trace := by
  refine (eventually_handled (fun n => ⟨4 * n + 3, by omega, ?_⟩)
    (fun n => ⟨4 * n + 1, by omega, ?_⟩) {1} ?_ 1).2 1 (by decide)
  · have hodd : (4 * n + 3) % 2 ≠ 0 ∧ (4 * n + 3) % 4 ≠ 1 := by omega
    simp [pollSchedule, hodd, Action.isAdvance]
  · have hodd : (4 * n + 1) % 2 ≠ 0 ∧ (4 * n + 1) % 4 = 1 := by omega
    simp [pollSchedule, hodd]
  · intro n object hobject
    unfold pollSchedule at hobject
    split_ifs at hobject
    obtain rfl := Action.objectProps.inj hobject
    exact Finset.mem_singleton_self 1

end System

end QpidPmda.Qmf1
