import QpidPmda.Foundations.AmortizedRuns
import QpidPmda.Qmf1.RegistrationOrder

/-! # How long a call of `begin_fetch_values` takes

The loop of `begin_fetch_values` ends when it finds the queue empty, and the
callbacks go on filling the queue meanwhile. An announced object is worth three
steps, whichever call takes it, and a call one more, so new objects are all that
can keep a call going.
-/

namespace QpidPmda.Qmf1
open Qpid Pcp ConsoleUtils ConsoleValue Foundations ConsoleListener

section Steps
variable {ObjectId Value : Type}

/-- A step of the PMDA's thread. -/
def Action.isAdvance : Action ObjectId Value → Bool
  | .advance => true
  | _ => false

/-- No call of `begin_fetch_values` is under way. -/
def Progress.isIdle : Progress ObjectId Value → Bool
  | .idle => true
  | _ => false

/-- The steps that are left of the iteration, with the one that finds the queue empty. -/
def Progress.stepsLeft : Progress ObjectId Value → ℕ
  | .idle => 0
  | .looping => 1
  | .fetched _ _ => 2
  | .popped _ => 3

end Steps

namespace System
variable {ObjectId Value : Type} {P : Library ObjectId}

/-- The steps that are left while nothing is announced and no iteration leaves its call. -/
def stepsLeft (s : System P Value) : ℕ :=
  3 * s.pmda.listener.newObjects.length + s.progress.stepsLeft

/-- The iterations that left their call. -/
def departures (s : System P Value) : ℕ := s.trace.countP (·.2.leaves.isSome)

/-- A step of the thread is work while a call is under way. -/
def work (action : Action ObjectId Value) (s : System P Value) : ℕ :=
  if action.isAdvance && !s.progress.isIdle then 1 else 0

/-- A call begins. -/
def begun (action : Action ObjectId Value) (s : System P Value) : ℕ :=
  match action with
  | .beginFetch => if s.progress.isIdle then 1 else 0
  | _ => 0

theorem isIdle_iff {s : System P Value} : s.progress.isIdle = true ↔ s.progress = .idle := by
  cases s.progress <;> simp [Progress.isIdle]

theorem length_taken (s : System P Value) : s.taken.length =
    s.trace.length + s.progress.inHand.toList.length + s.pmda.listener.newObjects.length := by
  simp [taken, Nat.add_assoc]

variable [ConsoleValue Value ObjectId] [ToString ObjectId] [DecidableEq ObjectId]
  {pmDebug : DebugFlags} {includeAutoDelete : Bool}

omit [ToString ObjectId] in
theorem work_advance (s : System P Value) :
    work .advance s + (s.advance.stepsLeft + s.advance.departures) + 3 * s.taken.length =
      s.stepsLeft + s.departures + 3 * s.advance.taken.length := by
  cases hprogress : s.progress with
  | idle =>
    have hsame : s.advance = s := by simp only [advance, hprogress]
    simp [hsame, work, Action.isAdvance, hprogress, Progress.isIdle]
  | looping =>
    have hwork : work .advance s = 1 := by simp [work, Action.isAdvance, hprogress, Progress.isIdle]
    cases hq : s.pmda.listener.newObjects with
    | nil =>
      simp [hwork, advance, withListener, getNewObjectId_listener, stepsLeft, departures,
        length_taken, hprogress, hq, Progress.stepsLeft, Progress.inHand]
    | cons objectId rest =>
      simp [hwork, advance, withListener, getNewObjectId_listener, stepsLeft, departures,
        length_taken, hprogress, hq, Progress.stepsLeft, Progress.inHand]
      omega
  | popped objectId =>
    simp [work, Action.isAdvance, Progress.isIdle, advance, stepsLeft, departures,
      length_taken, hprogress, Progress.stepsLeft, Progress.inHand]
    omega
  | fetched objectId props =>
    have hlistener := (Pmda.register_exit objectId props s.pmda).listener
    -- an iteration that leaves its call spares the last look at the queue
    cases hleaves : (Pmda.register objectId props s.pmda).1.leaves <;>
      simp [work, Action.isAdvance, Progress.isIdle, advance, stepsLeft, departures, length_taken,
        List.countP_append, hprogress, hleaves, hlistener, Progress.stepsLeft, Progress.inHand]
    all_goals omega

/-- One action: an announcement adds three steps to what is left, a call one. -/
theorem work_exec (action : Action ObjectId Value) (s : System P Value) :
    work action s + ((exec pmDebug action s).stepsLeft + (exec pmDebug action s).departures) +
        3 * s.taken.length =
      s.stepsLeft + s.departures + 3 * (exec pmDebug action s).taken.length + begun action s := by
  cases action with
  | objectProps object =>
    simp only [exec, work, begun, Action.isAdvance, length_taken, withListener, stepsLeft,
      departures, Bool.false_and, Bool.false_eq_true, if_false]
    omega
  | objectStats object =>
    simp only [exec, work, begun, Action.isAdvance, length_taken, withListener, stepsLeft,
      departures, Bool.false_and, Bool.false_eq_true, if_false]
    omega
  | beginFetch =>
    cases hprogress : s.progress <;>
      simp [exec, work, begun, Action.isAdvance, length_taken, stepsLeft, departures, hprogress,
        Progress.isIdle, Progress.stepsLeft, Progress.inHand]
    omega
  | advance => exact work_advance s
  | fetchValue metric =>
    have hsame : exec pmDebug (.fetchValue metric) s = s := by
      change (match s.progress with | .idle => s | _ => s) = s
      split <;> rfl
    simp [hsame, work, begun, Action.isAdvance]

theorem work_run (pmDebug : DebugFlags) (actions : List (Action ObjectId Value))
    (s : System P Value) :
    spent (exec pmDebug) work actions s + ((run (exec pmDebug) actions s).stepsLeft +
        (run (exec pmDebug) actions s).departures) + 3 * s.taken.length =
      s.stepsLeft + s.departures + 3 * (run (exec pmDebug) actions s).taken.length +
        spent (exec pmDebug) begun actions s :=
  spent_add_potential (exec pmDebug) (fun s => s.stepsLeft + s.departures)
    (fun s => 3 * s.taken.length) (fun action s => work_exec action s) actions s

/-- In a run the work, what is left of it, and the looks at the queue that were spared are three
steps for each announced object and one for each call: the calls need nothing else, however the
callbacks interrupt them. -/
theorem work_after (actions : List (Action ObjectId Value)) :
    spent (exec pmDebug) work actions (initial P Value includeAutoDelete) +
        ((after P pmDebug includeAutoDelete actions).stepsLeft +
          (after P pmDebug includeAutoDelete actions).departures) =
      3 * (ListenerCall.announced pmDebug includeAutoDelete (updates actions)).length +
        spent (exec pmDebug) begun actions (initial P Value includeAutoDelete) := by
  have hspent := work_run pmDebug actions (initial P Value includeAutoDelete)
  have htaken : (after P pmDebug includeAutoDelete actions).taken = _ := taken_after actions
  have hstepsLeft : (initial P Value includeAutoDelete).stepsLeft = 0 := rfl
  have hdepartures : (initial P Value includeAutoDelete).departures = 0 := rfl
  have hnone : (initial P Value includeAutoDelete).taken = [] := rfl
  rw [hstepsLeft, hdepartures, hnone, List.length_nil] at hspent
  rw [← htaken]
  simpa [after] using hspent

theorem departures_le (pmDebug : DebugFlags) (actions : List (Action ObjectId Value))
    (s : System P Value) : s.departures ≤ (run (exec pmDebug) actions s).departures :=
  (isPrefix_trace_run pmDebug actions s).sublist.countP_le

/-- While a call is under way, the steps of the thread are at most those that were left when it
began and three for each object that is announced meanwhile. -/
theorem countP_advance_le (before during : List (Action ObjectId Value))
    (hbusy : ∀ first, first <+: during →
      (after P pmDebug includeAutoDelete (before ++ first)).progress ≠ .idle) :
    during.countP Action.isAdvance +
        3 * (ListenerCall.announced pmDebug includeAutoDelete (updates before)).length ≤
      (after P pmDebug includeAutoDelete before).stepsLeft +
        3 * (ListenerCall.announced pmDebug includeAutoDelete
          (updates (before ++ during))).length := by
  have hrun (first : List (Action ObjectId Value)) :
      after P pmDebug includeAutoDelete (before ++ first) =
        run (exec pmDebug) first (after P pmDebug includeAutoDelete before) := run_append ..
  have hmeets : Meets (exec pmDebug) (fun s _ => s.progress ≠ .idle) during
      (after P pmDebug includeAutoDelete before) :=
    meets_of_prefixes (exec pmDebug) fun first hfirst => hrun first ▸ hbusy first hfirst
  have hwork : spent (exec pmDebug) work during (after P pmDebug includeAutoDelete before) =
      during.countP Action.isAdvance := by
    refine spent_eq_countP (exec pmDebug) (fun action s hbusy => ?_) hmeets
    rw [work, Bool.eq_false_iff.mpr (mt isIdle_iff.mp hbusy), Bool.not_false, Bool.and_true]
  -- no call begins while one is under way
  have hbegun :
      spent (exec pmDebug) begun during (after P pmDebug includeAutoDelete before) = 0 := by
    refine spent_eq_zero (exec pmDebug) (fun action s hbusy => ?_) hmeets
    cases action <;> simp [begun, mt isIdle_iff.mp hbusy]
  have hbalance := work_run pmDebug during (after P pmDebug includeAutoDelete before)
  have hdepartures := departures_le pmDebug during
    (after P pmDebug includeAutoDelete before)
  have htaken (actions : List (Action ObjectId Value)) :
      (after P pmDebug includeAutoDelete actions).taken = _ := taken_after actions
  rw [hwork, hbegun, ← hrun, htaken, htaken] at hbalance
  rw [← hrun] at hdepartures
  omega

end System

end QpidPmda.Qmf1
