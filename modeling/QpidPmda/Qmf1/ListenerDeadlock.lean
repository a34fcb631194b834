import QpidPmda.Foundations.LockOrder
import QpidPmda.Qmf1.ListenerThreads

/-! # The listener's locks never block all of its callers

`objectProps` takes `newObjectsMutex` inside `propsMutex`, and no call nests
its locks otherwise. So the ranks of the mutexes order the waiting threads.
-/

namespace QpidPmda.Qmf1.ListenerThreads
open Qpid Pcp ConsoleUtils ConsoleValue Foundations ConsoleListener

variable {ObjectId Value Tid : Type} [ConsoleValue Value ObjectId] [ToString ObjectId]
  [DecidableEq ObjectId] [DecidableEq Tid] {pmDebug : DebugFlags}
  {start : ConsoleListener ObjectId Value} {w : ListenerWorld Tid ObjectId Value}

theorem rank_le_one (m : Mutex) : rank m ≤ 1 := by
  cases m <;> simp [rank]

/-- Some unfinished call goes on, no thread stands before a mutex that it owns, and a thread that
finished its call owns none. -/
theorem deadlock_free (h : (calls ObjectId Value pmDebug).Reachable start w) :
    ((∃ t p, w.threads t = some p) → ∃ t w',
      (calls ObjectId Value pmDebug).perform w (.goOn t) = some w' ∧
        (calls ObjectId Value pmDebug).Step w w') ∧
    (∀ t p m next, w.threads t = some p → p.code = .lock m next → w.owner m ≠ some t) ∧
    ∀ t, LockedCalls.Finished w t → ∀ m, w.owner m ≠ some t := by
  have howned := h.owned disciplined
  refine ⟨?_, ?_, ?_⟩
  · rintro ⟨t, p, busy⟩
    obtain ⟨u, w', hw'⟩ := howned.goesOn (P := calls ObjectId Value pmDebug) rank_le_one busy
    exact ⟨u, w', hw', LockedCalls.perform_step hw'⟩
  · intro t p m next busy at_
    exact howned.not_retaken busy at_
  · intro t hfin m
    exact howned.finished hfin m

/-- One thread is about to log a new object, another one waits for `propsMutex`. -/
def waitingReader : List (LockedCalls.Move Bool (ThreadCall Nat (QmfValue Nat))) :=
  .begin true (.objectProps (brokerObject "queue" 1 [("name", .string "first")])) ::
    List.replicate 3 (.goOn true) ++ [.begin false (.getProps 1)]

theorem deadlock_free_waitingReader :
    ∃ w : ListenerWorld Bool Nat (QmfValue Nat),
      waitingReader.foldlM (calls Nat (QmfValue Nat) ⟨false, false⟩).perform
          (World.initial (ConsoleListener.start false)) = some w ∧
        (calls Nat (QmfValue Nat) ⟨false, false⟩).perform w (.goOn false) = none ∧
        ∃ t w', (calls Nat (QmfValue Nat) ⟨false, false⟩).perform w (.goOn t) = some w' := by
  have hcheck : ∀ w ∈ waitingReader.foldlM (calls Nat (QmfValue Nat) ⟨false, false⟩).perform
      (World.initial (ConsoleListener.start false)),
      ((calls Nat (QmfValue Nat) ⟨false, false⟩).perform w (.goOn false)).isNone ∧
        (w.threads true).isSome := by decide
  cases hw : waitingReader.foldlM (calls Nat (QmfValue Nat) ⟨false, false⟩).perform
      (World.initial (ConsoleListener.start false)) with
  | none => exact absurd (congrArg Option.isSome hw) (by decide)
  | some w =>
    obtain ⟨hwaits, hbusy⟩ := hcheck w hw
    have hreach := LockedCalls.reachable_foldlM waitingReader .refl hw
    obtain ⟨p, hp⟩ := Option.isSome_iff_exists.mp hbusy
    obtain ⟨t, w', hw', -⟩ := (deadlock_free hreach).1 ⟨true, p, hp⟩
    exact ⟨w, rfl, Option.isNone_iff_eq_none.mp hwaits, t, w', hw'⟩

end QpidPmda.Qmf1.ListenerThreads
