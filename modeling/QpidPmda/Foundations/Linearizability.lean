import Mathlib.Data.List.Perm.Basic
import Mathlib.Data.List.Pairwise

/-! # Linearizations of a concurrent history

An operation is one call of a thread, with the times of its invocation and of
its response. A linearization arranges the operations that took effect in one
sequence: run one after the other they return what they returned, the sequence
agrees with real time, and it contains every completed operation once. Three
rules extend a linearization along a run: nothing happens to it, an operation
takes effect and is appended, or an operation that took effect responds.
-/

namespace QpidPmda.Foundations

variable {Tid Call Ret State : Type*}

structure Operation (Tid Call Ret : Type*) where
  thread : Tid
  call : Call
  ret : Ret
  invoked : Nat
  responded : Option Nat

/-- The response of `x` comes before the invocation of `y`. -/
def Operation.Precedes (x y : Operation Tid Call Ret) : Prop :=
  ∃ time, x.responded = some time ∧ time < y.invoked

/-- Run atomically from `s`, the operations return what they returned and leave `s'`. -/
def Replays (atomic : Call → State → Ret × State) :
    State → List (Operation Tid Call Ret) → State → Prop
  | s, [], s' => s' = s
  | s, op :: ops, s' => (atomic op.call s).1 = op.ret ∧ Replays atomic (atomic op.call s).2 ops s'

theorem Replays.concat {atomic : Call → State → Ret × State} {s s' : State}
    {ops : List (Operation Tid Call Ret)} (h : Replays atomic s ops s')
    {op : Operation Tid Call Ret} (hop : (atomic op.call s').1 = op.ret) :
    Replays atomic s (ops ++ [op]) (atomic op.call s').2 := by
  induction ops generalizing s with
  | nil =>
    obtain rfl : s' = s := h
    exact ⟨hop, rfl⟩
  | cons first ops ih => exact ⟨h.1, ih h.2⟩

theorem Replays.replace {atomic : Call → State → Ret × State} {s s' : State}
    {before after : List (Operation Tid Call Ret)} {op op' : Operation Tid Call Ret}
    (h : Replays atomic s (before ++ op :: after) s') (hcall : op'.call = op.call)
    (hret : op'.ret = op.ret) : Replays atomic s (before ++ op' :: after) s' := by
  induction before generalizing s with
  | nil =>
    refine ⟨?_, ?_⟩
    · rw [hcall, hret]; exact h.1
    · rw [hcall]; exact h.2
  | cons first before ih => exact ⟨h.1, ih h.2⟩

structure Linearization (atomic : Call → State → Ret × State) (start : State)
    (completed order : List (Operation Tid Call Ret)) (final : State) : Prop where
  replays : Replays atomic start order final
  /-- Each completed operation occurs once; any other operation in the order is still open. -/
  complete : (order.filter (·.responded.isSome)).Perm completed
  realTime : order.Pairwise fun x y => ¬ y.Precedes x
  threadOrder : order.Pairwise fun x y => x.thread = y.thread → x.Precedes y

namespace Linearization
variable {atomic : Call → State → Ret × State} {start final : State}
  {completed order : List (Operation Tid Call Ret)}

theorem nil (atomic : Call → State → Ret × State) (start : State) :
    Linearization atomic start ([] : List (Operation Tid Call Ret)) [] start :=
  ⟨rfl, .nil, .nil, .nil⟩

/-- An operation takes effect after all others, and all others of its thread are over. -/
theorem take (h : Linearization atomic start completed order final)
    {op : Operation Tid Call Ret} (hopen : op.responded = none)
    (hret : (atomic op.call final).1 = op.ret)
    (hthread : ∀ x ∈ order, x.thread = op.thread → x.Precedes op) :
    Linearization atomic start completed (order ++ [op]) (atomic op.call final).2 where
  replays := h.replays.concat hret
  complete := by simpa [hopen] using h.complete
  realTime := List.pairwise_append.mpr ⟨h.realTime, List.pairwise_singleton _ _, by
    rintro x - y hy ⟨time, htime, -⟩
    obtain rfl := List.mem_singleton.mp hy
    rw [hopen] at htime
    exact absurd htime (by simp)⟩
  threadOrder := List.pairwise_append.mpr ⟨h.threadOrder, List.pairwise_singleton _ _, by
    intro x hx y hy hxy
    obtain rfl := List.mem_singleton.mp hy
    exact hthread x hx hxy⟩

/-- In a linearization an open operation is the last one of its thread. -/
theorem thread_after_open {before after : List (Operation Tid Call Ret)}
    {op : Operation Tid Call Ret} (h : Linearization atomic start completed
      (before ++ op :: after) final) (hopen : op.responded = none) :
    ∀ y ∈ after, op.thread ≠ y.thread := by
  intro y hy heq
  obtain ⟨time, htime, -⟩ := (List.pairwise_cons.mp
    (List.pairwise_append.mp h.threadOrder).2.1).1 y hy heq
  rw [hopen] at htime
  exact absurd htime (by simp)

/-- An operation that took effect responds, later than every invocation so far. -/
theorem respond {before after : List (Operation Tid Call Ret)} {op : Operation Tid Call Ret}
    (h : Linearization atomic start completed (before ++ op :: after) final)
    (hopen : op.responded = none) {now : Nat}
    (hpast : ∀ x ∈ before ++ op :: after, x.invoked < now) :
    Linearization atomic start (completed ++ [{ op with responded := some now }])
      (before ++ { op with responded := some now } :: after) final where
  replays := h.replays.replace rfl rfl
  complete := by
    have hc := h.complete
    simp only [List.filter_append, List.filter_cons, hopen, Option.isSome_none,
      Bool.false_eq_true, if_false] at hc
    simp only [List.filter_append, List.filter_cons, Option.isSome_some, if_true]
    exact (List.perm_middle.trans (hc.cons _)).trans (List.perm_append_singleton _ _).symm
  realTime := by
    obtain ⟨hb, hca, hba⟩ := List.pairwise_append.mp h.realTime
    obtain ⟨ha, haa⟩ := List.pairwise_cons.mp hca
    refine List.pairwise_append.mpr ⟨hb, List.pairwise_cons.mpr ⟨fun y hy => ha y hy, haa⟩, ?_⟩
    intro x hx y hy
    rcases List.mem_cons.mp hy with rfl | hy
    · rintro ⟨time, htime, hlt⟩
      have hx' := hpast x (List.mem_append_left _ hx)
      obtain rfl := Option.some.inj htime
      omega
    · exact hba x hx y (List.mem_cons_of_mem _ hy)
  threadOrder := by
    obtain ⟨hb, hca, hba⟩ := List.pairwise_append.mp h.threadOrder
    obtain ⟨-, haa⟩ := List.pairwise_cons.mp hca
    refine List.pairwise_append.mpr ⟨hb, List.pairwise_cons.mpr ⟨?_, haa⟩, ?_⟩
    · intro y hy heq
      exact absurd heq (h.thread_after_open hopen y hy)
    · intro x hx y hy heq
      rcases List.mem_cons.mp hy with rfl | hy
      · exact hba x hx op List.mem_cons_self heq
      · exact hba x hx y (List.mem_cons_of_mem _ hy) heq

end Linearization

end QpidPmda.Foundations
