import QpidPmda.Foundations.LockedCalls

/-! # Linearizing calls that run under mutexes

A call takes effect with the section after which no section is left for it to
run. If a relation between worlds and states of an atomic object is kept when a
section leaves another one to run, and moves with the atomic call when it leaves
none, then every reachable world has a linearization.
-/

namespace QpidPmda.Foundations

variable {Tid Mutex Sect State Call Ret : Type*} [DecidableEq Tid]

namespace LockedCalls

/-- How the operations of an order stand in a world. -/
structure Tracked (w : World Tid Mutex Sect State Call Ret)
    (order : List (Operation Tid Call Ret)) : Prop where
  since : ∀ t p, w.threads t = some p → p.since < w.clock
  invoked : ∀ x ∈ order, x.invoked < w.clock
  responded : ∀ x ∈ order, ∀ time, x.responded = some time → time < w.clock
  /-- An open operation is the call its thread is about to return from. -/
  isOpen : ∀ x ∈ order, x.responded = none → ∃ p, w.threads x.thread = some p ∧
    p.call = x.call ∧ p.since = x.invoked ∧ p.code.result = some x.ret
  /-- A thread that is about to return has its call in the order. -/
  taken : ∀ t p r, w.threads t = some p → p.code.result = some r →
    ∃ x ∈ order, x.thread = t ∧ x.responded = none
  /-- An operation of a busy thread that is over was over when the thread's call began. -/
  before : ∀ x ∈ order, ∀ p time, w.threads x.thread = some p → x.responded = some time →
    time < p.since

variable {w w' : World Tid Mutex Sect State Call Ret} {order : List (Operation Tid Call Ret)}

theorem Tracked.move (h : Tracked w order) {t : Tid} {p : Running Mutex Sect Call Ret}
    {code : Code Mutex Sect Ret} (busy : w.threads t = some p)
    (hthreads : w'.threads = Function.update w.threads t (some { p with code := code }))
    (hclock : w'.clock = w.clock + 1) (hresult : code.result = p.code.result) :
    Tracked w' order where
  since u q hq := by
    rcases update_eq_some (hthreads ▸ hq) with ⟨rfl, heq⟩ | ⟨-, hq⟩
    · obtain rfl := Option.some.inj heq
      have hp : p.since < w.clock := h.since u p busy
      exact hclock ▸ Nat.lt_succ_of_lt hp
    · have hp := h.since u q hq
      omega
  invoked x hx := by
    have := h.invoked x hx
    omega
  responded x hx time ht := by
    have := h.responded x hx time ht
    omega
  isOpen x hx hopen := by
    obtain ⟨q, hq, hcall, hsince, hret⟩ := h.isOpen x hx hopen
    rw [hthreads]
    by_cases hu : x.thread = t
    · rw [hu, busy] at hq
      obtain rfl := Option.some.inj hq
      exact ⟨{ p with code := code }, by simp [hu], hcall, hsince, hresult.trans hret⟩
    · exact ⟨q, by rw [Function.update_of_ne hu]; exact hq, hcall, hsince, hret⟩
  taken u q r hq hr := by
    rcases update_eq_some (hthreads ▸ hq) with ⟨rfl, heq⟩ | ⟨-, hq⟩
    · obtain rfl := Option.some.inj heq
      exact h.taken u p r busy (hresult.symm.trans hr)
    · exact h.taken u q r hq hr
  before x hx q time hq ht := by
    rcases update_eq_some (hthreads ▸ hq) with ⟨hu, heq⟩ | ⟨-, hq⟩
    · obtain rfl := Option.some.inj heq
      exact h.before x hx p time (hu ▸ busy) ht
    · exact h.before x hx q time hq ht

theorem Tracked.invoke (h : Tracked w order) {t : Tid} {c : Call} {code : Code Mutex Sect Ret}
    (idle : w.threads t = none)
    (hthreads : w'.threads = Function.update w.threads t (some ⟨c, code, w.clock⟩))
    (hclock : w'.clock = w.clock + 1) (hresult : code.result = none) : Tracked w' order where
  since u q hq := by
    rcases update_eq_some (hthreads ▸ hq) with ⟨-, heq⟩ | ⟨-, hq⟩
    · obtain rfl := Option.some.inj heq
      exact hclock ▸ Nat.lt_succ_self _
    · have hp := h.since u q hq
      omega
  invoked x hx := by
    have := h.invoked x hx
    omega
  responded x hx time ht := by
    have := h.responded x hx time ht
    omega
  isOpen x hx hopen := by
    obtain ⟨q, hq, hrest⟩ := h.isOpen x hx hopen
    have hu : x.thread ≠ t := by
      rintro rfl
      rw [idle] at hq
      exact absurd hq (by simp)
    exact ⟨q, by rw [hthreads, Function.update_of_ne hu]; exact hq, hrest⟩
  taken u q r hq hr := by
    rcases update_eq_some (hthreads ▸ hq) with ⟨-, heq⟩ | ⟨-, hq⟩
    · obtain rfl := Option.some.inj heq
      exact absurd (hresult.symm.trans hr) (by simp)
    · exact h.taken u q r hq hr
  before x hx q time hq ht := by
    rcases update_eq_some (hthreads ▸ hq) with ⟨-, heq⟩ | ⟨-, hq⟩
    · obtain rfl := Option.some.inj heq
      exact h.responded x hx time ht
    · exact h.before x hx q time hq ht

/-- The call of a busy thread takes effect, and its operation is appended. -/
theorem Tracked.take (h : Tracked w order) {t : Tid} {p : Running Mutex Sect Call Ret}
    {code : Code Mutex Sect Ret} {r : Ret} (busy : w.threads t = some p)
    (hthreads : w'.threads = Function.update w.threads t (some { p with code := code }))
    (hclock : w'.clock = w.clock + 1) (hbefore : p.code.result = none)
    (hresult : code.result = some r) :
    Tracked w' (order ++ [⟨t, p.call, r, p.since, none⟩]) where
  since u q hq := by
    rcases update_eq_some (hthreads ▸ hq) with ⟨rfl, heq⟩ | ⟨-, hq⟩
    · obtain rfl := Option.some.inj heq
      have hp : p.since < w.clock := h.since u p busy
      exact hclock ▸ Nat.lt_succ_of_lt hp
    · have hp := h.since u q hq
      omega
  invoked x hx := by
    rcases List.mem_append.mp hx with hx | hx
    · have := h.invoked x hx
      omega
    · obtain rfl := List.mem_singleton.mp hx
      have hp : p.since < w.clock := h.since t p busy
      exact hclock ▸ Nat.lt_succ_of_lt hp
  responded x hx time ht := by
    rcases List.mem_append.mp hx with hx | hx
    · have := h.responded x hx time ht
      omega
    · obtain rfl := List.mem_singleton.mp hx
      exact absurd ht (by simp)
  isOpen x hx hopen := by
    rw [hthreads]
    rcases List.mem_append.mp hx with hx | hx
    · obtain ⟨q, hq, hcall, hsince, hret⟩ := h.isOpen x hx hopen
      have hu : x.thread ≠ t := by
        intro hu
        rw [hu, busy] at hq
        obtain rfl := Option.some.inj hq
        exact absurd (hbefore.symm.trans hret) (by simp)
      exact ⟨q, by rw [Function.update_of_ne hu]; exact hq, hcall, hsince, hret⟩
    · obtain rfl := List.mem_singleton.mp hx
      exact ⟨{ p with code := code }, by simp, rfl, rfl, hresult⟩
  taken u q r' hq hr := by
    rcases update_eq_some (hthreads ▸ hq) with ⟨rfl, -⟩ | ⟨-, hq⟩
    · exact ⟨_, List.mem_append_right _ (List.mem_singleton_self _), rfl, rfl⟩
    · obtain ⟨x, hx, hxt, hopen⟩ := h.taken u q r' hq hr
      exact ⟨x, List.mem_append_left _ hx, hxt, hopen⟩
  before x hx q time hq ht := by
    rcases List.mem_append.mp hx with hx | hx
    · rcases update_eq_some (hthreads ▸ hq) with ⟨hu, heq⟩ | ⟨-, hq⟩
      · obtain rfl := Option.some.inj heq
        exact h.before x hx p time (hu ▸ busy) ht
      · exact h.before x hx q time hq ht
    · obtain rfl := List.mem_singleton.mp hx
      exact absurd ht (by simp)

theorem Tracked.respond {before after : List (Operation Tid Call Ret)}
    {op : Operation Tid Call Ret} (h : Tracked w (before ++ op :: after))
    (hthreads : w'.threads = Function.update w.threads op.thread none)
    (hclock : w'.clock = w.clock + 1)
    (hother : ∀ x ∈ before ++ after, x.thread = op.thread → x.responded.isSome) :
    Tracked w' (before ++ { op with responded := some w.clock } :: after) := by
  -- an operation of the new order is one of the others, or the one that responds
  have hsplit : ∀ x ∈ before ++ { op with responded := some w.clock } :: after,
      x = { op with responded := some w.clock } ∨
        x ∈ before ++ after ∧ x ∈ before ++ op :: after := by
    intro x hx
    simp only [List.mem_append, List.mem_cons] at hx ⊢
    tauto
  refine ⟨?_, ?_, ?_, ?_, ?_, ?_⟩
  · intro u q hq
    rcases update_eq_some (hthreads ▸ hq) with ⟨-, heq⟩ | ⟨-, hq⟩
    · exact absurd heq (by simp)
    · have hp := h.since u q hq
      omega
  · intro x hx
    rcases hsplit x hx with rfl | ⟨-, hx⟩
    · have := h.invoked op (by simp)
      exact hclock ▸ Nat.lt_succ_of_lt this
    · have := h.invoked x hx
      omega
  · intro x hx time ht
    rcases hsplit x hx with rfl | ⟨-, hx⟩
    · obtain rfl := Option.some.inj ht
      omega
    · have := h.responded x hx time ht
      omega
  · intro x hx hxopen
    rcases hsplit x hx with rfl | ⟨hmem, hx⟩
    · exact absurd hxopen (by simp)
    · have hu : x.thread ≠ op.thread := fun hu => by simpa [hxopen] using hother x hmem hu
      obtain ⟨q, hq, hrest⟩ := h.isOpen x hx hxopen
      exact ⟨q, by rw [hthreads, Function.update_of_ne hu]; exact hq, hrest⟩
  · intro u q r hq hr
    rcases update_eq_some (hthreads ▸ hq) with ⟨-, heq⟩ | ⟨hu, hq⟩
    · exact absurd heq (by simp)
    · obtain ⟨x, hx, rfl, hxopen⟩ := h.taken u q r hq hr
      refine ⟨x, ?_, rfl, hxopen⟩
      have hne : x ≠ op := fun heq => hu (by rw [heq])
      simp only [List.mem_append, List.mem_cons] at hx ⊢
      tauto
  · intro x hx q time hq ht
    rcases update_eq_some (hthreads ▸ hq) with ⟨-, heq⟩ | ⟨hu, hq⟩
    · exact absurd heq (by simp)
    · rcases hsplit x hx with rfl | ⟨-, hx⟩
      · exact absurd rfl hu
      · exact h.before x hx q time hq ht

variable [DecidableEq Mutex] (P : LockedCalls Mutex Sect State Call Ret)

/-- The relation `R` between worlds and states of the atomic object follows every step. -/
structure Simulation (atomic : Call → State → Ret × State) (s : State)
    (R : World Tid Mutex Sect State Call Ret → State → Prop) : Prop where
  entry_result : ∀ c, (P.entry c).result = none
  initial : R (World.initial s) s
  /-- Steps that run no section leave the atomic object alone. -/
  quiet : ∀ w w' a, P.Reachable s w → R w a → P.Step w w' → w'.trace = w.trace → R w' a
  /-- A section that leaves another one to run does too. -/
  goesOn : ∀ w a t p sect, P.Reachable s w → R w a → w.threads t = some p → p.code = .run sect →
    (P.exec sect w.state).2.result = none → R (P.ran w t p sect) a
  /-- The last section of a call is the call of the atomic object. -/
  takesEffect : ∀ w a t p sect r, P.Reachable s w → R w a → w.threads t = some p →
    p.code = .run sect → (P.exec sect w.state).2.result = some r →
      (atomic p.call a).1 = r ∧ R (P.ran w t p sect) (atomic p.call a).2

variable {P} {atomic : Call → State → Ret × State} {s : State}
  {R : World Tid Mutex Sect State Call Ret → State → Prop}

variable (atomic s R) in
/-- An order of the operations of a world, with the state that the atomic object has after it. -/
structure Linearized (w : World Tid Mutex Sect State Call Ret)
    (order : List (Operation Tid Call Ret)) (final : State) : Prop where
  linearization : Linearization atomic s w.completed order final
  tracked : Tracked w order
  related : R w final

/-- The thread of an operation and its call. -/
def caller (x : Operation Tid Call Ret) : Tid × Call := (x.thread, x.call)

theorem Simulation.linearized_initial (hR : Simulation P atomic s R) :
    Linearized atomic s R (World.initial s : World Tid Mutex Sect State Call Ret) [] s :=
  ⟨.nil atomic s, ⟨by simp [World.initial], by simp, by simp, by simp, by simp [World.initial],
    by simp⟩, hR.initial⟩

variable {w w' : World Tid Mutex Sect State Call Ret} {order : List (Operation Tid Call Ret)}
  {final : State}

theorem Linearized.quiet (hR : Simulation P atomic s R) (hreach : P.Reachable s w)
    (h : Linearized atomic s R w order final) (step : P.Step w w') (htrace : w'.trace = w.trace) :
    ∃ order', Linearized atomic s R w' order' final ∧ order'.map caller = order.map caller := by
  obtain ⟨hlin, htracked, hrel⟩ := h
  have hrel' := hR.quiet w w' final hreach hrel step htrace
  cases step with
  | invoke t c idle =>
    exact ⟨order, ⟨hlin, htracked.invoke idle rfl rfl (hR.entry_result c), hrel'⟩, rfl⟩
  | lock t p m next busy at_ free =>
    exact ⟨order, ⟨hlin, htracked.move busy rfl rfl (by rw [at_]; rfl), hrel'⟩, rfl⟩
  | unlock t p m next busy at_ =>
    exact ⟨order, ⟨hlin, htracked.move busy rfl rfl (by rw [at_]; rfl), hrel'⟩, rfl⟩
  | exec t p sect busy at_ => simp [ran] at htrace
  | respond t p r busy at_ =>
    obtain ⟨op, hop, rfl, hopen⟩ := htracked.taken t p r busy (by rw [at_]; rfl)
    obtain ⟨q, hq, hcall, hsince, hret⟩ := htracked.isOpen op hop hopen
    obtain rfl := Option.some.inj (busy.symm.trans hq)
    obtain ⟨before, after, rfl⟩ := List.append_of_mem hop
    obtain rfl : r = op.ret := by
      rw [at_] at hret
      exact Option.some.inj hret
    refine ⟨before ++ { op with responded := some w.clock } :: after, ⟨?_,
      htracked.respond rfl rfl ?_, hrel'⟩, by simp [caller]⟩
    · have hlin' := hlin.respond hopen htracked.invoked
      rw [hcall, hsince]
      exact hlin'
    · intro x hx hxt
      by_contra hnone
      have hxopen : x.responded = none := by simpa using hnone
      -- two open operations of one thread contradict the order of the thread
      rcases List.mem_append.mp hx with hx | hx
      · obtain ⟨time, htime, -⟩ := (List.pairwise_append.mp hlin.threadOrder).2.2 x hx op
          List.mem_cons_self hxt
        exact absurd (hxopen.symm.trans htime) (by simp)
      · exact hlin.thread_after_open hopen x hx hxt.symm

variable {t : Tid} {p : Running Mutex Sect Call Ret} {sect : Sect}

theorem Linearized.goesOn (hR : Simulation P atomic s R) (hreach : P.Reachable s w)
    (h : Linearized atomic s R w order final) (busy : w.threads t = some p)
    (at_ : p.code = .run sect) (hres : (P.exec sect w.state).2.result = none) :
    Linearized atomic s R (P.ran w t p sect) order final where
  linearization := h.linearization
  tracked := h.tracked.move busy rfl rfl (hres.trans (by rw [at_]; rfl))
  related := hR.goesOn w final t p sect hreach h.related busy at_ hres

/-- The last section of a call appends the call. -/
theorem Linearized.takesEffect (hR : Simulation P atomic s R) (hreach : P.Reachable s w)
    (h : Linearized atomic s R w order final) (busy : w.threads t = some p)
    (at_ : p.code = .run sect) {r : Ret} (hres : (P.exec sect w.state).2.result = some r) :
    (atomic p.call final).1 = r ∧ Linearized atomic s R (P.ran w t p sect)
      (order ++ [⟨t, p.call, r, p.since, none⟩]) (atomic p.call final).2 := by
  have hnone : p.code.result = none := by rw [at_]; rfl
  obtain ⟨hret, hnext⟩ := hR.takesEffect w final t p sect r hreach h.related busy at_ hres
  have hbefore : ∀ x ∈ order, x.thread = t → ∃ time, x.responded = some time ∧
      time < p.since := by
    intro x hx hxt
    cases hresp : x.responded with
    | none =>
      obtain ⟨q, hq, -, -, hqr⟩ := h.tracked.isOpen x hx hresp
      rw [hxt, busy] at hq
      obtain rfl := Option.some.inj hq
      exact absurd (hnone.symm.trans hqr) (by simp)
    | some time => exact ⟨time, rfl, h.tracked.before x hx p time (hxt ▸ busy) hresp⟩
  exact ⟨hret, h.linearization.take rfl hret hbefore, h.tracked.take busy rfl rfl hnone hres,
    hnext⟩

/-- Every reachable world has a linearization that ends in a related state. -/
theorem Simulation.linearizable (hR : Simulation P atomic s R)
    {w : World Tid Mutex Sect State Call Ret} (h : P.Reachable s w) :
    ∃ order final, Linearization atomic s w.completed order final ∧ Tracked w order ∧
      R w final := by
  have hlinearized : ∃ order final, Linearized atomic s R w order final := by
    induction h with
    | refl => exact ⟨[], s, hR.linearized_initial⟩
    | tail hreach step ih =>
      rename_i w w'
      obtain ⟨order, final, hw⟩ := ih
      rcases step.quiet_or_ran with htrace | ⟨t, p, sect, busy, at_, rfl⟩
      · obtain ⟨order', hw', -⟩ := hw.quiet hR hreach step htrace
        exact ⟨order', final, hw'⟩
      · cases hres : (P.exec sect w.state).2.result with
        | none => exact ⟨order, final, hw.goesOn hR hreach busy at_ hres⟩
        | some r => exact ⟨_, _, (hw.takesEffect hR hreach busy at_ hres).2⟩
  obtain ⟨order, final, hw⟩ := hlinearized
  exact ⟨order, final, hw.linearization, hw.tracked, hw.related⟩

end LockedCalls

end QpidPmda.Foundations
