import QpidPmda.Foundations.History
import QpidPmda.Foundations.LinearizedCalls

/-! # A client of calls that run under mutexes

One thread runs a client. The client has a state of its own: it asks for the
next call, takes what the call returns, and moves by itself where it asks for no
call. The other threads make calls of the kinds that are open to them. Where an
atomic object simulates the calls, every run of the client among the other
threads is a run of the client on the atomic object, with one event for each
call of the linearization and one for each move of its own.
-/

namespace QpidPmda.Foundations

variable {Tid Mutex Sect State Call Ret Own Act : Type*}

structure Client (Own Act Call Ret : Type*) where
  /-- The call that the client makes next, if it does not move by itself. -/
  next : Own → Option Call
  resume : Own → Ret → Own
  act : Act → Own → Own

structure ClientWorld (Tid Mutex Sect State Call Ret Own : Type*) where
  world : World Tid Mutex Sect State Call Ret
  own : Own

/-- What a schedule names: another thread begins a call or goes on with it, the client makes its
next call or goes on with it, or the client moves by itself. -/
inductive ClientMove (Tid Call Act : Type*) where
  | begin (t : Tid) (c : Call)
  | goOn (t : Tid)
  | call
  | goOnSelf
  | act (a : Act)

/-- What can happen to the client on the atomic object. -/
inductive ClientEvent (Call Act : Type*) where
  | other (c : Call)
  | call
  | act (a : Act)

namespace Client
variable (C : Client Own Act Call Ret)

def happen (atomic : Call → State → Ret × State) :
    ClientEvent Call Act → State × Own → State × Own
  | .other c, (a, own) => ((atomic c a).2, own)
  | .call, (a, own) => match C.next own with
    | none => (a, own)
    | some c => ((atomic c a).2, C.resume own (atomic c a).1)
  | .act x, (a, own) => (a, C.act x own)

/-- The state of the client where the value that its call is about to return is handed over. -/
def ahead (client : Tid) (s : ClientWorld Tid Mutex Sect State Call Ret Own) : Own :=
  match (s.world.threads client).bind (·.code.result) with
  | none => s.own
  | some r => C.resume s.own r

variable [DecidableEq Tid] [DecidableEq Mutex]

/-- Carry out one move, if it is possible. Thread `client` runs the client, and the other threads
make the calls that `others` allows. -/
def perform (P : LockedCalls Mutex Sect State Call Ret) (client : Tid) (others : Call → Bool)
    (s : ClientWorld Tid Mutex Sect State Call Ret Own) :
    ClientMove Tid Call Act → Option (ClientWorld Tid Mutex Sect State Call Ret Own)
  | .begin t c =>
    if t = client ∨ others c = false then none
    else (P.perform s.world (.begin t c)).map fun w => { s with world := w }
  | .goOn t =>
    if t = client then none else (P.perform s.world (.goOn t)).map fun w => { s with world := w }
  | .call => (C.next s.own).bind fun c =>
    (P.perform s.world (.begin client c)).map fun w => { s with world := w }
  | .goOnSelf => (s.world.threads client).bind fun p =>
    (P.perform s.world (.goOn client)).map fun w => { world := w, own := match p.code with
      | .ret r => C.resume s.own r
      | _ => s.own }
  | .act x => match s.world.threads client, C.next s.own with
    | none, none => some { s with own := C.act x s.own }
    | _, _ => none

end Client

namespace LockedCalls
variable [DecidableEq Tid] [DecidableEq Mutex] {P : LockedCalls Mutex Sect State Call Ret}
  {w w' : World Tid Mutex Sect State Call Ret} {t : Tid} {c : Call}

theorem perform_begin (h : P.perform w (.begin t c) = some w') : w.threads t = none ∧
    w'.trace = w.trace ∧
      w'.threads = Function.update w.threads t (some ⟨c, P.entry c, w.clock⟩) := by
  simp only [perform] at h
  split at h
  · obtain rfl := Option.some.inj h
    exact ⟨‹_›, rfl, rfl⟩
  · exact absurd h (by simp)

theorem perform_goOn (h : P.perform w (.goOn t) = some w') : ∃ p, w.threads t = some p ∧
    ((∃ code, (∀ r, p.code ≠ .ret r) ∧ code.result = p.code.result ∧ w'.trace = w.trace ∧
        w'.threads = Function.update w.threads t (some { p with code := code })) ∨
      (∃ r, p.code = .ret r ∧ w'.trace = w.trace ∧
        w'.threads = Function.update w.threads t none) ∨
      ∃ s, p.code = .run s ∧ w' = P.ran w t p s) := by
  cases hp : w.threads t with
  | none => simp [perform, hp] at h
  | some p =>
    refine ⟨p, rfl, ?_⟩
    cases hcode : p.code with
    | lock m next =>
      cases howner : w.owner m with
      | some u => simp [perform, hp, hcode, howner] at h
      | none =>
        simp only [perform, hp, hcode, howner] at h
        obtain rfl := Option.some.inj h
        exact .inl ⟨next, by simp, rfl, rfl, rfl⟩
    | unlock m next =>
      simp only [perform, hp, hcode] at h
      obtain rfl := Option.some.inj h
      exact .inl ⟨next, by simp, rfl, rfl, rfl⟩
    | run s =>
      simp only [perform, hp, hcode] at h
      exact .inr (.inr ⟨s, rfl, (Option.some.inj h).symm⟩)
    | ret r =>
      simp only [perform, hp, hcode] at h
      obtain rfl := Option.some.inj h
      exact .inr (.inl ⟨r, rfl, rfl, rfl⟩)

end LockedCalls

namespace ClientEvent

/-- The calls of the other threads, in the order of the events. -/
def calls (events : List (ClientEvent Call Act)) : List Call :=
  events.filterMap fun
    | .other c => some c
    | _ => none

@[simp] theorem calls_append (first second : List (ClientEvent Call Act)) :
    calls (first ++ second) = calls first ++ calls second := List.filterMap_append ..

theorem calls_cons (event : ClientEvent Call Act) (events : List (ClientEvent Call Act)) :
    calls (event :: events) = calls [event] ++ calls events := by
  rw [← calls_append]
  rfl

end ClientEvent

namespace Client
variable [DecidableEq Tid] [DecidableEq Mutex] {P : LockedCalls Mutex Sect State Call Ret}
  {atomic : Call → State → Ret × State} {start : State}
  {R : World Tid Mutex Sect State Call Ret → State → Prop} {client : Tid} {others : Call → Bool}
  {C : Client Own Act Call Ret} {own₀ : Own}

/-- The calls of an order that the client did not make. -/
def otherCalls (client : Tid) (order : List (Operation Tid Call Ret)) : List Call :=
  ((order.map LockedCalls.caller).filter (·.1 ≠ client)).map (·.2)

variable (C P atomic start R client others own₀) in
/-- The events that lead the client and the atomic object to where the threads stand. -/
structure Accompanied (s : ClientWorld Tid Mutex Sect State Call Ret Own)
    (events : List (ClientEvent Call Act)) (order : List (Operation Tid Call Ret))
    (final : State) : Prop where
  reachable : P.Reachable start s.world
  linearized : LockedCalls.Linearized atomic start R s.world order final
  happened : run (C.happen atomic) events (start, own₀) = (final, C.ahead client s)
  /-- The call under way is the one that the client asked for. -/
  calling : ∀ p, s.world.threads client = some p → C.next s.own = some p.call
  allowed : ∀ t p, t ≠ client → s.world.threads t = some p → others p.call = true
  calls : ClientEvent.calls events = otherCalls client order
  calls_allowed : ∀ c ∈ ClientEvent.calls events, others c = true

variable {s s' : ClientWorld Tid Mutex Sect State Call Ret Own}
  {events : List (ClientEvent Call Act)} {order : List (Operation Tid Call Ret)} {final : State}

theorem Accompanied.initial (hR : LockedCalls.Simulation P atomic start R) :
    Accompanied P atomic start R client others C own₀ ⟨World.initial start, own₀⟩ [] [] start where
  reachable := .refl
  linearized := hR.linearized_initial
  happened := rfl
  calling p hp := absurd hp (by simp [World.initial])
  allowed t p _ hp := absurd hp (by simp [World.initial])
  calls := rfl
  calls_allowed c hc := absurd hc (by simp [ClientEvent.calls])

theorem Accompanied.quiet (s' : ClientWorld Tid Mutex Sect State Call Ret Own)
    (hR : LockedCalls.Simulation P atomic start R)
    (h : Accompanied P atomic start R client others C own₀ s events order final)
    (step : P.Step s.world s'.world) (htrace : s'.world.trace = s.world.trace)
    (hahead : C.ahead client s' = C.ahead client s)
    (hcalling : ∀ p, s'.world.threads client = some p → C.next s'.own = some p.call)
    (hallowed : ∀ t p, t ≠ client → s'.world.threads t = some p → others p.call = true) :
    ∃ order', Accompanied P atomic start R client others C own₀ s' events order' final := by
  obtain ⟨order', hlin, hcallers⟩ := h.linearized.quiet hR h.reachable step htrace
  exact ⟨order', h.reachable.tail step, hlin, by rw [hahead]; exact h.happened, hcalling, hallowed,
    by rw [h.calls, otherCalls, otherCalls, hcallers], h.calls_allowed⟩

omit [DecidableEq Tid] [DecidableEq Mutex] in
theorem ahead_eq (hthread : s'.world.threads client = s.world.threads client)
    (hown : s'.own = s.own) : C.ahead client s' = C.ahead client s := by
  simp only [ahead, hthread, hown]

omit [DecidableEq Tid] [DecidableEq Mutex] in
theorem ahead_idle (h : s.world.threads client = none) : C.ahead client s = s.own := by
  simp [ahead, h]

omit [DecidableEq Tid] [DecidableEq Mutex] in
theorem ahead_busy {p : Running Mutex Sect Call Ret} (h : s.world.threads client = some p) :
    C.ahead client s = (p.code.result.map (C.resume s.own)).getD s.own := by
  simp only [ahead, h, Option.bind_some]
  cases p.code.result <;> rfl

omit [DecidableEq Mutex] in
theorem allowed_update {w : World Tid Mutex Sect State Call Ret} {t : Tid}
    {next : Option (Running Mutex Sect Call Ret)}
    (h : ∀ t p, t ≠ client → w.threads t = some p → others p.call = true)
    (hnext : ∀ p, next = some p → t ≠ client → others p.call = true) :
    ∀ u p, u ≠ client → Function.update w.threads t next u = some p → others p.call = true := by
  intro u p hu hp
  rcases update_eq_some hp with ⟨rfl, heq⟩ | ⟨-, hold⟩
  · exact hnext p heq hu
  · exact h u p hu hold

variable {t : Tid} {p : Running Mutex Sect Call Ret} {sect : Sect}

theorem Accompanied.goesOn (hR : LockedCalls.Simulation P atomic start R)
    (h : Accompanied P atomic start R client others C own₀ s events order final)
    (busy : s.world.threads t = some p) (at_ : p.code = .run sect)
    (hres : (P.exec sect s.world.state).2.result = none) :
    Accompanied P atomic start R client others C own₀ ⟨P.ran s.world t p sect, s.own⟩ events order
      final where
  reachable := h.reachable.tail (.exec _ t p sect busy at_)
  linearized := h.linearized.goesOn hR h.reachable busy at_ hres
  happened := by
    rw [h.happened]
    by_cases ht : t = client
    · subst ht
      have hnone : p.code.result = none := by rw [at_]; rfl
      rw [ahead_busy busy, hnone, ahead_busy (Function.update_self ..), hres]
    · have hahead : C.ahead client ⟨P.ran s.world t p sect, s.own⟩ = C.ahead client s :=
        ahead_eq (Function.update_of_ne (Ne.symm ht) ..) rfl
      rw [hahead]
  calling q hq := by
    rcases update_eq_some hq with ⟨rfl, heq⟩ | ⟨-, hold⟩
    · obtain rfl := Option.some.inj heq
      exact h.calling p busy
    · exact h.calling q hold
  allowed := allowed_update h.allowed (by rintro q ⟨⟩ ht; exact h.allowed t p ht busy)
  calls := h.calls
  calls_allowed := h.calls_allowed

/-- The last section of a call adds the call. -/
theorem Accompanied.takesEffect (hR : LockedCalls.Simulation P atomic start R)
    (h : Accompanied P atomic start R client others C own₀ s events order final)
    (busy : s.world.threads t = some p) (at_ : p.code = .run sect) {r : Ret}
    (hres : (P.exec sect s.world.state).2.result = some r) :
    Accompanied P atomic start R client others C own₀ ⟨P.ran s.world t p sect, s.own⟩
      (events ++ [if t = client then .call else .other p.call])
      (order ++ [⟨t, p.call, r, p.since, none⟩]) (atomic p.call final).2 where
  reachable := h.reachable.tail (.exec _ t p sect busy at_)
  linearized := (h.linearized.takesEffect hR h.reachable busy at_ hres).2
  happened := by
    obtain ⟨hret, -⟩ := h.linearized.takesEffect hR h.reachable busy at_ hres
    rw [run_concat, h.happened]
    split_ifs with ht
    · subst ht
      -- the client waits for this call, and the value it is given is the one that it returns
      have hnone : p.code.result = none := by rw [at_]; rfl
      rw [ahead_busy busy, hnone, ahead_busy (Function.update_self ..), hres]
      simp [happen, h.calling p busy, hret]
    · have hahead : C.ahead client ⟨P.ran s.world t p sect, s.own⟩ = C.ahead client s :=
        ahead_eq (Function.update_of_ne (Ne.symm ht) ..) rfl
      rw [hahead]
      rfl
  calling q hq := by
    rcases update_eq_some hq with ⟨rfl, heq⟩ | ⟨-, hold⟩
    · obtain rfl := Option.some.inj heq
      exact h.calling p busy
    · exact h.calling q hold
  allowed := allowed_update h.allowed (by rintro q ⟨⟩ ht; exact h.allowed t p ht busy)
  calls := by
    rw [ClientEvent.calls_append, h.calls]
    split_ifs with ht
    · simp [ClientEvent.calls, otherCalls, LockedCalls.caller, ht]
    · simp [ClientEvent.calls, otherCalls, LockedCalls.caller, ht]
  calls_allowed c hc := by
    rw [ClientEvent.calls_append, List.mem_append] at hc
    rcases hc with hc | hc
    · exact h.calls_allowed c hc
    · split_ifs at hc with ht
      · simp [ClientEvent.calls] at hc
      · have heq : c = p.call := by simpa [ClientEvent.calls] using hc
        exact heq ▸ h.allowed t p ht busy

theorem Accompanied.goOn (hR : LockedCalls.Simulation P atomic start R)
    (h : Accompanied P atomic start R client others C own₀ s events order final)
    (ht : t ≠ client) {w : World Tid Mutex Sect State Call Ret}
    (hmove : P.perform s.world (.goOn t) = some w) :
    ∃ more order' final', Accompanied P atomic start R client others C own₀ ⟨w, s.own⟩
      (events ++ more) order' final' := by
  have hstep := LockedCalls.perform_step hmove
  -- a step without a section leaves the thread of the client alone
  have hquiet {next : Option (Running Mutex Sect Call Ret)} (htrace : w.trace = s.world.trace)
      (hthreads : w.threads = Function.update s.world.threads t next)
      (hnext : ∀ p, next = some p → others p.call = true) :
      ∃ more order' final', Accompanied P atomic start R client others C own₀ ⟨w, s.own⟩
        (events ++ more) order' final' := by
    have hsame : w.threads client = s.world.threads client := by
      rw [hthreads, Function.update_of_ne (Ne.symm ht)]
    obtain ⟨order', h'⟩ := h.quiet ⟨w, s.own⟩ hR hstep htrace (ahead_eq hsame rfl)
      (fun p hp => h.calling p (hsame ▸ hp))
      (hthreads ▸ allowed_update h.allowed fun p hp _ => hnext p hp)
    exact ⟨[], order', final, by rwa [List.append_nil]⟩
  obtain ⟨p, busy, hcase⟩ := LockedCalls.perform_goOn hmove
  rcases hcase with ⟨code, -, -, htrace, hthreads⟩ | ⟨r, -, htrace, hthreads⟩ | ⟨sect, at_, rfl⟩
  · exact hquiet htrace hthreads (by rintro q ⟨⟩; exact h.allowed t p ht busy)
  · exact hquiet htrace hthreads (by simp)
  · cases hres : (P.exec sect s.world.state).2.result with
    | none => exact ⟨[], order, final, by simpa using h.goesOn hR busy at_ hres⟩
    | some r => exact ⟨_, _, _, h.takesEffect hR busy at_ hres⟩

theorem Accompanied.goOnSelf (hR : LockedCalls.Simulation P atomic start R)
    (h : Accompanied P atomic start R client others C own₀ s events order final)
    {p : Running Mutex Sect Call Ret} (busy : s.world.threads client = some p)
    {w : World Tid Mutex Sect State Call Ret}
    (hmove : P.perform s.world (.goOn client) = some w) :
    ∃ more order' final', Accompanied P atomic start R client others C own₀
      ⟨w, match p.code with
        | .ret r => C.resume s.own r
        | _ => s.own⟩ (events ++ more) order' final' := by
  have hstep := LockedCalls.perform_step hmove
  obtain ⟨q, busy', hcase⟩ := LockedCalls.perform_goOn hmove
  obtain rfl := Option.some.inj (busy.symm.trans busy')
  rcases hcase with ⟨code, hret, hresult, htrace, hthreads⟩ | ⟨r, at_, htrace, hthreads⟩ |
    ⟨sect, at_, rfl⟩
  · have hown : (match p.code with
        | .ret r => C.resume s.own r
        | _ => s.own) = s.own := by
      cases hcode : p.code with
      | ret r => exact absurd hcode (hret r)
      | _ => rfl
    have hthread : w.threads client = some { p with code := code } := by
      rw [hthreads, Function.update_self]
    rw [hown]
    obtain ⟨order', h'⟩ := h.quiet ⟨w, s.own⟩ hR hstep htrace
      (by rw [ahead_busy hthread, ahead_busy busy, hresult])
      (fun q hq => by
        obtain rfl := Option.some.inj (hthread.symm.trans hq)
        exact h.calling p busy)
      (hthreads ▸ allowed_update h.allowed fun q _ hne => absurd rfl hne)
    exact ⟨[], order', final, by rwa [List.append_nil]⟩
  · have hthread : w.threads client = none := by rw [hthreads, Function.update_self]
    simp only [at_]
    obtain ⟨order', h'⟩ := h.quiet ⟨w, C.resume s.own r⟩ hR hstep htrace
      (by rw [ahead_idle hthread, ahead_busy busy, at_]; rfl)
      (fun q hq => absurd (hthread.symm.trans hq) (by simp))
      (hthreads ▸ allowed_update h.allowed fun q _ hne => absurd rfl hne)
    exact ⟨[], order', final, by rwa [List.append_nil]⟩
  · simp only [at_]
    cases hres : (P.exec sect s.world.state).2.result with
    | none => exact ⟨[], order, final, by simpa using h.goesOn hR busy at_ hres⟩
    | some r => exact ⟨_, _, _, h.takesEffect hR busy at_ hres⟩

theorem Accompanied.perform (hR : LockedCalls.Simulation P atomic start R)
    (h : Accompanied P atomic start R client others C own₀ s events order final)
    {move : ClientMove Tid Call Act} (hmove : C.perform P client others s move = some s') :
    ∃ more order' final', Accompanied P atomic start R client others C own₀ s'
      (events ++ more) order' final' := by
  -- a call that begins adds no event
  have hbegin {t : Tid} {c : Call} {w : World Tid Mutex Sect State Call Ret}
      (hperform : P.perform s.world (.begin t c) = some w)
      (hother : t ≠ client → others c = true) (hown : t = client → C.next s.own = some c) :
      ∃ more order' final', Accompanied P atomic start R client others C own₀ ⟨w, s.own⟩
        (events ++ more) order' final' := by
    obtain ⟨idle, htrace, hthreads⟩ := LockedCalls.perform_begin hperform
    have hahead : C.ahead client ⟨w, s.own⟩ = C.ahead client s := by
      by_cases ht : t = client
      · subst ht
        have hthread : w.threads t = some ⟨c, P.entry c, s.world.clock⟩ := by
          rw [hthreads, Function.update_self]
        rw [ahead_busy hthread, hR.entry_result, ahead_idle idle]
        rfl
      · exact ahead_eq (by rw [hthreads, Function.update_of_ne (Ne.symm ht)]) rfl
    obtain ⟨order', h'⟩ := h.quiet ⟨w, s.own⟩ hR (LockedCalls.perform_step hperform) htrace
      hahead
      (fun p hp => by
        rcases update_eq_some (hthreads ▸ hp) with ⟨heq, hnew⟩ | ⟨-, hold⟩
        · obtain rfl := Option.some.inj hnew
          exact hown heq.symm
        · exact h.calling p hold)
      (hthreads ▸ allowed_update h.allowed (by rintro p ⟨⟩ hne; exact hother hne))
    exact ⟨[], order', final, by rwa [List.append_nil]⟩
  cases move with
  | begin t c =>
    simp only [Client.perform] at hmove
    split_ifs at hmove with hnot
    obtain ⟨w, hperform, rfl⟩ := Option.map_eq_some_iff.mp hmove
    obtain ⟨ht, hc⟩ := not_or.mp hnot
    exact hbegin hperform (fun _ => by simpa using hc) fun heq => absurd heq ht
  | goOn t =>
    simp only [Client.perform] at hmove
    split_ifs at hmove with ht
    obtain ⟨w, hperform, rfl⟩ := Option.map_eq_some_iff.mp hmove
    exact h.goOn hR ht hperform
  | call =>
    obtain ⟨c, hnext, hmove⟩ := Option.bind_eq_some_iff.mp hmove
    obtain ⟨w, hperform, rfl⟩ := Option.map_eq_some_iff.mp hmove
    exact hbegin hperform (fun hne => absurd rfl hne) fun _ => hnext
  | goOnSelf =>
    obtain ⟨p, busy, hmove⟩ := Option.bind_eq_some_iff.mp hmove
    obtain ⟨w, hperform, rfl⟩ := Option.map_eq_some_iff.mp hmove
    exact h.goOnSelf hR busy hperform
  | act x =>
    simp only [Client.perform] at hmove
    split at hmove
    · rename_i idle hnext
      obtain rfl := Option.some.inj hmove
      refine ⟨[.act x], order, final, h.reachable, h.linearized, ?_,
        fun p hp => absurd (idle.symm.trans hp) (by simp), h.allowed, ?_, ?_⟩
      · have hahead : C.ahead client ⟨s.world, C.act x s.own⟩ = C.act x s.own := ahead_idle idle
        rw [run_concat, h.happened, ahead_idle idle, hahead]
        rfl
      · simpa [ClientEvent.calls] using h.calls
      · simpa [ClientEvent.calls] using h.calls_allowed
    · exact absurd hmove (by simp)

/-- A schedule only adds events to those before it. -/
theorem Accompanied.schedule (hR : LockedCalls.Simulation P atomic start R)
    (moves : List (ClientMove Tid Call Act))
    (h : Accompanied P atomic start R client others C own₀ s events order final)
    (hmoves : moves.foldlM (C.perform P client others) s = some s') :
    ∃ more order' final', Accompanied P atomic start R client others C own₀ s'
      (events ++ more) order' final' := by
  induction moves generalizing s events order final with
  | nil =>
    obtain rfl := Option.some.inj hmoves
    exact ⟨[], order, final, by simpa using h⟩
  | cons move moves ih =>
    obtain ⟨s₁, hmove, hrest⟩ := Option.bind_eq_some_iff.mp hmoves
    obtain ⟨more, order₁, final₁, h₁⟩ := h.perform hR hmove
    obtain ⟨rest, order', final', h'⟩ := ih h₁ hrest
    exact ⟨more ++ rest, order', final', by rwa [← List.append_assoc]⟩

end Client

end QpidPmda.Foundations
