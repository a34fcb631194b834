import QpidPmda.Foundations.LockedClients

/-! # Calls that run alone

A call that no other thread disturbs runs its sections one after the other; its
mutexes are free whenever it takes them. Where such a call does what the atomic
object does, every run of a client on the atomic object is the run of some
schedule, which lets each call finish before the next one begins.
-/

namespace QpidPmda.Foundations

variable {Tid Mutex Sect State Call Ret Own Act : Type*}

namespace LockedCalls

/-- The code that remains of a call returns this value and leaves this state, if nothing else
runs. -/
inductive Alone (P : LockedCalls Mutex Sect State Call Ret) :
    Code Mutex Sect Ret → State → Ret → State → Prop
  | ret (r s) : Alone P (.ret r) s r s
  | lock {m next s r s'} (h : Alone P next s r s') : Alone P (.lock m next) s r s'
  | unlock {m next s r s'} (h : Alone P next s r s') : Alone P (.unlock m next) s r s'
  | run {sect s r s'} (h : Alone P (P.exec sect s).2 (P.exec sect s).1 r s') :
      Alone P (.run sect) s r s'

end LockedCalls

variable [DecidableEq Tid] [DecidableEq Mutex]

namespace LockedCalls
variable {P : LockedCalls Mutex Sect State Call Ret} {needs : Sect → Finset Mutex}
  {rank : Mutex → Nat} {w : World Tid Mutex Sect State Call Ret} {t : Tid}
  {p : Running Mutex Sect Call Ret}

omit [DecidableEq Tid] in
/-- A thread without company finds the mutexes free that it takes. -/
theorem Owned.free (h : Owned needs rank w) (busy : w.threads t = some p)
    (lone : ∀ u, u ≠ t → w.threads u = none) {m : Mutex} {next : Code Mutex Sect Ret}
    (at_ : p.code = .lock m next) : w.owner m = none := by
  by_contra howned
  obtain ⟨u, hu⟩ := Option.ne_none_iff_exists'.mp howned
  obtain ⟨q, hq, hholds⟩ := (h.owner u m).mp hu
  by_cases hut : u = t
  · subst hut
    obtain rfl := Option.some.inj (busy.symm.trans hq)
    rw [at_] at hholds
    exact absurd hholds (Finset.notMem_erase m _)
  · exact absurd ((lone u hut).symm.trans hq) (by simp)

omit [DecidableEq Mutex] in
theorem lone_update (lone : ∀ u, u ≠ t → w.threads u = none)
    (next : Option (Running Mutex Sect Call Ret)) :
    ∀ u, u ≠ t → Function.update w.threads t next u = none := by
  intro u hu
  rw [Function.update_of_ne hu]
  exact lone u hu

theorem perform_begin_of_idle (idle : w.threads t = none) (c : Call) :
    ∃ w', P.perform w (.begin t c) = some w' ∧
      w'.threads = Function.update w.threads t (some ⟨c, P.entry c, w.clock⟩) ∧
        w'.state = w.state := by
  refine ⟨{ w with
    threads := Function.update w.threads t (some ⟨c, P.entry c, w.clock⟩)
    clock := w.clock + 1 }, ?_, rfl, rfl⟩
  simp only [perform, idle]

theorem perform_lock (busy : w.threads t = some p) {m : Mutex} {next : Code Mutex Sect Ret}
    (at_ : p.code = .lock m next) (free : w.owner m = none) :
    ∃ w', P.perform w (.goOn t) = some w' ∧
      w'.threads = Function.update w.threads t (some { p with code := next }) ∧
        w'.state = w.state := by
  refine ⟨{ w.advance t p next with owner := Function.update w.owner m (some t) }, ?_, rfl, rfl⟩
  simp only [perform, busy, at_, free]

theorem perform_unlock (busy : w.threads t = some p) {m : Mutex} {next : Code Mutex Sect Ret}
    (at_ : p.code = .unlock m next) :
    ∃ w', P.perform w (.goOn t) = some w' ∧
      w'.threads = Function.update w.threads t (some { p with code := next }) ∧
        w'.state = w.state := by
  refine ⟨{ w.advance t p next with owner := Function.update w.owner m none }, ?_, rfl, rfl⟩
  simp only [perform, busy, at_]

theorem perform_ret (busy : w.threads t = some p) {r : Ret} (at_ : p.code = .ret r) :
    ∃ w', P.perform w (.goOn t) = some w' ∧
      w'.threads = Function.update w.threads t none ∧ w'.state = w.state := by
  refine ⟨{ w with
    threads := Function.update w.threads t none
    clock := w.clock + 1
    completed := w.completed ++ [⟨t, p.call, r, p.since, some w.clock⟩] }, ?_, rfl, rfl⟩
  simp only [perform, busy, at_]

end LockedCalls

namespace Client
variable {P : LockedCalls Mutex Sect State Call Ret} {needs : Sect → Finset Mutex}
  {rank : Mutex → Nat} {C : Client Own Act Call Ret} {client : Tid} {others : Call → Bool}
  {s : ClientWorld Tid Mutex Sect State Call Ret Own} {t : Tid} {p : Running Mutex Sect Call Ret}

/-- The move with which the schedule lets thread `t` go on. -/
def goOnOf (client t : Tid) : ClientMove Tid Call Act :=
  if t = client then .goOnSelf else .goOn t

/-- The client after thread `t` returned this value. -/
def handed (C : Client Own Act Call Ret) (client t : Tid) (r : Ret) (own : Own) : Own :=
  if t = client then C.resume own r else own

theorem perform_goOnOf {w : World Tid Mutex Sect State Call Ret}
    (busy : s.world.threads t = some p) (hmove : P.perform s.world (.goOn t) = some w) :
    C.perform P client others s (goOnOf client t) = some ⟨w, match p.code with
      | .ret r => C.handed client t r s.own
      | _ => s.own⟩ := by
  unfold goOnOf
  split_ifs with ht
  · subst ht
    cases hcode : p.code <;> simp [perform, busy, hmove, handed, hcode]
  · cases hcode : p.code <;> simp [perform, ht, hmove, handed]

variable (C P needs rank client others t) in
/-- Thread `t`, if it goes on alone, ends its call with this value and in this state. -/
def Finishes (s : ClientWorld Tid Mutex Sect State Call Ret Own) (r : Ret) (state : State) :
    Prop :=
  ∃ k s', (List.replicate k (goOnOf client t)).foldlM (C.perform P client others) s = some s' ∧
    (∀ u, s'.world.threads u = none) ∧ LockedCalls.Owned needs rank s'.world ∧
    s'.world.state = state ∧ s'.own = C.handed client t r s.own

theorem Finishes.step {w : World Tid Mutex Sect State Call Ret} {r : Ret} {state : State}
    (h : Finishes P needs rank C client others t ⟨w, s.own⟩ r state)
    (busy : s.world.threads t = some p) (hmove : P.perform s.world (.goOn t) = some w)
    (hret : ∀ r, p.code ≠ .ret r) : Finishes P needs rank C client others t s r state := by
  obtain ⟨k, s', hrun, hs'⟩ := h
  have hown : (match p.code with
      | .ret r => C.handed client t r s.own
      | _ => s.own) = s.own := by
    cases hp : p.code with
    | ret r => exact absurd hp (hret r)
    | _ => rfl
  refine ⟨k + 1, s', ?_, hs'⟩
  rw [List.replicate_succ, List.foldlM_cons, perform_goOnOf busy hmove, hown]
  exact hrun

/-- A call that runs alone is finished by its thread. -/
theorem finishes (hP : P.Disciplined needs rank) {code : Code Mutex Sect Ret} {state state' : State}
    {r : Ret} (halone : P.Alone code state r state') (hcode : p.code = code)
    (hstate : s.world.state = state) (howned : LockedCalls.Owned needs rank s.world)
    (busy : s.world.threads t = some p) (lone : ∀ u, u ≠ t → s.world.threads u = none) :
    Finishes P needs rank C client others t s r state' := by
  induction halone generalizing s p with
  | ret r state =>
    obtain ⟨w, hmove, hthreads, hw⟩ := LockedCalls.perform_ret (P := P) busy hcode
    refine ⟨1, ⟨w, C.handed client t r s.own⟩, ?_, fun u => ?_,
      howned.step hP (LockedCalls.perform_step hmove), hw.trans hstate, rfl⟩
    · simp only [List.replicate_one, List.foldlM_cons, perform_goOnOf busy hmove, hcode]
      rfl
    · by_cases hu : u = t
      · rw [hthreads, hu, Function.update_self]
      · rw [hthreads]
        exact LockedCalls.lone_update lone none u hu
  | @lock m next state r state' h ih =>
    obtain ⟨w, hmove, hthreads, hw⟩ := LockedCalls.perform_lock (P := P) busy hcode
      (howned.free busy lone hcode)
    have hrest : Finishes P needs rank C client others t ⟨w, s.own⟩ r state' :=
      ih (p := { p with code := next }) rfl (hw.trans hstate)
        (howned.step hP (LockedCalls.perform_step hmove)) (by simp [hthreads])
        (hthreads ▸ LockedCalls.lone_update lone _)
    exact hrest.step busy hmove (by simp [hcode])
  | @unlock m next state r state' h ih =>
    obtain ⟨w, hmove, hthreads, hw⟩ := LockedCalls.perform_unlock (P := P) busy hcode
    have hrest : Finishes P needs rank C client others t ⟨w, s.own⟩ r state' :=
      ih (p := { p with code := next }) rfl (hw.trans hstate)
        (howned.step hP (LockedCalls.perform_step hmove)) (by simp [hthreads])
        (hthreads ▸ LockedCalls.lone_update lone _)
    exact hrest.step busy hmove (by simp [hcode])
  | @run sect state r state' h ih =>
    subst hstate
    have hmove : P.perform s.world (.goOn t) = some (P.ran s.world t p sect) := by
      simp only [LockedCalls.perform, busy, hcode]
    have hrest : Finishes P needs rank C client others t ⟨P.ran s.world t p sect, s.own⟩ r state' :=
      ih (p := { p with code := (P.exec sect s.world.state).2 }) rfl rfl
        (howned.step hP (LockedCalls.perform_step hmove)) (by simp [LockedCalls.ran, World.advance])
        (LockedCalls.lone_update lone _)
    exact hrest.step busy hmove (by simp [hcode])

/-- No thread has a call, and no mutex has an owner. -/
structure AtRest (needs : Sect → Finset Mutex) (rank : Mutex → Nat)
    (s : ClientWorld Tid Mutex Sect State Call Ret Own) : Prop where
  idle : ∀ u, s.world.threads u = none
  owned : LockedCalls.Owned needs rank s.world

variable {atomic : Call → State → Ret × State}

theorem AtRest.call (hP : P.Disciplined needs rank)
    (halone : ∀ c state, P.Alone (P.entry c) state (atomic c state).1 (atomic c state).2)
    (h : AtRest needs rank s) {c : Call} (hother : t ≠ client → others c = true)
    (hown : t = client → C.next s.own = some c) :
    ∃ (moves : List (ClientMove Tid Call Act)) (s' : _),
      moves.foldlM (C.perform P client others) s = some s' ∧ AtRest needs rank s' ∧
      s'.world.state = (atomic c s.world.state).2 ∧
      s'.own = C.handed client t (atomic c s.world.state).1 s.own := by
  obtain ⟨w, hbegin, hthreads, hw⟩ := LockedCalls.perform_begin_of_idle (P := P) (h.idle t) c
  have hmove : C.perform P client others s (if t = client then .call else .begin t c) =
      some ⟨w, s.own⟩ := by
    split_ifs with ht
    · subst ht
      simp only [perform, hown rfl, Option.bind_some, hbegin, Option.map_some]
    · have hnot : ¬ (t = client ∨ others c = false) := by simp [ht, hother ht]
      simp only [perform, if_neg hnot, hbegin, Option.map_some]
  have hbusy : w.threads t = some ⟨c, P.entry c, s.world.clock⟩ := by
    rw [hthreads, Function.update_self]
  have hfinishes : Finishes P needs rank C client others t ⟨w, s.own⟩ (atomic c w.state).1
      (atomic c w.state).2 :=
    finishes hP (halone c w.state) rfl rfl (h.owned.step hP (LockedCalls.perform_step hbegin))
      hbusy (hthreads ▸ LockedCalls.lone_update (fun u _ => h.idle u) _)
  obtain ⟨k, s', hrun, hidle, howned, hstate, hs'⟩ := hfinishes
  refine ⟨(if t = client then .call else .begin t c) :: List.replicate k (goOnOf client t), s', ?_,
    ⟨hidle, howned⟩, hw ▸ hstate, hw ▸ hs'⟩
  rw [List.foldlM_cons, hmove]
  exact hrun

variable (C others)

theorem AtRest.happen (hP : P.Disciplined needs rank)
    (halone : ∀ c state, P.Alone (P.entry c) state (atomic c state).1 (atomic c state).2)
    (hact : ∀ x own, C.next own ≠ none → C.act x own = own) (ht : t ≠ client)
    (h : AtRest needs rank s) (event : ClientEvent Call Act)
    (hother : ∀ c ∈ ClientEvent.calls [event], others c = true) :
    ∃ (moves : List (ClientMove Tid Call Act)) (s' : _),
      moves.foldlM (C.perform P client others) s = some s' ∧ AtRest needs rank s' ∧
      (s'.world.state, s'.own) = C.happen atomic event (s.world.state, s.own) := by
  cases event with
  | other c =>
    obtain ⟨moves, s', hrun, hrest, hstate, hown⟩ := h.call (C := C) (t := t) hP halone
      (fun _ => hother c List.mem_cons_self) fun heq => absurd heq ht
    exact ⟨moves, s', hrun, hrest, by rw [hstate, hown, handed, if_neg ht]; rfl⟩
  | call =>
    cases hnext : C.next s.own with
    | none => exact ⟨[], s, rfl, h, by simp [Client.happen, hnext]⟩
    | some c =>
      obtain ⟨moves, s', hrun, hrest, hstate, hown⟩ := h.call (C := C) (t := client) hP halone
        (fun hne => absurd rfl hne) fun _ => hnext
      exact ⟨moves, s', hrun, hrest, by
        rw [hstate, hown, handed, if_pos rfl]
        simp [Client.happen, hnext]⟩
  | act x =>
    cases hnext : C.next s.own with
    | none =>
      have hmove : C.perform P client others s (.act x) =
          some { s with own := C.act x s.own } := by
        simp only [perform, h.idle client, hnext]
      exact ⟨[.act x], { s with own := C.act x s.own }, by simp [hmove], ⟨h.idle, h.owned⟩, rfl⟩
    | some c => exact ⟨[], s, rfl, h, by simp [Client.happen, hact x s.own (by simp [hnext])]⟩

/-- Every run of the client on the atomic object is the run of some schedule. -/
theorem AtRest.run (hP : P.Disciplined needs rank)
    (halone : ∀ c state, P.Alone (P.entry c) state (atomic c state).1 (atomic c state).2)
    (hact : ∀ x own, C.next own ≠ none → C.act x own = own) (ht : t ≠ client)
    (h : AtRest needs rank s) (events : List (ClientEvent Call Act))
    (hother : ∀ c ∈ ClientEvent.calls events, others c = true) :
    ∃ (moves : List (ClientMove Tid Call Act)) (s' : _),
      moves.foldlM (C.perform P client others) s = some s' ∧ AtRest needs rank s' ∧
      (s'.world.state, s'.own) =
        Foundations.run (C.happen atomic) events (s.world.state, s.own) := by
  induction events generalizing s with
  | nil => exact ⟨[], s, rfl, h, rfl⟩
  | cons event events ih =>
    rw [ClientEvent.calls_cons] at hother
    obtain ⟨moves, s₁, hrun, hrest, hs₁⟩ := h.happen C others hP halone hact ht event fun c hc =>
      hother c (List.mem_append_left _ hc)
    obtain ⟨more, s', hrun', hrest', hs'⟩ := ih hrest fun c hc =>
      hother c (List.mem_append_right _ hc)
    refine ⟨moves ++ more, s', ?_, hrest', by rw [hs', hs₁, run_cons]⟩
    rw [List.foldlM_append, hrun]
    exact hrun'

end Client

end QpidPmda.Foundations
