import Mathlib.Data.Finset.Erase
import Mathlib.Data.Finset.Insert
import Mathlib.Data.Finset.Lattice.Lemmas
import Mathlib.Logic.Function.Basic
import Mathlib.Logic.Relation
import QpidPmda.Foundations.Linearizability

/-! # Calls that run under mutexes

What remains of a call is a piece of code: take a mutex, release one, run a
section, or return. A section changes the shared state in one step and decides
what remains. Threads interleave between these steps, and a mutex is free or
owned by one thread. A discipline says which mutexes each section runs under;
it makes the owners of the mutexes a function of the code that remains.
-/

namespace QpidPmda.Foundations

inductive Code (Mutex Sect Ret : Type*) where
  | lock (m : Mutex) (next : Code Mutex Sect Ret)
  | unlock (m : Mutex) (next : Code Mutex Sect Ret)
  | run (s : Sect)
  | ret (r : Ret)

structure LockedCalls (Mutex Sect State Call Ret : Type*) where
  entry : Call → Code Mutex Sect Ret
  exec : Sect → State → State × Code Mutex Sect Ret

/-- A call that a thread has not finished, and the time of its invocation. -/
structure Running (Mutex Sect Call Ret : Type*) where
  call : Call
  code : Code Mutex Sect Ret
  since : Nat

structure World (Tid Mutex Sect State Call Ret : Type*) where
  threads : Tid → Option (Running Mutex Sect Call Ret)
  owner : Mutex → Option Tid
  state : State
  clock : Nat
  /-- The calls that have returned, in the order of their responses. -/
  completed : List (Operation Tid Call Ret)
  /-- The sections run so far, each with the state it found. -/
  trace : List (Sect × State)

variable {Tid Mutex Sect State Call Ret : Type*}

theorem update_eq_some {α β : Type*} [DecidableEq α] {f : α → Option β} {a b : α} {v : Option β}
    {x : β} (h : Function.update f a v b = some x) : b = a ∧ v = some x ∨ b ≠ a ∧ f b = some x := by
  by_cases hb : b = a
  · subst hb
    exact .inl ⟨rfl, by simpa using h⟩
  · exact .inr ⟨hb, by simpa [hb] using h⟩

namespace Code

/-- The value to be returned, once no section is left to run. -/
def result : Code Mutex Sect Ret → Option Ret
  | .lock _ next => next.result
  | .unlock _ next => next.result
  | .run _ => none
  | .ret r => some r

/-- The section that is run next, if one is left to run. -/
def next : Code Mutex Sect Ret → Option Sect
  | .lock _ rest => rest.next
  | .unlock _ rest => rest.next
  | .run s => some s
  | .ret _ => none

/-- The mutex is taken or released on the way to the next section. -/
def Touches (m : Mutex) : Code Mutex Sect Ret → Prop
  | .lock m' rest => m' = m ∨ rest.Touches m
  | .unlock m' rest => m' = m ∨ rest.Touches m
  | .run _ => False
  | .ret _ => False

variable [DecidableEq Mutex]

/-- The mutexes held where this code is what remains. -/
def holds (needs : Sect → Finset Mutex) : Code Mutex Sect Ret → Finset Mutex
  | .lock m next => (next.holds needs).erase m
  | .unlock m next => insert m (next.holds needs)
  | .run s => needs s
  | .ret _ => ∅

/-- Mutexes are taken in the order of their ranks and released when they are held. -/
def Ordered (needs : Sect → Finset Mutex) (rank : Mutex → Nat) : Code Mutex Sect Ret → Prop
  | .lock m next => m ∈ next.holds needs ∧
      (∀ m' ∈ (next.holds needs).erase m, rank m' < rank m) ∧ next.Ordered needs rank
  | .unlock m next => m ∉ next.holds needs ∧ next.Ordered needs rank
  | .run _ => True
  | .ret _ => True

theorem mem_holds_of_not_touches {needs : Sect → Finset Mutex} {m : Mutex} {s : Sect}
    {code : Code Mutex Sect Ret} (hnext : code.next = some s) (h : ¬ code.Touches m)
    (hm : m ∈ needs s) : m ∈ code.holds needs := by
  induction code with
  | lock m' rest ih =>
    have hne : m ≠ m' := fun heq => h (.inl heq.symm)
    exact Finset.mem_erase.mpr ⟨hne, ih hnext fun ht => h (.inr ht)⟩
  | unlock m' rest ih => exact Finset.mem_insert_of_mem (ih hnext fun ht => h (.inr ht))
  | run s' =>
    obtain rfl := Option.some.inj hnext
    exact hm
  | ret r => exact absurd hnext (by simp [next])

end Code

namespace World

def initial (s : State) : World Tid Mutex Sect State Call Ret :=
  ⟨fun _ => none, fun _ => none, s, 0, [], []⟩

/-- The call of a thread and the section it runs next. -/
def next (w : World Tid Mutex Sect State Call Ret) (t : Tid) : Option (Call × Sect) :=
  (w.threads t).bind fun p => p.code.next.map (p.call, ·)

theorem next_eq_some {w : World Tid Mutex Sect State Call Ret} {t : Tid} {c : Call} {s : Sect} :
    w.next t = some (c, s) ↔ ∃ p, w.threads t = some p ∧ p.call = c ∧ p.code.next = some s := by
  simp only [next, Option.bind_eq_some_iff, Option.map_eq_some_iff, Prod.mk.injEq]
  constructor
  · rintro ⟨p, hp, _, hs, rfl, rfl⟩
    exact ⟨p, hp, rfl, hs⟩
  · rintro ⟨p, hp, rfl, hs⟩
    exact ⟨p, hp, s, hs, rfl, rfl⟩

theorem next_initial (s : State) (t : Tid) :
    (initial s : World Tid Mutex Sect State Call Ret).next t = none := rfl

variable [DecidableEq Tid]

/-- One step of thread `t` leaves this code of its call. -/
def advance (w : World Tid Mutex Sect State Call Ret) (t : Tid)
    (p : Running Mutex Sect Call Ret) (code : Code Mutex Sect Ret) :
    World Tid Mutex Sect State Call Ret :=
  { w with
    threads := Function.update w.threads t (some { p with code := code })
    clock := w.clock + 1 }

end World

namespace LockedCalls
variable [DecidableEq Tid] (P : LockedCalls Mutex Sect State Call Ret)

/-- Thread `t` runs a section. -/
def ran (w : World Tid Mutex Sect State Call Ret) (t : Tid) (p : Running Mutex Sect Call Ret)
    (s : Sect) : World Tid Mutex Sect State Call Ret :=
  { w.advance t p (P.exec s w.state).2 with
    state := (P.exec s w.state).1
    trace := w.trace ++ [(s, w.state)] }

variable [DecidableEq Mutex]

/-- The steps of the threads. A thread without a call may start any call. -/
inductive Step : World Tid Mutex Sect State Call Ret → World Tid Mutex Sect State Call Ret → Prop
  | invoke (w t c) (idle : w.threads t = none) :
      Step w { w with
        threads := Function.update w.threads t (some ⟨c, P.entry c, w.clock⟩)
        clock := w.clock + 1 }
  | lock (w t p m next) (busy : w.threads t = some p) (at_ : p.code = .lock m next)
      (free : w.owner m = none) :
      Step w { w.advance t p next with owner := Function.update w.owner m (some t) }
  | unlock (w t p m next) (busy : w.threads t = some p) (at_ : p.code = .unlock m next) :
      Step w { w.advance t p next with owner := Function.update w.owner m none }
  | exec (w t p s) (busy : w.threads t = some p) (at_ : p.code = .run s) :
      Step w (P.ran w t p s)
  | respond (w t p r) (busy : w.threads t = some p) (at_ : p.code = .ret r) :
      Step w { w with
        threads := Function.update w.threads t none
        clock := w.clock + 1
        completed := w.completed ++ [⟨t, p.call, r, p.since, some w.clock⟩] }

/-- The worlds that the threads may reach from a start state. -/
def Reachable (s : State) (w : World Tid Mutex Sect State Call Ret) : Prop :=
  Relation.ReflTransGen P.Step (World.initial s) w

/-- Every call starts without a mutex, and every section leaves code that is ordered and goes on
from the mutexes the section runs under. -/
structure Disciplined (needs : Sect → Finset Mutex) (rank : Mutex → Nat) : Prop where
  entry_holds : ∀ c, (P.entry c).holds needs = ∅
  entry_ordered : ∀ c, (P.entry c).Ordered needs rank
  exec_holds : ∀ s state, (P.exec s state).2.holds needs = needs s
  exec_ordered : ∀ s state, (P.exec s state).2.Ordered needs rank

variable {P}

theorem Reachable.invariant {I : World Tid Mutex Sect State Call Ret → Prop} {s : State}
    (hinitial : I (World.initial s)) (hstep : ∀ w w', P.Reachable s w → I w → P.Step w w' → I w')
    {w : World Tid Mutex Sect State Call Ret} (h : P.Reachable s w) : I w := by
  induction h with
  | refl => exact hinitial
  | tail hreach step ih => exact hstep _ _ hreach ih step

omit [DecidableEq Mutex] in
theorem next_ran (w : World Tid Mutex Sect State Call Ret) (t : Tid)
    (p : Running Mutex Sect Call Ret) (s : Sect) :
    (P.ran w t p s).next =
      Function.update w.next t ((P.exec s w.state).2.next.map (p.call, ·)) := by
  funext u
  by_cases hu : u = t
  · subst hu; simp [ran, World.next, World.advance]
  · simp [ran, World.next, World.advance, hu]

/-- A step that runs no section leaves the state and what the threads run next as they are, or
begins a call. -/
theorem Step.quiet {w w' : World Tid Mutex Sect State Call Ret} (step : P.Step w w')
    (h : w'.trace = w.trace) : w'.state = w.state ∧ (w'.next = w.next ∨
      ∃ t c, w.next t = none ∧
        w'.next = Function.update w.next t ((P.entry c).next.map (c, ·))) := by
  cases step with
  | invoke t c idle =>
    refine ⟨rfl, .inr ⟨t, c, by simp [World.next, idle], ?_⟩⟩
    funext u
    by_cases hu : u = t
    · subst hu; simp [World.next]
    · simp [World.next, hu]
  | lock t p m next busy at_ free =>
    refine ⟨rfl, .inl ?_⟩
    funext u
    by_cases hu : u = t
    · subst hu; simp [World.next, World.advance, busy, at_, Code.next]
    · simp [World.next, World.advance, hu]
  | unlock t p m next busy at_ =>
    refine ⟨rfl, .inl ?_⟩
    funext u
    by_cases hu : u = t
    · subst hu; simp [World.next, World.advance, busy, at_, Code.next]
    · simp [World.next, World.advance, hu]
  | exec t p s busy at_ => simp [ran] at h
  | respond t p r busy at_ =>
    refine ⟨rfl, .inl ?_⟩
    funext u
    by_cases hu : u = t
    · subst hu; simp [World.next, busy, at_, Code.next]
    · simp [World.next, hu]

theorem Step.quiet_or_ran {w w' : World Tid Mutex Sect State Call Ret} (step : P.Step w w') :
    w'.trace = w.trace ∨ ∃ t p s, w.threads t = some p ∧ p.code = .run s ∧ w' = P.ran w t p s := by
  cases step with
  | invoke t c idle => exact .inl rfl
  | lock t p m next busy at_ free => exact .inl rfl
  | unlock t p m next busy at_ => exact .inl rfl
  | exec t p s busy at_ => exact .inr ⟨t, p, s, busy, at_, rfl⟩
  | respond t p r busy at_ => exact .inl rfl

/-- A section of the trace was run in a reachable world with the trace before it. -/
theorem Reachable.before_section {start : State} {w : World Tid Mutex Sect State Call Ret}
    (h : P.Reachable start w) {before after : List (Sect × State)} {s : Sect} {state : State}
    (htrace : w.trace = before ++ (s, state) :: after) :
    ∃ w₀ : World Tid Mutex Sect State Call Ret, P.Reachable start w₀ ∧ w₀.trace = before ∧
      w₀.state = state := by
  induction h generalizing after with
  | refl => simp [World.initial] at htrace
  | tail hreach step ih =>
    rcases step.quiet_or_ran with heq | ⟨t, p, s', busy, at_, rfl⟩
    · exact ih (heq.symm.trans htrace)
    · rcases List.eq_nil_or_concat after with rfl | ⟨after, last, rfl⟩
      · obtain ⟨hbefore, hlast⟩ := List.append_inj' htrace rfl
        obtain ⟨-, hstate⟩ := Prod.mk.inj (List.cons.inj hlast).1
        exact ⟨_, hreach, hbefore, hstate⟩
      · rw [List.concat_eq_append, ← List.cons_append, ← List.append_assoc] at htrace
        exact ih (List.append_inj' htrace rfl).1

/-- What a schedule names: a thread begins a call, or goes on with the one it has. -/
inductive Move (Tid Call : Type*) where
  | begin (t : Tid) (c : Call)
  | goOn (t : Tid)

variable (P) in
/-- Carry out one move, if it is possible. -/
def perform (w : World Tid Mutex Sect State Call Ret) :
    Move Tid Call → Option (World Tid Mutex Sect State Call Ret)
  | .begin t c => match w.threads t with
    | none => some { w with
        threads := Function.update w.threads t (some ⟨c, P.entry c, w.clock⟩)
        clock := w.clock + 1 }
    | some _ => none
  | .goOn t => match w.threads t with
    | none => none
    | some p => match p.code with
      | .lock m next => match w.owner m with
        | none => some { w.advance t p next with owner := Function.update w.owner m (some t) }
        | some _ => none
      | .unlock m next => some { w.advance t p next with owner := Function.update w.owner m none }
      | .run s => some (P.ran w t p s)
      | .ret r => some { w with
          threads := Function.update w.threads t none
          clock := w.clock + 1
          completed := w.completed ++ [⟨t, p.call, r, p.since, some w.clock⟩] }

theorem perform_step {w w' : World Tid Mutex Sect State Call Ret} {move : Move Tid Call}
    (h : P.perform w move = some w') : P.Step w w' := by
  cases move with
  | begin t c =>
    simp only [perform] at h
    split at h
    · exact Option.some.inj h ▸ .invoke w t c ‹_›
    · exact absurd h (by simp)
  | goOn t =>
    simp only [perform] at h
    split at h
    · exact absurd h (by simp)
    · split at h
      · split at h
        · exact Option.some.inj h ▸ .lock w t _ _ _ ‹_› ‹_› ‹_›
        · exact absurd h (by simp)
      · exact Option.some.inj h ▸ .unlock w t _ _ _ ‹_› ‹_›
      · exact Option.some.inj h ▸ .exec w t _ _ ‹_› ‹_›
      · exact Option.some.inj h ▸ .respond w t _ _ ‹_› ‹_›

theorem reachable_foldlM (moves : List (Move Tid Call)) {start : State}
    {w w' : World Tid Mutex Sect State Call Ret} (hw : P.Reachable start w)
    (h : moves.foldlM P.perform w = some w') : P.Reachable start w' := by
  induction moves generalizing w with
  | nil => exact Option.some.inj h ▸ hw
  | cons move moves ih =>
    obtain ⟨w₁, hmove, hrest⟩ := Option.bind_eq_some_iff.mp h
    exact ih (hw.tail (perform_step hmove)) hrest

/-- A mutex is owned by the thread whose remaining code holds it. -/
structure Owned (needs : Sect → Finset Mutex) (rank : Mutex → Nat)
    (w : World Tid Mutex Sect State Call Ret) : Prop where
  owner : ∀ t m, w.owner m = some t ↔ ∃ p, w.threads t = some p ∧ m ∈ p.code.holds needs
  ordered : ∀ t p, w.threads t = some p → p.code.Ordered needs rank

variable {needs : Sect → Finset Mutex} {rank : Mutex → Nat}

theorem Owned.move {w w' : World Tid Mutex Sect State Call Ret} (h : Owned needs rank w)
    {t : Tid} {next : Option (Running Mutex Sect Call Ret)}
    (hthreads : w'.threads = Function.update w.threads t next)
    (hordered : ∀ p, next = some p → p.code.Ordered needs rank)
    (hself : ∀ m, w'.owner m = some t ↔ ∃ p, next = some p ∧ m ∈ p.code.holds needs)
    (hother : ∀ m u, u ≠ t → (w'.owner m = some u ↔ w.owner m = some u)) :
    Owned needs rank w' where
  owner u m := by
    by_cases hu : u = t
    · subst hu; rw [hself m, hthreads, Function.update_self]
    · rw [hother m u hu, h.owner u m, hthreads, Function.update_of_ne hu]
  ordered u p hp := by
    rcases update_eq_some (hthreads ▸ hp) with ⟨-, heq⟩ | ⟨-, hp⟩
    · exact hordered p heq
    · exact h.ordered u p hp

theorem Owned.step (hP : P.Disciplined needs rank) {w w' : World Tid Mutex Sect State Call Ret}
    (h : Owned needs rank w) (step : P.Step w w') : Owned needs rank w' := by
  cases step with
  | invoke t c idle =>
    refine h.move rfl (by rintro p ⟨⟩; exact hP.entry_ordered c) (fun m => ?_) fun m u hu => Iff.rfl
    rw [show (w.owner m = some t ↔ _) from h.owner t m]
    simp [idle, hP.entry_holds]
  | lock t p m next busy at_ free =>
    have hord := h.ordered t p busy
    rw [at_] at hord
    refine h.move rfl (by rintro q ⟨⟩; exact hord.2.2) (fun m' => ?_) fun m' u hu => ?_
    · by_cases hm : m' = m
      · subst hm; simp [hord.1]
      · have hold := h.owner t m'
        simp only [busy, at_, Option.some.injEq, exists_eq_left', Code.holds,
          Finset.mem_erase, ne_eq, hm, not_false_eq_true, true_and] at hold
        simpa [Function.update_of_ne hm] using hold
    · by_cases hm : m' = m
      · subst hm; simp [free, Ne.symm hu]
      · simp [Function.update_of_ne hm]
  | unlock t p m next busy at_ =>
    have hord := h.ordered t p busy
    rw [at_] at hord
    have howner : w.owner m = some t := (h.owner t m).mpr ⟨p, busy, by simp [at_, Code.holds]⟩
    refine h.move rfl (by rintro q ⟨⟩; exact hord.2) (fun m' => ?_) fun m' u hu => ?_
    · by_cases hm : m' = m
      · subst hm; simp [hord.1]
      · have hold := h.owner t m'
        simp only [busy, at_, Option.some.injEq, exists_eq_left', Code.holds,
          Finset.mem_insert, hm, false_or] at hold
        simpa [Function.update_of_ne hm] using hold
    · by_cases hm : m' = m
      · subst hm; simp [howner, Ne.symm hu]
      · simp [Function.update_of_ne hm]
  | exec t p s busy at_ =>
    refine h.move rfl (by rintro q ⟨⟩; exact hP.exec_ordered s w.state) (fun m => ?_)
      fun m u hu => Iff.rfl
    have hold := h.owner t m
    simp only [busy, at_, Option.some.injEq, exists_eq_left', Code.holds] at hold
    simpa [hP.exec_holds, ran, World.advance] using hold
  | respond t p r busy at_ =>
    refine h.move rfl (by rintro q ⟨⟩) (fun m => ?_) fun m u hu => Iff.rfl
    have hold := h.owner t m
    simp only [busy, at_, Option.some.injEq, exists_eq_left', Code.holds,
      Finset.notMem_empty] at hold
    simpa using hold

theorem Reachable.owned (hP : P.Disciplined needs rank) {s : State}
    {w : World Tid Mutex Sect State Call Ret} (h : P.Reachable s w) : Owned needs rank w :=
  h.invariant ⟨by simp [World.initial], by simp [World.initial]⟩
    fun _ _ _ ih step => ih.step hP step

/-- The mutex is left alone on every way into the sections satisfying `inside`. -/
structure KeptInto (P : LockedCalls Mutex Sect State Call Ret) (m : Mutex)
    (inside : Sect → Prop) : Prop where
  entry : ∀ c s, (P.entry c).next = some s → inside s → ¬ (P.entry c).Touches m
  exec : ∀ s state s', (P.exec s state).2.next = some s' → inside s' →
    ¬ (P.exec s state).2.Touches m

variable {m : Mutex} {inside : Sect → Prop}

theorem KeptInto.not_touches (hK : KeptInto P m inside) {s : State}
    {w : World Tid Mutex Sect State Call Ret} (h : P.Reachable s w) :
    ∀ t p sect, w.threads t = some p → p.code.next = some sect → inside sect →
      ¬ p.code.Touches m := by
  refine h.invariant (I := fun w => ∀ t p sect, w.threads t = some p →
    p.code.next = some sect → inside sect → ¬ p.code.Touches m) (by simp [World.initial]) ?_
  intro w w' _ ih step u q sect hq hnext hinside
  cases step with
  | invoke t c idle =>
    rcases update_eq_some hq with ⟨-, heq⟩ | ⟨-, hq⟩
    · obtain rfl := Option.some.inj heq
      exact hK.entry c sect hnext hinside
    · exact ih u q sect hq hnext hinside
  | lock t p m' next busy at_ free =>
    rcases update_eq_some hq with ⟨-, heq⟩ | ⟨-, hq⟩
    · obtain rfl := Option.some.inj heq
      have hp := ih t p sect busy (by rw [at_]; exact hnext) hinside
      rw [at_] at hp
      exact fun ht => hp (.inr ht)
    · exact ih u q sect hq hnext hinside
  | unlock t p m' next busy at_ =>
    rcases update_eq_some hq with ⟨-, heq⟩ | ⟨-, hq⟩
    · obtain rfl := Option.some.inj heq
      have hp := ih t p sect busy (by rw [at_]; exact hnext) hinside
      rw [at_] at hp
      exact fun ht => hp (.inr ht)
    · exact ih u q sect hq hnext hinside
  | exec t p s' busy at_ =>
    rcases update_eq_some hq with ⟨-, heq⟩ | ⟨-, hq⟩
    · obtain rfl := Option.some.inj heq
      exact hK.exec s' w.state sect hnext hinside
    · exact ih u q sect hq hnext hinside
  | respond t p r busy at_ =>
    rcases update_eq_some hq with ⟨-, heq⟩ | ⟨-, hq⟩
    · exact absurd heq (by simp)
    · exact ih u q sect hq hnext hinside

/-- A thread that goes on to such a section owns the mutex the section runs under. -/
theorem KeptInto.owner (hK : KeptInto P m inside) (hP : P.Disciplined needs rank) {s : State}
    {w : World Tid Mutex Sect State Call Ret} (h : P.Reachable s w) {t : Tid} {c : Call}
    {sect : Sect} (hnext : w.next t = some (c, sect)) (hinside : inside sect)
    (hm : m ∈ needs sect) : w.owner m = some t := by
  obtain ⟨p, hp, -, hs⟩ := World.next_eq_some.mp hnext
  exact ((h.owned hP).owner t m).mpr ⟨p, hp, Code.mem_holds_of_not_touches hs
    (hK.not_touches h t p sect hp hs hinside) hm⟩

end LockedCalls

end QpidPmda.Foundations
