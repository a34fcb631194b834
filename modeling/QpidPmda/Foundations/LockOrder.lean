import QpidPmda.Foundations.LockedCalls

/-! # Mutexes taken in the order of their ranks

A thread that waits for a mutex holds mutexes of smaller ranks only. If the
thread that owns the awaited mutex waits too, it waits for one of a larger
rank, and bounded ranks end this chain at a thread that goes on. A call takes
no mutex that it holds, and leaves none behind.
-/

namespace QpidPmda.Foundations.LockedCalls

variable {Tid Mutex Sect State Call Ret : Type*} [DecidableEq Tid] [DecidableEq Mutex]
  {P : LockedCalls Mutex Sect State Call Ret} {needs : Sect → Finset Mutex} {rank : Mutex → Nat}
  {start : State} {w : World Tid Mutex Sect State Call Ret} {t : Tid}
  {p : Running Mutex Sect Call Ret} {m m' : Mutex} {next : Code Mutex Sect Ret}

theorem goOn_or_waits (busy : w.threads t = some p) :
    (∃ w', P.perform w (.goOn t) = some w') ∨
      ∃ m next u, p.code = .lock m next ∧ w.owner m = some u := by
  cases hcode : p.code with
  | lock m next =>
    cases howner : w.owner m with
    | none => exact .inl ⟨_, by simp only [perform, busy, hcode, howner]; rfl⟩
    | some u => exact .inr ⟨m, next, u, rfl, howner⟩
  | unlock m next => exact .inl ⟨_, by simp only [perform, busy, hcode]; rfl⟩
  | run s => exact .inl ⟨_, by simp only [perform, busy, hcode]; rfl⟩
  | ret r => exact .inl ⟨_, by simp only [perform, busy, hcode]; rfl⟩

omit [DecidableEq Tid] in
theorem Owned.rank_lt (h : Owned needs rank w) (busy : w.threads t = some p)
    (at_ : p.code = .lock m next) (howner : w.owner m' = some t) : rank m' < rank m := by
  obtain ⟨q, hq, hholds⟩ := (h.owner t m').mp howner
  obtain rfl := Option.some.inj (busy.symm.trans hq)
  have hord := h.ordered t p busy
  rw [at_] at hord hholds
  exact hord.2.1 m' hholds

omit [DecidableEq Tid] in
theorem Owned.not_retaken (h : Owned needs rank w) (busy : w.threads t = some p)
    (at_ : p.code = .lock m next) : w.owner m ≠ some t :=
  fun howner => lt_irrefl _ (h.rank_lt busy at_ howner)

/-- The thread has no call, or its call only has to hand over its result. -/
def Finished (w : World Tid Mutex Sect State Call Ret) (t : Tid) : Prop :=
  ∀ p, w.threads t = some p → ∃ r, p.code = .ret r

omit [DecidableEq Tid] in
theorem Owned.finished (h : Owned needs rank w) (hfin : Finished w t) (m : Mutex) :
    w.owner m ≠ some t := by
  intro howner
  obtain ⟨p, hp, hholds⟩ := (h.owner t m).mp howner
  obtain ⟨r, hr⟩ := hfin p hp
  rw [hr] at hholds
  exact absurd hholds (Finset.notMem_empty m)

theorem Owned.owner_goesOn (h : Owned needs rank w) {u : Tid} (howner : w.owner m = some u) :
    (∃ w', P.perform w (.goOn u) = some w') ∨
      ∃ q m' next', w.threads u = some q ∧ q.code = .lock m' next' ∧ rank m < rank m' := by
  obtain ⟨q, hq, -⟩ := (h.owner u m).mp howner
  rcases goOn_or_waits (P := P) hq with hgo | ⟨m', next', _, hcode, -⟩
  · exact .inl hgo
  · exact .inr ⟨q, m', next', hq, hcode, h.rank_lt hq hcode howner⟩

/-- The ranks above an awaited mutex bound the chain of threads that wait for each other. -/
theorem Owned.goesOn_of_waits (h : Owned needs rank w) {bound : Nat}
    (hbound : ∀ m, rank m ≤ bound) (busy : w.threads t = some p) (at_ : p.code = .lock m next) :
    ∃ u w', P.perform w (.goOn u) = some w' := by
  induction hleft : bound - rank m using Nat.strong_induction_on generalizing t p m next with
  | _ left ih =>
    rcases goOn_or_waits (P := P) busy with ⟨w', hw'⟩ | ⟨_, _, u, hcode, howner⟩
    · exact ⟨t, w', hw'⟩
    · obtain ⟨rfl, rfl⟩ := Code.lock.inj (at_.symm.trans hcode)
      rcases h.owner_goesOn (P := P) howner with ⟨w', hw'⟩ | ⟨q, m', next', hq, hcode', hlt⟩
      · exact ⟨u, w', hw'⟩
      · have hle := hbound m'
        exact ih (bound - rank m') (by omega) hq hcode' rfl

/-- Where a call is left to finish, some call goes on. -/
theorem Owned.goesOn (h : Owned needs rank w) {bound : Nat} (hbound : ∀ m, rank m ≤ bound)
    (busy : w.threads t = some p) : ∃ u w', P.perform w (.goOn u) = some w' := by
  rcases goOn_or_waits (P := P) busy with ⟨w', hw'⟩ | ⟨_, _, _, hcode, -⟩
  · exact ⟨t, w', hw'⟩
  · exact h.goesOn_of_waits hbound busy hcode

end QpidPmda.Foundations.LockedCalls
