import Mathlib.Data.List.Basic

/-! # Programs that write a state on the side

Of a program with a state and exceptions, two things are often asked alone: the
value it returns or raises, when the state has no part in it, and an observation
of the state, when the program leaves it as it was. Both go through sequences,
branches and loops.
-/

namespace QpidPmda.Foundations

universe u
variable {ε σ α β ω : Type u}

/-- The value that a run returns, or the exception that leaves it. -/
def resultOf : EStateM.Result ε σ α → Except ε α
  | .ok a _ => .ok a
  | .error e _ => .error e

/-- The state that a run leaves, also when it raises. -/
def stateOf : EStateM.Result ε σ α → σ
  | .ok _ s => s
  | .error _ s => s

section Steps

theorem get_bind_apply (k : σ → EStateM ε σ α) (s : σ) : (get >>= k) s = k s s := rfl

theorem modify_apply (f : σ → σ) (s : σ) :
    (modify f : EStateM ε σ PUnit) s = .ok PUnit.unit (f s) := rfl

theorem run_bind_of_ok {m : EStateM ε σ α} {k : α → EStateM ε σ β} {s s' : σ} {a : α}
    (h : m.run s = .ok a s') : (m >>= k).run s = (k a).run s' := by
  rw [EStateM.run_bind, h]

theorem run_bind_of_error {m : EStateM ε σ α} {k : α → EStateM ε σ β} {s s' : σ} {e : ε}
    (h : m.run s = .error e s') : (m >>= k).run s = .error e s' := by
  rw [EStateM.run_bind, h]

end Steps

section Yields

/-- Whatever the state is, the program returns or raises this. -/
def Yields (m : EStateM ε σ α) (x : Except ε α) : Prop := ∀ s, resultOf (m s) = x

theorem yields_pure (a : α) : Yields (pure a : EStateM ε σ α) (pure a) := fun _ => rfl

theorem yields_liftExcept (x : Except ε α) : Yields (liftExcept x : EStateM ε σ α) x := by
  intro s
  cases x <;> rfl

theorem yields_modify (f : σ → σ) : Yields (modify f : EStateM ε σ PUnit) (pure PUnit.unit) :=
  fun _ => rfl

theorem yields_get_bind {k : σ → EStateM ε σ α} {x : Except ε α} (h : ∀ s, Yields (k s) x) :
    Yields (get >>= k) x := fun s => h s s

theorem Yields.bind {m : EStateM ε σ α} {x : Except ε α} {k : α → EStateM ε σ β}
    {y : α → Except ε β} (hm : Yields m x) (hk : ∀ a, Yields (k a) (y a)) :
    Yields (m >>= k) (x >>= y) := by
  intro s
  rw [← hm s]
  simp only [Bind.bind, EStateM.bind]
  cases m s with
  | ok a s' => exact hk a s'
  | error e s' => rfl

theorem yields_ite {c : Prop} [Decidable c] {m m' : EStateM ε σ α} {x x' : Except ε α}
    (h : Yields m x) (h' : Yields m' x') :
    Yields (if c then m else m') (if c then x else x') := by
  split_ifs
  · exact h
  · exact h'

theorem Yields.forM {body : α → EStateM ε σ PUnit}
    (h : ∀ a, Yields (body a) (pure PUnit.unit)) (l : List α) :
    Yields (l.forM body) (pure PUnit.unit) := by
  induction l with
  | nil => exact yields_pure _
  | cons a l ih => exact (h a).bind fun _ => ih

end Yields

section Keeps

/-- Every run of the program leaves the observation as it was. -/
def Keeps (f : σ → ω) (m : EStateM ε σ α) : Prop := ∀ s, f (stateOf (m s)) = f s

theorem keeps_pure (f : σ → ω) (a : α) : Keeps f (pure a : EStateM ε σ α) := fun _ => rfl

theorem keeps_liftExcept (f : σ → ω) (x : Except ε α) :
    Keeps f (liftExcept x : EStateM ε σ α) := by
  intro s
  cases x <;> rfl

theorem keeps_modify {f : σ → ω} {g : σ → σ} (h : ∀ s, f (g s) = f s) :
    Keeps f (modify g : EStateM ε σ PUnit) := h

theorem keeps_get_bind {f : σ → ω} {k : σ → EStateM ε σ α} (h : ∀ s, Keeps f (k s)) :
    Keeps f (get >>= k) := fun s => h s s

/-- Where the second part keeps the observation, the first part decides it. -/
theorem Keeps.observe_bind {f : σ → ω} {m : EStateM ε σ α} {k : α → EStateM ε σ β}
    (hk : ∀ a, Keeps f (k a)) (s : σ) : f (stateOf ((m >>= k) s)) = f (stateOf (m s)) := by
  simp only [Bind.bind, EStateM.bind]
  cases m s with
  | ok a s' => exact hk a s'
  | error e s' => rfl

/-- A first part that returns a fixed value and keeps the observation hands the rest a state that
looks the same. -/
theorem Keeps.exists_bind {f : σ → ω} {m : EStateM ε σ α} {a : α} (hm : Keeps f m)
    (ha : Yields m (pure a)) (k : α → EStateM ε σ β) (s : σ) :
    ∃ s', f s' = f s ∧ (m >>= k) s = k a s' := by
  have hkept := hm s
  have hresult := ha s
  simp only [Bind.bind, EStateM.bind]
  cases hr : m s with
  | ok b s' =>
    rw [hr] at hkept hresult
    obtain rfl := Except.ok.inj hresult
    exact ⟨s', hkept, rfl⟩
  | error e s' =>
    rw [hr] at hresult
    exact absurd hresult (by simp [resultOf, pure, Except.pure])

theorem Keeps.bind {f : σ → ω} {m : EStateM ε σ α} {k : α → EStateM ε σ β} (hm : Keeps f m)
    (hk : ∀ a, Keeps f (k a)) : Keeps f (m >>= k) :=
  fun s => (Keeps.observe_bind hk s).trans (hm s)

theorem keeps_ite {c : Prop} [Decidable c] {f : σ → ω} {m m' : EStateM ε σ α} (h : Keeps f m)
    (h' : Keeps f m') : Keeps f (if c then m else m') := by
  split_ifs
  · exact h
  · exact h'

theorem Keeps.forM {f : σ → ω} {body : α → EStateM ε σ PUnit} {l : List α}
    (h : ∀ a ∈ l, Keeps f (body a)) : Keeps f (l.forM body) := by
  induction l with
  | nil => exact keeps_pure f _
  | cons a l ih =>
    exact (h a List.mem_cons_self).bind fun _ => ih fun b hb => h b (List.mem_cons_of_mem a hb)

end Keeps

section UntilFailure
variable {δ : Type u}

/-- The results of the elements before the first one that fails, and its failure. -/
def untilFailure (f : α → Except δ β) : List α → List β × Option δ
  | [] => ([], none)
  | a :: l => match f a with
    | .error e => ([], some e)
    | .ok b => (b :: (untilFailure f l).1, (untilFailure f l).2)

/-- A loop whose rounds add their results to the state stops at the first failure, and leaves what
was added before it. -/
theorem forM_untilFailure (f : α → Except δ β) (body : α → EStateM ε σ PUnit) (fault : δ → ε)
    (add : List β → σ → σ) (hnil : ∀ s, add [] s = s)
    (hcons : ∀ b bs s, add bs (add [b] s) = add (b :: bs) s)
    (hok : ∀ a b s, f a = .ok b → body a s = .ok PUnit.unit (add [b] s))
    (herror : ∀ a e s, f a = .error e → body a s = .error (fault e) s) (l : List α) (s : σ) :
    (forM l body).run s = match (untilFailure f l).2 with
      | none => .ok PUnit.unit (add (untilFailure f l).1 s)
      | some e => .error (fault e) (add (untilFailure f l).1 s) := by
  induction l generalizing s with
  | nil => rw [untilFailure, hnil]; rfl
  | cons a l ih =>
    rw [List.forM_cons, untilFailure, EStateM.run_bind]
    cases hf : f a with
    | error e => rw [EStateM.run, herror a e s hf, hnil]
    | ok b =>
      rw [EStateM.run, hok a b s hf]
      refine (ih (add [b] s)).trans ?_
      simp only [hcons]

end UntilFailure

end QpidPmda.Foundations
