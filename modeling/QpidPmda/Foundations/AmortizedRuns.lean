import QpidPmda.Foundations.History

/-! # What a run spends

Each action costs something in the state it is carried out in. Where the cost of
every action is paid by a potential and by what the action brings in, so is that
of a run. A machine that is kept busy by actions it can pay for a finite number
of times only comes to rest, again and again.
-/

namespace QpidPmda.Foundations

section Spent
variable {σ α : Type*} (step : α → σ → σ)

/-- What the actions cost, each in the state it is carried out in. -/
def spent (cost : α → σ → ℕ) : List α → σ → ℕ
  | [], _ => 0
  | a :: actions, s => cost a s + spent cost actions (step a s)

theorem spent_append (cost : α → σ → ℕ) (first second : List α) (s : σ) :
    spent step cost (first ++ second) s =
      spent step cost first s + spent step cost second (run step first s) := by
  induction first generalizing s with
  | nil => simp [spent]
  | cons a first ih => rw [List.cons_append, spent, spent, ih, run_cons, Nat.add_assoc]

/-- Where potential, income and credit pay for every action, they pay for every run. -/
theorem spent_add_potential {cost credit : α → σ → ℕ} (potential income : σ → ℕ)
    (h : ∀ a s, cost a s + potential (step a s) + income s =
      potential s + income (step a s) + credit a s) (actions : List α) (s : σ) :
    spent step cost actions s + potential (run step actions s) + income s =
      potential s + income (run step actions s) + spent step credit actions s := by
  induction actions generalizing s with
  | nil => simp [spent]
  | cons a actions ih =>
    have hone := h a s
    have hrest := ih (step a s)
    simp only [spent, run_cons]
    omega

theorem spent_eq_countP {cost : α → σ → ℕ} {C : σ → α → Prop} {p : α → Bool}
    (h : ∀ a s, C s a → cost a s = if p a then 1 else 0) {actions : List α} {s : σ}
    (hC : Meets step C actions s) : spent step cost actions s = actions.countP p := by
  induction actions generalizing s with
  | nil => rfl
  | cons a actions ih => rw [spent, h a s hC.1, ih hC.2, List.countP_cons, Nat.add_comm]

theorem spent_eq_zero {cost : α → σ → ℕ} {C : σ → α → Prop} (h : ∀ a s, C s a → cost a s = 0)
    {actions : List α} {s : σ} (hC : Meets step C actions s) :
    spent step cost actions s = 0 := by
  induction actions generalizing s with
  | nil => rfl
  | cons a actions ih => rw [spent, h a s hC.1, ih hC.2]

/-- A condition that holds at every moment holds where each action is carried out. -/
theorem meets_of_prefixes {C : σ → Prop} {actions : List α} {s : σ}
    (h : ∀ first, first <+: actions → C (run step first s)) :
    Meets step (fun s _ => C s) actions s := by
  induction actions generalizing s with
  | nil => trivial
  | cons a actions ih =>
    refine ⟨h [] List.nil_prefix, ih fun first hfirst => h (a :: first) ?_⟩
    obtain ⟨rest, rfl⟩ := hfirst
    exact ⟨rest, rfl⟩

end Spent

section Schedules
variable {α : Type*}

/-- The actions of an endless schedule from one moment to a later one. -/
def segment (schedule : ℕ → α) (start steps : ℕ) : List α :=
  (List.range' start steps).map schedule

theorem segment_add (schedule : ℕ → α) (start steps more : ℕ) :
    segment schedule start (steps + more) =
      segment schedule start steps ++ segment schedule (start + steps) more := by
  rw [segment, ← List.range'_append_1, List.map_append]
  rfl

theorem eq_segment_of_isPrefix_segment {schedule : ℕ → α} {start steps : ℕ} {actions : List α}
    (h : actions <+: segment schedule start steps) :
    actions = segment schedule start actions.length := by
  have hle : actions.length ≤ steps := by simpa [segment] using h.length_le
  obtain ⟨more, rfl⟩ := Nat.exists_eq_add_of_le hle
  rw [segment_add] at h
  have hbegins : segment schedule start actions.length <+:
      segment schedule start actions.length ++ segment schedule (start + actions.length) more :=
    List.prefix_append _ _
  exact (List.prefix_of_prefix_length_le h hbegins (by simp [segment])).eq_of_length
    (by simp [segment])

/-- What comes up again and again comes up any number of times from any moment on. -/
theorem exists_countP_segment {schedule : ℕ → α} {p : α → Bool}
    (h : ∀ n, ∃ m ≥ n, p (schedule m) = true) (start count : ℕ) :
    ∃ steps, count ≤ (segment schedule start steps).countP p := by
  induction count with
  | zero => exact ⟨0, Nat.zero_le _⟩
  | succ count ih =>
    obtain ⟨steps, hsteps⟩ := ih
    obtain ⟨m, hm, hp⟩ := h (start + steps)
    obtain ⟨more, rfl⟩ := Nat.exists_eq_add_of_le hm
    have hlast : p (schedule (start + (steps + more))) = true := by rwa [← Nat.add_assoc]
    have hone : segment schedule (start + (steps + more)) 1 =
        [schedule (start + (steps + more))] := rfl
    refine ⟨steps + more + 1, ?_⟩
    rw [segment_add, hone, List.countP_append, segment_add, List.countP_append,
      List.countP_singleton, if_pos hlast]
    omega

end Schedules

end QpidPmda.Foundations
