import Mathlib.Data.List.Basic
import Mathlib.Data.List.Induction
import Mathlib.Data.List.TakeWhile

/-! # Runs of a machine and what their histories determine

A machine is a step function on states. A run carries out a list of actions,
and everything proved of runs goes through one action at the end of the list.
The value a run leaves behind is often the last one its history wrote: `lastOf`
names that value, and `sinceFirst` the part of a history after a first event.
What is done once a key is done by the first event of that key: `firsts`.
-/

namespace QpidPmda.Foundations

section Runs
variable {σ α : Type*} (step : α → σ → σ)

/-- Carry out the actions from left to right. -/
def run (actions : List α) (s : σ) : σ := actions.foldl (fun s a => step a s) s

@[simp] theorem run_nil (s : σ) : run step [] s = s := rfl

@[simp] theorem run_cons (a : α) (actions : List α) (s : σ) :
    run step (a :: actions) s = run step actions (step a s) := rfl

theorem run_concat (actions : List α) (a : α) (s : σ) :
    run step (actions ++ [a]) s = step a (run step actions s) := by
  simp [run, List.foldl_append]

theorem run_append (first second : List α) (s : σ) :
    run step (first ++ second) s = run step second (run step first s) := by
  simp [run, List.foldl_append]

/-- What every action preserves, every run preserves. -/
theorem run_invariant {I : σ → Prop} (hstep : ∀ a s, I s → I (step a s)) (actions : List α)
    {s : σ} (h : I s) : I (run step actions s) := by
  induction actions generalizing s with
  | nil => exact h
  | cons a actions ih => exact ih (hstep a s h)

/-- Every action of the run meets the condition in the state it is carried out in. -/
def Meets (C : σ → α → Prop) : List α → σ → Prop
  | [], _ => True
  | a :: actions, s => C s a ∧ Meets C actions (step a s)

theorem meets_and {C : σ → α → Prop} {D : α → Prop} {actions : List α} {s : σ}
    (h : Meets step C actions s) (hD : ∀ a ∈ actions, D a) :
    Meets step (fun s a => C s a ∧ D a) actions s := by
  induction actions generalizing s with
  | nil => trivial
  | cons a actions ih =>
    exact ⟨⟨h.1, hD a List.mem_cons_self⟩, ih h.2 fun b hb => hD b (List.mem_cons_of_mem a hb)⟩

/-- An invariant that only the actions meeting a condition preserve. -/
theorem run_invariant_of_meets {I : σ → Prop} {C : σ → α → Prop}
    (hstep : ∀ a s, I s → C s a → I (step a s)) (actions : List α) {s : σ} (h : I s)
    (hC : Meets step C actions s) : I (run step actions s) := by
  induction actions generalizing s with
  | nil => exact h
  | cons a actions ih => exact ih (hstep a s h hC.1) hC.2

end Runs

section LastOf
variable {α β : Type*}

/-- A value that is written when it passes a test. -/
theorem ite_some_eq_some_iff (p : β → Prop) {a b : β} {_ : Decidable (p a)} :
    (if p a then some a else none) = some b ↔ a = b ∧ p b := by
  rw [Option.ite_none_right_eq_some, Option.some.injEq, and_comm]
  exact and_congr_right fun heq => by rw [heq]

/-- The last value that an event of the history writes. -/
def lastOf (f : α → Option β) (history : List α) : Option β := (history.filterMap f).getLast?

@[simp] theorem lastOf_nil (f : α → Option β) : lastOf f [] = none := rfl

theorem lastOf_append (f : α → Option β) (first second : List α) :
    lastOf f (first ++ second) = (lastOf f second).or (lastOf f first) := by
  simp [lastOf, List.getLast?_append]

theorem lastOf_concat (f : α → Option β) (history : List α) (a : α) :
    lastOf f (history ++ [a]) = (f a).or (lastOf f history) := by
  rw [lastOf_append]
  cases h : f a <;> simp [lastOf, h]

theorem lastOf_eq_none_iff (f : α → Option β) (history : List α) :
    lastOf f history = none ↔ ∀ a ∈ history, f a = none := by
  simp [lastOf]

theorem lastOf_isSome_iff (f : α → Option β) (history : List α) :
    (lastOf f history).isSome ↔ ∃ a ∈ history, (f a).isSome := by
  rw [← not_iff_not, Bool.not_eq_true, Option.isSome_eq_false_iff, Option.isNone_iff_eq_none,
    lastOf_eq_none_iff]
  simp

theorem lastOf_append_of_none {f : α → Option β} (first : List α) {second : List α}
    (h : ∀ a ∈ second, f a = none) : lastOf f (first ++ second) = lastOf f first := by
  rw [lastOf_append, (lastOf_eq_none_iff f second).mpr h, Option.none_or]

theorem exists_of_lastOf_eq_some {f : α → Option β} {history : List α} {b : β}
    (h : lastOf f history = some b) : ∃ a ∈ history, f a = some b :=
  List.mem_filterMap.mp (List.mem_of_getLast? h)

/-- Behind the event that wrote the last value, nothing is written. -/
theorem exists_split_of_lastOf_eq_some {f : α → Option β} {history : List α} {b : β}
    (h : lastOf f history = some b) :
    ∃ before a rest, history = before ++ a :: rest ∧ f a = some b ∧ ∀ c ∈ rest, f c = none := by
  induction history using List.reverseRecOn with
  | nil => exact absurd h (by simp)
  | append_singleton history a ih =>
    rw [lastOf_concat] at h
    cases ha : f a with
    | some b' =>
      rw [ha, Option.some_or] at h
      exact ⟨history, a, [], rfl, ha.trans h, by simp⟩
    | none =>
      rw [ha, Option.none_or] at h
      obtain ⟨before, a', rest, rfl, ha', hrest⟩ := ih h
      refine ⟨before, a', rest ++ [a], by simp, ha', fun c hc => ?_⟩
      rcases List.mem_append.mp hc with hc | hc
      · exact hrest c hc
      · exact List.mem_singleton.mp hc ▸ ha

theorem lastOf_filter (f : α → Option β) (p : α → Bool) (history : List α)
    (h : ∀ a ∈ history, p a = false → f a = none) :
    lastOf f (history.filter p) = lastOf f history := by
  have heq : (history.filter p).filterMap f = history.filterMap f := by
    rw [List.filterMap_filter]
    apply List.filterMap_congr
    intro a ha
    by_cases hp : p a
    · simp [hp]
    · simp [hp, h a ha (by simpa using hp)]
  rw [lastOf, heq, lastOf]

theorem lastOf_map {γ : Type*} (f : α → Option β) (g : γ → α) (history : List γ) :
    lastOf f (history.map g) = lastOf (fun c => f (g c)) history := by
  rw [lastOf, List.filterMap_map, lastOf]
  rfl

theorem map_lastOf {γ : Type*} (f : α → Option β) (g : β → γ) (history : List α) :
    (lastOf f history).map g = lastOf (fun a => (f a).map g) history := by
  induction history using List.reverseRecOn with
  | nil => rfl
  | append_singleton history a ih =>
    rw [lastOf_concat, lastOf_concat, ← ih]
    cases f a <;> rfl

theorem lastOf_congr {f g : α → Option β} {history : List α} (h : ∀ a ∈ history, f a = g a) :
    lastOf f history = lastOf g history := by
  rw [lastOf, List.filterMap_congr h, lastOf]

/-- A filter on the written values spares the last one exactly when it accepts it. -/
theorem lastOf_filtered_iff {f g : α → Option β} {q : β → Bool}
    (hf : ∀ a, f a = (g a).filter q) (history : List α) :
    lastOf f history = lastOf g history ↔ ∀ b, lastOf g history = some b → q b = true := by
  constructor
  · intro heq b hb
    obtain ⟨a, -, ha⟩ := exists_of_lastOf_eq_some (heq.trans hb)
    rw [hf a, Option.filter_eq_some_iff] at ha
    exact ha.2
  · intro h
    induction history using List.reverseRecOn with
    | nil => rfl
    | append_singleton history a ih =>
      rw [lastOf_concat, lastOf_concat] at *
      cases hg : g a with
      | none => simpa [hf a, hg] using ih (by simpa [hg] using h)
      | some b => simp [hf a, hg, h b (by simp [hg])]

/-- A suffix shows the last value unless only the part before it writes one. -/
theorem lastOf_suffix_iff (f : α → Option β) {suffix history : List α}
    (hs : suffix <:+ history) : lastOf f suffix = lastOf f history ↔
      ((∃ a ∈ history, (f a).isSome) → ∃ a ∈ suffix, (f a).isSome) := by
  obtain ⟨before, rfl⟩ := hs
  rw [← lastOf_isSome_iff, ← lastOf_isSome_iff, lastOf_append]
  cases lastOf f suffix with
  | none => cases lastOf f before <;> simp
  | some b => simp

/-- A suffix whose values are filtered shows the last value of the whole history exactly when the
filter accepts it and the suffix has a value if there is any. -/
theorem lastOf_filtered_suffix_iff {f g : α → Option β} {q : β → Bool}
    (hf : ∀ a, f a = (g a).filter q) {suffix history : List α} (hs : suffix <:+ history) :
    lastOf f suffix = lastOf g history ↔ (∀ b, lastOf g history = some b → q b = true) ∧
      ((∃ a ∈ history, (g a).isSome) → ∃ a ∈ suffix, (g a).isSome) := by
  constructor
  · intro heq
    have haccepted (b : β) (hb : lastOf g history = some b) :
        ∃ a ∈ suffix, g a = some b ∧ q b = true := by
      obtain ⟨a, ha, hfa⟩ := exists_of_lastOf_eq_some (heq.trans hb)
      exact ⟨a, ha, Option.filter_eq_some_iff.mp (hf a ▸ hfa)⟩
    refine ⟨fun b hb => (haccepted b hb).choose_spec.2.2, fun hany => ?_⟩
    obtain ⟨b, hb⟩ := Option.isSome_iff_exists.mp ((lastOf_isSome_iff g history).mpr hany)
    obtain ⟨a, ha, hga, -⟩ := haccepted b hb
    exact ⟨a, ha, Option.isSome_of_eq_some hga⟩
  · rintro ⟨haccepted, hany⟩
    have hsame : lastOf g suffix = lastOf g history := (lastOf_suffix_iff g hs).mpr hany
    rw [← hsame] at haccepted ⊢
    exact (lastOf_filtered_iff hf suffix).mpr haccepted

end LastOf

section SinceFirst
variable {α : Type*}

/-- The part of a history that begins with its first event satisfying `p`. -/
def sinceFirst (p : α → Bool) (history : List α) : List α := history.dropWhile (fun a => !p a)

theorem sinceFirst_concat_of_any {p : α → Bool} {history : List α} (h : history.any p) (a : α) :
    sinceFirst p (history ++ [a]) = sinceFirst p history ++ [a] := by
  induction history with
  | nil => simp at h
  | cons b history ih =>
    by_cases hb : p b
    · simp [sinceFirst, hb]
    · have hany : history.any p := by simpa [hb] using h
      simpa [sinceFirst, hb] using ih hany

theorem sinceFirst_eq_nil {p : α → Bool} {history : List α} (h : ¬ history.any p) :
    sinceFirst p history = [] :=
  List.dropWhile_eq_nil_iff.mpr (by simpa using h)

theorem sinceFirst_concat_of_not_any {p : α → Bool} {history : List α} (h : ¬ history.any p)
    (a : α) : sinceFirst p (history ++ [a]) = if p a then [a] else [] := by
  induction history with
  | nil => by_cases ha : p a <;> simp [sinceFirst, ha]
  | cons b history ih =>
    have hb : ¬ p b := fun hp => h (by simp [hp])
    have hany : ¬ history.any p := fun hp => h (by simp [hp])
    simpa [sinceFirst, hb] using ih hany

theorem sinceFirst_suffix (p : α → Bool) (history : List α) :
    sinceFirst p history <:+ history := List.dropWhile_suffix _

theorem sinceFirst_filter {p q : α → Bool} (hpq : ∀ a, p a → q a) (history : List α) :
    sinceFirst p (history.filter q) = (sinceFirst p history).filter q := by
  induction history with
  | nil => rfl
  | cons a history ih =>
    by_cases hp : p a
    · simp [sinceFirst, hp, hpq a hp]
    · by_cases hq : q a
      · simpa [sinceFirst, hp, hq] using ih
      · simpa [sinceFirst, hp, hq] using ih

theorem sinceFirst_suffix_of_imp {p q : α → Bool} (hpq : ∀ a, p a → q a) (history : List α) :
    sinceFirst p history <:+ sinceFirst q history := by
  induction history with
  | nil => exact List.suffix_rfl
  | cons a history ih =>
    by_cases hq : q a
    · have hself : sinceFirst q (a :: history) = a :: history := by simp [sinceFirst, hq]
      rw [hself]
      exact sinceFirst_suffix p (a :: history)
    · have hp : ¬ p a := fun hp => hq (hpq a hp)
      simpa [sinceFirst, hp, hq] using ih

theorem exists_mem_sinceFirst_iff {p : α → Bool} {r : α → Prop} {history : List α} :
    (∃ a ∈ sinceFirst p history, r a) ↔
      ∃ before b rest, history = before ++ b :: rest ∧ p b = true ∧ ∃ a ∈ b :: rest, r a := by
  induction history with
  | nil => simp [sinceFirst]
  | cons b history ih =>
    by_cases hb : p b
    · have hself : sinceFirst p (b :: history) = b :: history := by simp [sinceFirst, hb]
      rw [hself]
      constructor
      · exact fun h => ⟨[], b, history, rfl, hb, h⟩
      · rintro ⟨before, c, rest, heq, -, a, ha, hr⟩
        exact ⟨a, heq ▸ List.mem_append_right before ha, hr⟩
    · have hnext : sinceFirst p (b :: history) = sinceFirst p history := by simp [sinceFirst, hb]
      rw [hnext, ih]
      constructor
      · rintro ⟨before, c, rest, rfl, hc, h⟩
        exact ⟨b :: before, c, rest, rfl, hc, h⟩
      · rintro ⟨_ | ⟨b', before⟩, c, rest, heq, hc, h⟩
        · obtain ⟨rfl, -⟩ := List.cons.inj heq
          exact absurd hc hb
        · obtain ⟨-, rfl⟩ := List.cons.inj heq
          exact ⟨before, c, rest, rfl, hc, h⟩

end SinceFirst

section Firsts
variable {α κ : Type*} [DecidableEq κ] (key : α → κ)

/-- The first event of each key, in the order of the history. -/
def firsts (history : List α) : List α :=
  history.foldl (fun found a => if key a ∈ found.map key then found else found ++ [a]) []

theorem firsts_concat_found (history : List α) (a : α) :
    firsts key (history ++ [a]) =
      if key a ∈ (firsts key history).map key then firsts key history
      else firsts key history ++ [a] := by
  simp [firsts, List.foldl_append]

theorem mem_map_firsts {history : List α} {k : κ} :
    k ∈ (firsts key history).map key ↔ k ∈ history.map key := by
  induction history using List.reverseRecOn with
  | nil => rfl
  | append_singleton history a ih =>
    rw [firsts_concat_found]
    split_ifs with hfound
    · rw [ih, List.map_append, List.mem_append]
      constructor
      · exact .inl
      · rintro (hk | hk)
        · exact hk
        · obtain rfl := List.mem_singleton.mp hk
          exact ih.mp hfound
    · simp only [List.map_append, List.mem_append, ih]

theorem firsts_concat (history : List α) (a : α) :
    firsts key (history ++ [a]) =
      firsts key history ++ if key a ∈ history.map key then [] else [a] := by
  rw [firsts_concat_found]
  simp only [mem_map_firsts]
  split_ifs
  · rw [List.append_nil]
  · rfl

theorem mem_of_mem_firsts {history : List α} {a : α} (h : a ∈ firsts key history) :
    a ∈ history := by
  induction history using List.reverseRecOn with
  | nil => exact h
  | append_singleton history b ih =>
    rw [firsts_concat] at h
    rcases List.mem_append.mp h with h | h
    · exact List.mem_append_left _ (ih h)
    · split_ifs at h
      · exact absurd h List.not_mem_nil
      · exact List.mem_append_right _ h

theorem nodup_firsts (history : List α) : ((firsts key history).map key).Nodup := by
  induction history using List.reverseRecOn with
  | nil => exact List.nodup_nil
  | append_singleton history a ih =>
    rw [firsts_concat]
    split_ifs with hfound
    · rwa [List.append_nil]
    · rw [List.map_append, List.nodup_append]
      refine ⟨ih, by simp, fun k hk k' hk' heq => hfound ?_⟩
      obtain rfl := List.mem_singleton.mp hk'
      exact (mem_map_firsts key).mp (heq ▸ hk)

theorem idxOf_lt_of_nodup {before rest : List κ} {k k' : κ} (h : (before ++ k' :: rest).Nodup)
    (hk : k ∈ before) : (before ++ k' :: rest).idxOf k < (before ++ k' :: rest).idxOf k' := by
  have hk' : k' ∉ before := fun hmem => (List.nodup_append.mp h).2.2 k' hmem k' (by simp) rfl
  rw [List.idxOf_append_of_mem hk, List.idxOf_append_of_notMem hk', List.idxOf_cons_self]
  exact List.idxOf_lt_length_of_mem hk

end Firsts

end QpidPmda.Foundations
