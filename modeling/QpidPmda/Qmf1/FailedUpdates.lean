import QpidPmda.Qmf1.ListenerHistory

/-! # Properties updates that an exception leaves

Every log text about an object reads its name, and raises when the name is not a
string. The texts that `objectProps` builds before its lock leave the listener
alone. The text about a new object is built between the insertion and the push:
where it is the first to raise, the object keeps its entry and is never queued,
since every later update finds it known.
-/

namespace QpidPmda.Qmf1
open Qpid Pcp ConsoleUtils ConsoleValue Foundations

variable {ObjectId Value : Type} [ConsoleValue Value ObjectId] [ToString ObjectId]

namespace ConsoleListener

/-- The auto-delete test reports that the attribute is missing or not a boolean, or fails to
read it. -/
def AutoDeleteReported (pmDebug : DebugFlags) (object : Object ObjectId Value) : Prop :=
  match object.attributes.lookup "autoDelete" with
  | none => pmDebug.appl1 = true
  | some autoDelete => ∀ b, ¬ (isBool autoDelete = true ∧ asBool autoDelete = .ok b)

omit [ToString ObjectId] in
theorem autoDeleteReadable_of_unreported {pmDebug : DebugFlags} {object : Object ObjectId Value}
    (hflag : pmDebug.appl2 = false) (h : ¬ AutoDeleteReported pmDebug object) :
    AutoDeleteReadable pmDebug object := by
  unfold AutoDeleteReported at h
  unfold AutoDeleteReadable
  cases hl : object.attributes.lookup "autoDelete" with
  | none =>
    intro hflag₁
    exact absurd hflag₁ (by simpa [hl] using h)
  | some autoDelete =>
    obtain ⟨b, hbool, hb⟩ : ∃ b, isBool autoDelete = true ∧ asBool autoDelete = .ok b := by
      simpa only [hl, not_forall, not_not] using h
    dsimp only
    rw [if_pos hbool]
    exact ⟨by simp [hflag], b, hb⟩

omit [ToString ObjectId] in
theorem nameable_of_reported {pmDebug : DebugFlags} {object : Object ObjectId Value}
    (h : AutoDeleteReadable pmDebug object) (hreported : AutoDeleteReported pmDebug object) :
    Nameable object := by
  unfold AutoDeleteReported at hreported
  unfold AutoDeleteReadable at h
  cases hl : object.attributes.lookup "autoDelete" with
  | none =>
    simp only [hl] at h hreported
    exact h hreported
  | some autoDelete =>
    simp only [hl] at h hreported
    split_ifs at h with hbool
    · obtain ⟨-, b, hb⟩ := h
      exact absurd ⟨hbool, hb⟩ (hreported b)
    · exact h

variable [DecidableEq ObjectId] {pmDebug : DebugFlags} {object : Object ObjectId Value}
  {l : ConsoleListener ObjectId Value} {e : QpidException}

/-- A failed call raised before the lock, or of an unknown object behind its insertion. -/
theorem objectProps_raised (h : (objectProps pmDebug object l).1 = .error e) :
    (filterProps pmDebug l.includeAutoDelete object = .error e ∧
        (objectProps pmDebug object l).2 = l) ∨
      (filterProps pmDebug l.includeAutoDelete object = .ok true ∧
        l.getProps object.objectId = none ∧ ¬ Nameable object ∧
        (objectProps pmDebug object l).2 =
          { l with props := l.props.insert object.objectId object }) := by
  unfold objectProps at h ⊢
  cases hf : filterProps pmDebug l.includeAutoDelete object with
  | error e' =>
    simp only [hf] at h
    exact .inl ⟨by rw [Except.error.inj h], rfl⟩
  | ok saved =>
    cases saved with
    | false => simp [hf] at h
    | true =>
      simp only [hf, saveProps] at h ⊢
      cases hl : l.props.lookup object.objectId with
      | some known => simp [hl] at h
      | none =>
        simp only [hl] at h ⊢
        cases hlog : notifyErrIf true (("new " ++ ·) <$> toStringObject object false) with
        | ok _ => simp [hlog] at h
        | error e' =>
          refine .inr ⟨trivial, hl, fun hname => ?_, rfl⟩
          rw [notifyErrIf_ok_iff.mpr fun _ => hname] at hlog
          exact absurd hlog (by simp)

/-- The object is known, or some log text is built of it before the lock. -/
def FailsEarly (pmDebug : DebugFlags) (object : Object ObjectId Value)
    (l : ConsoleListener ObjectId Value) : Prop :=
  pmDebug.appl2 = true ∨ (l.getProps object.objectId).isSome ∨
    l.includeAutoDelete = false ∧ AutoDeleteReported pmDebug object

/-- A failed call raises before the lock exactly under the conditions of `FailsEarly`. -/
theorem failsEarly_iff (h : (objectProps pmDebug object l).1 = .error e) :
    FailsEarly pmDebug object l ↔ filterProps pmDebug l.includeAutoDelete object = .error e := by
  rcases objectProps_raised h with ⟨hf, -⟩ | ⟨hf, hunknown, hname, -⟩
  · refine iff_of_true ?_ hf
    by_contra hlate
    simp only [FailsEarly, not_or, not_and, Bool.not_eq_true] at hlate
    obtain ⟨hflag, -, hreported⟩ := hlate
    obtain ⟨b, hb⟩ := filterProps_returns_iff.mpr ⟨by simp [hflag], fun _ hinclude =>
      autoDeleteReadable_of_unreported hflag (hreported hinclude)⟩
    exact absurd (hf.symm.trans hb) (by simp)
  · refine iff_of_false ?_ (by simp [hf])
    rintro (hflag | hknown | ⟨hinclude, hreported⟩)
    · exact hname (notifyErrIf_ok_iff.mp ((filterProps_ok_iff ..).mp hf).1 hflag)
    · simp [hunknown] at hknown
    · rw [hinclude] at hf
      have hreadable : AutoDeleteReadable pmDebug object :=
        isAutoDelete_returns_iff.mp ⟨false, filterProps_tested hf⟩
      exact hname (nameable_of_reported hreadable hreported)

end ConsoleListener

namespace ListenerCall
open ConsoleListener
variable [DecidableEq ObjectId]

/-- The object is stored and announced. -/
def withNew (object : Object ObjectId Value) (l : ConsoleListener ObjectId Value) :
    ConsoleListener ObjectId Value := { l with
  props := l.props.insert object.objectId object
  newObjects := l.newObjects ++ [object.objectId] }

/-- A failed update left the listener as it was, and if its object was unknown, a later update of
the object that raises nothing stores and announces it. -/
structure Undone (pmDebug : DebugFlags) (x : ObjectId) (l l' : ConsoleListener ObjectId Value) :
    Prop where
  unchanged : l' = l
  announced : l.getProps x = none → ∀ (between : List (ListenerCall ObjectId Value)) later,
    (∀ call ∈ between, isAbout x call = false) → later.objectId = x →
    propsSaved pmDebug l.includeAutoDelete later = true → Nameable later →
    ConsoleListener.objectProps pmDebug later (run (exec pmDebug) between l') =
      (.ok (), withNew later (run (exec pmDebug) between l'))

variable {pmDebug : DebugFlags} {object : Object ObjectId Value}
  {l : ConsoleListener ObjectId Value} {e : QpidException}

theorem objectProps_new (hunknown : l.getProps object.objectId = none)
    (hsaved : propsSaved pmDebug l.includeAutoDelete object = true) (hname : Nameable object) :
    ConsoleListener.objectProps pmDebug object l = (.ok (), withNew object l) := by
  have hl : l.props.lookup object.objectId = none := hunknown
  have hlog : notifyErrIf true (("new " ++ ·) <$> toStringObject object false) = .ok () :=
    notifyErrIf_ok_iff.mpr fun _ => hname
  simp [ConsoleListener.objectProps, (propsSaved_iff ..).mp hsaved, saveProps, hl, hlog, withNew]

/-- A failed call is undone exactly when it failed before the lock. -/
theorem failed_undone_iff (h : (ConsoleListener.objectProps pmDebug object l).1 = .error e) :
    Undone pmDebug object.objectId l (ConsoleListener.objectProps pmDebug object l).2 ↔
      FailsEarly pmDebug object l := by
  rw [failsEarly_iff h]
  rcases objectProps_raised h with ⟨hf, hkept⟩ | ⟨hf, hunknown, -, hinserted⟩
  · refine iff_of_true ⟨hkept, fun hunknown between later habout hx hsaved hname => ?_⟩ hf
    rw [hkept]
    exact objectProps_new (by rw [hx, run_getProps habout, hunknown])
      (by rw [run_includeAutoDelete, hsaved]) hname
  · refine iff_of_false (fun hundone => ?_) (by simp [hf])
    have hstored : (ConsoleListener.objectProps pmDebug object l).2.getProps object.objectId =
        some object := by simp [hinserted, getProps]
    rw [hundone.unchanged, hunknown] at hstored
    exact absurd hstored (by simp)

/-- Queues whose name is a number. The notice about the autoDelete of the first one raises
before the lock. -/
def noticedQueue : Object Nat (QmfValue Nat) :=
  brokerObject "queue" 1 [("name", .uint 7), ("autoDelete", .string "no")]

def numberedQueue : Object Nat (QmfValue Nat) := brokerObject "queue" 1 [("name", .uint 7)]

theorem failed_undone_noticedQueue : Undone ⟨false, false⟩ 1 (start false)
    (ConsoleListener.objectProps ⟨false, false⟩ noticedQueue (start false)).2 := by
  have hreported : AutoDeleteReported ⟨false, false⟩ noticedQueue := by
    change ∀ b : Bool, ¬ (false = true ∧ _)
    simp
  exact (failed_undone_iff (e := ⟨"incompatible type"⟩) rfl).mpr (.inr (.inr ⟨rfl, hreported⟩))

/-- The failed update leaves its object in the properties. -/
theorem failed_half_done :
    ¬ ∀ (calls : List (ListenerCall Nat (QmfValue Nat))) (object : Object Nat (QmfValue Nat)) e,
      (ConsoleListener.objectProps ⟨false, false⟩ object
        (history ⟨false, false⟩ false calls)).1 = .error e →
      Undone ⟨false, false⟩ object.objectId (history ⟨false, false⟩ false calls)
        (ConsoleListener.objectProps ⟨false, false⟩ object
          (history ⟨false, false⟩ false calls)).2 := by
  intro h
  have hundone := h [] numberedQueue ⟨"incompatible type"⟩ rfl
  exact absurd (congrArg (fun l => (l.getProps 1).isSome) hundone.unchanged) (by decide)

end ListenerCall

end QpidPmda.Qmf1
