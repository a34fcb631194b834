import QpidPmda.Qmf1.ConsoleListener

/-! # What one call can do to the listener

Each callback either leaves the listener alone or writes the entry of its own
object. While auto-delete objects are left out, every stored properties object
has passed the auto-delete test, so the test that `objectStats` repeats on it
never fails and never raises.
-/

namespace QpidPmda.Qmf1
open Qpid Pcp ConsoleUtils ConsoleValue

variable {ObjectId Value : Type}

namespace ConsoleListener

theorem getNewObjectId_listener (l : ConsoleListener ObjectId Value) :
    l.getNewObjectId = (l.newObjects.head?, { l with newObjects := l.newObjects.tail }) := by
  rcases l with ⟨includeAutoDelete, props, stats, newObjects⟩
  cases newObjects <;> rfl

variable [ConsoleValue Value ObjectId] [ToString ObjectId]

/-- A boolean autoDelete property set to true, as the comment of `isAutoDelete` puts it. -/
def autoDeleteSet (object : Object ObjectId Value) : Bool :=
  match object.attributes.lookup "autoDelete" with
  | none => false
  | some autoDelete => isBool autoDelete && (asBool autoDelete matches .ok true)

/-- When `isAutoDelete` returns at all, it returns what its comment says. -/
theorem isAutoDelete_ok {pmDebug : DebugFlags} {object : Object ObjectId Value} {b : Bool}
    (h : isAutoDelete pmDebug object = .ok b) : b = autoDeleteSet object := by
  unfold isAutoDelete at h
  unfold autoDeleteSet
  cases hl : object.attributes.lookup "autoDelete" with
  | none =>
    obtain ⟨-, -, hb⟩ := bind_eq_ok_iff.mp (hl ▸ h)
    exact (Except.ok.inj hb).symm
  | some autoDelete =>
    simp only [hl] at h
    by_cases hbool : isBool autoDelete = true
    · rw [if_pos hbool] at h
      obtain ⟨-, -, hb⟩ := bind_eq_ok_iff.mp h
      cases b <;> simp [hbool, hb]
    · rw [if_neg hbool] at h
      obtain ⟨-, -, hb⟩ := bind_eq_ok_iff.mp h
      simpa [hbool] using (Except.ok.inj hb).symm

/-- The auto-delete test can read the attribute, and can name the object where it writes about
it. -/
def AutoDeleteReadable (pmDebug : DebugFlags) (object : Object ObjectId Value) : Prop :=
  match object.attributes.lookup "autoDelete" with
  | none => pmDebug.appl1 = true → Nameable object
  | some autoDelete =>
    if isBool autoDelete then
      (pmDebug.appl2 = true → Nameable object) ∧ ∃ b, asBool autoDelete = .ok b
    else Nameable object

theorem isAutoDelete_returns_iff {pmDebug : DebugFlags} {object : Object ObjectId Value} :
    (∃ b, isAutoDelete pmDebug object = .ok b) ↔ AutoDeleteReadable pmDebug object := by
  -- a message about the object, and then the answer no
  have hreport (flag : Bool) (message : String → String) :
      (∃ b, (do notifyErrIf flag (message <$> toStringObject object false); return false) =
        Except.ok (ε := QpidException) b) ↔ (flag = true → Nameable object) := by
    constructor
    · rintro ⟨b, h⟩
      obtain ⟨⟨⟩, hlog, -⟩ := bind_eq_ok_iff.mp h
      exact notifyErrIf_ok_iff.mp hlog
    · intro h
      exact ⟨false, bind_eq_ok_iff.mpr ⟨(), notifyErrIf_ok_iff.mpr h, rfl⟩⟩
  unfold isAutoDelete AutoDeleteReadable
  cases object.attributes.lookup "autoDelete" with
  | none => exact hreport _ _
  | some autoDelete =>
    dsimp only
    split_ifs with hbool
    · constructor
      · rintro ⟨b, h⟩
        obtain ⟨⟨⟩, hlog, hread⟩ := bind_eq_ok_iff.mp h
        refine ⟨fun hflag => ?_, b, hread⟩
        obtain ⟨line, hline⟩ := notifyErrIf_returns_iff.mp hlog hflag
        obtain ⟨text, htext, -⟩ := bind_eq_ok_iff.mp hline
        exact toStringObject_ok_iff.mp ⟨text, htext⟩
      · rintro ⟨hname, b, hread⟩
        refine ⟨b, bind_eq_ok_iff.mpr ⟨(), notifyErrIf_returns_iff.mpr fun hflag => ?_, hread⟩⟩
        obtain ⟨text, htext⟩ := toStringObject_ok_iff.mpr (hname hflag)
        exact ⟨_, bind_eq_ok_iff.mpr ⟨text, htext, bind_eq_ok_iff.mpr ⟨b, hread, rfl⟩⟩⟩
    · exact (hreport true _).trans ⟨fun h => h rfl, fun h _ => h⟩

theorem filterProps_ok_iff (pmDebug : DebugFlags) (includeAutoDelete : Bool)
    (object : Object ObjectId Value) (b : Bool) :
    filterProps pmDebug includeAutoDelete object = .ok b ↔
      ConsoleLogger.objectProps pmDebug object = .ok () ∧
        ((isSupported object.classKey = false ∧ b = false) ∨
          (isSupported object.classKey = true ∧ includeAutoDelete = true ∧ b = true) ∨
          (isSupported object.classKey = true ∧ includeAutoDelete = false ∧
            isAutoDelete pmDebug object = .ok (!b))) := by
  unfold filterProps
  rw [bind_eq_ok_iff]
  constructor
  · rintro ⟨⟨⟩, hlog, h⟩
    refine ⟨hlog, ?_⟩
    cases hs : isSupported object.classKey with
    | false => simpa [hs, pure, Except.pure, eq_comm] using h
    | true =>
      cases includeAutoDelete with
      | true => simpa [hs, pure, Except.pure, eq_comm] using h
      | false =>
        simp only [hs, Bool.not_true, Bool.false_eq_true, if_false] at h
        obtain ⟨a, ha, hb⟩ := bind_eq_ok_iff.mp h
        obtain rfl := Except.ok.inj hb
        simpa using ha
  · rintro ⟨hlog, ⟨hs, rfl⟩ | ⟨hs, rfl, rfl⟩ | ⟨hs, rfl, ha⟩⟩ <;> refine ⟨(), hlog, ?_⟩
    · simp [hs, pure, Except.pure]
    · simp [hs, pure, Except.pure]
    · simp [hs, ha, bind, Except.bind, pure, Except.pure]

/-- Before the lock, an exception comes from the trace or from the auto-delete test. -/
theorem filterProps_returns_iff {pmDebug : DebugFlags} {includeAutoDelete : Bool}
    {object : Object ObjectId Value} :
    (∃ b, filterProps pmDebug includeAutoDelete object = .ok b) ↔
      (pmDebug.appl2 = true → Nameable object) ∧ (isSupported object.classKey = true →
        includeAutoDelete = false → AutoDeleteReadable pmDebug object) := by
  rw [← isAutoDelete_returns_iff, ← notifyErrIf_ok_iff]
  simp only [filterProps_ok_iff]
  constructor
  · rintro ⟨b, hlog, ⟨hs, -⟩ | ⟨-, hinclude, -⟩ | ⟨-, -, ha⟩⟩
    · exact ⟨hlog, fun hs' => absurd (hs.symm.trans hs') (by simp)⟩
    · exact ⟨hlog, fun _ hexclude => absurd (hinclude.symm.trans hexclude) (by simp)⟩
    · exact ⟨hlog, fun _ _ => ⟨!b, ha⟩⟩
  · rintro ⟨hlog, htest⟩
    cases hs : isSupported object.classKey with
    | false => exact ⟨false, hlog, .inl ⟨rfl, rfl⟩⟩
    | true =>
      cases includeAutoDelete with
      | true => exact ⟨true, hlog, .inr (.inl ⟨rfl, rfl, rfl⟩)⟩
      | false =>
        obtain ⟨b, hb⟩ := htest hs rfl
        exact ⟨!b, hlog, .inr (.inr ⟨rfl, rfl, by simpa using hb⟩)⟩

/-- A call that no exception leaves before the lock saves the properties of the supported
objects that are not auto-delete, or of all supported objects. -/
theorem filterProps_ok {pmDebug : DebugFlags} {includeAutoDelete : Bool}
    {object : Object ObjectId Value} {b : Bool}
    (h : filterProps pmDebug includeAutoDelete object = .ok b) :
    b = (isSupported object.classKey && (includeAutoDelete || !autoDeleteSet object)) := by
  obtain ⟨-, ⟨hs, rfl⟩ | ⟨hs, rfl, rfl⟩ | ⟨hs, rfl, ha⟩⟩ := (filterProps_ok_iff ..).mp h
  · simp [hs]
  · simp [hs]
  · simp [hs, ← isAutoDelete_ok ha]

theorem filterProps_tested {pmDebug : DebugFlags} {object : Object ObjectId Value}
    (h : filterProps pmDebug false object = .ok true) :
    isAutoDelete pmDebug object = .ok false := by
  obtain ⟨-, ⟨-, hfalse⟩ | ⟨-, hinclude, -⟩ | ⟨-, -, ha⟩⟩ := (filterProps_ok_iff ..).mp h
  · exact absurd hfalse (by simp)
  · exact absurd hinclude (by simp)
  · exact ha

theorem filterStats_ok {pmDebug : DebugFlags} {object : Object ObjectId Value} {b : Bool}
    (h : filterStats pmDebug object = .ok b) : b = isSupported object.classKey := by
  obtain ⟨-, -, hb⟩ := bind_eq_ok_iff.mp h
  exact (Except.ok.inj hb).symm

/-- The properties update passes the filter and is saved. -/
def propsSaved (pmDebug : DebugFlags) (includeAutoDelete : Bool)
    (object : Object ObjectId Value) : Bool :=
  filterProps pmDebug includeAutoDelete object matches .ok true

/-- The statistics update passes the test that does not look at the properties. -/
def statsPassed (pmDebug : DebugFlags) (object : Object ObjectId Value) : Bool :=
  filterStats pmDebug object matches .ok true

theorem propsSaved_iff (pmDebug : DebugFlags) (includeAutoDelete : Bool)
    (object : Object ObjectId Value) :
    propsSaved pmDebug includeAutoDelete object = true ↔
      filterProps pmDebug includeAutoDelete object = .ok true := by
  unfold propsSaved
  split <;> simp_all

theorem propsSaved_supported {pmDebug : DebugFlags} {includeAutoDelete : Bool}
    {object : Object ObjectId Value} (h : propsSaved pmDebug includeAutoDelete object = true) :
    isSupported object.classKey = true := by
  have hok := filterProps_ok ((propsSaved_iff ..).mp h)
  simp only [Bool.true_eq, Bool.and_eq_true] at hok
  exact hok.1

variable [DecidableEq ObjectId]

omit [ConsoleValue Value ObjectId] [ToString ObjectId] in
theorem lookup_insert_isSome {props : ObjectMap ObjectId Value} (object : Object ObjectId Value)
    (x : ObjectId) : ((props.insert object.objectId object).lookup x).isSome =
      (x = object.objectId ∨ (props.lookup x).isSome : Bool) := by
  by_cases hx : x = object.objectId
  · subst hx; simp
  · simp [hx, Finmap.lookup_insert_of_ne _ hx]

/-- A first properties update is announced unless the log text of the new object raises. -/
def announces (object : Object ObjectId Value) (l : ConsoleListener ObjectId Value) : Bool :=
  (l.props.lookup object.objectId).isNone && (toStringObject object false matches .ok _)

theorem saveProps_listener (object : Object ObjectId Value) (l : ConsoleListener ObjectId Value) :
    (saveProps object l).2 = { l with
      props := l.props.insert object.objectId object
      newObjects := l.newObjects ++ if announces object l then [object.objectId] else [] } := by
  unfold saveProps announces
  cases hl : l.props.lookup object.objectId with
  | some known => simp
  | none => cases toStringObject object false <;> simp [notifyErrIf, Except.map]

/-- A properties update writes the entry of its object and may announce it, or does nothing. -/
theorem objectProps_listener (pmDebug : DebugFlags) (object : Object ObjectId Value)
    (l : ConsoleListener ObjectId Value) :
    (objectProps pmDebug object l).2 =
      if propsSaved pmDebug l.includeAutoDelete object then { l with
        props := l.props.insert object.objectId object
        newObjects := l.newObjects ++ if announces object l then [object.objectId] else [] }
      else l := by
  unfold objectProps propsSaved
  cases filterProps pmDebug l.includeAutoDelete object with
  | error e => simp
  | ok b => cases b <;> simp [saveProps_listener]

@[simp] theorem objectProps_includeAutoDelete (pmDebug : DebugFlags)
    (object : Object ObjectId Value) (l : ConsoleListener ObjectId Value) :
    (objectProps pmDebug object l).2.includeAutoDelete = l.includeAutoDelete := by
  rw [objectProps_listener]
  split_ifs <;> rfl

@[simp] theorem objectProps_stats (pmDebug : DebugFlags) (object : Object ObjectId Value)
    (l : ConsoleListener ObjectId Value) : (objectProps pmDebug object l).2.stats = l.stats := by
  rw [objectProps_listener]
  split_ifs <;> rfl

theorem objectProps_props (pmDebug : DebugFlags) (object : Object ObjectId Value)
    (l : ConsoleListener ObjectId Value) :
    (objectProps pmDebug object l).2.props =
      if propsSaved pmDebug l.includeAutoDelete object then
        l.props.insert object.objectId object else l.props := by
  rw [objectProps_listener]
  split_ifs <;> rfl

theorem objectProps_kept (pmDebug : DebugFlags) (object : Object ObjectId Value)
    {l : ConsoleListener ObjectId Value} {x : ObjectId} (h : (l.getProps x).isSome) :
    ((objectProps pmDebug object l).2.getProps x).isSome := by
  rw [getProps, objectProps_props]
  split_ifs
  · rw [lookup_insert_isSome]
    exact decide_eq_true (.inr h)
  · exact h

theorem objectProps_getProps {pmDebug : DebugFlags} {object stored : Object ObjectId Value}
    {l : ConsoleListener ObjectId Value} {x : ObjectId}
    (h : (objectProps pmDebug object l).2.getProps x = some stored) :
    l.getProps x = some stored ∨
      propsSaved pmDebug l.includeAutoDelete object = true ∧ x = object.objectId ∧
        stored = object := by
  rw [getProps, objectProps_props] at h
  split_ifs at h with hsaved
  · by_cases hx : x = object.objectId
    · subst hx
      rw [Finmap.lookup_insert] at h
      exact .inr ⟨hsaved, rfl, (Option.some.inj h).symm⟩
    · rw [Finmap.lookup_insert_of_ne _ hx] at h
      exact .inl h
  · exact .inl h

theorem objectProps_queued {pmDebug : DebugFlags} {object : Object ObjectId Value}
    {l : ConsoleListener ObjectId Value} {x : ObjectId}
    (h : x ∈ (objectProps pmDebug object l).2.newObjects) :
    x ∈ l.newObjects ∨ ((objectProps pmDebug object l).2.getProps x).isSome := by
  rw [objectProps_listener] at h ⊢
  split_ifs at h ⊢ with hsaved hannounced
  · rcases List.mem_append.mp h with h | h
    · exact .inl h
    · obtain rfl := List.mem_singleton.mp h
      exact .inr (by simp [getProps])
  · simp only [List.append_nil] at h
    exact .inl h
  · exact .inl h

theorem objectProps_queue_kept (pmDebug : DebugFlags) (object : Object ObjectId Value)
    {l : ConsoleListener ObjectId Value} {x : ObjectId} (h : x ∈ l.newObjects) :
    x ∈ (objectProps pmDebug object l).2.newObjects := by
  rw [objectProps_listener]
  split_ifs
  · exact List.mem_append_left _ h
  · exact List.mem_append_left _ h
  · exact h

theorem objectProps_announced {pmDebug : DebugFlags} {object : Object ObjectId Value}
    (hlog : ∃ text, toStringObject object false = .ok text) {l : ConsoleListener ObjectId Value}
    (hsaved : propsSaved pmDebug l.includeAutoDelete object = true) :
    (∃ known, l.getProps object.objectId = some known) ∨
      object.objectId ∈ (objectProps pmDebug object l).2.newObjects := by
  cases hknown : l.getProps object.objectId with
  | some known => exact .inl ⟨known, rfl⟩
  | none =>
    obtain ⟨text, htext⟩ := hlog
    have hnew : l.props.lookup object.objectId = none := hknown
    exact .inr (by rw [objectProps_listener]; simp [hsaved, announces, hnew, htext])

/-- The statistics update is saved in this state. -/
def statsSaved (pmDebug : DebugFlags) (object : Object ObjectId Value)
    (l : ConsoleListener ObjectId Value) : Bool :=
  statsPassed pmDebug object &&
    (l.includeAutoDelete || (checkProps pmDebug object l matches .ok true))

/-- A statistics update writes the entry of its object, or nothing at all. -/
theorem objectStats_listener (pmDebug : DebugFlags) (object : Object ObjectId Value)
    (l : ConsoleListener ObjectId Value) :
    (objectStats pmDebug object l).2 =
      if statsSaved pmDebug object l then saveStats object l else l := by
  unfold objectStats statsSaved statsPassed
  cases filterStats pmDebug object with
  | error e => simp
  | ok b =>
    cases b with
    | false => simp
    | true =>
      cases hi : l.includeAutoDelete with
      | true => simp
      | false =>
        cases checkProps pmDebug object l with
        | error e => simp
        | ok c => cases c <;> simp

@[simp] theorem objectStats_includeAutoDelete (pmDebug : DebugFlags)
    (object : Object ObjectId Value) (l : ConsoleListener ObjectId Value) :
    (objectStats pmDebug object l).2.includeAutoDelete = l.includeAutoDelete := by
  rw [objectStats_listener]
  split_ifs <;> rfl

@[simp] theorem objectStats_props (pmDebug : DebugFlags) (object : Object ObjectId Value)
    (l : ConsoleListener ObjectId Value) : (objectStats pmDebug object l).2.props = l.props := by
  rw [objectStats_listener]
  split_ifs <;> rfl

@[simp] theorem objectStats_newObjects (pmDebug : DebugFlags) (object : Object ObjectId Value)
    (l : ConsoleListener ObjectId Value) :
    (objectStats pmDebug object l).2.newObjects = l.newObjects := by
  rw [objectStats_listener]
  split_ifs <;> rfl

/-- Stored properties that passed the auto-delete test never stop a statistics update. -/
theorem checkProps_known {pmDebug : DebugFlags} {object props : Object ObjectId Value}
    {l : ConsoleListener ObjectId Value} (hl : l.props.lookup object.objectId = some props)
    (hp : isAutoDelete pmDebug props = .ok false) : checkProps pmDebug object l = .ok true := by
  simp [checkProps, hl, hp, bind, Except.bind, pure, Except.pure]

/-- Without properties a statistics update is dropped, whatever becomes of the log text. -/
theorem checkProps_unknown {pmDebug : DebugFlags} {object : Object ObjectId Value}
    {l : ConsoleListener ObjectId Value} (hl : l.props.lookup object.objectId = none) :
    checkProps pmDebug object l ≠ .ok true := by
  intro h
  simp only [checkProps, hl] at h
  obtain ⟨-, -, hb⟩ := bind_eq_ok_iff.mp h
  exact absurd (Except.ok.inj hb) (by decide)

/-- While auto-delete objects are left out, stored properties passed the auto-delete test. -/
def PropsTested (pmDebug : DebugFlags) (l : ConsoleListener ObjectId Value) : Prop :=
  l.includeAutoDelete = false →
    ∀ x object, l.props.lookup x = some object → isAutoDelete pmDebug object = .ok false

theorem propsTested_start (pmDebug : DebugFlags) (includeAutoDelete : Bool) :
    PropsTested pmDebug (start includeAutoDelete : ConsoleListener ObjectId Value) := by
  intro _ x object h
  simp [start, setIncludeAutoDelete, new] at h

theorem propsTested_objectProps {pmDebug : DebugFlags} (object : Object ObjectId Value)
    {l : ConsoleListener ObjectId Value} (h : PropsTested pmDebug l) :
    PropsTested pmDebug (objectProps pmDebug object l).2 := by
  intro hi x stored hs
  rw [objectProps_includeAutoDelete] at hi
  rcases objectProps_getProps hs with hold | ⟨hsaved, rfl, rfl⟩
  · exact h hi x stored hold
  · rw [hi] at hsaved
    exact filterProps_tested ((propsSaved_iff ..).mp hsaved)

theorem statsSaved_eq {pmDebug : DebugFlags} {l : ConsoleListener ObjectId Value}
    (h : PropsTested pmDebug l) (object : Object ObjectId Value) :
    statsSaved pmDebug object l =
      (statsPassed pmDebug object &&
        (l.includeAutoDelete || (l.props.lookup object.objectId).isSome)) := by
  unfold statsSaved
  cases hi : l.includeAutoDelete with
  | true => simp
  | false =>
    cases hl : l.props.lookup object.objectId with
    | none =>
      have hc : checkProps pmDebug object l ≠ .ok true := checkProps_unknown hl
      cases hcheck : checkProps pmDebug object l with
      | error e => simp
      | ok b => cases b <;> simp_all
    | some props => simp [checkProps_known hl (h hi _ _ hl)]

end ConsoleListener

end QpidPmda.Qmf1
