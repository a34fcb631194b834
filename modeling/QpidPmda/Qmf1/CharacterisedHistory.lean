import QpidPmda.Qmf1.ListenerHistory

/-! # When the maps are what the updates say

An update says by its class and its autoDelete attribute whether it is to be
saved. The listener saves it unless an exception comes first: each text that is
built on the way reads the name of the object, the notice about an attribute
that is no boolean among them. So the maps follow from what the updates say
exactly when no such text stands between the last update of an object and the
map, or between its statistics and all of its properties before them.
-/

namespace QpidPmda.Qmf1
open Qpid Pcp ConsoleUtils ConsoleValue Foundations ConsoleListener

namespace ListenerCall
variable {ObjectId Value : Type} [ConsoleValue Value ObjectId] [ToString ObjectId]

/-- The properties are of a supported class, and not auto-delete unless such objects are
included. -/
def propsWanted (includeAutoDelete : Bool) (object : Object ObjectId Value) : Bool :=
  isSupported object.classKey && (includeAutoDelete || !autoDeleteSet object)

/-- No text that the update builds before the lock raises. -/
structure PropsReadable (pmDebug : DebugFlags) (includeAutoDelete : Bool)
    (object : Object ObjectId Value) : Prop where
  traced : pmDebug.appl2 = true → Nameable object
  tested : includeAutoDelete = false → AutoDeleteReadable pmDebug object

/-- Properties are saved when they are wanted and can be read. -/
theorem propsSaved_iff_wanted {pmDebug : DebugFlags} {includeAutoDelete : Bool}
    {object : Object ObjectId Value} :
    propsSaved pmDebug includeAutoDelete object = true ↔
      propsWanted includeAutoDelete object = true ∧
        PropsReadable pmDebug includeAutoDelete object := by
  rw [propsSaved_iff]
  constructor
  · intro h
    have hwanted : propsWanted includeAutoDelete object = true := (filterProps_ok h).symm
    obtain ⟨htraced, htested⟩ := filterProps_returns_iff.mp ⟨true, h⟩
    obtain ⟨hsupported, -⟩ := (Bool.and_eq_true _ _).mp hwanted
    exact ⟨hwanted, htraced, htested hsupported⟩
  · rintro ⟨hwanted, hreadable⟩
    obtain ⟨b, hb⟩ := filterProps_returns_iff.mpr ⟨hreadable.traced, fun _ => hreadable.tested⟩
    rw [hb, filterProps_ok hb]
    exact congrArg Except.ok hwanted

theorem statsPassed_iff {pmDebug : DebugFlags} {object : Object ObjectId Value} :
    statsPassed pmDebug object = true ↔
      isSupported object.classKey = true ∧ (pmDebug.appl2 = true → Nameable object) := by
  have hpassed : statsPassed pmDebug object = true ↔ filterStats pmDebug object = .ok true := by
    unfold statsPassed
    split <;> simp_all
  rw [hpassed]
  constructor
  · intro h
    obtain ⟨⟨⟩, hlog, -⟩ := bind_eq_ok_iff.mp h
    exact ⟨(filterStats_ok h).symm, notifyErrIf_ok_iff.mp hlog⟩
  · rintro ⟨hsupported, hname⟩
    exact bind_eq_ok_iff.mpr
      ⟨(), notifyErrIf_ok_iff.mpr hname, congrArg Except.ok hsupported⟩

variable [DecidableEq ObjectId]

/-- The properties that the call brings for `x`, if they are wanted. -/
def wantedFor (includeAutoDelete : Bool) (x : ObjectId) :
    ListenerCall ObjectId Value → Option (Object ObjectId Value)
  | .objectProps object =>
    if object.objectId = x ∧ propsWanted includeAutoDelete object then some object else none
  | _ => none

/-- The statistics that the call brings for `x`, if their class is supported. -/
def offeredFor (x : ObjectId) : ListenerCall ObjectId Value → Option (Object ObjectId Value)
  | .objectStats object =>
    if object.objectId = x ∧ isSupported object.classKey then some object else none
  | _ => none

/-- The calls from the first wanted properties of `x` on, or all calls when auto-delete objects are
included. -/
def sinceWanted (includeAutoDelete : Bool) (x : ObjectId)
    (calls : List (ListenerCall ObjectId Value)) : List (ListenerCall ObjectId Value) :=
  if includeAutoDelete then calls
  else sinceFirst (fun call => (wantedFor includeAutoDelete x call).isSome) calls

/-- The entries of every object are what the updates say, so none is auto-delete and statistics come
with properties, and they depend on the updates of this object only. -/
structure Characterised (pmDebug : DebugFlags) (includeAutoDelete : Bool)
    (calls : List (ListenerCall ObjectId Value)) : Prop where
  props : ∀ x, (history pmDebug includeAutoDelete calls).getProps x =
    lastOf (wantedFor includeAutoDelete x) calls
  stats : ∀ x, (history pmDebug includeAutoDelete calls).getStats x =
    lastOf (offeredFor x) (sinceWanted includeAutoDelete x calls)
  notAutoDelete : includeAutoDelete = false → ∀ x object,
    (history pmDebug includeAutoDelete calls).getProps x = some object →
      autoDeleteSet object = false
  known : includeAutoDelete = false → ∀ x,
    ((history pmDebug includeAutoDelete calls).getStats x).isSome →
      ((history pmDebug includeAutoDelete calls).getProps x).isSome
  own : ∀ x, (history pmDebug includeAutoDelete (calls.filter (isAbout x))).getProps x =
      (history pmDebug includeAutoDelete calls).getProps x ∧
    (history pmDebug includeAutoDelete (calls.filter (isAbout x))).getStats x =
      (history pmDebug includeAutoDelete calls).getStats x
  reordered : ∀ calls', (∀ x, calls'.filter (isAbout x) = calls.filter (isAbout x)) →
    (history pmDebug includeAutoDelete calls').props =
        (history pmDebug includeAutoDelete calls).props ∧
      (history pmDebug includeAutoDelete calls').stats =
        (history pmDebug includeAutoDelete calls).stats

/-- Supported statistics of `x` come after properties of `x` that meet the condition. -/
def StatsAfter (condition : Object ObjectId Value → Prop) (x : ObjectId)
    (calls : List (ListenerCall ObjectId Value)) : Prop :=
  ∃ before object rest stats, calls = before ++ .objectProps object :: rest ∧
    object.objectId = x ∧ condition object ∧
    .objectStats stats ∈ rest ∧ stats.objectId = x ∧ isSupported stats.classKey = true

/-- The last wanted properties of `x` and the last statistics that count can be read, and if any
statistics count, some of them come after properties that can be read. -/
structure Readable (pmDebug : DebugFlags) (includeAutoDelete : Bool)
    (calls : List (ListenerCall ObjectId Value)) (x : ObjectId) : Prop where
  props : ∀ object, lastOf (wantedFor includeAutoDelete x) calls = some object →
    PropsReadable pmDebug includeAutoDelete object
  stats : ∀ object, lastOf (offeredFor x) (sinceWanted includeAutoDelete x calls) = some object →
    pmDebug.appl2 = true → Nameable object
  known : includeAutoDelete = false → StatsAfter (propsWanted false · = true) x calls →
    StatsAfter (fun object => propsWanted false object = true ∧ PropsReadable pmDebug false object)
      x calls

variable {pmDebug : DebugFlags} {includeAutoDelete : Bool} {x : ObjectId}

omit [ToString ObjectId] in
theorem wantedFor_eq_some_iff {call : ListenerCall ObjectId Value}
    {object : Object ObjectId Value} :
    wantedFor includeAutoDelete x call = some object ↔ call = .objectProps object ∧
      object.objectId = x ∧ propsWanted includeAutoDelete object = true := by
  cases call with
  | objectProps known =>
    rw [wantedFor, objectProps.injEq]
    exact ite_some_eq_some_iff fun known : Object ObjectId Value => known.objectId = x ∧
      propsWanted includeAutoDelete known = true
  | _ => simp [wantedFor]

omit [ConsoleValue Value ObjectId] [ToString ObjectId] in
theorem offeredFor_eq_some_iff {call : ListenerCall ObjectId Value}
    {stats : Object ObjectId Value} :
    offeredFor x call = some stats ↔ call = .objectStats stats ∧ stats.objectId = x ∧
      isSupported stats.classKey = true := by
  cases call with
  | objectStats known =>
    rw [offeredFor, objectStats.injEq]
    exact ite_some_eq_some_iff fun known : Object ObjectId Value => known.objectId = x ∧
      isSupported known.classKey = true
  | _ => simp [offeredFor]

theorem propsFor_eq_filter (call : ListenerCall ObjectId Value) :
    propsFor pmDebug includeAutoDelete x call =
      (wantedFor includeAutoDelete x call).filter (propsSaved pmDebug includeAutoDelete) := by
  ext object
  rw [propsFor_eq_some_iff, Option.filter_eq_some_iff, wantedFor_eq_some_iff]
  constructor
  · rintro ⟨hcall, hx, hsaved⟩
    exact ⟨⟨hcall, hx, (propsSaved_iff_wanted.mp hsaved).1⟩, hsaved⟩
  · rintro ⟨⟨hcall, hx, -⟩, hsaved⟩
    exact ⟨hcall, hx, hsaved⟩

theorem statsFor_eq_filter (call : ListenerCall ObjectId Value) :
    statsFor pmDebug x call = (offeredFor x call).filter (statsPassed pmDebug) := by
  ext object
  rw [statsFor_eq_some_iff, Option.filter_eq_some_iff, offeredFor_eq_some_iff]
  constructor
  · rintro ⟨hcall, hx, hpassed⟩
    exact ⟨⟨hcall, hx, (statsPassed_iff.mp hpassed).1⟩, hpassed⟩
  · rintro ⟨⟨hcall, hx, -⟩, hpassed⟩
    exact ⟨hcall, hx, hpassed⟩

omit [ConsoleValue Value ObjectId] [ToString ObjectId] in
/-- Of a history since the first properties of a kind, the statistics are those after them. -/
theorem statsAfter_iff {condition : Object ObjectId Value → Prop}
    {first : ListenerCall ObjectId Value → Bool}
    (hfirst : ∀ call, first call = true ↔ ∃ object, call = .objectProps object ∧
      object.objectId = x ∧ condition object) (calls : List (ListenerCall ObjectId Value)) :
    (∃ call ∈ sinceFirst first calls, (offeredFor x call).isSome) ↔
      StatsAfter condition x calls := by
  rw [exists_mem_sinceFirst_iff]
  constructor
  · rintro ⟨before, call, rest, hsplit, hcall, later, hlater, hoffered⟩
    obtain ⟨object, rfl, hx, hobject⟩ := (hfirst call).mp hcall
    obtain ⟨stats, hsome⟩ := Option.isSome_iff_exists.mp hoffered
    obtain ⟨rfl, hstats⟩ := offeredFor_eq_some_iff.mp hsome
    have hrest : .objectStats stats ∈ rest := by simpa using hlater
    exact ⟨before, object, rest, stats, hsplit, hx, hobject, hrest, hstats⟩
  · rintro ⟨before, object, rest, stats, hsplit, hx, hobject, hrest, hstats⟩
    exact ⟨before, _, rest, hsplit, (hfirst _).mpr ⟨object, rfl, hx, hobject⟩, _,
      List.mem_cons_of_mem _ hrest,
      Option.isSome_of_eq_some (offeredFor_eq_some_iff.mpr ⟨rfl, hstats⟩)⟩

theorem getProps_characterised_iff (calls : List (ListenerCall ObjectId Value)) :
    (history pmDebug includeAutoDelete calls).getProps x =
        lastOf (wantedFor includeAutoDelete x) calls ↔
      ∀ object, lastOf (wantedFor includeAutoDelete x) calls = some object →
        PropsReadable pmDebug includeAutoDelete object := by
  rw [history_getProps, lastOf_filtered_iff propsFor_eq_filter]
  refine forall₂_congr fun object hobject => ?_
  obtain ⟨call, -, hcall⟩ := exists_of_lastOf_eq_some hobject
  obtain ⟨-, -, hwanted⟩ := wantedFor_eq_some_iff.mp hcall
  rw [propsSaved_iff_wanted, and_iff_right hwanted]

theorem sinceKnown_suffix (calls : List (ListenerCall ObjectId Value)) :
    sinceKnown pmDebug includeAutoDelete x calls <:+ sinceWanted includeAutoDelete x calls := by
  unfold sinceKnown sinceWanted
  split_ifs
  · exact List.suffix_rfl
  · refine sinceFirst_suffix_of_imp (fun call hsaved => ?_) calls
    obtain ⟨object, hobject⟩ := Option.isSome_iff_exists.mp hsaved
    rw [propsFor_eq_filter, Option.filter_eq_some_iff] at hobject
    exact Option.isSome_of_eq_some hobject.1

theorem exists_statsFor_iff (calls : List (ListenerCall ObjectId Value)) :
    ((∃ call ∈ sinceWanted includeAutoDelete x calls, (offeredFor x call).isSome) →
        ∃ call ∈ sinceKnown pmDebug includeAutoDelete x calls, (offeredFor x call).isSome) ↔
      (includeAutoDelete = false → StatsAfter (propsWanted false · = true) x calls →
        StatsAfter (fun object => propsWanted false object = true ∧
          PropsReadable pmDebug false object) x calls) := by
  cases includeAutoDelete with
  | true => exact iff_of_true id (by simp)
  | false =>
    have hwanted (call : ListenerCall ObjectId Value) : (wantedFor false x call).isSome = true ↔
        ∃ object, call = .objectProps object ∧ object.objectId = x ∧
          propsWanted false object = true := by
      simp only [Option.isSome_iff_exists, wantedFor_eq_some_iff]
    have hsaved (call : ListenerCall ObjectId Value) :
        (propsFor pmDebug false x call).isSome = true ↔
          ∃ object, call = .objectProps object ∧ object.objectId = x ∧
            (propsWanted false object = true ∧ PropsReadable pmDebug false object) := by
      simp only [Option.isSome_iff_exists, propsFor_eq_some_iff, propsSaved_iff_wanted]
    simp only [sinceWanted, sinceKnown, Bool.false_eq_true, if_false, statsAfter_iff hwanted,
      statsAfter_iff hsaved, true_implies]

theorem getStats_characterised_iff (calls : List (ListenerCall ObjectId Value)) :
    (history pmDebug includeAutoDelete calls).getStats x =
        lastOf (offeredFor x) (sinceWanted includeAutoDelete x calls) ↔
      (∀ object, lastOf (offeredFor x) (sinceWanted includeAutoDelete x calls) = some object →
        pmDebug.appl2 = true → Nameable object) ∧
      (includeAutoDelete = false → StatsAfter (propsWanted false · = true) x calls →
        StatsAfter (fun object => propsWanted false object = true ∧
          PropsReadable pmDebug false object) x calls) := by
  rw [history_getStats, lastOf_filtered_suffix_iff statsFor_eq_filter (sinceKnown_suffix calls),
    exists_statsFor_iff]
  refine and_congr (forall₂_congr fun object hobject => ?_) Iff.rfl
  obtain ⟨call, -, hcall⟩ := exists_of_lastOf_eq_some hobject
  obtain ⟨-, -, hsupported⟩ := offeredFor_eq_some_iff.mp hcall
  rw [statsPassed_iff, and_iff_right hsupported]

/-- The maps are what the updates say exactly when the updates of every object can be read as far as
its entries depend on them. -/
theorem history_characterised_iff (pmDebug : DebugFlags) (includeAutoDelete : Bool)
    (calls : List (ListenerCall ObjectId Value)) :
    Characterised pmDebug includeAutoDelete calls ↔
      ∀ x, Readable pmDebug includeAutoDelete calls x := by
  constructor
  · intro h x
    obtain ⟨hstats, hknown⟩ := (getStats_characterised_iff calls).mp (h.stats x)
    exact ⟨(getProps_characterised_iff calls).mp (h.props x), hstats, hknown⟩
  · intro h
    refine ⟨fun x => (getProps_characterised_iff calls).mpr (h x).props,
      fun x => (getStats_characterised_iff calls).mpr ⟨(h x).stats, (h x).known⟩, ?_, ?_,
      history_filter pmDebug includeAutoDelete calls,
      fun calls' => history_reorder pmDebug includeAutoDelete⟩
    · rintro rfl x object
      exact history_not_autoDelete pmDebug calls
    · rintro rfl x
      exact history_stats_known pmDebug calls

/-- A queue whose name is a number and whose autoDelete is a string: the notice about the latter
raises, and the update is not saved. -/
theorem history_wanted_not_saved : ¬ Characterised ⟨false, false⟩ false
    [.objectProps (brokerObject "queue" 1 [("name", .uint 7), ("autoDelete", .string "no")])] := by
  intro h
  exact absurd (congrArg Option.isSome (h.props 1)) (by decide)

end ListenerCall

end QpidPmda.Qmf1
