import QpidPmda.Qmf1.InstanceIntegrity

/-! # The order in which objects are registered

The listener announces an object once, with the first update that is saved for
it, and the loop of `begin_fetch_values` takes the announcements in their order.
So the ids of the trace, the id in hand and the queue together are the
announcements, each of them once: no object is registered a second time, and of
the objects that share an instance the cache shows the one announced last.
-/

namespace QpidPmda.Qmf1
open Qpid Pcp ConsoleUtils ConsoleValue Foundations ConsoleListener

namespace ListenerCall
variable {ObjectId Value : Type} [ConsoleValue Value ObjectId] [ToString ObjectId]

/-- The properties object that the call saves, if any. -/
def savedProps (pmDebug : DebugFlags) (includeAutoDelete : Bool) :
    ListenerCall ObjectId Value → Option (Object ObjectId Value)
  | .objectProps object => if propsSaved pmDebug includeAutoDelete object then some object else none
  | _ => none

/-- The message about the new object can be built. -/
def loggable (object : Object ObjectId Value) : Bool :=
  toStringObject object false matches .ok _

variable [DecidableEq ObjectId]

/-- The objects of the calls, in the order of their first saved updates. One whose first saved
update could not be logged is left out for good. -/
def announced (pmDebug : DebugFlags) (includeAutoDelete : Bool)
    (calls : List (ListenerCall ObjectId Value)) : List ObjectId :=
  ((firsts (·.objectId) (calls.filterMap (savedProps pmDebug includeAutoDelete))).filter
    loggable).map (·.objectId)

theorem announces_eq (object : Object ObjectId Value) (l : ConsoleListener ObjectId Value) :
    announces object l = ((l.getProps object.objectId).isNone && loggable object) := by
  unfold announces loggable getProps
  cases toStringObject object false <;> rfl

variable {pmDebug : DebugFlags} {includeAutoDelete : Bool}

theorem propsFor_eq_savedProps (x : ObjectId) (call : ListenerCall ObjectId Value) :
    propsFor pmDebug includeAutoDelete x call =
      (savedProps pmDebug includeAutoDelete call).filter (·.objectId = x) := by
  cases call with
  | objectProps object =>
    by_cases hx : object.objectId = x <;>
      cases hs : propsSaved pmDebug includeAutoDelete object <;>
      simp [propsFor, savedProps, hx, hs, Option.filter]
  | _ => rfl

theorem history_isNone (calls : List (ListenerCall ObjectId Value)) (x : ObjectId) :
    ((history pmDebug includeAutoDelete calls).getProps x).isNone =
      decide (x ∉ (calls.filterMap (savedProps pmDebug includeAutoDelete)).map (·.objectId)) := by
  rw [history_getProps, Bool.eq_iff_iff, decide_eq_true_iff, Option.isNone_iff_eq_none,
    lastOf_eq_none_iff]
  simp only [propsFor_eq_savedProps, Option.filter_eq_none_iff, List.mem_map, List.mem_filterMap]
  constructor
  · rintro hnone ⟨object, ⟨call, hcall, hobject⟩, rfl⟩
    exact hnone call hcall object hobject (by simp)
  · intro hnone call hcall object hobject
    have hne : object.objectId ≠ x := fun hx => hnone ⟨object, ⟨call, hcall, hobject⟩, hx⟩
    simpa using hne

theorem announced_concat (calls : List (ListenerCall ObjectId Value))
    (call : ListenerCall ObjectId Value) :
    announced pmDebug includeAutoDelete (calls ++ [call]) =
      announced pmDebug includeAutoDelete calls ++
        match savedProps pmDebug includeAutoDelete call with
        | none => []
        | some object =>
          if ((history pmDebug includeAutoDelete calls).getProps object.objectId).isNone &&
            loggable object then [object.objectId] else [] := by
  unfold announced
  rw [List.filterMap_append]
  cases hsaved : savedProps pmDebug includeAutoDelete call with
  | none => simp [hsaved]
  | some object =>
    have hone : [call].filterMap (savedProps pmDebug includeAutoDelete) = [object] := by
      simp [hsaved]
    rw [hone, firsts_concat, List.filter_append, List.map_append]
    simp only [history_isNone]
    by_cases hfound : object.objectId ∈
        (calls.filterMap (savedProps pmDebug includeAutoDelete)).map (·.objectId)
    · simp [hfound]
    · rw [if_neg hfound, decide_eq_true hfound]
      cases hlog : loggable object <;> simp [hlog]

/-- While no id is taken from it, the queue holds the announcements. -/
theorem history_newObjects {calls : List (ListenerCall ObjectId Value)}
    (h : ∀ call ∈ calls, call ≠ .getNewObjectId) :
    (history pmDebug includeAutoDelete calls).newObjects =
      announced pmDebug includeAutoDelete calls := by
  induction calls using List.reverseRecOn with
  | nil => rfl
  | append_singleton calls call ih =>
    rw [history_concat, announced_concat,
      ← ih fun known hknown => h known (List.mem_append_left _ hknown)]
    cases call with
    | objectProps object =>
      rw [exec, objectProps_listener, history_includeAutoDelete, savedProps]
      cases propsSaved pmDebug includeAutoDelete object <;> simp [announces_eq]
    | objectStats object => simp [exec, savedProps]
    | getNewObjectId => exact absurd rfl (h _ (by simp))

theorem nodup_announced (calls : List (ListenerCall ObjectId Value)) :
    (announced pmDebug includeAutoDelete calls).Nodup := by
  have hsublist : (announced pmDebug includeAutoDelete calls).Sublist
      ((firsts (·.objectId) (calls.filterMap (savedProps pmDebug includeAutoDelete))).map
        (·.objectId)) := List.filter_sublist.map _
  exact (nodup_firsts _ _).sublist hsublist

/-- The objects that the listener knows, in the order of their first saved updates. -/
def discovered (pmDebug : DebugFlags) (includeAutoDelete : Bool)
    (calls : List (ListenerCall ObjectId Value)) : List ObjectId :=
  (firsts (·.objectId) (calls.filterMap (savedProps pmDebug includeAutoDelete))).map (·.objectId)

theorem mem_discovered (calls : List (ListenerCall ObjectId Value)) (x : ObjectId) :
    x ∈ discovered pmDebug includeAutoDelete calls ↔
      ((history pmDebug includeAutoDelete calls).getProps x).isSome := by
  rw [discovered, mem_map_firsts, ← Option.not_isNone, history_isNone]
  simp

theorem announced_eq_discovered {calls : List (ListenerCall ObjectId Value)}
    (h : ∀ object ∈ calls.filterMap (savedProps pmDebug includeAutoDelete),
      loggable object = true) :
    announced pmDebug includeAutoDelete calls = discovered pmDebug includeAutoDelete calls := by
  unfold announced discovered
  rw [List.filter_eq_self.mpr fun object hobject => h object (mem_of_mem_firsts _ hobject)]

end ListenerCall

/-- The id that the call under way took from the queue. -/
def Progress.inHand {ObjectId Value : Type} : Progress ObjectId Value → Option ObjectId
  | .popped objectId => some objectId
  | .fetched objectId _ => some objectId
  | _ => none

namespace System
variable {ObjectId Value : Type} {P : Library ObjectId} [ConsoleValue Value ObjectId]
  [ToString ObjectId] [DecidableEq ObjectId] {pmDebug : DebugFlags} {includeAutoDelete : Bool}

/-- The ids that left the listener's hands, and those that still wait, in their order. -/
def taken (s : System P Value) : List ObjectId :=
  s.trace.map Prod.fst ++ s.progress.inHand.toList ++ s.pmda.listener.newObjects

/-- The steps of the PMDA's thread pass the ids on, and a saved update may add one. -/
theorem taken_exec (action : Action ObjectId Value) (s : System P Value) :
    (exec pmDebug action s).taken = s.taken ++
      match action with
      | .objectProps object =>
        if propsSaved pmDebug s.pmda.listener.includeAutoDelete object &&
          announces object s.pmda.listener then [object.objectId] else []
      | _ => [] := by
  have hdoes := exec_does pmDebug action s
  generalize exec pmDebug action s = s' at hdoes
  cases hdoes with
  | objectProps object =>
    simp only [taken, withListener, objectProps_listener]
    cases hs : propsSaved pmDebug s.pmda.listener.includeAutoDelete object <;> simp
  | objectStats object => simp [taken, withListener]
  | begun hidle => simp [taken, hidle, Progress.inHand]
  | nothing action hu =>
    cases action with
    | objectProps object => exact absurd hu (by simp [updates])
    | _ => simp
  | drained hlooping hq => simp [taken, hlooping, Progress.inHand]
  | popped objectId rest hlooping hq =>
    simp [taken, withListener, hlooping, hq, Progress.inHand]
  | fetched objectId hpopped => simp [taken, hpopped, Progress.inHand]
  | ended objectId props exit pmda hfetched hr =>
    have hnone : (if exit.leaves.isNone then Progress.looping else .idle :
        Progress ObjectId Value).inHand = none := by split_ifs <;> rfl
    rw [taken, hnone, hr.listener]
    simp [taken, hfetched, Progress.inHand]

/-- The ids of the iterations, the id in hand and the queue are the announcements. -/
theorem taken_after (actions : List (Action ObjectId Value)) :
    (after P pmDebug includeAutoDelete actions).taken =
      ListenerCall.announced pmDebug includeAutoDelete (updates actions) := by
  induction actions using List.reverseRecOn with
  | nil => rfl
  | append_singleton actions action ih =>
    rw [after_concat, taken_exec, ih, updates_concat]
    cases action with
    | objectProps object =>
      obtain ⟨hinclude, hprops, -⟩ :
          SameMaps (after P pmDebug includeAutoDelete actions).pmda.listener
            (ListenerCall.history pmDebug includeAutoDelete (updates actions)) :=
        after_sameMaps actions
      rw [hinclude, ListenerCall.history_includeAutoDelete]
      have hone : updates [Action.objectProps object] = [.objectProps object] := rfl
      rw [hone, ListenerCall.announced_concat]
      cases hs : propsSaved pmDebug includeAutoDelete object <;>
        simp [ListenerCall.savedProps, hs, ListenerCall.announces_eq, getProps, hprops]
    | objectStats object =>
      have hone : updates [Action.objectStats object] = [.objectStats object] := rfl
      rw [hone, ListenerCall.announced_concat]
      rfl
    | _ => simp [updates]

omit [ConsoleValue Value ObjectId] [ToString ObjectId] [DecidableEq ObjectId] in
theorem nodup_trace {s : System P Value} (h : s.taken.Nodup) :
    (s.trace.map Prod.fst).Nodup := by
  rw [taken, List.append_assoc] at h
  exact (List.nodup_append.mp h).1

omit [ConsoleValue Value ObjectId] [ToString ObjectId] [DecidableEq ObjectId] in
theorem exit_unique {s : System P Value} (h : s.taken.Nodup) {x : ObjectId}
    {exit exit' : IterationExit ObjectId Value} (hexit : (x, exit) ∈ s.trace)
    (hexit' : (x, exit') ∈ s.trace) : exit = exit' :=
  congrArg Prod.snd (List.inj_on_of_nodup_map (nodup_trace h) hexit hexit' rfl)

omit [ToString ObjectId] in
/-- The last registration of an instance is that of the object taken last. -/
theorem idxOf_le_lastRegistration {s : System P Value} (h : s.taken.Nodup) (ha : Accounted s)
    {last : Registration ObjectId Value} {d : Domain} {i : Int}
    (hlast : s.lastRegistration d i = some last) {x : ObjectId}
    {r : Registration ObjectId Value} (hr : (x, .registered r) ∈ s.trace) (hd : r.domain = d)
    (hi : r.inst = i) : s.taken.idxOf x ≤ s.taken.idxOf last.objectId := by
  obtain ⟨before, ⟨x', exit⟩, rest, htrace, hat, hrest⟩ := exists_split_of_lastOf_eq_some hlast
  obtain rfl : exit = .registered last := by
    cases exit with
    | registered r' =>
      simp only [registrationAt] at hat
      split_ifs at hat
      rw [Option.some.inj hat]
    | _ => exact absurd hat (by simp [registrationAt])
  have hx' : last.objectId = x' := (ha.registered x' last (by rw [htrace]; simp)).1
  have htaken : s.taken = before.map Prod.fst ++ x' ::
      (rest.map Prod.fst ++ (s.progress.inHand.toList ++ s.pmda.listener.newObjects)) := by
    simp [taken, htrace]
  rw [hx', htaken]
  rw [htrace] at hr
  rcases List.mem_append.mp hr with hr | hr
  · exact (idxOf_lt_of_nodup (htaken ▸ h) (List.mem_map_of_mem hr)).le
  · rcases List.mem_cons.mp hr with hr | hr
    · rw [(Prod.mk.inj hr).1]
    · exact absurd (hrest _ hr) (by simp [registrationAt, hd, hi])

omit [ConsoleValue Value ObjectId] [ToString ObjectId] [DecidableEq ObjectId] in
theorem mem_taken {s : System P Value} {x : ObjectId} {exit : IterationExit ObjectId Value}
    (h : (x, exit) ∈ s.trace) : x ∈ s.taken := by
  have hx : x ∈ s.trace.map Prod.fst := List.mem_map_of_mem h
  simp [taken, hx]

/-- The instance is stored and listed under the name and leads to `y`, the last in the order of the
objects that were registered there. -/
structure Shows (s : System P Value) (order : List ObjectId) (d : Domain) (i : Int) (name : String)
    (y : ObjectId) : Prop where
  cached : P.lookup s.pmda.cache d.indom i = .ok ⟨name, some y⟩
  listed : P.instanceName (s.pmda.domains d) i = some name
  registered : ∃ r, (y, .registered r) ∈ s.trace ∧ r.domain = d ∧ r.inst = i
  ordered : y ∈ order
  last : ∀ x r, (x, .registered r) ∈ s.trace → r.domain = d → r.inst = i →
    order.idxOf x ≤ order.idxOf y

omit [ToString ObjectId] in
theorem exists_shows {s : System P Value} (h : s.taken.Nodup) (ha : Accounted s) (hc : Cached s)
    {x : ObjectId} {r : Registration ObjectId Value} (hr : (x, .registered r) ∈ s.trace) :
    ∃ y, s.Shows s.taken r.domain r.inst r.name y := by
  obtain ⟨last, hlast, hname⟩ := hc.stable x r hr
  obtain ⟨hlookup, hlisted⟩ := hc.registered _ _ last hlast
  obtain ⟨⟨y, hy⟩, hd, hi⟩ := lastRegistration_mem hlast
  have hid : last.objectId = y := (ha.registered y last hy).1
  refine ⟨y, hname ▸ hid ▸ hlookup, hname ▸ hlisted, ⟨last, hy, hd, hi⟩, mem_taken hy, ?_⟩
  intro x' r' hr' hd' hi'
  exact hid ▸ idxOf_le_lastRegistration h ha hlast hr' hd' hi'

/-- In every run the ids of the iterations, the id in hand and the queue are the announcements in
their order, and no object is announced twice. So no object has a second iteration, however its
name changes, and of the objects registered at an instance the cache shows the one announced
last. -/
theorem registration_order (hP : P.Lawful) (actions : List (Action ObjectId Value)) :
    (after P pmDebug includeAutoDelete actions).trace.map Prod.fst ++
        (after P pmDebug includeAutoDelete actions).progress.inHand.toList ++
        (after P pmDebug includeAutoDelete actions).pmda.listener.newObjects =
      ListenerCall.announced pmDebug includeAutoDelete (updates actions) ∧
    (ListenerCall.announced pmDebug includeAutoDelete (updates actions)).Nodup ∧
    (∀ x exit exit', (x, exit) ∈ (after P pmDebug includeAutoDelete actions).trace →
      (x, exit') ∈ (after P pmDebug includeAutoDelete actions).trace → exit = exit') ∧
    ∀ x r, (x, .registered r) ∈ (after P pmDebug includeAutoDelete actions).trace →
      ∃ y, (after P pmDebug includeAutoDelete actions).Shows
        (ListenerCall.announced pmDebug includeAutoDelete (updates actions))
        r.domain r.inst r.name y := by
  have htaken : (after P pmDebug includeAutoDelete actions).taken = _ := taken_after actions
  have hnodup : (after P pmDebug includeAutoDelete actions).taken.Nodup := by
    rw [htaken]
    exact ListenerCall.nodup_announced _
  refine ⟨htaken, htaken ▸ hnodup, fun x exit exit' => exit_unique hnodup, fun x r hr => ?_⟩
  rw [← htaken]
  exact exists_shows hnodup (after_accounted actions) (after_cached hP actions) hr

theorem registration_order_sameNames : ∃ y, sharing.Shows [1, 2] .queue 0 "orders" y ∧ y = 2 := by
  obtain ⟨-, -, -, hshown⟩ : _ ∧ _ ∧ _ ∧ ∀ x r, (x, .registered r) ∈ sharing.trace →
      ∃ y, sharing.Shows [1, 2] r.domain r.inst r.name y :=
    registration_order (NameTable.library_lawful Nat) (registerQueues sameNames)
  have hsecond := mem_sharing_trace (List.getLast_mem (l := sameNames) (by decide))
  obtain ⟨y, hy⟩ := hshown _ _ hsecond
  refine ⟨y, hy, ?_⟩
  have hlast : [1, 2].idxOf 2 ≤ [1, 2].idxOf y := hy.last _ _ hsecond rfl rfl
  have hordered : y = 1 ∨ y = 2 := by simpa using hy.ordered
  rcases hordered with rfl | rfl
  · exact absurd hlast (by decide)
  · rfl

/-- A listed instance keeps its name for ever, however the objects are renamed and whatever is
announced, and the cache moves it on only to objects that are announced later. -/
theorem instances_stable (hP : P.Lawful) (actions more : List (Action ObjectId Value)) {d : Domain}
    {i : Int} {name : String}
    (hlisted : P.instanceName ((after P pmDebug includeAutoDelete actions).pmda.domains d) i =
      some name) :
    P.instanceName ((after P pmDebug includeAutoDelete (actions ++ more)).pmda.domains d) i =
        some name ∧
      ∃ x x', P.lookup (after P pmDebug includeAutoDelete actions).pmda.cache d.indom i =
          .ok ⟨name, some x⟩ ∧
        P.lookup (after P pmDebug includeAutoDelete (actions ++ more)).pmda.cache d.indom i =
          .ok ⟨name, some x'⟩ ∧
        x' ∈ ListenerCall.announced pmDebug includeAutoDelete (updates (actions ++ more)) ∧
        (ListenerCall.announced pmDebug includeAutoDelete (updates (actions ++ more))).idxOf x ≤
          (ListenerCall.announced pmDebug includeAutoDelete (updates (actions ++ more))).idxOf
            x' := by
  have hc : Cached (after P pmDebug includeAutoDelete actions) := after_cached hP actions
  have hc' : Cached (after P pmDebug includeAutoDelete (actions ++ more)) := after_cached hP _
  have ha' : Accounted (after P pmDebug includeAutoDelete (actions ++ more)) := after_accounted _
  have htaken : (after P pmDebug includeAutoDelete (actions ++ more)).taken = _ :=
    taken_after (actions ++ more)
  obtain ⟨r, hr, rfl, hlookup⟩ := hc.listed hlisted
  obtain ⟨⟨x, hx⟩, rfl, rfl⟩ := lastRegistration_mem hr
  have hkept : (x, .registered r) ∈
      (after P pmDebug includeAutoDelete (actions ++ more)).trace := by
    rw [after, run_append]
    exact (isPrefix_trace_run pmDebug more _).subset hx
  have hnodup : (after P pmDebug includeAutoDelete (actions ++ more)).taken.Nodup := by
    rw [htaken]
    exact ListenerCall.nodup_announced _
  obtain ⟨x', hshown⟩ := exists_shows hnodup ha' hc' hkept
  refine ⟨hshown.listed, r.objectId, x', hlookup, hshown.cached, htaken ▸ hshown.ordered, ?_⟩
  rw [(ha'.registered x r hkept).1, ← htaken]
  exact hshown.last x r hkept rfl rfl

/-- A second queue of the name takes the instance over. -/
theorem instances_stable_orders :
    ∃ x x', (NameTable.library Nat).lookup
        (after (NameTable.library Nat) ⟨false, false⟩ false
          (registerQueues (sameNames.take 1))).pmda.cache Domain.queue.indom 0 =
            .ok ⟨"orders", some x⟩ ∧
      (NameTable.library Nat).lookup
        (after (NameTable.library Nat) ⟨false, false⟩ false
          (registerQueues (sameNames.take 1) ++ registerQueues (sameNames.drop 1))).pmda.cache
            Domain.queue.indom 0 = .ok ⟨"orders", some x'⟩ := by
  have hlisted : (NameTable.library Nat).instanceName
      ((after (NameTable.library Nat) ⟨false, false⟩ false
        (registerQueues (sameNames.take 1))).pmda.domains .queue) 0 = some "orders" := by decide
  obtain ⟨-, x, x', hx, hx', -⟩ := instances_stable (NameTable.library_lawful Nat)
    (registerQueues (sameNames.take 1)) (registerQueues (sameNames.drop 1)) hlisted
  exact ⟨x, x', hx, hx'⟩

end System

end QpidPmda.Qmf1
