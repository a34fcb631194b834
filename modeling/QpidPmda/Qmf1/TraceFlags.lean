import QpidPmda.Qmf1.LogContents
import QpidPmda.Qmf1.SteadyObjects

/-! # What the trace flags decide

The flags of `pmDebug` ask for lines, and to build the text of a line is to read
the name of an object. As long as every object can be named, that is all they
do: the maps, the queue, the cache and the domains do not depend on them, and
neither do the lines of the higher priorities.
-/

namespace QpidPmda.Qmf1
open Qpid Pcp ConsoleUtils ConsoleValue Foundations ConsoleListener

section Calls
variable {ObjectId Value : Type} [ConsoleValue Value ObjectId] [ToString ObjectId]

theorem notifyErrIf_nameable {object : Object ObjectId Value} (h : Nameable object) (flag : Bool)
    (includePackageName : Bool) (message : String → String) :
    notifyErrIf flag (message <$> toStringObject object includePackageName) = .ok () :=
  notifyErrIf_ok_iff.mpr fun _ => h

/-- An attribute that is read once more for a line raises there or where it is read. -/
theorem isAutoDelete_flags {object : Object ObjectId Value} (h : Nameable object)
    (pmDebug pmDebug' : DebugFlags) :
    isAutoDelete pmDebug object = isAutoDelete pmDebug' object := by
  have hquiet (flags : DebugFlags) :
      isAutoDelete flags object = isAutoDelete ⟨false, false⟩ object := by
    unfold isAutoDelete
    cases object.attributes.lookup "autoDelete" with
    | none => simp only [notifyErrIf_nameable h]
    | some autoDelete =>
      obtain ⟨text, htext⟩ : ∃ text, toStringObject object false = .ok text :=
        toStringObject_ok_iff.mpr h
      cases flags.appl2 <;> cases hread : asBool autoDelete <;>
        simp [notifyErrIf, htext, hread, bind, Except.bind, pure, Except.pure, Except.map]
  rw [hquiet pmDebug, hquiet pmDebug']

theorem filterProps_flags {object : Object ObjectId Value} (h : Nameable object)
    (pmDebug pmDebug' : DebugFlags) (includeAutoDelete : Bool) :
    filterProps pmDebug includeAutoDelete object =
      filterProps pmDebug' includeAutoDelete object := by
  simp only [filterProps, ConsoleLogger.objectProps, notifyErrIf_nameable h,
    isAutoDelete_flags h pmDebug pmDebug']

theorem filterStats_flags {object : Object ObjectId Value} (h : Nameable object)
    (pmDebug pmDebug' : DebugFlags) :
    filterStats pmDebug object = filterStats pmDebug' object := by
  simp only [filterStats, ConsoleLogger.objectStats, notifyErrIf_nameable h]

variable [DecidableEq ObjectId]

theorem objectProps_flags {object : Object ObjectId Value} (h : Nameable object)
    (pmDebug pmDebug' : DebugFlags) (l : ConsoleListener ObjectId Value) :
    ConsoleListener.objectProps pmDebug object l =
      ConsoleListener.objectProps pmDebug' object l := by
  simp only [ConsoleListener.objectProps, filterProps_flags h pmDebug pmDebug']

theorem checkProps_flags {object : Object ObjectId Value} (h : Nameable object)
    {l : ConsoleListener ObjectId Value}
    (hstored : ∀ x stored, l.getProps x = some stored → Nameable stored)
    (pmDebug pmDebug' : DebugFlags) :
    checkProps pmDebug object l = checkProps pmDebug' object l := by
  unfold checkProps
  cases hl : l.props.lookup object.objectId with
  | none => simp only [notifyErrIf_nameable h]
  | some stored => simp only [isAutoDelete_flags (hstored _ _ hl) pmDebug pmDebug']

theorem objectStats_flags {object : Object ObjectId Value} (h : Nameable object)
    {l : ConsoleListener ObjectId Value}
    (hstored : ∀ x stored, l.getProps x = some stored → Nameable stored)
    (pmDebug pmDebug' : DebugFlags) :
    ConsoleListener.objectStats pmDebug object l =
      ConsoleListener.objectStats pmDebug' object l := by
  simp only [ConsoleListener.objectStats, filterStats_flags h pmDebug pmDebug',
    checkProps_flags h hstored pmDebug pmDebug']

end Calls

namespace System
variable {ObjectId Value : Type} {P : Library ObjectId} [ConsoleValue Value ObjectId]
  [ToString ObjectId] [DecidableEq ObjectId]

/-- The object of the update, if it is one, can be named. -/
def UpdateNameable : Action ObjectId Value → Prop
  | .objectProps object => Nameable object
  | .objectStats object => Nameable object
  | _ => True

/-- Of objects that can be named, the system does the same under all trace flags. -/
theorem after_flags (pmDebug pmDebug' : DebugFlags) (includeAutoDelete : Bool)
    {actions : List (Action ObjectId Value)} (h : ∀ action ∈ actions, UpdateNameable action) :
    after P pmDebug includeAutoDelete actions = after P pmDebug' includeAutoDelete actions := by
  induction actions using List.reverseRecOn with
  | nil => rfl
  | append_singleton actions action ih =>
    have hbefore : ∀ known ∈ actions, UpdateNameable known := fun known hknown =>
      h known (List.mem_append_left _ hknown)
    have hlast : UpdateNameable action := h action (by simp)
    have hdrawn : Drawn Nameable (after P pmDebug includeAutoDelete actions) :=
      drawn_after fun object hobject _ => hbefore _ hobject
    rw [after_concat, after_concat, ← ih hbefore]
    cases action with
    | objectProps object => simp only [exec, objectProps_flags hlast pmDebug pmDebug']
    | objectStats object =>
      simp only [exec, objectStats_flags hlast hdrawn.stored pmDebug pmDebug']
    | _ => rfl

theorem after_flags_sharingStats :
    after (NameTable.library Nat) ⟨true, true⟩ false sharingStats =
      after (NameTable.library Nat) ⟨false, false⟩ false sharingStats := by
  refine after_flags ⟨true, true⟩ ⟨false, false⟩ false fun action haction => ?_
  cases action with
  | objectProps object => exact ⟨"orders", (sharingStats_steady object haction).name⟩
  | objectStats object =>
    have hobject : object = brokerObject "queue" 2 [("acquires", .uint64 7)] := by
      simpa [sharingStats, registerQueues] using haction
    exact ⟨"", by rw [hobject]; rfl⟩
  | _ => trivial

end System

namespace Logged
variable {ObjectId Value : Type}

/-- The lines of a higher priority than `LOG_DEBUG`. -/
def loudLines (log : ConsoleLog) : List LogLine := log.lines.filter (·.level ≠ .logDebug)

/-- The program adds these loud lines, whatever the log is. -/
def Loud {α : Type} (m : LogM α) (lines : List LogLine) : Prop :=
  ∀ log, loudLines (stateOf (m log)) = loudLines log ++ lines

theorem Loud.of_keeps {α : Type} {m : LogM α} (h : Keeps loudLines m) : Loud m [] :=
  fun log => (h log).trans (List.append_nil _).symm

theorem keeps_debug (format : String) (args : List String) :
    Keeps loudLines (notifyErr .logDebug format args) :=
  keeps_modify fun log => by simp [loudLines]

theorem loud_notifyErr {level : LogLevel} (h : level ≠ .logDebug) (format : String)
    (args : List String) : Loud (notifyErr level format args) [.printed level format args] := by
  intro log
  simp [loudLines, notifyErr, modify_apply, stateOf, h]

theorem Loud.bind {α β : Type} {m : LogM α} {k : α → LogM β} {a : α} {lines lines' : List LogLine}
    (hm : Loud m lines) (ha : Yields m (pure a)) (hk : Loud (k a) lines') :
    Loud (m >>= k) (lines ++ lines') := by
  intro log
  have hlines := hm log
  have hresult := ha log
  simp only [Bind.bind, EStateM.bind]
  cases hr : m log with
  | ok b log' =>
    rw [hr] at hlines hresult
    obtain rfl := Except.ok.inj hresult
    rw [← List.append_assoc, ← hlines]
    exact hk log'
  | error e log' =>
    rw [hr] at hresult
    exact absurd hresult (by simp [resultOf, pure, Except.pure])

theorem Loud.exists_onLog_bind {α : Type} {m : LogM α} {a : α} {lines : List LogLine}
    (hm : Loud m lines) (ha : Yields m (pure a)) (k : α → ListenerM ObjectId Value Unit)
    (s : LoggedListener ObjectId Value) :
    ∃ log, loudLines log = loudLines s.log ++ lines ∧
      (onLog m >>= k) s = k a { s with log := log } := by
  have hlines := hm s.log
  have hresult := ha s.log
  simp only [Bind.bind, EStateM.bind, onLog]
  cases hr : m s.log with
  | ok b log =>
    rw [hr] at hlines hresult
    obtain rfl := Except.ok.inj hresult
    exact ⟨log, hlines, rfl⟩
  | error e log =>
    rw [hr] at hresult
    exact absurd hresult (by simp [resultOf, pure, Except.pure])

section Lines
variable [ConsoleValue Value ObjectId] [ToString ObjectId]

/-- The notice that the auto-delete test logs whatever the flags are. -/
def autoDeleteNotice (object : Object ObjectId Value) : List LogLine :=
  match object.attributes.lookup "autoDelete" with
  | none => []
  | some autoDelete =>
    if isBool autoDelete then []
    else match toStringObject object false with
      | .error _ => []
      | .ok text => [.printed .logNotice "autoDelete property for %s is not a boolean" [text]]

theorem isAutoDelete_loud {object : Object ObjectId Value} (h : Nameable object)
    (pmDebug : DebugFlags) :
    Loud (ConsoleListener.isAutoDelete pmDebug object) (autoDeleteNotice object) := by
  obtain ⟨text, htext⟩ : ∃ text, toStringObject object false = .ok text :=
    toStringObject_ok_iff.mpr h
  unfold ConsoleListener.isAutoDelete autoDeleteNotice
  rw [htext]
  cases object.attributes.lookup "autoDelete" with
  | none =>
    exact Loud.of_keeps ((keeps_whenTracing _ (keeps_debug _ _)).bind fun _ => keeps_pure _ false)
  | some autoDelete =>
    dsimp only
    split_ifs
    · refine Loud.of_keeps ((keeps_whenTracing _ ?_).bind fun _ => keeps_liftExcept _ _)
      exact (keeps_liftExcept loudLines (asBool autoDelete)).bind fun _ => keeps_debug _ _
    · have hnotice : LogLevel.logNotice ≠ .logDebug := by decide
      exact (loud_notifyErr hnotice _ [text]).bind (k := fun _ => pure false)
        (yields_notifyErr _ _ _) (Loud.of_keeps (keeps_pure _ false))

variable [ToString Value]

theorem keeps_logObject_loud (function : String) (pmDebug : DebugFlags)
    (object : Reported ObjectId Value) :
    Keeps loudLines (ConsoleLogger.logObject function pmDebug object) :=
  keeps_logObject (fun format args _ => keeps_debug format args) (fun _ _ => rfl) function pmDebug
    object

theorem yields_logObject_nameable {object : Reported ObjectId Value} (h : Nameable object.toObject)
    (function : String) (pmDebug : DebugFlags) :
    Yields (ConsoleLogger.logObject function pmDebug object) (pure ()) := by
  have hyields := yields_logObject function pmDebug object id
  rw [notifyErrIf_nameable h] at hyields
  exact hyields

/-- The loud lines before the lock of `objectProps`. -/
def filterNotice (includeAutoDelete : Bool) (object : Object ObjectId Value) : List LogLine :=
  if isSupported object.classKey && !includeAutoDelete then autoDeleteNotice object else []

theorem filterProps_loud {object : Reported ObjectId Value} (h : Nameable object.toObject)
    (pmDebug : DebugFlags) (includeAutoDelete : Bool) :
    Loud (ConsoleListener.filterProps pmDebug includeAutoDelete object)
      (filterNotice includeAutoDelete object.toObject) := by
  have hrest : Loud (if !isSupported object.classKey then pure false
      else if includeAutoDelete then pure true
      else ConsoleListener.isAutoDelete pmDebug object.toObject >>= fun b => pure !b)
      (filterNotice includeAutoDelete object.toObject) := by
    unfold filterNotice
    cases isSupported object.classKey with
    | false => exact Loud.of_keeps (keeps_pure _ false)
    | true =>
      cases includeAutoDelete with
      | true => exact Loud.of_keeps (keeps_pure _ true)
      | false =>
        intro log
        refine (Keeps.observe_bind (fun b => keeps_pure loudLines !b) log).trans ?_
        exact isAutoDelete_loud h pmDebug log
  have hlogged := Loud.of_keeps (keeps_logObject_loud "objectProps" pmDebug object)
  exact hlogged.bind (yields_logObject_nameable h _ pmDebug) hrest

variable [DecidableEq ObjectId]

/-- The loud lines of a callback, in terms of the listener that it finds. -/
def Callback.loudLines (l : ConsoleListener ObjectId Value) :
    Callback ObjectId Value → List LogLine
  | .brokerConnected broker =>
    [.printed .logInfo "broker %s (%s) connected" [broker.url, broker.brokerId]]
  | .brokerDisconnected broker =>
    [.printed .logInfo "broker %s (%s) disconnected" [broker.url, broker.brokerId]]
  | .objectProps object =>
    filterNotice l.includeAutoDelete object.toObject ++
      if propsSaved ⟨false, false⟩ l.includeAutoDelete object.toObject &&
        (l.getProps object.objectId).isNone then (newObjectLine object.toObject).toList else []
  | .objectStats object =>
    if isSupported object.classKey && !l.includeAutoDelete then
      match l.getProps object.objectId with
      | none => []
      | some props => autoDeleteNotice props
    else []
  | _ => []

omit [ToString Value] in
theorem saveProps_loud (object : Object ObjectId Value) (s : LoggedListener ObjectId Value) :
    Logged.loudLines (stateOf (ConsoleListener.saveProps object s)).log =
      Logged.loudLines s.log ++ if (s.listener.getProps object.objectId).isNone then
        (newObjectLine object).toList else [] := by
  rw [saveProps_log, Logged.loudLines, List.filter_append, Logged.loudLines]
  congr 1
  split_ifs
  · cases hline : newObjectLine object with
    | none => rfl
    | some line => simp [(newObjectLine_format hline).1]
  · rfl

theorem objectProps_loud {object : Reported ObjectId Value} (h : Nameable object.toObject)
    (pmDebug : DebugFlags) (s : LoggedListener ObjectId Value) :
    Logged.loudLines (stateOf (ConsoleListener.objectProps pmDebug object s)).log =
      Logged.loudLines s.log ++ Callback.loudLines s.listener (.objectProps object) := by
  have hlines := filterProps_loud h pmDebug s.listener.includeAutoDelete s.log
  have hyields := yields_filterProps pmDebug s.listener.includeAutoDelete object s.log
  rw [filterProps_flags h pmDebug ⟨false, false⟩] at hyields
  rw [Callback.loudLines, propsSaved, ← hyields, ConsoleListener.objectProps]
  rw [get_bind_apply]
  simp only [Bind.bind, EStateM.bind, onLog]
  cases hr : ConsoleListener.filterProps pmDebug s.listener.includeAutoDelete object s.log with
  | error e log =>
    rw [hr] at hlines
    refine Eq.trans hlines ?_
    simp [resultOf]
  | ok save log =>
    rw [hr] at hlines
    cases save with
    | false =>
      refine Eq.trans hlines ?_
      simp [resultOf]
    | true =>
      refine (saveProps_loud object.toObject { s with log := log }).trans ?_
      rw [show Logged.loudLines log = _ from hlines, List.append_assoc]
      rfl

omit [ToString Value] [DecidableEq ObjectId] in
theorem checkProps_loud (pmDebug : DebugFlags) (object : Object ObjectId Value)
    (props : Option (Object ObjectId Value)) (h : ∀ stored, props = some stored → Nameable stored) :
    Loud (ConsoleListener.checkProps pmDebug object props) (props.elim [] autoDeleteNotice) := by
  cases props with
  | none =>
    refine Loud.of_keeps ((keeps_whenTracing _ ?_).bind fun _ => keeps_pure _ false)
    exact (keeps_liftExcept loudLines _).bind fun _ => keeps_debug _ _
  | some stored =>
    intro log
    refine (Keeps.observe_bind (fun b => keeps_pure loudLines !b) log).trans ?_
    exact isAutoDelete_loud (h stored rfl) pmDebug log

omit [ToString Value] in
/-- The loud lines of a statistics update are those of the test of the stored properties. -/
theorem saveCheckedStats_loud (pmDebug : DebugFlags) (object : Object ObjectId Value)
    (s : LoggedListener ObjectId Value)
    (h : ∀ stored, s.listener.getProps object.objectId = some stored → Nameable stored) :
    Logged.loudLines (stateOf (ConsoleListener.saveCheckedStats pmDebug object s)).log =
      Logged.loudLines s.log ++ if s.listener.includeAutoDelete then []
        else (s.listener.getProps object.objectId).elim [] autoDeleteNotice := by
  have hsave (save : Bool) : Keeps (fun s : LoggedListener ObjectId Value => Logged.loudLines s.log)
      (if save then ConsoleListener.saveStats object else pure ()) :=
    keeps_ite (keeps_modify fun _ => rfl) (keeps_pure _ ())
  change Logged.loudLines (stateOf ((if s.listener.includeAutoDelete then
      ConsoleListener.saveStats object
    else onLog (ConsoleListener.checkProps pmDebug object
      (s.listener.props.lookup object.objectId)) >>= fun save =>
        if save then ConsoleListener.saveStats object else pure ()) s)).log = _
  split_ifs
  · exact (hsave true s).trans (List.append_nil _).symm
  · refine (Keeps.observe_bind hsave s).trans ?_
    rw [stateOf_onLog]
    exact checkProps_loud pmDebug object _ h s.log

theorem objectStats_loud {object : Reported ObjectId Value} (h : Nameable object.toObject)
    (pmDebug : DebugFlags) (s : LoggedListener ObjectId Value)
    (hstored : ∀ stored, s.listener.getProps object.objectId = some stored → Nameable stored) :
    Logged.loudLines (stateOf (ConsoleListener.objectStats pmDebug object s)).log =
      Logged.loudLines s.log ++ Callback.loudLines s.listener (.objectStats object) := by
  have hkept : Keeps Logged.loudLines (ConsoleListener.filterStats pmDebug object) :=
    (keeps_logObject_loud _ pmDebug object).bind fun _ => keeps_pure _ _
  have hyields : Yields (ConsoleListener.filterStats pmDebug object)
      (pure (isSupported object.classKey)) :=
    (yields_logObject_nameable h _ pmDebug).bind fun _ => yields_pure _
  obtain ⟨log, hlog, heq⟩ := (Loud.of_keeps hkept).exists_onLog_bind hyields (fun save =>
    if save then ConsoleListener.saveCheckedStats pmDebug object.toObject else pure ()) s
  refine (congrArg (fun result => Logged.loudLines (stateOf result).log) heq).trans ?_
  rw [List.append_nil] at hlog
  rw [Callback.loudLines]
  cases isSupported object.classKey with
  | false => exact hlog.trans (List.append_nil _).symm
  | true =>
    refine (saveCheckedStats_loud pmDebug object.toObject { s with log := log } hstored).trans ?_
    rw [hlog]
    cases s.listener.includeAutoDelete <;> cases s.listener.getProps object.objectId <;> rfl

/-- The object of the update, if the callback is one, can be named. -/
def Callback.UpdateNameable : Callback ObjectId Value → Prop
  | .objectProps object => Nameable object.toObject
  | .objectStats object => Nameable object.toObject
  | _ => True

/-- Under all trace flags a callback adds the same loud lines. -/
theorem exec_loud (pmDebug : DebugFlags) {callback : Callback ObjectId Value}
    (h : callback.UpdateNameable) (s : LoggedListener ObjectId Value)
    (hstored : ∀ x stored, s.listener.getProps x = some stored → Nameable stored) :
    loudLines (callback.exec pmDebug s).log =
      loudLines s.log ++ callback.loudLines s.listener := by
  have hloud {m : LogM Unit} {lines : List LogLine} (hm : Loud m lines) :
      loudLines (stateOf (onLog m s)).log = loudLines s.log ++ lines := by
    rw [stateOf_onLog]
    exact hm s.log
  have hinfo : LogLevel.logInfo ≠ .logDebug := by decide
  cases callback with
  | brokerConnected broker | brokerDisconnected broker =>
    exact hloud (loud_notifyErr hinfo _ _)
  | objectProps object => exact objectProps_loud h pmDebug s
  | objectStats object => exact objectStats_loud h pmDebug s (hstored _)
  | event raised =>
    refine hloud (Loud.of_keeps (keeps_whenTracing _ ((keeps_debug _ _).bind fun _ => ?_)))
    exact Keeps.forM fun _ _ => keeps_debug _ _
  | _ => exact hloud (Loud.of_keeps (keeps_whenTracing _ (keeps_debug _ _)))

omit [ToString Value] in
theorem history_nameable (pmDebug : DebugFlags) (includeAutoDelete : Bool)
    {callbacks : List (Callback ObjectId Value)}
    (h : ∀ callback ∈ callbacks, callback.UpdateNameable) (x : ObjectId)
    (stored : Object ObjectId Value) (hx : (ListenerCall.history pmDebug includeAutoDelete
      (callbacks.filterMap Callback.update)).getProps x = some stored) : Nameable stored := by
  rw [ListenerCall.history_getProps] at hx
  obtain ⟨call, hcall, hfor⟩ := exists_of_lastOf_eq_some hx
  obtain ⟨rfl, -, -⟩ := ListenerCall.propsFor_eq_some_iff.mp hfor
  obtain ⟨callback, hmem, hupdate⟩ := List.mem_filterMap.mp hcall
  cases callback with
  | objectProps object =>
    obtain rfl := ListenerCall.objectProps.inj (Option.some.inj hupdate)
    exact h _ hmem
  | _ => simp [Callback.update] at hupdate

/-- Of objects that can be named, the flags add debug lines and do nothing else: the listener and
the lines of the higher priorities are the same under all of them. -/
theorem flags_add_debug_lines (pmDebug pmDebug' : DebugFlags) (includeAutoDelete : Bool)
    (callbacks : List (Callback ObjectId Value))
    (h : ∀ callback ∈ callbacks, callback.UpdateNameable) :
    (run (Callback.exec pmDebug) callbacks ⟨start includeAutoDelete, .empty⟩).listener =
        (run (Callback.exec pmDebug') callbacks ⟨start includeAutoDelete, .empty⟩).listener ∧
      loudLines (run (Callback.exec pmDebug) callbacks ⟨start includeAutoDelete, .empty⟩).log =
        loudLines (run (Callback.exec pmDebug') callbacks
          ⟨start includeAutoDelete, .empty⟩).log := by
  induction callbacks using List.reverseRecOn with
  | nil => exact ⟨rfl, rfl⟩
  | append_singleton callbacks callback ih =>
    have hbefore : ∀ known ∈ callbacks, known.UpdateNameable := fun known hknown =>
      h known (List.mem_append_left _ hknown)
    have hlast : callback.UpdateNameable := h callback (by simp)
    obtain ⟨hlistener, hlines⟩ := ih hbefore
    have hstored := history_nameable pmDebug includeAutoDelete hbefore
    rw [← run_start_listener] at hstored
    have hstored' := hstored
    rw [hlistener] at hstored'
    rw [run_concat, run_concat]
    refine ⟨?_, ?_⟩
    · rw [Callback.exec_listener, Callback.exec_listener, ← hlistener]
      cases callback with
      | objectProps object =>
        exact congrArg Prod.snd (objectProps_flags hlast pmDebug pmDebug' _)
      | objectStats object =>
        exact congrArg Prod.snd (objectStats_flags hlast hstored pmDebug pmDebug')
      | _ => rfl
    · rw [exec_loud pmDebug hlast _ hstored, exec_loud pmDebug' hlast _ hstored', hlines, hlistener]

end Lines

/-- A queue whose autoDelete is a string. -/
def undecidedQueue : Callback Nat (QmfValue Nat) :=
  .objectProps ⟨brokerObject "queue" 1 [("name", .string "orders"), ("autoDelete", .string "no")],
    none⟩

theorem flags_add_debug_lines_undecided :
    loudLines (run (Callback.exec ⟨true, true⟩) [undecidedQueue] ⟨start false, .empty⟩).log =
      loudLines
        (run (Callback.exec ⟨false, false⟩) [undecidedQueue] ⟨start false, .empty⟩).log := by
  refine (flags_add_debug_lines ⟨true, true⟩ ⟨false, false⟩ false [undecidedQueue] ?_).2
  intro callback hcallback
  obtain rfl := List.mem_singleton.mp hcallback
  exact ⟨"orders", rfl⟩

end Logged

end QpidPmda.Qmf1
