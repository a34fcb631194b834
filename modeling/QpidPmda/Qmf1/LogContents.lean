import QpidPmda.Qmf1.LoggedListener
import QpidPmda.Qmf1.RegistrationOrder

/-! # What the log shows

Two kinds of lines are written once for each thing they are about. A schema is
logged with the first traced update that carries it, by the text of its class
key, and its properties and statistics are logged right behind it. A new object
is logged with the first update that is saved for it, and in the order of these
lines the objects are announced to the PMDA.
-/

namespace QpidPmda.Qmf1.Logged
open Qpid Pcp ConsoleUtils ConsoleValue Foundations

variable {ObjectId Value : Type}

section Ordinary
variable {ω : Type}

/-- The formats of `logSchema`. Other callbacks use the first one, too. -/
def schemaFormats : List String := ["%s %s", "%s   property: %s", "%s   statistic: %s"]

/-- The observation sees the lines of `logSchema` and of the new objects at most. -/
def Overlooks (f : ConsoleLog → ω) : Prop :=
  ∀ level format args, format ∉ "new %s" :: schemaFormats → Keeps f (notifyErr level format args)

theorem keeps_whenTracing {f : ConsoleLog → ω} (flag : Bool) {m : LogM Unit} (h : Keeps f m) :
    Keeps f (whenTracing flag m) := keeps_ite h (keeps_pure f ())

variable {f : ConsoleLog → ω} (hf : Overlooks f)
include hf

theorem keeps_logAttributes [ToString Value] (function : String)
    (attributes : AttributeMap Value) :
    Keeps f (ConsoleLogger.logAttributes function attributes) :=
  Keeps.forM fun _ _ => hf _ _ _ (by decide)

variable [ConsoleValue Value ObjectId] [ToString ObjectId]

theorem keeps_isAutoDelete (pmDebug : DebugFlags) (object : Object ObjectId Value) :
    Keeps f (ConsoleListener.isAutoDelete pmDebug object) := by
  unfold ConsoleListener.isAutoDelete
  cases object.attributes.lookup "autoDelete" with
  | none =>
    exact (keeps_whenTracing _ ((keeps_liftExcept f _).bind fun _ => hf _ _ _ (by decide))).bind
      fun _ => keeps_pure f false
  | some autoDelete =>
    refine keeps_ite ?_ ?_
    · refine (keeps_whenTracing _ ((keeps_liftExcept f _).bind fun _ => ?_)).bind fun _ =>
        keeps_liftExcept f _
      exact (keeps_liftExcept f _).bind fun _ => hf _ _ _ (by decide)
    · exact (keeps_liftExcept f _).bind fun _ =>
        (hf _ _ _ (by decide)).bind fun _ => keeps_pure f false

theorem keeps_checkProps (pmDebug : DebugFlags) (object : Object ObjectId Value)
    (props : Option (Object ObjectId Value)) :
    Keeps f (ConsoleListener.checkProps pmDebug object props) := by
  unfold ConsoleListener.checkProps
  cases props with
  | none =>
    exact (keeps_whenTracing _ ((keeps_liftExcept f _).bind fun _ => hf _ _ _ (by decide))).bind
      fun _ => keeps_pure f false
  | some props => exact (keeps_isAutoDelete hf pmDebug props).bind fun b => keeps_pure f !b

end Ordinary

section Listener
variable {ω : Type}

theorem stateOf_onLog {α : Type} (m : LogM α) (s : LoggedListener ObjectId Value) :
    stateOf (onLog m s) = { s with log := stateOf (m s.log) } := by
  unfold onLog
  cases m s.log <;> rfl

theorem keeps_onLog {α : Type} {f : ConsoleLog → ω} {m : LogM α} (h : Keeps f m) :
    Keeps (fun s : LoggedListener ObjectId Value => f s.log) (onLog m) := by
  intro s
  rw [stateOf_onLog]
  exact h s.log

variable [ConsoleValue Value ObjectId] [ToString ObjectId] [DecidableEq ObjectId]

theorem keeps_saveProps {f : ConsoleLog → ω}
    (hnew : ∀ args, Keeps f (notifyErr .logInfo "new %s" args))
    (object : Object ObjectId Value) :
    Keeps (fun s : LoggedListener ObjectId Value => f s.log)
      (ConsoleListener.saveProps object) := by
  refine keeps_get_bind fun s => ?_
  cases s.listener.props.lookup object.objectId with
  | some known => exact keeps_modify fun _ => rfl
  | none =>
    refine Keeps.bind ?_ fun _ => Keeps.bind ?_ fun _ => ?_
    · exact keeps_modify fun _ => rfl
    · exact keeps_onLog ((keeps_liftExcept f _).bind fun _ => hnew _)
    · exact keeps_modify fun _ => rfl

variable [ToString Value]

/-- Of a properties update, the part before the lock decides what is seen. -/
theorem objectProps_observed {f : ConsoleLog → ω} (hf : Overlooks f)
    (hnew : ∀ args, Keeps f (notifyErr .logInfo "new %s" args)) (pmDebug : DebugFlags)
    (object : Reported ObjectId Value) (s : LoggedListener ObjectId Value) :
    f (stateOf (ConsoleListener.objectProps pmDebug object s)).log =
      f (stateOf (ConsoleLogger.logObject "objectProps" pmDebug object s.log)) := by
  have hsave (save : Bool) : Keeps (fun s : LoggedListener ObjectId Value => f s.log)
      (if save then ConsoleListener.saveProps object.toObject else pure ()) :=
    keeps_ite (keeps_saveProps hnew object.toObject) (keeps_pure _ ())
  refine (Keeps.observe_bind hsave s).trans ?_
  rw [stateOf_onLog]
  refine Keeps.observe_bind (fun _ => ?_) s.log
  refine keeps_ite (keeps_pure f false) (keeps_ite (keeps_pure f true) ?_)
  exact (keeps_isAutoDelete hf pmDebug object.toObject).bind fun b => keeps_pure f !b

theorem objectStats_observed {f : ConsoleLog → ω} (hf : Overlooks f) (pmDebug : DebugFlags)
    (object : Reported ObjectId Value) (s : LoggedListener ObjectId Value) :
    f (stateOf (ConsoleListener.objectStats pmDebug object s)).log =
      f (stateOf (ConsoleLogger.logObject "objectStats" pmDebug object s.log)) := by
  have hrest (save : Bool) : Keeps (fun s : LoggedListener ObjectId Value => f s.log)
      (if save then ConsoleListener.saveCheckedStats pmDebug object.toObject else pure ()) := by
    have hsave : Keeps (fun s : LoggedListener ObjectId Value => f s.log)
        (ConsoleListener.saveStats object.toObject) := keeps_modify fun _ => rfl
    refine keeps_ite (keeps_get_bind fun s => keeps_ite hsave ?_) (keeps_pure _ ())
    exact (keeps_onLog (keeps_checkProps hf _ _ _)).bind fun _ =>
      keeps_ite hsave (keeps_pure _ ())
  refine (Keeps.observe_bind hrest s).trans ?_
  rw [stateOf_onLog]
  exact Keeps.observe_bind (fun _ => keeps_pure f _) s.log

end Listener

section Schemas

/-- All that is logged of a schema. -/
def schemaLines (schema : SchemaClass) : List LogLine :=
  .printed .logDebug "%s %s" ["logSchema", toStringClassKey schema.classKey] ::
    (schema.properties.map fun property =>
      .printed .logDebug "%s   property: %s" ["logSchema", toStringProperty property]) ++
    schema.statistics.map fun statistic =>
      .printed .logDebug "%s   statistic: %s" ["logSchema", toStringStatistic statistic]

/-- The line has a format of `logSchema` and begins with its name. -/
def isSchemaLine (line : LogLine) : Bool :=
  line.format ∈ schemaFormats && line.args.head? = some "logSchema"

/-- What the logger remembers of the schemas, and what the log shows of them. -/
def schemasShown (log : ConsoleLog) : Finset String × List LogLine :=
  (log.seenAlready, log.lines.filter isSchemaLine)

/-- A schema is shown unless its class key was. -/
def showSchema (schema : SchemaClass) (shown : Finset String × List LogLine) :
    Finset String × List LogLine :=
  if schema.classKeyStr ∈ shown.1 then shown
  else (insert schema.classKeyStr shown.1, shown.2 ++ schemaLines schema)

theorem filter_schemaLines (schema : SchemaClass) :
    (schemaLines schema).filter isSchemaLine = schemaLines schema := by
  rw [List.filter_eq_self]
  intro line hline
  have hname : cString "logSchema" = "logSchema" := cString_ofList rfl
  simp only [schemaLines, List.cons_append, List.mem_cons, List.mem_append, List.mem_map] at hline
  rcases hline with rfl | ⟨property, -, rfl⟩ | ⟨statistic, -, rfl⟩ <;>
    simp [isSchemaLine, schemaFormats, hname]

theorem keeps_schemasShown {level : LogLevel} {format : String} {args : List String}
    (h : isSchemaLine (.printed level format args) = false) :
    Keeps schemasShown (notifyErr level format args) := by
  refine keeps_modify fun log => ?_
  simp [schemasShown, h]

theorem overlooks_schemasShown : Overlooks schemasShown := by
  intro level format args hformat
  refine keeps_schemasShown ?_
  have hother : format ∉ schemaFormats := fun hmem => hformat (List.mem_cons_of_mem _ hmem)
  simp [isSchemaLine, hother]

theorem forM_notifyErr {α : Type} (level : LogLevel) (format : String) (args : α → List String)
    (l : List α) (log : ConsoleLog) :
    (l.forM fun a => notifyErr level format (args a)) log =
      .ok () { log with lines := log.lines ++ l.map fun a => .printed level format (args a) } := by
  induction l generalizing log with
  | nil => simp [pure, EStateM.pure]
  | cons a l ih =>
    refine (ih { log with lines := log.lines ++ [.printed level format (args a)] }).trans ?_
    simp

theorem logSchema_new {pmDebug : DebugFlags} (hflag : pmDebug.appl2 = true) {schema : SchemaClass}
    {log : ConsoleLog} (hnew : schema.classKeyStr ∉ log.seenAlready) :
    ConsoleLogger.logSchema pmDebug schema log =
      .ok () ⟨log.lines ++ schemaLines schema, insert schema.classKeyStr log.seenAlready⟩ := by
  have htest : (pmDebug.appl2 && decide (schema.classKeyStr ∉ log.seenAlready)) = true := by
    simp [hflag, hnew]
  change (if _ then _ else _ : LogM Unit) log = _
  rw [if_pos htest]
  refine (run_bind_of_ok (modify_apply _ log)).trans ?_
  refine (run_bind_of_ok (forM_notifyErr _ _ _ schema.properties _)).trans ?_
  refine (run_bind_of_ok (forM_notifyErr _ _ _ schema.statistics _)).trans ?_
  simp [schemaLines]

theorem logSchema_shown {pmDebug : DebugFlags} (hflag : pmDebug.appl2 = true)
    (schema : SchemaClass) (log : ConsoleLog) :
    schemasShown (stateOf (ConsoleLogger.logSchema pmDebug schema log)) =
      showSchema schema (schemasShown log) := by
  by_cases hseen : schema.classKeyStr ∈ log.seenAlready
  · have hsame : ConsoleLogger.logSchema pmDebug schema log = .ok () log := by
      simp [ConsoleLogger.logSchema, get_bind_apply, hseen, pure, EStateM.pure]
    rw [hsame]
    simp [stateOf, showSchema, schemasShown, hseen]
  · rw [logSchema_new hflag hseen]
    simp [stateOf, showSchema, schemasShown, hseen, filter_schemaLines]

/-- The schema that a traced update shows, if its object can be named and has one. -/
def schemaOf (pmDebug : DebugFlags) [ConsoleValue Value ObjectId] [ToString ObjectId]
    (object : Reported ObjectId Value) : Option SchemaClass :=
  if pmDebug.appl2 && (toStringObject object.toObject true).isOk then object.schema else none

/-- The schema that a callback shows, if no one did before. -/
def Callback.schema [ConsoleValue Value ObjectId] [ToString ObjectId] (pmDebug : DebugFlags) :
    Callback ObjectId Value → Option SchemaClass
  | .objectProps object => schemaOf pmDebug object
  | .objectStats object => schemaOf pmDebug object
  | _ => none

section Callbacks
variable [ConsoleValue Value ObjectId] [ToString ObjectId] [ToString Value]

theorem logObject_shown (function : String) (pmDebug : DebugFlags)
    (object : Reported ObjectId Value) (log : ConsoleLog) :
    schemasShown (stateOf (ConsoleLogger.logObject function pmDebug object log)) =
      match schemaOf pmDebug object with
      | none => schemasShown log
      | some schema => showSchema schema (schemasShown log) := by
  unfold ConsoleLogger.logObject schemaOf
  cases hflag : pmDebug.appl2 with
  | false => rfl
  | true =>
    cases toStringObject object.toObject true with
    | error e => rfl
    | ok text =>
      have hline : Keeps schemasShown (notifyErr .logDebug "%s object: %s" [function, text]) :=
        overlooks_schemasShown _ _ _ (by decide)
      obtain ⟨log₁, hlog₁, hrest₁⟩ := hline.exists_bind (yields_notifyErr _ _ _) (fun _ =>
        ConsoleLogger.logSchemaObject pmDebug object >>= fun _ =>
          ConsoleLogger.logAttributes function object.attributes) log
      have hattributes := Keeps.observe_bind (m := ConsoleLogger.logSchemaObject pmDebug object)
        (fun _ => keeps_logAttributes overlooks_schemasShown function object.attributes) log₁
      refine (congrArg (fun result => schemasShown (stateOf result)) hrest₁).trans ?_
      rw [hattributes, ← hlog₁]
      unfold ConsoleLogger.logSchemaObject
      cases object.schema with
      | none => rfl
      | some schema => exact logSchema_shown hflag schema log₁

variable [DecidableEq ObjectId]

theorem keeps_schemasShown_new (args : List String) :
    Keeps schemasShown (notifyErr .logInfo "new %s" args) :=
  keeps_schemasShown (by simp [isSchemaLine, schemaFormats])

theorem exec_shown (pmDebug : DebugFlags) (callback : Callback ObjectId Value)
    (s : LoggedListener ObjectId Value) :
    schemasShown (callback.exec pmDebug s).log = match callback.schema pmDebug with
      | none => schemasShown s.log
      | some schema => showSchema schema (schemasShown s.log) := by
  have hother {function text : String} (hfunction : cString function ≠ "logSchema") (flag : Bool) :
      Keeps (fun s : LoggedListener ObjectId Value => schemasShown s.log)
        (onLog (whenTracing flag (notifyErr .logDebug "%s %s" [function, text]))) :=
    keeps_onLog (keeps_whenTracing flag (keeps_schemasShown (by simp [isSchemaLine, hfunction])))
  cases callback with
  | brokerConnected broker | brokerDisconnected broker =>
    exact keeps_onLog (overlooks_schemasShown _ _ _ (by decide)) s
  | objectProps object =>
    exact (objectProps_observed overlooks_schemasShown keeps_schemasShown_new pmDebug object
      s).trans (logObject_shown _ pmDebug object s.log)
  | objectStats object =>
    exact (objectStats_observed overlooks_schemasShown pmDebug object s).trans
      (logObject_shown _ pmDebug object s.log)
  | event raised =>
    refine keeps_onLog (keeps_whenTracing _ (Keeps.bind ?_ fun _ => ?_)) s
    · have hfunction : cString "event" ≠ "logSchema" := by decide
      exact keeps_schemasShown (by simp [isSchemaLine, hfunction])
    · exact keeps_logAttributes overlooks_schemasShown _ _
  | _ => exact hother (by decide) _ s

omit [ConsoleValue Value ObjectId] [ToString ObjectId] [ToString Value] [DecidableEq ObjectId] in
/-- What a list of schemas leaves: each key once, with the first schema that has it. -/
theorem run_showSchema (schemas : List SchemaClass) : run showSchema schemas (∅, []) =
    ((schemas.map (·.classKeyStr)).toFinset,
      (firsts (·.classKeyStr) schemas).flatMap schemaLines) := by
  induction schemas using List.reverseRecOn with
  | nil => rfl
  | append_singleton schemas schema ih =>
    rw [run_concat, ih, firsts_concat]
    unfold showSchema
    by_cases hseen : schema.classKeyStr ∈ schemas.map (·.classKeyStr)
    · rw [if_pos (List.mem_toFinset.mpr hseen), if_pos hseen, List.map_append,
        List.toFinset_append, List.append_nil]
      have hsame : [schema.classKeyStr].toFinset ⊆ (schemas.map (·.classKeyStr)).toFinset := by
        simpa using hseen
      exact congrArg (·, _) (Finset.union_eq_left.mpr hsame).symm
    · rw [if_neg (fun hmem => hseen (List.mem_toFinset.mp hmem)), if_neg hseen]
      simp [List.toFinset_append]

theorem run_shown (pmDebug : DebugFlags) (callbacks : List (Callback ObjectId Value))
    (s : LoggedListener ObjectId Value) :
    schemasShown (run (Callback.exec pmDebug) callbacks s).log =
      run showSchema (callbacks.filterMap (Callback.schema pmDebug)) (schemasShown s.log) := by
  induction callbacks using List.reverseRecOn with
  | nil => rfl
  | append_singleton callbacks callback ih =>
    rw [run_concat, exec_shown, ih, List.filterMap_append, run_append]
    cases hschema : callback.schema pmDebug <;> simp [hschema]

/-- Whatever the callbacks are, a schema is logged once for each text of its class key, by the
first traced update of an object that can be named, as one line for the schema, one for each of its
properties and one for each of its statistics, and the set holds just these texts. -/
theorem schemas_logged_once (pmDebug : DebugFlags) (callbacks : List (Callback ObjectId Value))
    (l : ConsoleListener ObjectId Value) :
    (run (Callback.exec pmDebug) callbacks ⟨l, .empty⟩).log.lines.filter isSchemaLine =
        (firsts (·.classKeyStr) (callbacks.filterMap (Callback.schema pmDebug))).flatMap
          schemaLines ∧
      (run (Callback.exec pmDebug) callbacks ⟨l, .empty⟩).log.seenAlready =
        ((callbacks.filterMap (Callback.schema pmDebug)).map (·.classKeyStr)).toFinset := by
  have hshown := (run_shown pmDebug callbacks ⟨l, .empty⟩).trans (run_showSchema _)
  obtain ⟨hseen, hlines⟩ := Prod.mk.inj hshown
  exact ⟨hlines, hseen⟩

end Callbacks

end Schemas

section Traced
variable {ω : Type} {f : ConsoleLog → ω}

theorem keeps_logObject [ConsoleValue Value ObjectId] [ToString ObjectId] [ToString Value]
    (hf : ∀ format args, format ≠ "new %s" → Keeps f (notifyErr .logDebug format args))
    (hseen : ∀ log key, f { log with seenAlready := insert key log.seenAlready } = f log)
    (function : String) (pmDebug : DebugFlags) (object : Reported ObjectId Value) :
    Keeps f (ConsoleLogger.logObject function pmDebug object) := by
  refine keeps_whenTracing _ ((keeps_liftExcept _ _).bind fun text => ?_)
  refine (hf _ _ (by decide)).bind fun _ => Keeps.bind ?_ fun _ => ?_
  · unfold ConsoleLogger.logSchemaObject
    cases object.schema with
    | none => exact keeps_pure _ ()
    | some schema =>
      refine keeps_get_bind fun log => keeps_ite ?_ (keeps_pure _ ())
      refine (hf _ _ (by decide)).bind fun _ => Keeps.bind ?_ fun _ => Keeps.bind ?_ fun _ => ?_
      · exact Keeps.forM fun property _ => hf _ _ (by decide)
      · exact Keeps.forM fun statistic _ => hf _ _ (by decide)
      · exact keeps_modify fun log => hseen log _
  · exact Keeps.forM fun entry _ => hf _ _ (by decide)

end Traced

section NewObjects

/-- The line that announces a new object, if its text can be built. -/
def newObjectLine [ConsoleValue Value ObjectId] [ToString ObjectId]
    (object : Object ObjectId Value) : Option LogLine :=
  match toStringObject object false with
  | .error _ => none
  | .ok text => some (.printed .logInfo "new %s" [text])

def newObjectLines (log : ConsoleLog) : List LogLine :=
  log.lines.filter (·.format = "new %s")

theorem keeps_newObjectLines (level : LogLevel) {format : String} (args : List String)
    (h : format ≠ "new %s") : Keeps newObjectLines (notifyErr level format args) := by
  refine keeps_modify fun log => ?_
  simp [newObjectLines, h]

theorem overlooks_newObjectLines : Overlooks newObjectLines := by
  intro level format args hformat
  exact keeps_newObjectLines level args fun hnew => hformat (by simp [hnew])

variable [ConsoleValue Value ObjectId] [ToString ObjectId]

section Save
variable [DecidableEq ObjectId]

omit [DecidableEq ObjectId] in
theorem newObjectLine_format {object : Object ObjectId Value} {line : LogLine}
    (h : newObjectLine object = some line) : line.level = .logInfo ∧ line.format = "new %s" := by
  unfold newObjectLine at h
  cases htext : toStringObject object false with
  | error e => simp [htext] at h
  | ok text =>
    simp only [htext, Option.some.injEq] at h
    subst h
    exact ⟨rfl, rfl⟩

theorem saveProps_log (object : Object ObjectId Value) (s : LoggedListener ObjectId Value) :
    (stateOf (ConsoleListener.saveProps object s)).log =
      { s.log with lines := s.log.lines ++ if (s.listener.getProps object.objectId).isNone then
        (newObjectLine object).toList else [] } := by
  unfold ConsoleListener.saveProps Qmf1.ConsoleListener.getProps newObjectLine
  simp only [get_bind_apply]
  have hsame : s.log = { s.log with lines := s.log.lines ++ [] } := by simp
  cases s.listener.props.lookup object.objectId with
  | some known => exact hsame
  | none =>
    cases toStringObject object false with
    | error e => exact hsame
    | ok text => rfl

theorem saveProps_lines (object : Object ObjectId Value) (s : LoggedListener ObjectId Value) :
    newObjectLines (stateOf (ConsoleListener.saveProps object s)).log =
      newObjectLines s.log ++ if (s.listener.getProps object.objectId).isNone then
        (newObjectLine object).toList else [] := by
  rw [saveProps_log, newObjectLines, List.filter_append, newObjectLines]
  congr 1
  split_ifs
  · cases hline : newObjectLine object with
    | none => rfl
    | some line => simp [(newObjectLine_format hline).2]
  · rfl

end Save

variable [ToString Value]

theorem keeps_logObject_lines (function : String) (pmDebug : DebugFlags)
    (object : Reported ObjectId Value) :
    Keeps newObjectLines (ConsoleLogger.logObject function pmDebug object) :=
  keeps_logObject (fun _ args hformat => keeps_newObjectLines _ args hformat) (fun _ _ => rfl)
    function pmDebug object

theorem keeps_filterProps (pmDebug : DebugFlags) (includeAutoDelete : Bool)
    (object : Reported ObjectId Value) :
    Keeps newObjectLines (ConsoleListener.filterProps pmDebug includeAutoDelete object) := by
  refine (keeps_logObject_lines _ pmDebug object).bind fun _ => ?_
  refine keeps_ite (keeps_pure _ false) (keeps_ite (keeps_pure _ true) ?_)
  exact (keeps_isAutoDelete overlooks_newObjectLines pmDebug object.toObject).bind fun b =>
    keeps_pure _ !b

variable [DecidableEq ObjectId]

theorem objectProps_lines (pmDebug : DebugFlags) (object : Reported ObjectId Value)
    (s : LoggedListener ObjectId Value) :
    newObjectLines (stateOf (ConsoleListener.objectProps pmDebug object s)).log =
      newObjectLines s.log ++
        if ConsoleListener.propsSaved pmDebug s.listener.includeAutoDelete object.toObject &&
          (s.listener.getProps object.objectId).isNone then
            (newObjectLine object.toObject).toList else [] := by
  have hkept := keeps_filterProps pmDebug s.listener.includeAutoDelete object s.log
  have hyields := yields_filterProps pmDebug s.listener.includeAutoDelete object s.log
  unfold ConsoleListener.objectProps ConsoleListener.propsSaved
  rw [← hyields]
  rw [get_bind_apply]
  simp only [Bind.bind, EStateM.bind, onLog]
  cases hr : ConsoleListener.filterProps pmDebug s.listener.includeAutoDelete object s.log with
  | error e log =>
    rw [hr] at hkept
    exact hkept.trans (List.append_nil _).symm
  | ok save log =>
    rw [hr] at hkept
    cases save with
    | false => exact hkept.trans (List.append_nil _).symm
    | true =>
      refine (saveProps_lines object.toObject { s with log := log }).trans ?_
      rw [show newObjectLines log = newObjectLines s.log from hkept]
      rfl

theorem exec_lines (pmDebug : DebugFlags) (callback : Callback ObjectId Value)
    (s : LoggedListener ObjectId Value) :
    newObjectLines (callback.exec pmDebug s).log = newObjectLines s.log ++
      match callback.update.bind (ListenerCall.savedProps pmDebug s.listener.includeAutoDelete) with
      | none => []
      | some object =>
        if (s.listener.getProps object.objectId).isNone then (newObjectLine object).toList
        else [] := by
  have hkept {m : LogM Unit} (h : Keeps newObjectLines m) :
      newObjectLines (stateOf (onLog m s)).log = newObjectLines s.log ++ [] :=
    (keeps_onLog h s).trans (List.append_nil _).symm
  cases callback with
  | brokerConnected broker | brokerDisconnected broker =>
    exact hkept (keeps_newObjectLines _ _ (by decide))
  | objectProps object =>
    refine (objectProps_lines pmDebug object s).trans ?_
    cases hsaved : ConsoleListener.propsSaved pmDebug s.listener.includeAutoDelete
      object.toObject <;> simp [Callback.update, ListenerCall.savedProps, hsaved]
  | objectStats object =>
    refine (objectStats_observed overlooks_newObjectLines pmDebug object s).trans ?_
    exact (keeps_logObject_lines _ pmDebug object s.log).trans (List.append_nil _).symm
  | event raised =>
    refine hkept (keeps_whenTracing _ ((keeps_newObjectLines _ _ (by decide)).bind fun _ => ?_))
    exact keeps_logAttributes overlooks_newObjectLines _ _
  | _ => exact hkept (keeps_whenTracing _ (keeps_newObjectLines _ _ (by decide)))

theorem run_start_listener (pmDebug : DebugFlags) (includeAutoDelete : Bool)
    (callbacks : List (Callback ObjectId Value)) :
    (run (Callback.exec pmDebug) callbacks
        ⟨ConsoleListener.start includeAutoDelete, .empty⟩).listener =
      ListenerCall.history pmDebug includeAutoDelete (callbacks.filterMap Callback.update) :=
  Callback.run_listener pmDebug callbacks _

theorem run_newObjectLines (pmDebug : DebugFlags) (includeAutoDelete : Bool)
    (callbacks : List (Callback ObjectId Value)) :
    newObjectLines (run (Callback.exec pmDebug) callbacks
        ⟨ConsoleListener.start includeAutoDelete, .empty⟩).log =
      (firsts (·.objectId) ((callbacks.filterMap Callback.update).filterMap
        (ListenerCall.savedProps pmDebug includeAutoDelete))).filterMap newObjectLine := by
  induction callbacks using List.reverseRecOn with
  | nil => rfl
  | append_singleton callbacks callback ih =>
    rw [run_concat, exec_lines, ih, run_start_listener, ListenerCall.history_includeAutoDelete,
      List.filterMap_append, List.filterMap_append]
    cases hupdate : callback.update with
    | none => simp [hupdate]
    | some call =>
      cases hsaved : ListenerCall.savedProps pmDebug includeAutoDelete call with
      | none => simp [hupdate, hsaved]
      | some object =>
        have hone : ([callback].filterMap Callback.update).filterMap
            (ListenerCall.savedProps pmDebug includeAutoDelete) = [object] := by
          simp [hupdate, hsaved]
        rw [hone, firsts_concat, List.filterMap_append, Option.bind_some, hsaved]
        simp only [ListenerCall.history_isNone]
        by_cases hfound : object.objectId ∈ ((callbacks.filterMap Callback.update).filterMap
            (ListenerCall.savedProps pmDebug includeAutoDelete)).map (·.objectId)
        · rw [if_pos hfound, decide_eq_false (not_not.mpr hfound)]
          rfl
        · rw [if_neg hfound, decide_eq_true hfound]
          cases hline : newObjectLine object <;> simp [hline]

/-- Whatever the callbacks are, the log announces each object once, with the first update that is
saved for it and unless its text cannot be built, and the queue holds the announced objects in the
order of these lines. -/
theorem new_objects_logged_once (pmDebug : DebugFlags) (includeAutoDelete : Bool)
    (callbacks : List (Callback ObjectId Value)) :
    newObjectLines (run (Callback.exec pmDebug) callbacks
        ⟨ConsoleListener.start includeAutoDelete, .empty⟩).log =
      (firsts (·.objectId) ((callbacks.filterMap Callback.update).filterMap
        (ListenerCall.savedProps pmDebug includeAutoDelete))).filterMap newObjectLine ∧
    (run (Callback.exec pmDebug) callbacks
        ⟨ConsoleListener.start includeAutoDelete, .empty⟩).listener.newObjects =
      ((firsts (·.objectId) ((callbacks.filterMap Callback.update).filterMap
        (ListenerCall.savedProps pmDebug includeAutoDelete))).filter fun object =>
          (newObjectLine object).isSome).map (·.objectId) := by
  refine ⟨run_newObjectLines pmDebug includeAutoDelete callbacks, ?_⟩
  have hloggable (object : Object ObjectId Value) :
      ListenerCall.loggable object = (newObjectLine object).isSome := by
    unfold ListenerCall.loggable newObjectLine
    cases toStringObject object false <;> rfl
  rw [run_start_listener, ListenerCall.history_newObjects, ListenerCall.announced]
  · rw [funext hloggable]
  · intro call hcall
    obtain ⟨callback, -, hupdate⟩ := List.mem_filterMap.mp hcall
    rintro rfl
    cases callback <;> simp [Callback.update] at hupdate

end NewObjects

end QpidPmda.Qmf1.Logged
