import QpidPmda.Foundations.StatePrograms
import QpidPmda.Qmf1.RegistrationOrder

/-! # The log of the PMDA's own calls

`begin_fetch_values` and `fetch_value` once more, with the lines that they
write. A fetch that ends with an exception of PCP has named its metric in one
line, and any other fetch of a listed instance writes nothing. Two of the three
messages of `begin_fetch_values` are never written, and the third once for each
object without a name at most.
-/

namespace QpidPmda.Qmf1.Logged
open Qpid Pcp ConsoleUtils ConsoleValue Foundations

/-- The numbers of the PCP types. -/
def typeNumber : PmType → Int
  | .pmType32 => 0
  | .pmTypeU32 => 1
  | .pmType64 => 2
  | .pmTypeU64 => 3
  | .pmTypeFloat => 4
  | .pmTypeDouble => 5
  | .pmTypeString => 6
  | .other code => code

/-- A program that writes lines and may end with a fault. -/
abbrev FetchM := EStateM Fault (List LogLine)

def writeLine (level : LogLevel) (format : String) (args : List String) : FetchM Unit :=
  modify fun lines => lines ++ [.printed level format args]

section FetchValue
variable {ObjectId Value : Type} [ConsoleValue Value ObjectId] [ToString ObjectId]
  (what : QpidException → String)

/-- The handler of the `try` block of `fetch_value`. -/
def handle (metricName : String) (type : PmType) : Except Fault Atom → FetchM Atom
  | .error (.qpid e) => do
    writeLine .logErr "error converting %s metric to type %d: %s"
      [metricName, toString (typeNumber type), what e]
    throw (.pcp ⟨.pmErrType, some e.message⟩)
  | result => liftExcept result

/-- The `try` block of `fetch_value`. -/
def convert (metricName : String) (type : PmType) (value : Value) : FetchM Atom :=
  match type with
  | .other code => do
    writeLine .logErr "%s metric uses unsupported type %d" [metricName, toString code]
    throw (.pcp ⟨.pmErrType, none⟩)
  | type => handle what metricName type (Qmf1.convert type value)

def metricValue (metric : MetricId) (object : Object ObjectId Value) : FetchM Atom :=
  match supportedMetric metric.cluster metric.item with
  | none => throw .outOfRange
  | some description =>
    match object.attributes.lookup description.metricName with
    | none => do
      let text ← liftExcept ((toStringObject object false).mapError Fault.qpid)
      writeLine .logNotice "no %s metric found for %s" [description.metricName, text]
      throw (.pcp ⟨.pmErrValue, none⟩)
    | some value => convert what description.metricName metric.type value

variable {P : Library ObjectId} [DecidableEq ObjectId]

/-- `fetch_value`. -/
def fetchValue (metric : MetricId) (s : Pmda P Value) : FetchM Atom :=
  match domainOfCluster metric.cluster with
  | none => throw .undefinedBehaviour
  | some domain =>
    match P.lookup s.cache domain.indom metric.inst with
    | .error e => throw (.pcp e)
    | .ok entry =>
      match entry.opaquePointer with
      | none => do
        writeLine .logErr "pcp::cache::lookup returned NULL for cluster %ju"
          [toString metric.cluster]
        throw (.pcp ⟨.pmErrInst, none⟩)
      | some objectId =>
        match Pmda.readObject metric.cluster objectId s.listener with
        | none => do
          let object ← liftExcept (dereference (none : Option (Object ObjectId Value)))
          let text ← liftExcept ((toStringObject object false).mapError Fault.qpid)
          writeLine .logNotice "no %s for %s"
            [if metric.cluster % 2 = 0 then "properties" else "statistics", text]
          throw (.pcp ⟨.pmErrInst, none⟩)
        | some object => metricValue what metric object

/-- A run that ends with an exception of PCP has written one line, which begins with this text, and
any other run none. -/
def Explained (text : String) (lines : List LogLine) :
    EStateM.Result Fault (List LogLine) Atom → Prop
  | .error (.pcp _) lines' => ∃ line, lines' = lines ++ [line] ∧ line.args.head? = some text
  | .error _ lines' => lines' = lines
  | .ok _ lines' => lines' = lines

omit [DecidableEq ObjectId]

theorem explained_throw {text : String} (htext : cString text = text) (level : LogLevel)
    (format : String) (args : List String) (e : PcpException) (lines : List LogLine) :
    Explained text lines
      ((do writeLine level format (text :: args); throw (.pcp e) : FetchM Atom) lines) :=
  ⟨_, rfl, congrArg some htext⟩

variable {metricName : String} (hname : cString metricName = metricName)
include hname

omit [ConsoleValue Value ObjectId] [ToString ObjectId] in
theorem handle_explained (type : PmType) {result : Except Fault Atom}
    (h : ∀ fault, result = .error fault → ∃ e, fault = .qpid e) (lines : List LogLine) :
    resultOf (handle what metricName type result lines) = caught result ∧
      Explained metricName lines (handle what metricName type result lines) := by
  cases result with
  | ok atom => exact ⟨rfl, rfl⟩
  | error fault =>
    obtain ⟨e, rfl⟩ := h fault rfl
    exact ⟨rfl, explained_throw hname _ _ _ _ lines⟩

theorem convert_explained (type : PmType) (value : Value) (lines : List LogLine) :
    resultOf (convert what metricName type value lines) = caught (Qmf1.convert type value) ∧
      Explained metricName lines (convert what metricName type value lines) := by
  cases type with
  | other code => exact ⟨rfl, explained_throw hname _ _ _ _ lines⟩
  | _ =>
    refine handle_explained what hname _ (fun fault hfault => ?_) lines
    exact mapError_qpid_bind hfault fun a => by simp

omit hname

theorem cString_metricName {cluster item : Nat} {description : MetricDescription}
    (h : supportedMetric cluster item = some description) :
    cString description.metricName = description.metricName := by
  have hall : ∀ p ∈ getSupportedMetrics, ∀ m ∈ p.2, cString m.metricName = m.metricName := by
    simp only [getSupportedMetrics, brokerProperties, brokerStatistics, queueProperties,
      queueStatistics, systemProperties, List.forall_mem_cons, List.not_mem_nil, false_implies,
      implies_true, and_true]
    and_intros <;> exact cString_ofList rfl
  obtain ⟨metrics, hcluster, hmetric⟩ := exists_of_supportedMetric h
  exact hall _ hcluster description hmetric

theorem metricValue_explained {metric : MetricId} {description : MetricDescription}
    (h : supportedMetric metric.cluster metric.item = some description)
    (object : Object ObjectId Value) (lines : List LogLine) :
    resultOf (metricValue what metric object lines) = Qmf1.metricValue metric object ∧
      Explained description.metricName lines (metricValue what metric object lines) := by
  unfold metricValue Qmf1.metricValue
  simp only [h]
  cases object.attributes.lookup description.metricName with
  | some value => exact convert_explained what (cString_metricName h) _ value lines
  | none =>
    cases htext : toStringObject object false with
    | error e => exact ⟨rfl, rfl⟩
    | ok text => exact ⟨rfl, explained_throw (cString_metricName h) _ _ _ _ lines⟩

end FetchValue

section Runs
variable {ObjectId Value : Type} {P : Library ObjectId} [ConsoleValue Value ObjectId]
  [ToString ObjectId] [DecidableEq ObjectId] {pmDebug : DebugFlags} {includeAutoDelete : Bool}

/-- In every reachable state, a fetch of a supported metric at a listed instance ends as without the
log. It has written one line about the metric when an exception of PCP leaves it, and nothing when
it returns or ends in another way. -/
theorem fetch_explained (hP : P.Lawful) (actions : List (Action ObjectId Value))
    {metric : MetricId} {description : MetricDescription} {name : String}
    (hsupported : supportedMetric metric.cluster metric.item = some description)
    (hlisted : P.instanceName ((System.after P pmDebug includeAutoDelete actions).pmda.domains
      description.domain) metric.inst = some name)
    (what : QpidException → String) (lines : List LogLine) :
    resultOf (fetchValue what metric (System.after P pmDebug includeAutoDelete actions).pmda
        lines) =
      (Pmda.fetchValue metric (System.after P pmDebug includeAutoDelete actions).pmda).1 ∧
    Explained description.metricName lines
      (fetchValue what metric (System.after P pmDebug includeAutoDelete actions).pmda lines) := by
  have hc : System.Cached (System.after P pmDebug includeAutoDelete actions) :=
    System.after_cached hP actions
  obtain ⟨r, -, -, hlookup⟩ := hc.listed hlisted
  unfold fetchValue Pmda.fetchValue Pmda.fetchResult
  simp only [domainOfCluster_supported hsupported, hlookup]
  cases Pmda.readObject metric.cluster r.objectId
      (System.after P pmDebug includeAutoDelete actions).pmda.listener with
  | none => exact ⟨rfl, rfl⟩
  | some object => exact metricValue_explained what hsupported object lines

/-- A queue without the attribute: the fetch names the metric and gives up. -/
theorem fetch_explained_orders : ∃ line,
    stateOf (fetchValue (·.message) ⟨2, 1, 0, .pmTypeString⟩ System.sharing.pmda []) = [line] ∧
      line.args.head? = some "arguments" := by
  have hlisted : (NameTable.library Nat).instanceName (System.sharing.pmda.domains .queue) 0 =
      some "orders" := by decide
  have hsupported : supportedMetric (⟨2, 1, 0, .pmTypeString⟩ : MetricId).cluster 1 =
      some ⟨1, "arguments", .string, .queue⟩ := rfl
  obtain ⟨-, hexplained⟩ := fetch_explained (NameTable.library_lawful Nat)
    (System.registerQueues System.sameNames) hsupported hlisted (·.message) []
  exact hexplained

/-- One iteration of `begin_fetch_values`. -/
def register (objectId : ObjectId) (props : Option (Object ObjectId Value)) (s : Pmda P Value) :
    FetchM (IterationExit ObjectId Value × Pmda P Value) :=
  match props with
  | none => do
    writeLine .logNotice "No properties found for object %s" [toStringObjectId objectId]
    return (.noProperties, s)
  | some props =>
    match domainOfType (getTypeObject props) with
    | none => do
      writeLine .logErr "%s has unsupported type" [toStringObjectId objectId]
      return (.unsupportedType, s)
    | some domain =>
      match getName props true with
      | .error e => return (.qpidException e, s)
      | .ok instanceName =>
        if instanceName = "" then do
          writeLine .logWarning "%s has no name attribute" [toStringObjectId objectId]
          return (.noName, s)
        else
          match P.store s.cache domain.indom instanceName objectId with
          | .error e => return (.storeException e, s)
          | .ok (instanceId, cache) =>
            return (.registered ⟨domain, instanceId, instanceName, objectId, props⟩, { s with
              cache := cache
              domains := Function.update s.domains domain
                (P.addInstance (s.domains domain) instanceId instanceName) })

/-- The line that an iteration writes. -/
def exitLine (objectId : ObjectId) : IterationExit ObjectId Value → Option LogLine
  | .noProperties =>
    some (.printed .logNotice "No properties found for object %s" [toStringObjectId objectId])
  | .unsupportedType =>
    some (.printed .logErr "%s has unsupported type" [toStringObjectId objectId])
  | .noName => some (.printed .logWarning "%s has no name attribute" [toStringObjectId objectId])
  | _ => none

omit [DecidableEq ObjectId] in
theorem register_writes (objectId : ObjectId) (props : Option (Object ObjectId Value))
    (s : Pmda P Value) (lines : List LogLine) :
    register objectId props s lines = .ok (Pmda.register objectId props s)
      (lines ++ (exitLine objectId (Pmda.register objectId props s).1).toList) := by
  unfold register Pmda.register
  cases props with
  | none => rfl
  | some props =>
    dsimp only
    cases domainOfType (getTypeObject props) with
    | none => rfl
    | some domain =>
      dsimp only
      cases getName props true with
      | error e => simp [exitLine, pure, EStateM.pure]
      | ok instanceName =>
        dsimp only
        split_ifs with hempty
        · rfl
        · cases P.store s.cache domain.indom instanceName objectId <;>
            simp [exitLine, pure, EStateM.pure]

/-- The messages of `begin_fetch_values`. -/
def registrationFormats : List String :=
  ["No properties found for object %s", "%s has unsupported type", "%s has no name attribute"]

def registrationLines (lines : List LogLine) : List LogLine :=
  lines.filter (·.format ∈ registrationFormats)

theorem registrationLines_append (first second : List LogLine) :
    registrationLines (first ++ second) = registrationLines first ++ registrationLines second :=
  List.filter_append ..

theorem keeps_writeLine {format : String} (h : format ∉ registrationFormats) (level : LogLevel)
    (args : List String) : Keeps registrationLines (writeLine level format args) :=
  keeps_modify fun lines => by simp [registrationLines, h]

theorem keeps_throw {α : Type} (fault : Fault) :
    Keeps registrationLines (throw fault : FetchM α) := fun _ => rfl

theorem keeps_fail {format : String} (h : format ∉ registrationFormats) (level : LogLevel)
    (args : List String) (fault : Fault) : Keeps registrationLines
      (do writeLine level format args; throw fault : FetchM Atom) :=
  (keeps_writeLine h level args).bind fun _ => keeps_throw fault

omit [DecidableEq ObjectId] in
theorem keeps_metricValue (what : QpidException → String) (metric : MetricId)
    (object : Object ObjectId Value) :
    Keeps registrationLines (metricValue what metric object) := by
  unfold metricValue
  cases supportedMetric metric.cluster metric.item with
  | none => exact keeps_throw _
  | some description =>
    dsimp only
    cases object.attributes.lookup description.metricName with
    | none => exact (keeps_liftExcept _ _).bind fun text => keeps_fail (by decide) _ _ _
    | some value =>
      dsimp only
      unfold convert
      split
      · exact keeps_fail (by decide) _ _ _
      · unfold handle
        split
        · exact keeps_fail (by decide) _ _ _
        · exact keeps_liftExcept _ _

theorem keeps_fetchValue (what : QpidException → String) (metric : MetricId) (s : Pmda P Value) :
    Keeps registrationLines (fetchValue what metric s) := by
  unfold fetchValue
  cases domainOfCluster metric.cluster with
  | none => exact keeps_throw _
  | some domain =>
    dsimp only
    cases P.lookup s.cache domain.indom metric.inst with
    | error e => exact keeps_throw _
    | ok entry =>
      dsimp only
      cases entry.opaquePointer with
      | none => exact keeps_fail (by decide) _ _ _
      | some objectId =>
        dsimp only
        cases Pmda.readObject metric.cluster objectId s.listener with
        | none =>
          exact (keeps_liftExcept _ _).bind fun object => (keeps_liftExcept _ _).bind fun text =>
            keeps_fail (by decide) _ _ _
        | some object => exact keeps_metricValue what metric object

/-- The system together with the lines of the PMDA's calls. -/
structure LoggedSystem {ObjectId : Type} (P : Library ObjectId) (Value : Type) where
  system : System P Value
  lines : List LogLine

def LoggedSystem.initial (P : Library ObjectId) (Value : Type) (includeAutoDelete : Bool) :
    LoggedSystem P Value := ⟨System.initial P Value includeAutoDelete, []⟩

def LoggedSystem.exec (what : QpidException → String) (pmDebug : DebugFlags)
    (action : Action ObjectId Value) (s : LoggedSystem P Value) : LoggedSystem P Value where
  system := System.exec pmDebug action s.system
  lines := match action, s.system.progress with
    | .advance, .fetched objectId props => stateOf (register objectId props s.system.pmda s.lines)
    | .fetchValue metric, .idle => stateOf (fetchValue what metric s.system.pmda s.lines)
    | _, _ => s.lines

/-- The lines that belong to the iterations of the trace. -/
def exitLines (s : System P Value) : List LogLine :=
  s.trace.filterMap fun x => exitLine x.1 x.2

theorem trace_exec (action : Action ObjectId Value) (s : System P Value) :
    (System.exec pmDebug action s).trace = s.trace ++
      match action, s.progress with
      | .advance, .fetched objectId props => [(objectId, (Pmda.register objectId props s.pmda).1)]
      | _, _ => [] := by
  cases action with
  | objectProps object => simp [System.exec, System.withListener]
  | objectStats object => simp [System.exec, System.withListener]
  | beginFetch => cases h : s.progress <;> simp [System.exec, h]
  | fetchValue metric => cases h : s.progress <;> simp [System.exec, h]
  | advance =>
    cases h : s.progress with
    | looping =>
      cases hq : s.pmda.listener.newObjects <;>
        simp [System.exec, System.advance, System.withListener,
          Qmf1.ConsoleListener.getNewObjectId_listener, h, hq]
    | _ => simp [System.exec, System.advance, h]

omit [ConsoleValue Value ObjectId] [DecidableEq ObjectId] in
theorem registrationLines_exitLine (objectId : ObjectId) (exit : IterationExit ObjectId Value) :
    registrationLines (exitLine objectId exit).toList = (exitLine objectId exit).toList := by
  cases exit <;> simp [exitLine, registrationLines, registrationFormats]

theorem registrationLines_exec (what : QpidException → String) (pmDebug : DebugFlags)
    (action : Action ObjectId Value) {s : LoggedSystem P Value}
    (h : registrationLines s.lines = exitLines s.system) :
    registrationLines (s.exec what pmDebug action).lines =
      exitLines (s.exec what pmDebug action).system := by
  unfold exitLines at h ⊢
  unfold LoggedSystem.exec
  rw [trace_exec, List.filterMap_append, ← h]
  cases action with
  | advance =>
    cases hprogress : s.system.progress with
    | fetched objectId props =>
      have hline : [(objectId, (Pmda.register objectId props s.system.pmda).1)].filterMap
          (fun x => exitLine x.1 x.2) =
          (exitLine objectId (Pmda.register objectId props s.system.pmda).1).toList := by
        cases hexit : exitLine objectId (Pmda.register objectId props s.system.pmda).1 <;>
          simp [hexit]
      simp only [register_writes, stateOf, hline, registrationLines_append,
        registrationLines_exitLine]
    | _ => simp
  | fetchValue metric =>
    cases hprogress : s.system.progress with
    | idle => simpa using keeps_fetchValue what metric s.system.pmda s.lines
    | _ => simp
  | _ => simp

/-- The ids whose iteration found no name. -/
def nameless (s : System P Value) : List ObjectId :=
  s.trace.filterMap fun x => match x.2 with
    | .noName => some x.1
    | _ => none

def namelessLine (objectId : ObjectId) : LogLine :=
  .printed .logWarning "%s has no name attribute" [toStringObjectId objectId]

theorem run_system (what : QpidException → String) (pmDebug : DebugFlags)
    (actions : List (Action ObjectId Value)) (s : LoggedSystem P Value) :
    (run (LoggedSystem.exec what pmDebug) actions s).system =
      run (System.exec pmDebug) actions s.system := by
  induction actions generalizing s with
  | nil => rfl
  | cons action actions ih => exact ih _

/-- Of the three messages, the accounted objects leave the one about the name. -/
theorem exitLines_accounted {s : System P Value} (ha : System.Accounted s) :
    exitLines s = (nameless s).map namelessLine := by
  unfold exitLines nameless
  rw [List.map_filterMap]
  refine List.filterMap_congr fun ⟨x, exit⟩ hx => ?_
  obtain ⟨-, hproperties, hsupported⟩ := ha.traced x exit hx
  cases exit with
  | noProperties => exact absurd rfl hproperties
  | unsupportedType => exact absurd rfl hsupported
  | _ => rfl

omit [ConsoleValue Value ObjectId] [ToString ObjectId] [DecidableEq ObjectId] in
theorem nameless_sublist (s : System P Value) :
    (nameless s).Sublist (s.trace.map Prod.fst) := by
  unfold nameless
  induction s.trace with
  | nil => exact List.Sublist.refl _
  | cons x trace ih =>
    obtain ⟨x, exit⟩ := x
    cases exit with
    | noName => exact ih.cons_cons x
    | _ => exact ih.cons x

/-- The log of the registrations has no part in them. Over every run it holds a warning for each
object without a name, in the order of their iterations and once for an object, and it never says
that an object has no properties or an unsupported type. -/
theorem registration_log (what : QpidException → String) (pmDebug : DebugFlags)
    (includeAutoDelete : Bool) (actions : List (Action ObjectId Value)) :
    (run (LoggedSystem.exec what pmDebug) actions (.initial P Value includeAutoDelete)).system =
      System.after P pmDebug includeAutoDelete actions ∧
    registrationLines (run (LoggedSystem.exec what pmDebug) actions
        (.initial P Value includeAutoDelete)).lines =
      (nameless (System.after P pmDebug includeAutoDelete actions)).map namelessLine ∧
    (nameless (System.after P pmDebug includeAutoDelete actions)).Nodup := by
  have hsystem : (run (LoggedSystem.exec what pmDebug) actions
      (.initial P Value includeAutoDelete)).system =
        System.after P pmDebug includeAutoDelete actions := run_system ..
  have hlines : registrationLines (run (LoggedSystem.exec what pmDebug) actions
      (.initial P Value includeAutoDelete)).lines =
        exitLines (run (LoggedSystem.exec what pmDebug) actions
          (.initial P Value includeAutoDelete)).system :=
    run_invariant (LoggedSystem.exec what pmDebug)
      (I := fun s => registrationLines s.lines = exitLines s.system)
      (fun action s h => registrationLines_exec what pmDebug action h) actions rfl
  have htaken : (System.after P pmDebug includeAutoDelete actions).taken = _ :=
    System.taken_after actions
  refine ⟨hsystem, ?_, (System.nodup_trace ?_).sublist (nameless_sublist _)⟩
  · rw [hlines, hsystem]
    exact exitLines_accounted (System.after_accounted actions)
  · rw [htaken]
    exact ListenerCall.nodup_announced _

end Runs

end QpidPmda.Qmf1.Logged
