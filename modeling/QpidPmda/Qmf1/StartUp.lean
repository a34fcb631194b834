import QpidPmda.Foundations.StatePrograms
import QpidPmda.Qmf1.ConnectionOptions

/-! # From the command line to the brokers

The daemon parses its command line and then initialises the PMDA, which hands
every configured connection to the session manager before anything else. The
outcome is settled by the options that are read with another type than they are
declared with, by the first broker that is no URL, and by the first connection
that the session manager refuses.
-/

namespace QpidPmda.Qmf1
open Qpid Pcp Boost VariablesMap Foundations

variable {ObjectId Value : Type}

/-- What the daemon has set up: the members of the PMDA, and the brokers of its session manager. -/
structure Daemon (ObjectId Value : Type) where
  startup : Startup ObjectId Value
  brokers : List ConnectionSettings

abbrev DaemonM (ObjectId Value : Type) := EStateM StartFault (Daemon ObjectId Value)

/-- A call that has to do with the members only. -/
def onStartup {α : Type} (m : Start ObjectId Value α) : DaemonM ObjectId Value α := fun d =>
  match m.run d.startup with
  | .ok a startup => .ok a { d with startup := startup }
  | .error e startup => .error e { d with startup := startup }

/-- What the daemon gets from the libraries: whether the session manager takes a broker, and how the
base class initialises. -/
structure Environment where
  addBroker : ConnectionSettings → Except QpidException Unit
  parentInitialize : Except PcpException Unit
  /-- `PM_ERR_FAULT`, or `PM_ERR_GENERIC` where PCP does not have it. -/
  pmErrFault : PmError

/-- One round of the loop of `initialize_pmda`. -/
def addConnection (env : Environment) (connection : ConnectionSettings) :
    DaemonM ObjectId Value Unit := do
  liftExcept ((env.addBroker connection).mapError StartFault.qpid)
  modify fun d => { d with brokers := d.brokers ++ [connection] }

/-- `initialize_pmda`. The dialogue of the non-PMDA mode is left out. -/
def initializePmda (env : Environment) : DaemonM ObjectId Value Unit := do
  let d ← get
  forM d.startup.qpidConnectionSettings (addConnection env)
  if d.startup.nonPmdaMode then throw (.pcp ⟨env.pmErrFault, none⟩)
  else liftExcept (env.parentInitialize.mapError StartFault.pcp)

/-- The daemon initialises the PMDA when the parse of the command line tells it to. -/
def startUp (env : Environment) (client : Client) (pmDebug : DebugFlags)
    (parent : Except PcpException Bool) (options : VariablesMap) : DaemonM ObjectId Value Unit := do
  if ← onStartup (parseCommandLine client pmDebug parent options) then initializePmda env

section Parse
variable {base : List OptionDescription} {options : VariablesMap} {client : Client}
  {brokers : List String}

/-- The members once the parse begins to look at the brokers. -/
def prepared (pmDebug : DebugFlags) (options : VariablesMap) (s : Startup ObjectId Value) :
    Startup ObjectId Value :=
  { s with
    logSelectors := [logSelector pmDebug]
    environment := exported options s.environment }

/-- The members once the connections of these URLs are made. -/
def connected (client : Client) (options : VariablesMap) (urls : List Url)
    (s : Startup ObjectId Value) : Startup ObjectId Value :=
  { s with qpidConnectionSettings :=
      s.qpidConnectionSettings ++ connections (configured options client.defaults) urls }

/-- The members once the switches are read. -/
def switched (options : VariablesMap) (s : Startup ObjectId Value) : Startup ObjectId Value :=
  { s with
    consoleListener := ConsoleListener.setIncludeAutoDelete
      ((options.given Bool "include-auto-delete").getD false) s.consoleListener
    nonPmdaMode := (options.given Bool "no-pmda").getD false }

theorem parseCommandLine_prepared (h : CommandLine base options) (pmDebug : DebugFlags)
    (s : Startup ObjectId Value) :
    (parseCommandLine client pmDebug (.ok true) options).run s =
      (do connectBrokers client options; setModes options; return true).run
        (prepared pmDebug options s) := by
  unfold parseCommandLine
  rw [run_bind_of_ok (run_ofExcept_ok ..)]
  simp only [Bool.not_true, Bool.false_eq_true, if_false]
  rw [run_bind_of_ok (EStateM.run_modify ..), run_bind_of_ok (setNssOptions_exported h _)]
  rfl

theorem connectBrokers_untilFailure (h : CommandLine base options)
    (hbrokers : options.given (List String) "broker" = some brokers)
    (hlocale : options.lookup "locale" = none) (hheartbeat : options.lookup "heartbeat" = none)
    (s : Startup ObjectId Value) :
    (connectBrokers client options).run s = match (untilFailure client.url brokers).2 with
      | none => .ok () (connected client options (untilFailure client.url brokers).1 s)
      | some e =>
        .error (.qpid e) (connected client options (untilFailure client.url brokers).1 s) := by
  have hread := setConnectionOptions_configured (c := client.defaults) h hlocale hheartbeat
  have hround (broker : String) (s : Startup ObjectId Value) :
      (connectBroker client options broker).run s =
        (ofExcept .qpid (client.url broker) >>= fun url => modify fun s => { s with
          qpidConnectionSettings := s.qpidConnectionSettings ++
            connectionsTo (configured options client.defaults) url }).run s := by
    unfold connectBroker
    rw [hread, run_bind_of_ok (run_ofExcept_ok ..)]
  rw [connectBrokers_run hbrokers]
  have hloop := forM_untilFailure client.url (connectBroker client options) StartFault.qpid
    (connected client options) ?_ ?_ ?_ ?_ brokers s
  · refine hloop.trans ?_
    cases (untilFailure client.url brokers).2 <;> rfl
  · intro s
    simp [connected, connections]
  · intro url urls s
    simp [connected, connections]
  · intro broker url s hurl
    refine (hround broker s).trans ?_
    rw [hurl, run_bind_of_ok (run_ofExcept_ok ..)]
    simp [connected, connections]
  · intro broker e s hurl
    refine (hround broker s).trans ?_
    rw [hurl, run_bind_of_error (run_ofExcept_error ..)]

/-- The outcome of the parse: the type errors of the options come first, if there is any broker,
and then the first broker that is no URL. -/
theorem parseCommandLine_outcome (h : CommandLine base options) (client : Client)
    (hbrokers : options.given (List String) "broker" = some brokers) (pmDebug : DebugFlags)
    (s : Startup ObjectId Value) :
    (parseCommandLine client pmDebug (.ok true) options).run s =
      if brokers ≠ [] ∧ (options.lookup "locale" ≠ none ∨ options.lookup "heartbeat" ≠ none) then
        .error (.option .badAnyCast) (prepared pmDebug options s)
      else match (untilFailure client.url brokers).2 with
        | none => .ok true (switched options
            (connected client options (untilFailure client.url brokers).1
              (prepared pmDebug options s)))
        | some e => .error (.qpid e)
            (connected client options (untilFailure client.url brokers).1
              (prepared pmDebug options s)) := by
  rw [parseCommandLine_prepared h pmDebug s]
  split_ifs with hmistyped
  · obtain ⟨hne, hsome⟩ := hmistyped
    obtain ⟨broker, rest, rfl⟩ := List.exists_cons_of_ne_nil hne
    have hround : (connectBroker client options broker).run (prepared pmDebug options s) =
        .error (.option .badAnyCast) (prepared pmDebug options s) := by
      unfold connectBroker
      rw [setConnectionOptions_mistyped h hsome, run_bind_of_error (run_ofExcept_error ..)]
    rw [run_bind_of_error]
    rw [connectBrokers_run hbrokers, List.forM_cons, run_bind_of_error hround]
  · have hloop : (connectBrokers client options).run (prepared pmDebug options s) =
        match (untilFailure client.url brokers).2 with
        | none => .ok () (connected client options (untilFailure client.url brokers).1
            (prepared pmDebug options s))
        | some e => .error (.qpid e)
            (connected client options (untilFailure client.url brokers).1
              (prepared pmDebug options s)) := by
      cases hb : brokers with
      | nil =>
        rw [connectBrokers_run hbrokers, hb]
        simp [untilFailure, connected, connections]
      | cons broker rest =>
        have hread : options.lookup "locale" = none ∧ options.lookup "heartbeat" = none := by
          simpa [hb] using hmistyped
        exact hb ▸ connectBrokers_untilFailure h hbrokers hread.1 hread.2 _
    cases hfailed : (untilFailure client.url brokers).2 with
    | some e =>
      rw [hfailed] at hloop
      rw [run_bind_of_error hloop]
    | none =>
      rw [hfailed] at hloop
      rw [run_bind_of_ok hloop, run_bind_of_ok (setModes_switched h _)]
      rfl

end Parse

section Initialize

/-- A connection that the session manager takes. -/
def Environment.accept (env : Environment) (connection : ConnectionSettings) :
    Except QpidException ConnectionSettings :=
  (env.addBroker connection).map fun _ => connection

/-- How the PMDA initialises once the brokers are handed over. -/
def Environment.ending (env : Environment) (nonPmdaMode : Bool) : Except StartFault Unit :=
  if nonPmdaMode then .error (.pcp ⟨env.pmErrFault, none⟩)
  else env.parentInitialize.mapError StartFault.pcp

/-- The daemon with more brokers. -/
def Daemon.withBrokers (new : List ConnectionSettings) (d : Daemon ObjectId Value) :
    Daemon ObjectId Value := { d with brokers := d.brokers ++ new }

theorem forM_addConnection (env : Environment) (l : List ConnectionSettings)
    (d : Daemon ObjectId Value) :
    (forM l (addConnection env)).run d = match (untilFailure env.accept l).2 with
      | none => .ok () (d.withBrokers (untilFailure env.accept l).1)
      | some e => .error (.qpid e) (d.withBrokers (untilFailure env.accept l).1) := by
  have hround (c : ConnectionSettings) (d : Daemon ObjectId Value) :
      addConnection env c d = match env.accept c with
        | .ok c => .ok () (d.withBrokers [c])
        | .error e => .error (.qpid e) d := by
    unfold addConnection Environment.accept
    cases env.addBroker c <;> rfl
  have hloop := forM_untilFailure env.accept (addConnection env) StartFault.qpid
    Daemon.withBrokers ?_ ?_ ?_ ?_ l d
  · refine hloop.trans ?_
    cases (untilFailure env.accept l).2 <;> rfl
  · intro d
    simp [Daemon.withBrokers]
  · intro c cs d
    simp [Daemon.withBrokers]
  · intro c c' d haccept
    rw [hround, haccept]
  · intro c e d haccept
    rw [hround, haccept]

/-- The outcome of `initialize_pmda`: the first connection that is refused comes before the mode,
and the mode before the base class. -/
theorem initializePmda_outcome (env : Environment) (d : Daemon ObjectId Value) :
    (initializePmda env).run d =
      match (untilFailure env.accept d.startup.qpidConnectionSettings).2 with
      | some e => .error (.qpid e)
          (d.withBrokers (untilFailure env.accept d.startup.qpidConnectionSettings).1)
      | none => (liftExcept (env.ending d.startup.nonPmdaMode) : DaemonM ObjectId Value Unit).run
          (d.withBrokers (untilFailure env.accept d.startup.qpidConnectionSettings).1) := by
  have hloop := forM_addConnection env d.startup.qpidConnectionSettings d
  have hrun : (initializePmda env).run d =
      (do forM d.startup.qpidConnectionSettings (addConnection env)
          if d.startup.nonPmdaMode then throw (.pcp ⟨env.pmErrFault, none⟩)
          else liftExcept (env.parentInitialize.mapError StartFault.pcp) :
        DaemonM ObjectId Value Unit).run d := rfl
  rw [hrun, EStateM.run_bind]
  cases hrefused : (untilFailure env.accept d.startup.qpidConnectionSettings).2 with
  | some e =>
    rw [hrefused] at hloop
    rw [hloop]
  | none =>
    rw [hrefused] at hloop
    rw [hloop]
    unfold Environment.ending
    cases d.startup.nonPmdaMode <;> rfl

end Initialize

section StartUp
variable {base : List OptionDescription} {options : VariablesMap} {client : Client}
  {brokers : List String}

theorem onStartup_of_ok {α : Type} {m : Start ObjectId Value α} {a : α}
    {d : Daemon ObjectId Value} {s : Startup ObjectId Value} (h : m.run d.startup = .ok a s) :
    (onStartup m).run d = .ok a { d with startup := s } := by
  simp only [EStateM.run, onStartup] at h ⊢
  rw [h]

theorem onStartup_of_error {α : Type} {m : Start ObjectId Value α} {e : StartFault}
    {d : Daemon ObjectId Value} {s : Startup ObjectId Value} (h : m.run d.startup = .error e s) :
    (onStartup m).run d = .error e { d with startup := s } := by
  simp only [EStateM.run, onStartup] at h ⊢
  rw [h]

/-- The daemon parses everything before it hands over anything: an option of the wrong type, if
there is any broker, and then the first broker that is no URL, leave the session manager as it was;
the connections before the first one that is refused stay with it; and only then the mode and the
base class decide. -/
theorem start_up_outcome (h : CommandLine base options)
    (hbrokers : options.given (List String) "broker" = some brokers) (env : Environment)
    (pmDebug : DebugFlags) (d : Daemon ObjectId Value) :
    let urls := untilFailure client.url brokers
    let made := connected client options urls.1 (prepared pmDebug options d.startup)
    let accepted := untilFailure env.accept made.qpidConnectionSettings
    (startUp env client pmDebug (.ok true) options).run d =
      if brokers ≠ [] ∧ (options.lookup "locale" ≠ none ∨ options.lookup "heartbeat" ≠ none) then
        .error (.option .badAnyCast) { d with startup := prepared pmDebug options d.startup }
      else match urls.2, accepted.2 with
        | some e, _ => .error (.qpid e) { d with startup := made }
        | none, some e => .error (.qpid e) ⟨switched options made, d.brokers ++ accepted.1⟩
        | none, none => (liftExcept (env.ending ((options.given Bool "no-pmda").getD false)) :
            DaemonM ObjectId Value Unit).run ⟨switched options made, d.brokers ++ accepted.1⟩ := by
  intro urls made accepted
  have hparse := parseCommandLine_outcome h client hbrokers pmDebug d.startup
  unfold startUp
  split_ifs at hparse ⊢ with hmistyped
  · rw [EStateM.run_bind, onStartup_of_error hparse]
  · cases hurls : urls.2 with
    | some e =>
      rw [hurls] at hparse
      rw [EStateM.run_bind, onStartup_of_error hparse]
    | none =>
      rw [hurls] at hparse
      rw [EStateM.run_bind, onStartup_of_ok hparse]
      refine (initializePmda_outcome env { d with startup := switched options made }).trans ?_
      -- The switches leave the connections as the loop over the brokers made them.
      have hkept : untilFailure env.accept (switched options made).qpidConnectionSettings =
          accepted := rfl
      simp only [hkept]
      cases accepted.2 <;> rfl

/-- A session manager that refuses the brokers on one host. -/
def refusing (host : String) : Environment where
  addBroker c := if c.host = host then .error ⟨"refused"⟩ else .ok ()
  parentInitialize := .ok ()
  pmErrFault := .other (-12400)

theorem start_up_outcome_refused : ∃ d,
    (startUp (refusing "b") plainClient ⟨false, false⟩ (.ok true)
      (commandLine [("broker", .stringVector ["a", "b", "c"])])).run ⟨constructed, []⟩ =
        .error (.qpid ⟨"refused"⟩) d ∧
      d.startup.qpidConnectionSettings.map (·.host) = ["a", "b", "c"] ∧
      d.brokers.map (·.host) = ["a"] := by
  have haccepted : CommandLine []
      (commandLine [("broker", .stringVector ["a", "b", "c"])]) := commandLine_accepted (by decide)
  exact ⟨_, start_up_outcome haccepted rfl (refusing "b") ⟨false, false⟩ ⟨constructed, []⟩,
    rfl, rfl⟩

end StartUp

end QpidPmda.Qmf1
