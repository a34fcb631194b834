import QpidPmda.Boost.ProgramOptions
import QpidPmda.Foundations.StatePrograms
import QpidPmda.Qpid.Client
import QpidPmda.Qmf1.ConsoleListener

/-! # The command line

The options that the PMDA declares, and what `parse_command_line` makes of them
once the base class has parsed them: the selector of the Qpid log, the
environment of the NSS libraries, and one connection for every address of every
broker. An exception leaves what was set before it.
-/

namespace QpidPmda.Qmf1
open Qpid Pcp Boost

/-- The options of `get_supported_options`, without those of the base class. -/
def qpidOptions : List OptionDescription := [
  ⟨"broker", .stringVector, some (.stringVector ["localhost"])⟩,
  ⟨"cert-db", .string, none⟩,
  ⟨"cert-name", .string, none⟩,
  ⟨"cert-password-file", .string, none⟩,
  ⟨"heartbeat", .double, none⟩,
  ⟨"locale", .double, none⟩,
  ⟨"protocol", .string, none⟩,
  boolSwitch "tcp-nodelay",
  ⟨"transport", .string, none⟩,
  ⟨"username", .string, none⟩,
  ⟨"password", .string, none⟩,
  ⟨"sasl-mechanisms", .string, none⟩,
  ⟨"sasl-min-ssf", .unsignedInt, none⟩,
  ⟨"sasl-max-ssf", .unsignedInt, none⟩,
  ⟨"sasl-service", .string, none⟩,
  boolSwitch "include-auto-delete"]

def getSupportedOptions (base : List OptionDescription) : List OptionDescription :=
  qpidOptions ++ base

def getSupportedHiddenOptions : List OptionDescription := [boolSwitch "no-pmda"]

/-- An exception that leaves `parse_command_line`. -/
inductive StartFault where
  | pcp (e : PcpException)
  | qpid (e : QpidException)
  | option (fault : OptionFault)
  deriving DecidableEq, Repr

/-- What `parse_command_line` writes. -/
structure Startup (ObjectId Value : Type) where
  nonPmdaMode : Bool
  qpidConnectionSettings : List ConnectionSettings
  consoleListener : ConsoleListener ObjectId Value
  environment : Finmap fun _ : String => String
  /-- The selectors that the Qpid logger was last configured with. -/
  logSelectors : List String

abbrev Start (ObjectId Value : Type) := EStateM StartFault (Startup ObjectId Value)

variable {ObjectId Value : Type}

/-- The result of a library call, or the exception that it raises. -/
def ofExcept {ε α : Type} (fault : ε → StartFault) : Except ε α → Start ObjectId Value α
  | .ok a => pure a
  | .error e => throw (fault e)

theorem run_ofExcept_ok {ε α : Type} (fault : ε → StartFault) (a : α)
    (s : Startup ObjectId Value) : (ofExcept fault (.ok a)).run s = .ok a s := rfl

theorem run_ofExcept_error {ε α : Type} (fault : ε → StartFault) (e : ε)
    (s : Startup ObjectId Value) :
    (ofExcept fault (.error e : Except ε α)).run s = .error (fault e) s := rfl

/-- `setenv` refuses a name that is empty or contains an equals sign with `EINVAL`. -/
def setenv (name value : String) (environment : Finmap fun _ : String => String) :
    Except Int (Finmap fun _ : String => String) :=
  if name = "" ∨ '=' ∈ name.toList then .error 22 else .ok (environment.insert name value)

/-- `SET_NSS_OPTION`. -/
def setNssOption (options : VariablesMap) (key name : String) : Start ObjectId Value Unit := do
  match ← ofExcept .option (options.readCounted String key) with
  | none => return ()
  | some value =>
    let s ← get
    let environment ← ofExcept (fun errno => .pcp ⟨.other (-errno), none⟩)
      (setenv name value s.environment)
    set { s with environment := environment }

def setNssOptions (options : VariablesMap) : Start ObjectId Value Unit := do
  setNssOption options "cert-db" "QPID_SSL_CERT_DB"
  setNssOption options "cert-name" "QPID_SSL_CERT_NAME"
  setNssOption options "cert-password-file" "QPID_SSL_CERT_PASSWORD_FILE"

/-- `SET_CONNECTION_OPTION`: the value of the option becomes the member, if the option is there.
The type that it is read with is that of the member. -/
def setConnectionOption {α : Type} [AnyCast α] (member : Member α) (key : String)
    (options : VariablesMap) (connection : ConnectionSettings) :
    Except OptionFault ConnectionSettings := do
  match ← options.readCounted α key with
  | none => return connection
  | some value => return member.set value connection

/-- The uses of `SET_CONNECTION_OPTION`, in their order. -/
def setConnectionOptions (options : VariablesMap) (c : ConnectionSettings) :
    Except OptionFault ConnectionSettings := do
  let c ← setConnectionOption .virtualhost "virtualhost" options c
  let c ← setConnectionOption .username "username" options c
  let c ← setConnectionOption .password "password" options c
  let c ← setConnectionOption .mechanism "sasl-mechanism" options c
  let c ← setConnectionOption .locale "locale" options c
  let c ← setConnectionOption .heartbeat "heartbeat" options c
  let c ← setConnectionOption .maxChannels "max-channels" options c
  let c ← setConnectionOption .maxFrameSize "max-frame-size" options c
  let c ← setConnectionOption .bounds "bounds" options c
  let c ← setConnectionOption .tcpNoDelay "tcp-no-delay" options c
  let c ← setConnectionOption .minSsf "sasl-min-ssf" options c
  let c ← setConnectionOption .maxSsf "sasl-min-ssf" options c
  let c ← setConnectionOption .service "sasl-service" options c
  let c ← setConnectionOption .sslCertName "ssl-cert-name" options c
  let c ← setConnectionOption .protocol "transport" options c
  return c

/-- The settings for the addresses of a URL, from those of the options. -/
def connectionsTo (connection : ConnectionSettings) (url : Url) : List ConnectionSettings :=
  let connection := if url.user = "" then connection else { connection with username := url.user }
  let connection := if url.pass = "" then connection else { connection with password := url.pass }
  url.addresses.map fun address => { connection with host := address.host, port := address.port }

/-- One round of the loop over the brokers. -/
def connectBroker (client : Client) (options : VariablesMap) (broker : String) :
    Start ObjectId Value Unit := do
  let connection ← ofExcept .option (setConnectionOptions options client.defaults)
  let url ← ofExcept .qpid (client.url broker)
  modify fun s => { s with
    qpidConnectionSettings := s.qpidConnectionSettings ++ connectionsTo connection url }

/-- The loop over the brokers. -/
def connectBrokers (client : Client) (options : VariablesMap) : Start ObjectId Value Unit := do
  let v ← ofExcept .option (options.atKey "broker")
  let brokers ← ofExcept .option (v.asType (List String))
  forM brokers (connectBroker client options)

/-- A switch that is counted and true. -/
def switchOn (options : VariablesMap) (key : String) : Except OptionFault Bool :=
  (·.getD false) <$> options.readCounted Bool key

/-- The settings that the switches make. -/
def setModes (options : VariablesMap) : Start ObjectId Value Unit := do
  let included ← ofExcept .option (switchOn options "include-auto-delete")
  modify fun s => { s with
    consoleListener := ConsoleListener.setIncludeAutoDelete included s.consoleListener }
  let nonPmda ← ofExcept .option (switchOn options "no-pmda")
  modify fun s => { s with nonPmdaMode := nonPmda }

/-- The selector of the Qpid log, by the trace flags. -/
def logSelector (pmDebug : DebugFlags) : String :=
  if pmDebug.appl2 then "trace+" else if pmDebug.appl1 then "debug+" else "info+"

/-- `parse_command_line`, from what the parse of the base class returned and left in the map. -/
def parseCommandLine (client : Client) (pmDebug : DebugFlags) (parent : Except PcpException Bool)
    (options : VariablesMap) : Start ObjectId Value Bool := do
  if !(← ofExcept .pcp parent) then return false
  else
    modify fun s => { s with logSelectors := [logSelector pmDebug] }
    setNssOptions options
    connectBrokers client options
    setModes options
    return true

end QpidPmda.Qmf1
