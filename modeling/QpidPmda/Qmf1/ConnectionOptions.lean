import QpidPmda.Qmf1.CommandLineCalls

/-! # The requested connections and those that are made

The declared options and the reads of them are two lists of keys and types. They
disagree on the types of `heartbeat` and `locale` and on the keys of the SASL
mechanisms and of the TCP switch, and the maximum SSF is read from the option of
the minimum. The connections are the requested ones exactly where none of this
shows.
-/

namespace QpidPmda.Qmf1
open Qpid Pcp Boost VariablesMap Foundations

variable {ObjectId Value : Type} {base : List OptionDescription} {options : VariablesMap}
  {client : Client} {brokers : List String} {urls : List Url}

/-- The settings that the command line requests for one address. What becomes of the numbers under
`heartbeat` and `locale` is left open. -/
def requested (heartbeatOf : Float → UInt16) (localeOf : Float → String) (options : VariablesMap)
    (defaults : ConnectionSettings) (url : Url) (address : Address) : ConnectionSettings :=
  { defaults with
    host := address.host
    port := address.port
    username :=
      if url.user = "" then (options.supplied String "username").getD defaults.username
      else url.user
    password :=
      if url.pass = "" then (options.supplied String "password").getD defaults.password
      else url.pass
    mechanism := (options.supplied String "sasl-mechanisms").getD defaults.mechanism
    minSsf := (options.supplied UInt32 "sasl-min-ssf").getD defaults.minSsf
    maxSsf := (options.supplied UInt32 "sasl-max-ssf").getD defaults.maxSsf
    service := (options.supplied String "sasl-service").getD defaults.service
    heartbeat := ((options.supplied Float "heartbeat").map heartbeatOf).getD defaults.heartbeat
    locale := ((options.supplied Float "locale").map localeOf).getD defaults.locale
    tcpNoDelay := (options.supplied Bool "tcp-nodelay").getD defaults.tcpNoDelay
    protocol := (options.supplied String "transport").getD defaults.protocol }

/-- The parse returns, and adds the requested settings of every address of every URL. -/
def Connected (client : Client) (pmDebug : DebugFlags) (options : VariablesMap)
    (heartbeatOf : Float → UInt16) (localeOf : Float → String) (urls : List Url)
    (s : Startup ObjectId Value) : Prop :=
  ∃ s', (parseCommandLine client pmDebug (.ok true) options).run s = .ok true s' ∧
    s'.qpidConnectionSettings = s.qpidConnectionSettings ++ urls.flatMap fun url =>
      url.addresses.map (requested heartbeatOf localeOf options client.defaults url)

/-- The options that are not read, or read from another key, agree with what the settings have in
their place. -/
def KeysAgree (options : VariablesMap) (defaults : ConnectionSettings) : Prop :=
  (options.supplied String "sasl-mechanisms").getD defaults.mechanism = defaults.mechanism ∧
    (options.supplied Bool "tcp-nodelay").getD defaults.tcpNoDelay = defaults.tcpNoDelay ∧
    (options.supplied UInt32 "sasl-max-ssf").getD defaults.maxSsf =
      (options.supplied UInt32 "sasl-min-ssf").getD defaults.maxSsf

theorem supplied_eq_none {α : Type} [AnyCast α] {key : String} (h : options.lookup key = none) :
    options.supplied α key = none := by
  simp [supplied, h]

/-- The settings of one address, as the code makes them. -/
def made (c : ConnectionSettings) (url : Url) (address : Address) : ConnectionSettings :=
  { c with
    host := address.host
    port := address.port
    username := if url.user = "" then c.username else url.user
    password := if url.pass = "" then c.password else url.pass }

theorem connections_eq (c : ConnectionSettings) (urls : List Url) :
    connections c urls = urls.flatMap fun url => url.addresses.map (made c url) := by
  refine List.flatMap_congr fun url _ => List.map_congr_left fun address _ => ?_
  unfold made
  by_cases hu : url.user = "" <;> by_cases hp : url.pass = "" <;> simp [hu, hp]

/-- Without a heartbeat and a locale, an address gets the settings that are requested for it exactly
when the keys agree. -/
theorem made_eq_requested_iff {heartbeatOf : Float → UInt16} {localeOf : Float → String}
    {defaults : ConnectionSettings} {url : Url} {address : Address}
    (hlocale : options.lookup "locale" = none) (hheartbeat : options.lookup "heartbeat" = none) :
    made (configured options defaults) url address =
      requested heartbeatOf localeOf options defaults url address ↔ KeysAgree options defaults := by
  unfold made configured requested KeysAgree
  rw [supplied_eq_none hlocale, supplied_eq_none hheartbeat]
  simp only [ConnectionSettings.mk.injEq, true_and, and_true, Option.map_none, Option.getD_none]
  exact and_congr eq_comm (and_congr eq_comm eq_comm)

theorem flatMap_addresses_eq_iff (urls : List Url) (f g : Url → Address → ConnectionSettings) :
    (urls.flatMap fun url => url.addresses.map (f url)) =
        (urls.flatMap fun url => url.addresses.map (g url)) ↔
      ∀ url ∈ urls, ∀ address ∈ url.addresses, f url address = g url address := by
  induction urls with
  | nil => simp
  | cons url urls ih =>
    rw [List.flatMap_cons, List.flatMap_cons, List.forall_mem_cons, ← ih, ← List.map_inj_left]
    constructor
    · exact fun heq => List.append_inj heq (by simp)
    · rintro ⟨hhead, htail⟩
      rw [hhead, htail]

theorem parseCommandLine_run (h : CommandLine base options) (pmDebug : DebugFlags)
    (s : Startup ObjectId Value) :
    ∃ s₁, s₁.qpidConnectionSettings = s.qpidConnectionSettings ∧
      (parseCommandLine client pmDebug (.ok true) options).run s =
        (do connectBrokers client options; setModes options; return true).run s₁ := by
  obtain ⟨environment, hnss⟩ := setNssOptions_run h
    { s with logSelectors := [logSelector pmDebug] }
  refine ⟨{ s with logSelectors := [logSelector pmDebug], environment := environment }, rfl, ?_⟩
  unfold parseCommandLine
  rw [run_bind_of_ok (run_ofExcept_ok ..)]
  simp only [Bool.not_true, Bool.false_eq_true, if_false]
  rw [run_bind_of_ok (EStateM.run_modify ..), run_bind_of_ok hnss]

theorem parseCommandLine_of_ok (h : CommandLine base options) (pmDebug : DebugFlags)
    (hbrokers : options.given (List String) "broker" = some brokers) {new : List ConnectionSettings}
    (hloop : ∀ s : Startup ObjectId Value, (forM brokers (connectBroker client options)).run s =
      .ok () { s with qpidConnectionSettings := s.qpidConnectionSettings ++ new })
    (s : Startup ObjectId Value) :
    ∃ s', (parseCommandLine client pmDebug (.ok true) options).run s = .ok true s' ∧
      s'.qpidConnectionSettings = s.qpidConnectionSettings ++ new := by
  obtain ⟨s₁, hs₁, hrun⟩ := parseCommandLine_run h pmDebug s
  obtain ⟨s', hmodes, hs'⟩ := setModes_run h
    { s₁ with qpidConnectionSettings := s₁.qpidConnectionSettings ++ new }
  refine ⟨s', ?_, hs'.trans (by rw [hs₁])⟩
  rw [hrun, run_bind_of_ok ((connectBrokers_run hbrokers s₁).trans (hloop s₁)),
    run_bind_of_ok hmodes]
  rfl

/-- The options are read for every broker, so a single broker is enough for a read to fail. -/
theorem parseCommandLine_of_error (h : CommandLine base options) (pmDebug : DebugFlags)
    {broker : String}
    (hbrokers : options.given (List String) "broker" = some (broker :: brokers))
    {fault : OptionFault}
    (hc : setConnectionOptions options client.defaults = .error fault)
    (s : Startup ObjectId Value) :
    ∃ s', (parseCommandLine client pmDebug (.ok true) options).run s =
      .error (.option fault) s' := by
  obtain ⟨s₁, -, hrun⟩ := parseCommandLine_run h pmDebug s
  have hround : (connectBroker client options broker).run s₁ = .error (.option fault) s₁ := by
    unfold connectBroker
    rw [hc, run_bind_of_error (run_ofExcept_error ..)]
  refine ⟨s₁, ?_⟩
  rw [hrun, run_bind_of_error]
  rw [connectBrokers_run hbrokers, List.forM_cons, run_bind_of_error hround]

theorem connected_iff_of_read (h : CommandLine base options) (pmDebug : DebugFlags)
    (hbrokers : options.given (List String) "broker" = some brokers)
    (hurls : List.Forall₂ (fun broker url => client.url broker = .ok url) brokers urls)
    (hlocale : options.lookup "locale" = none) (hheartbeat : options.lookup "heartbeat" = none)
    (heartbeatOf : Float → UInt16) (localeOf : Float → String) (s : Startup ObjectId Value) :
    Connected client pmDebug options heartbeatOf localeOf urls s ↔
      (∀ url ∈ urls, url.addresses = []) ∨ KeysAgree options client.defaults := by
  obtain ⟨s', hrun, hs'⟩ := parseCommandLine_of_ok h pmDebug hbrokers
    (forM_connectBroker_run (setConnectionOptions_configured h hlocale hheartbeat) hurls) s
  have hconnected : Connected client pmDebug options heartbeatOf localeOf urls s ↔
      connections (configured options client.defaults) urls = urls.flatMap fun url =>
        url.addresses.map (requested heartbeatOf localeOf options client.defaults url) := by
    constructor
    · rintro ⟨s'', hrun'', hs''⟩
      rw [hrun] at hrun''
      obtain ⟨-, rfl⟩ := EStateM.Result.ok.inj hrun''
      exact List.append_cancel_left (hs'.symm.trans hs'')
    · intro heq
      exact ⟨s', hrun, by rw [hs', heq]⟩
  rw [hconnected, connections_eq, flatMap_addresses_eq_iff]
  simp only [made_eq_requested_iff hlocale hheartbeat, List.eq_nil_iff_forall_not_mem]
  by_cases hkeys : KeysAgree options client.defaults <;> simp [hkeys]

/-- The connections are the requested ones exactly when there is no broker, or neither a heartbeat
nor a locale is given and, if there is an address at all, the keys agree. -/
theorem connection_options_iff (h : CommandLine base options) (pmDebug : DebugFlags)
    (hbrokers : options.given (List String) "broker" = some brokers)
    (hurls : List.Forall₂ (fun broker url => client.url broker = .ok url) brokers urls)
    (heartbeatOf : Float → UInt16) (localeOf : Float → String) (s : Startup ObjectId Value) :
    Connected client pmDebug options heartbeatOf localeOf urls s ↔
      brokers = [] ∨ options.lookup "heartbeat" = none ∧ options.lookup "locale" = none ∧
        ((∀ url ∈ urls, url.addresses = []) ∨ KeysAgree options client.defaults) := by
  by_cases hread : options.lookup "locale" = none ∧ options.lookup "heartbeat" = none
  · obtain ⟨hlocale, hheartbeat⟩ := hread
    rw [connected_iff_of_read h pmDebug hbrokers hurls hlocale hheartbeat]
    cases hurls with
    | nil => simp
    | cons hurl hurls => simp [hlocale, hheartbeat]
  · have hsome : options.lookup "locale" ≠ none ∨ options.lookup "heartbeat" ≠ none :=
      not_and_or.mp hread
    cases hurls with
    | nil =>
      have hloop (s : Startup ObjectId Value) :
          (forM [] (connectBroker client options)).run s = .ok () { s with
            qpidConnectionSettings := s.qpidConnectionSettings ++ [] } := by simp
      obtain ⟨s', hrun, hs'⟩ := parseCommandLine_of_ok h pmDebug hbrokers hloop s
      exact iff_of_true ⟨s', hrun, hs'⟩ (.inl rfl)
    | cons hurl hurls =>
      obtain ⟨s', hrun⟩ := parseCommandLine_of_error h pmDebug hbrokers
        (setConnectionOptions_mistyped h hsome) s
      refine iff_of_false ?_ ?_
      · rintro ⟨s'', hrun'', -⟩
        exact absurd (hrun.symm.trans hrun'') (by simp)
      · rintro (hnil | ⟨hheartbeat, hlocale, -⟩)
        · exact absurd hnil (by simp)
        · exact hread ⟨hlocale, hheartbeat⟩

/-- A client library that knows plain host names. -/
def plainClient : Client where
  defaults := ⟨"tcp", "localhost", 5672, "", "", "", "", "en_US", 0, 32767, 65535, 2, false,
    "qpidd", 0, 256, ""⟩
  url broker := .ok ⟨"", "", [⟨broker, 5672⟩]⟩

/-- What is left of these values on a command line when the base class declares no option. -/
def commandLine (values : List (String × AnyValue)) : VariablesMap :=
  parsed (getSupportedOptions [] ++ getSupportedHiddenOptions) values

theorem commandLine_accepted {values : List (String × AnyValue)}
    (h : ∀ p ∈ values, ∃ d ∈ getSupportedOptions [] ++ getSupportedHiddenOptions,
      d.longName = p.1 ∧ p.2.type = d.type) : CommandLine [] (commandLine values) :=
  ⟨accepted_parsed h (by decide), by simp⟩

/-- The state that the constructor leaves. -/
def constructed : Startup Nat (QmfValue Nat) := ⟨false, [], ConsoleListener.new, ∅, []⟩

theorem connection_options_user : Connected plainClient ⟨false, false⟩
    (commandLine [("username", .string "guest")]) (fun _ => 0) (fun _ => "")
    [⟨"", "", [⟨"localhost", 5672⟩]⟩] constructed :=
  (connection_options_iff (commandLine_accepted (by decide)) ⟨false, false⟩ rfl
    (.cons rfl .nil) _ _ constructed).mpr (.inr ⟨rfl, rfl, .inr ⟨rfl, rfl, rfl⟩⟩)

/-- A heartbeat on the command line ends the parse. -/
theorem connection_heartbeat_fails :
    ¬ ∀ (values : List (String × AnyValue)) (brokers : List String) (urls : List Url)
      (heartbeatOf : Float → UInt16) (localeOf : Float → String),
      CommandLine [] (commandLine values) →
      (commandLine values).given (List String) "broker" = some brokers →
      List.Forall₂ (fun broker url => plainClient.url broker = .ok url) brokers urls →
      Connected plainClient ⟨false, false⟩ (commandLine values) heartbeatOf localeOf urls
        constructed := by
  intro h
  obtain ⟨s', hrun, -⟩ := h [("heartbeat", .double 5)] ["localhost"]
    [⟨"", "", [⟨"localhost", 5672⟩]⟩] (fun _ => 0) (fun _ => "") (commandLine_accepted (by decide))
    rfl (.cons rfl .nil)
  obtain ⟨s'', hfails⟩ : ∃ s'', (parseCommandLine plainClient ⟨false, false⟩ (.ok true)
      (commandLine [("heartbeat", .double 5)])).run constructed =
        .error (.option .badAnyCast) s'' := ⟨_, rfl⟩
  exact absurd (hfails.symm.trans hrun) (by simp)

end QpidPmda.Qmf1
