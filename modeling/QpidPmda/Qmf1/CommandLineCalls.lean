import QpidPmda.Qmf1.CommandLine

/-! # What the parts of the command line parse do

An option of this class is declared once, with one type, so each read of it is
settled by the declaration: it returns, or it finds no value under its key, or
it raises whenever there is one. `heartbeat` and `locale` are declared as
numbers and read with other types.
-/

namespace QpidPmda.Qmf1
open Qpid Pcp Boost VariablesMap Foundations

/-- The keys that this class declares or reads. -/
def ownKeys : List String :=
  (qpidOptions ++ getSupportedHiddenOptions).map (·.longName) ++
    ["virtualhost", "sasl-mechanism", "max-channels", "max-frame-size", "bounds", "tcp-no-delay",
      "ssl-cert-name"]

/-- Every option that this class declares under a key of its own is such an option. -/
def Declares (key : String) (Q : OptionDescription → Prop) : Prop :=
  key ∈ ownKeys ∧ ∀ d ∈ qpidOptions ++ getSupportedHiddenOptions, d.longName = key → Q d

instance (key : String) (Q : OptionDescription → Prop) [DecidablePred Q] :
    Decidable (Declares key Q) := inferInstanceAs (Decidable (_ ∧ _))

theorem Declares.mono {key : String} {Q R : OptionDescription → Prop} (h : Declares key Q)
    (hQ : ∀ d, Q d → R d) : Declares key R :=
  ⟨h.1, fun d hd hname => hQ d (h.2 d hd hname)⟩

/-- The command line was accepted, and the base class declares no key of this class. -/
structure CommandLine (base : List OptionDescription) (options : VariablesMap) : Prop where
  accepted : Accepted (getSupportedOptions base ++ getSupportedHiddenOptions) options
  base_keys : ∀ d ∈ base, d.longName ∉ ownKeys

namespace CommandLine
variable {base : List OptionDescription} {options : VariablesMap} {key : String}

theorem own (h : CommandLine base options) {Q : OptionDescription → Prop}
    (hdeclares : Declares key Q) :
    ∀ d ∈ getSupportedOptions base ++ getSupportedHiddenOptions, d.longName = key → Q d := by
  obtain ⟨hkey, hQ⟩ := hdeclares
  intro d hd hname
  rcases List.mem_append.mp hd with hd | hd
  · rcases List.mem_append.mp hd with hd | hd
    · exact hQ d (List.mem_append_left _ hd) hname
    · exact absurd (hname ▸ hkey) (h.base_keys d hd)
  · exact hQ d (List.mem_append_right _ hd) hname

theorem typed (h : CommandLine base options) (type : ValueType)
    (hdeclares : Declares key (·.type = type)) (v : VariableValue)
    (hv : options.lookup key = some v) : v.value.type = type :=
  h.accepted.typed (h.own hdeclares) hv

theorem undeclared (h : CommandLine base options) (hnone : Declares key fun _ => False) :
    options.lookup key = none :=
  h.accepted.undeclared (h.own hnone)

theorem given_eq_supplied (h : CommandLine base options) (α : Type) [AnyCast α]
    (hdefault : Declares key (·.defaultValue.isNone = true)) :
    options.given α key = options.supplied α key :=
  h.accepted.given_eq_supplied
    (h.own (hdefault.mono fun _ hnone => Option.isNone_iff_eq_none.mp hnone))

end CommandLine

section Configured
variable {base : List OptionDescription} {options : VariablesMap} {key : String}
  {c : ConnectionSettings} {α : Type} [AnyCast α] {member : Member α}

theorem setConnectionOption_typed
    (htype : ∀ v, options.lookup key = some v → v.value.type = AnyCast.type α) :
    setConnectionOption member key options c =
      .ok (member.set ((options.given α key).getD (member.get c)) c) := by
  unfold setConnectionOption
  rw [readCounted_typed htype]
  cases options.given α key with
  | none => simp [member.set_get, bind, Except.bind, pure, Except.pure]
  | some value => rfl

theorem setConnectionOption_absent (h : options.lookup key = none) :
    setConnectionOption member key options c = .ok c := by
  rw [setConnectionOption_typed (by simp [h]), given_eq_none h, Option.getD_none, member.set_get]

theorem setConnectionOption_mistyped (member : Member α) {v : VariableValue}
    (hv : options.lookup key = some v)
    (h : v.value.type ≠ AnyCast.type α) :
    setConnectionOption member key options c = .error .badAnyCast := by
  unfold setConnectionOption
  rw [readCounted_mistyped hv h]
  rfl

/-- An option that is declared without a default, and with the type that it is read with. -/
theorem CommandLine.set (h : CommandLine base options) (member : Member α) (key : String)
    (hdeclares : Declares key fun d => d.type = AnyCast.type α ∧ d.defaultValue.isNone = true)
    (c : ConnectionSettings) :
    setConnectionOption member key options c =
      .ok (member.set ((options.supplied α key).getD (member.get c)) c) := by
  have htype : Declares key (·.type = AnyCast.type α) := hdeclares.mono fun _ hd => hd.1
  have hdefault : Declares key (·.defaultValue.isNone = true) := hdeclares.mono fun _ hd => hd.2
  rw [setConnectionOption_typed (h.typed _ htype), h.given_eq_supplied α hdefault]

/-- An option that is read and not declared. -/
theorem CommandLine.skip (h : CommandLine base options) (member : Member α) (key : String)
    (hnone : Declares key fun _ => False) (c : ConnectionSettings) :
    setConnectionOption member key options c = .ok c :=
  setConnectionOption_absent (h.undeclared hnone)

/-- What the options make of the settings, as the code reads them. -/
def configured (options : VariablesMap) (c : ConnectionSettings) : ConnectionSettings :=
  { c with
    username := (options.supplied String "username").getD c.username
    password := (options.supplied String "password").getD c.password
    minSsf := (options.supplied UInt32 "sasl-min-ssf").getD c.minSsf
    maxSsf := (options.supplied UInt32 "sasl-min-ssf").getD c.maxSsf
    service := (options.supplied String "sasl-service").getD c.service
    protocol := (options.supplied String "transport").getD c.protocol }

omit [AnyCast α] in
theorem ok_bind {ε β : Type} (a : α) (f : α → Except ε β) :
    ((Except.ok a : Except ε α) >>= f) = f a := rfl

omit [AnyCast α] in
theorem error_bind {ε β : Type} (e : ε) (f : α → Except ε β) :
    ((Except.error e : Except ε α) >>= f) = .error e := rfl

theorem setConnectionOptions_configured (h : CommandLine base options)
    (hlocale : options.lookup "locale" = none) (hheartbeat : options.lookup "heartbeat" = none) :
    setConnectionOptions options c = .ok (configured options c) := by
  simp only [setConnectionOptions, ok_bind,
    h.skip .virtualhost "virtualhost" (by decide),
    h.set .username "username" (by decide),
    h.set .password "password" (by decide),
    h.skip .mechanism "sasl-mechanism" (by decide),
    setConnectionOption_absent hlocale,
    setConnectionOption_absent hheartbeat,
    h.skip .maxChannels "max-channels" (by decide),
    h.skip .maxFrameSize "max-frame-size" (by decide),
    h.skip .bounds "bounds" (by decide),
    h.skip .tcpNoDelay "tcp-no-delay" (by decide),
    h.set .minSsf "sasl-min-ssf" (by decide),
    h.set .maxSsf "sasl-min-ssf" (by decide),
    h.set .service "sasl-service" (by decide),
    h.skip .sslCertName "ssl-cert-name" (by decide),
    h.set .protocol "transport" (by decide)]
  rfl

/-- A heartbeat or a locale on the command line makes every read of the options fail. -/
theorem setConnectionOptions_mistyped (h : CommandLine base options)
    (hsome : options.lookup "locale" ≠ none ∨ options.lookup "heartbeat" ≠ none) :
    setConnectionOptions options c = .error .badAnyCast := by
  simp only [setConnectionOptions, ok_bind,
    h.skip .virtualhost "virtualhost" (by decide),
    h.set .username "username" (by decide),
    h.set .password "password" (by decide),
    h.skip .mechanism "sasl-mechanism" (by decide)]
  cases hlocale : options.lookup "locale" with
  | some v =>
    have htype := h.typed .double (by decide) v hlocale
    rw [setConnectionOption_mistyped .locale hlocale (by simp [htype, AnyCast.type]), error_bind]
  | none =>
    rw [setConnectionOption_absent hlocale, ok_bind]
    obtain ⟨v, hv⟩ := Option.ne_none_iff_exists'.mp (hsome.resolve_left (by simp [hlocale]))
    have htype := h.typed .double (by decide) v hv
    rw [setConnectionOption_mistyped .heartbeat hv (by simp [htype, AnyCast.type]), error_bind]

end Configured

section Runs
variable {ObjectId Value : Type} {base : List OptionDescription} {options : VariablesMap}
  {client : Client} {brokers : List String} {urls : List Url}

/-- The settings of all addresses, in the order of the URLs. -/
def connections (c : ConnectionSettings) (urls : List Url) : List ConnectionSettings :=
  urls.flatMap (connectionsTo c)

/-- The environment with an option that is given. -/
def exportOption (options : VariablesMap) (key name : String)
    (environment : Finmap fun _ : String => String) : Finmap fun _ : String => String :=
  match options.given String key with
  | none => environment
  | some value => environment.insert name value

theorem setNssOption_run {key name : String}
    (htype : ∀ v, options.lookup key = some v → v.value.type = .string)
    (hname : name ≠ "" ∧ '=' ∉ name.toList) (s : Startup ObjectId Value) :
    (setNssOption options key name).run s =
      .ok () { s with environment := exportOption options key name s.environment } := by
  unfold setNssOption exportOption
  rw [readCounted_typed htype, run_bind_of_ok (run_ofExcept_ok ..)]
  cases options.given String key with
  | none => rfl
  | some value =>
    have hset : setenv name value s.environment = .ok (s.environment.insert name value) := by
      simp [setenv, hname]
    simp only
    rw [run_bind_of_ok (EStateM.run_get s), hset, run_bind_of_ok (run_ofExcept_ok ..)]
    rfl

/-- The options of NSS go to the environment under the names that NSS reads. -/
def exported (options : VariablesMap) (environment : Finmap fun _ : String => String) :
    Finmap fun _ : String => String :=
  exportOption options "cert-password-file" "QPID_SSL_CERT_PASSWORD_FILE"
    (exportOption options "cert-name" "QPID_SSL_CERT_NAME"
      (exportOption options "cert-db" "QPID_SSL_CERT_DB" environment))

theorem setNssOptions_exported (h : CommandLine base options) (s : Startup ObjectId Value) :
    (setNssOptions options).run s =
      .ok () { s with environment := exported options s.environment } := by
  have hnss (key name : String) (hdeclares : Declares key (·.type = .string))
      (hname : name ≠ "" ∧ '=' ∉ name.toList) (s : Startup ObjectId Value) :
      (setNssOption options key name).run s =
        .ok () { s with environment := exportOption options key name s.environment } :=
    setNssOption_run (h.typed .string hdeclares) hname s
  unfold setNssOptions
  rw [run_bind_of_ok (hnss "cert-db" _ (by decide) (by decide) s),
    run_bind_of_ok (hnss "cert-name" _ (by decide) (by decide) _),
    hnss "cert-password-file" _ (by decide) (by decide)]
  rfl

theorem setNssOptions_run (h : CommandLine base options) (s : Startup ObjectId Value) :
    ∃ environment, (setNssOptions options).run s =
      .ok () { s with environment := environment } := ⟨_, setNssOptions_exported h s⟩

theorem switchOn_ok (h : CommandLine base options) {key : String}
    (hdeclares : Declares key (·.type = .bool)) :
    switchOn options key = .ok ((options.given Bool key).getD false) := by
  unfold switchOn
  rw [readCounted_typed (h.typed .bool hdeclares)]
  rfl

theorem setModes_switched (h : CommandLine base options) (s : Startup ObjectId Value) :
    (setModes options).run s = .ok () { s with
      consoleListener := ConsoleListener.setIncludeAutoDelete
        ((options.given Bool "include-auto-delete").getD false) s.consoleListener
      nonPmdaMode := (options.given Bool "no-pmda").getD false } := by
  unfold setModes
  rw [switchOn_ok h (by decide), switchOn_ok h (by decide),
    run_bind_of_ok (run_ofExcept_ok ..), run_bind_of_ok (EStateM.run_modify ..),
    run_bind_of_ok (run_ofExcept_ok ..)]
  rfl

theorem setModes_run (h : CommandLine base options) (s : Startup ObjectId Value) :
    ∃ s', (setModes options).run s = .ok () s' ∧
      s'.qpidConnectionSettings = s.qpidConnectionSettings := ⟨_, setModes_switched h s, rfl⟩

theorem forM_connectBroker_run {c : ConnectionSettings}
    (hc : setConnectionOptions options client.defaults = .ok c)
    (hurls : List.Forall₂ (fun broker url => client.url broker = .ok url) brokers urls)
    (s : Startup ObjectId Value) :
    (forM brokers (connectBroker client options)).run s = .ok () { s with
      qpidConnectionSettings := s.qpidConnectionSettings ++ connections c urls } := by
  induction hurls generalizing s with
  | nil => simp [connections]
  | @cons broker url brokers urls hurl _ ih =>
    have hround : (connectBroker client options broker).run s = .ok () { s with
        qpidConnectionSettings := s.qpidConnectionSettings ++ connectionsTo c url } := by
      unfold connectBroker
      rw [hc, hurl, run_bind_of_ok (run_ofExcept_ok ..), run_bind_of_ok (run_ofExcept_ok ..)]
      rfl
    rw [List.forM_cons, run_bind_of_ok hround, ih]
    simp [connections]

theorem connectBrokers_run (hbrokers : options.given (List String) "broker" = some brokers)
    (s : Startup ObjectId Value) : (connectBrokers client options).run s =
      (forM brokers (connectBroker client options)).run s := by
  obtain ⟨v, hv, ha⟩ := read_of_given hbrokers
  unfold connectBrokers
  rw [hv, run_bind_of_ok (run_ofExcept_ok ..), ha, run_bind_of_ok (run_ofExcept_ok ..)]

end Runs

end QpidPmda.Qmf1
