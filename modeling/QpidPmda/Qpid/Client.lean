import QpidPmda.Qpid.Console

/-! # The Qpid client library, as far as the PMDA configures it

The defaults of the connection settings and the parser of broker URLs belong to
the client library, so both are parameters.
-/

namespace QpidPmda.Qpid

/-- `qpid::client::ConnectionSettings`. -/
structure ConnectionSettings where
  protocol : String
  host : String
  port : UInt16
  virtualhost : String
  username : String
  password : String
  mechanism : String
  locale : String
  heartbeat : UInt16
  maxChannels : UInt16
  maxFrameSize : UInt16
  bounds : UInt32
  tcpNoDelay : Bool
  service : String
  minSsf : UInt32
  maxSsf : UInt32
  sslCertName : String
  deriving DecidableEq

/-- A member of the settings, which may be read and assigned to. -/
structure Member (α : Type) where
  get : ConnectionSettings → α
  set : α → ConnectionSettings → ConnectionSettings
  set_get : ∀ c, set (get c) c = c

namespace Member

def virtualhost : Member String :=
  ⟨(·.virtualhost), fun v c => { c with virtualhost := v }, fun _ => rfl⟩

def username : Member String :=
  ⟨(·.username), fun v c => { c with username := v }, fun _ => rfl⟩

def password : Member String :=
  ⟨(·.password), fun v c => { c with password := v }, fun _ => rfl⟩

def mechanism : Member String :=
  ⟨(·.mechanism), fun v c => { c with mechanism := v }, fun _ => rfl⟩

def locale : Member String :=
  ⟨(·.locale), fun v c => { c with locale := v }, fun _ => rfl⟩

def heartbeat : Member UInt16 :=
  ⟨(·.heartbeat), fun v c => { c with heartbeat := v }, fun _ => rfl⟩

def maxChannels : Member UInt16 :=
  ⟨(·.maxChannels), fun v c => { c with maxChannels := v }, fun _ => rfl⟩

def maxFrameSize : Member UInt16 :=
  ⟨(·.maxFrameSize), fun v c => { c with maxFrameSize := v }, fun _ => rfl⟩

def bounds : Member UInt32 :=
  ⟨(·.bounds), fun v c => { c with bounds := v }, fun _ => rfl⟩

def tcpNoDelay : Member Bool :=
  ⟨(·.tcpNoDelay), fun v c => { c with tcpNoDelay := v }, fun _ => rfl⟩

def minSsf : Member UInt32 :=
  ⟨(·.minSsf), fun v c => { c with minSsf := v }, fun _ => rfl⟩

def maxSsf : Member UInt32 :=
  ⟨(·.maxSsf), fun v c => { c with maxSsf := v }, fun _ => rfl⟩

def service : Member String :=
  ⟨(·.service), fun v c => { c with service := v }, fun _ => rfl⟩

def sslCertName : Member String :=
  ⟨(·.sslCertName), fun v c => { c with sslCertName := v }, fun _ => rfl⟩

def protocol : Member String :=
  ⟨(·.protocol), fun v c => { c with protocol := v }, fun _ => rfl⟩

end Member

/-- `qpid::Address`. -/
structure Address where
  host : String
  port : UInt16
  deriving DecidableEq

/-- `qpid::Url`: a user, a password and the addresses of one broker. -/
structure Url where
  user : String
  pass : String
  addresses : List Address
  deriving DecidableEq

structure Client where
  /-- The default constructor of the settings. -/
  defaults : ConnectionSettings
  /-- The constructor of a URL, which raises on a text that is none. -/
  url : String → Except QpidException Url

end QpidPmda.Qpid
