import Mathlib.Data.List.TakeWhile
import Mathlib.Logic.Function.Basic

/-! # PCP and PMDA++, as far as the PMDA uses them

The instance cache and the instance domains belong to PMDA++, so a library is a
parameter: its carrier types, its operations, and the laws the PMDA relies on.
A cache is addressed by the number of an instance domain; it hands out one
instance identifier a name, and keeps a pointer with it.

The texts of the program are byte strings. A `String` stands for the bytes that
are the codes of its characters, and what C sees of it ends at the first null.
-/

namespace QpidPmda.Pcp

/-- The trace flags of `pmDebug` that the listener tests. -/
structure DebugFlags where
  appl1 : Bool
  appl2 : Bool
  deriving DecidableEq, Repr

/-- The priorities that the program gives to `__pmNotifyErr`. -/
inductive LogLevel where
  | logErr
  | logWarning
  | logNotice
  | logInfo
  | logDebug
  deriving DecidableEq, Repr

/-- What C reads where it is given the text: the part before the first null character. -/
def cString (text : String) : String := String.ofList (text.toList.takeWhile (· != Char.ofNat 0))

theorem cString_ofList {text : List Char} (h : text.all (· != Char.ofNat 0) = true) :
    cString (String.ofList text) = String.ofList text := by
  rw [cString, String.toList_ofList, List.takeWhile_eq_self_iff.mpr (List.all_eq_true.mp h)]

/-- One line of the log: the priority, the format and what is printed for the placeholders. -/
structure LogLine where
  level : LogLevel
  format : String
  args : List String
  deriving DecidableEq, Repr

/-- `__pmNotifyErr` gets its texts as C strings. -/
def LogLine.printed (level : LogLevel) (format : String) (args : List String) : LogLine :=
  ⟨level, format, args.map cString⟩

@[simp] theorem LogLine.printed_level (level : LogLevel) (format : String) (args : List String) :
    (LogLine.printed level format args).level = level := rfl

@[simp] theorem LogLine.printed_format (level : LogLevel) (format : String) (args : List String) :
    (LogLine.printed level format args).format = format := rfl

@[simp] theorem LogLine.printed_args (level : LogLevel) (format : String) (args : List String) :
    (LogLine.printed level format args).args = args.map cString := rfl

/-- The error codes the PMDA throws; any other code comes from a library call. -/
inductive PmError where
  | pmErrInst
  | pmErrValue
  | pmErrType
  | other (code : Int)
  deriving DecidableEq, Repr

/-- `pcp::exception`: a code and the message given to it, if any. -/
structure PcpException where
  code : PmError
  message : Option String
  deriving DecidableEq, Repr

/-- What `pcp::cache::lookup` returns for an instance. -/
structure LookupResult (Pointee : Type) where
  name : String
  opaquePointer : Option Pointee
  deriving DecidableEq, Repr

structure Library (Pointee : Type) where
  Cache : Type
  InstanceDomain : Type
  emptyCache : Cache
  /-- `pcp::cache::store`: the instance identifier of the name, or a rejection. -/
  store : Cache → Nat → String → Pointee → Except PcpException (Int × Cache)
  /-- `pcp::cache::lookup`. -/
  lookup : Cache → Nat → Int → Except PcpException (LookupResult Pointee)
  emptyDomain : InstanceDomain
  /-- The call operator of `pcp::instance_domain`. -/
  addInstance : InstanceDomain → Int → String → InstanceDomain
  /-- The name under which an instance is listed. -/
  instanceName : InstanceDomain → Int → Option String

/-- The documented behaviour of the cache and of the instance domains. -/
structure Library.Lawful {Pointee : Type} (P : Library Pointee) : Prop where
  lookup_empty : ∀ indom i entry, P.lookup P.emptyCache indom i ≠ .ok entry
  lookup_stored : ∀ {c indom name p i c'}, P.store c indom name p = .ok (i, c') →
    P.lookup c' indom i = .ok ⟨name, some p⟩
  lookup_other : ∀ {c indom name p i c'}, P.store c indom name p = .ok (i, c') →
    ∀ indom' j, (indom', j) ≠ (indom, i) → P.lookup c' indom' j = P.lookup c indom' j
  /-- A name that is stored already keeps its identifier. -/
  store_known : ∀ {c indom name p i c'}, P.store c indom name p = .ok (i, c') →
    ∀ j entry, P.lookup c indom j = .ok entry → entry.name = name → j = i
  /-- An identifier in use is returned for its own name only. -/
  store_unused : ∀ {c indom name p i c'}, P.store c indom name p = .ok (i, c') →
    ∀ entry, P.lookup c indom i = .ok entry → entry.name = name
  instanceName_empty : ∀ i, P.instanceName P.emptyDomain i = none
  /-- A pair that is listed already is left as it is. -/
  instanceName_add : ∀ D i name, (∀ m, P.instanceName D i = some m → m = name) →
    P.instanceName (P.addInstance D i name) = Function.update (P.instanceName D) i (some name)

end QpidPmda.Pcp
