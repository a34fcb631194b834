import Mathlib.Data.Finmap

/-! # Command line options whose values have runtime types

Options are declared with a key, a type and perhaps a default. The map that a
parser fills holds a value under a key and tells whether it is the default.
A value is read with a type that the reader names: reading it with another type
than its own raises, and so does reading a key that the map does not have.
-/

namespace QpidPmda.Boost

/-- The C++ types that values are read with, and any other. -/
inductive ValueType where
  | string
  | stringVector
  | double
  | unsignedInt
  | uint16
  | bool
  | other (name : String)
  deriving DecidableEq, Repr

/-- `boost::any`: a value of one of the types. Values that nobody reads carry the name of their
type only. -/
inductive AnyValue where
  | string (s : String)
  | stringVector (ss : List String)
  | double (x : Float)
  | unsignedInt (n : UInt32)
  | uint16 (n : UInt16)
  | bool (b : Bool)
  | other (typeName : String)

def AnyValue.type : AnyValue → ValueType
  | .string _ => .string
  | .stringVector _ => .stringVector
  | .double _ => .double
  | .unsignedInt _ => .unsignedInt
  | .uint16 _ => .uint16
  | .bool _ => .bool
  | .other typeName => .other typeName

/-- `boost::any_cast`: it returns on the values of its own type. -/
class AnyCast (α : Type) where
  type : ValueType
  cast : AnyValue → Option α
  cast_isSome : ∀ value, (cast value).isSome = true ↔ value.type = type

instance : AnyCast String where
  type := .string
  cast | .string s => some s | _ => none
  cast_isSome value := by cases value <;> simp [AnyValue.type]

instance : AnyCast (List String) where
  type := .stringVector
  cast | .stringVector ss => some ss | _ => none
  cast_isSome value := by cases value <;> simp [AnyValue.type]

instance : AnyCast Float where
  type := .double
  cast | .double x => some x | _ => none
  cast_isSome value := by cases value <;> simp [AnyValue.type]

instance : AnyCast UInt32 where
  type := .unsignedInt
  cast | .unsignedInt n => some n | _ => none
  cast_isSome value := by cases value <;> simp [AnyValue.type]

instance : AnyCast UInt16 where
  type := .uint16
  cast | .uint16 n => some n | _ => none
  cast_isSome value := by cases value <;> simp [AnyValue.type]

instance : AnyCast Bool where
  type := .bool
  cast | .bool b => some b | _ => none
  cast_isSome value := by cases value <;> simp [AnyValue.type]

/-- How a reader fails: `std::out_of_range`, or `boost::bad_any_cast`. -/
inductive OptionFault where
  | outOfRange
  | badAnyCast
  deriving DecidableEq, Repr

structure VariableValue where
  value : AnyValue
  defaulted : Bool

/-- The member function `as`. -/
def VariableValue.asType (α : Type) [AnyCast α] (v : VariableValue) : Except OptionFault α :=
  match AnyCast.cast v.value with
  | some a => .ok a
  | none => .error .badAnyCast

abbrev VariablesMap := Finmap fun _ : String => VariableValue

namespace VariablesMap

def count (key : String) (options : VariablesMap) : Nat :=
  if (options.lookup key).isSome then 1 else 0

/-- The member function `at`. -/
def atKey (key : String) (options : VariablesMap) : Except OptionFault VariableValue :=
  match options.lookup key with
  | some v => .ok v
  | none => .error .outOfRange

/-- Read an option that the map counts, with one type. -/
def readCounted (α : Type) [AnyCast α] (key : String) (options : VariablesMap) :
    Except OptionFault (Option α) :=
  if options.count key = 0 then .ok none
  else do
    let v ← options.atKey key
    let a ← v.asType α
    return some a

section Read
variable {α : Type} [AnyCast α] {key : String} {options : VariablesMap} {v : VariableValue}

/-- The value under a key, if there is one of this type. -/
def given (α : Type) [AnyCast α] (key : String) (options : VariablesMap) : Option α :=
  (options.lookup key).bind fun v => AnyCast.cast v.value

/-- A value that is not the default of its option. -/
def supplied (α : Type) [AnyCast α] (key : String) (options : VariablesMap) : Option α :=
  (options.lookup key).bind fun v => if v.defaulted then none else AnyCast.cast v.value

theorem given_eq_none (h : options.lookup key = none) : given α key options = none := by
  simp [given, h]

theorem read_of_given {a : α} (h : options.given α key = some a) :
    ∃ v, options.atKey key = .ok v ∧ v.asType α = .ok a := by
  obtain ⟨v, hv, hcast⟩ := Option.bind_eq_some_iff.mp h
  exact ⟨v, by simp [atKey, hv], by simp [VariableValue.asType, hcast]⟩

theorem readCounted_typed (h : ∀ v, options.lookup key = some v → v.value.type = AnyCast.type α) :
    readCounted α key options = .ok (given α key options) := by
  unfold readCounted count atKey given
  cases hv : options.lookup key with
  | none => simp
  | some v =>
    obtain ⟨a, ha⟩ := Option.isSome_iff_exists.mp ((AnyCast.cast_isSome v.value).mpr (h v hv))
    simp [VariableValue.asType, ha, bind, Except.bind, pure, Except.pure]

theorem readCounted_mistyped (hv : options.lookup key = some v)
    (h : v.value.type ≠ AnyCast.type α) : readCounted α key options = .error .badAnyCast := by
  have hcast : (AnyCast.cast v.value : Option α) = none := by
    rw [← Option.not_isSome_iff_eq_none]
    exact fun hsome => h ((AnyCast.cast_isSome v.value).mp hsome)
  simp [readCounted, count, atKey, hv, VariableValue.asType, hcast, bind, Except.bind]

end Read

end VariablesMap

/-- An option, with the key that its long name gives. -/
structure OptionDescription where
  longName : String
  type : ValueType
  defaultValue : Option AnyValue

/-- `bool_switch`: false unless it is given. -/
def boolSwitch (longName : String) : OptionDescription := ⟨longName, .bool, some (.bool false)⟩

/-- What a parser that returns leaves in the map: values of declared options, with their declared
types, and every default that was not overridden. -/
structure Accepted (declared : List OptionDescription) (options : VariablesMap) : Prop where
  entry : ∀ key v, options.lookup key = some v → ∃ d ∈ declared, d.longName = key ∧
    v.value.type = d.type ∧ (v.defaulted = true → d.defaultValue = some v.value)
  defaults : ∀ d ∈ declared, d.defaultValue.isSome = true →
    (options.lookup d.longName).isSome = true

namespace Accepted
variable {declared : List OptionDescription} {options : VariablesMap} {key : String}
  {type : ValueType}

theorem typed (h : Accepted declared options)
    (hdeclared : ∀ d ∈ declared, d.longName = key → d.type = type) {v : VariableValue}
    (hv : options.lookup key = some v) : v.value.type = type := by
  obtain ⟨d, hd, hkey, htype, -⟩ := h.entry key v hv
  exact htype.trans (hdeclared d hd hkey)

theorem undeclared (h : Accepted declared options) (hkey : ∀ d ∈ declared, d.longName ≠ key) :
    options.lookup key = none := by
  cases hv : options.lookup key with
  | none => rfl
  | some v =>
    obtain ⟨d, hd, hname, -⟩ := h.entry key v hv
    exact absurd hname (hkey d hd)

/-- What is given of an option without a default was supplied. -/
theorem given_eq_supplied (h : Accepted declared options) {α : Type} [AnyCast α]
    (hdefault : ∀ d ∈ declared, d.longName = key → d.defaultValue = none) :
    options.given α key = options.supplied α key := by
  unfold VariablesMap.given VariablesMap.supplied
  cases hv : options.lookup key with
  | none => rfl
  | some v =>
    obtain ⟨d, hd, hname, -, hdef⟩ := h.entry key v hv
    have hnot : v.defaulted = false := by
      cases hb : v.defaulted with
      | false => rfl
      | true => exact absurd ((hdefault d hd hname).symm.trans (hdef hb)) (by simp)
    simp [hnot]

end Accepted

/-- The map that a parser fills from values on the command line: a default stands where there is
none. -/
def parsed (declared : List OptionDescription) (values : List (String × AnyValue)) :
    VariablesMap :=
  ((values.map fun p => ⟨p.1, p.2, false⟩) ++ declared.filterMap fun d =>
    d.defaultValue.map fun value => ⟨d.longName, value, true⟩ :
      List (Σ _ : String, VariableValue)).toFinmap

theorem accepted_parsed {declared : List OptionDescription} {values : List (String × AnyValue)}
    (hvalues : ∀ p ∈ values, ∃ d ∈ declared, d.longName = p.1 ∧ p.2.type = d.type)
    (hdefaults : ∀ d ∈ declared, d.defaultValue.all (·.type = d.type) = true) :
    Accepted declared (parsed declared values) where
  entry key v hv := by
    rw [parsed, Finmap.dlookup_list_toFinmap] at hv
    rcases List.mem_append.mp (List.of_mem_dlookup hv) with hmem | hmem
    · obtain ⟨p, hp, heq⟩ := List.mem_map.mp hmem
      obtain ⟨d, hd, hname, htype⟩ := hvalues p hp
      obtain ⟨rfl, rfl⟩ := Sigma.mk.inj heq
      exact ⟨d, hd, hname, htype, by simp⟩
    · obtain ⟨d, hd, hdefault⟩ := List.mem_filterMap.mp hmem
      obtain ⟨value, hvalue, heq⟩ := Option.map_eq_some_iff.mp hdefault
      obtain ⟨rfl, rfl⟩ := Sigma.mk.inj heq
      have htype := hdefaults d hd
      rw [hvalue] at htype
      exact ⟨d, hd, rfl, by simpa using htype, fun _ => hvalue⟩
  defaults d hd hdefault := by
    obtain ⟨value, hvalue⟩ := Option.isSome_iff_exists.mp hdefault
    have hentry : (⟨d.longName, value, true⟩ : Σ _ : String, VariableValue) ∈
        declared.filterMap fun d => d.defaultValue.map fun value => ⟨d.longName, value, true⟩ :=
      List.mem_filterMap.mpr ⟨d, hd, by rw [hvalue, Option.map_some]⟩
    rw [parsed, Finmap.dlookup_list_toFinmap, List.dlookup_isSome]
    exact List.mem_keys_of_mem (List.mem_append_right _ hentry)

end QpidPmda.Boost
