import QpidPmda.Pcp.Library
import Mathlib.Data.Finmap

/-! # A cache that numbers names in the order of their first store

Each domain keeps its names in one list without repetition, and the position of
a name is its instance identifier. A listed identifier keeps its first name.
The table obeys the library laws, so the laws are satisfiable.
-/

namespace QpidPmda.Pcp.NameTable

variable {Pointee : Type}

/-- The names of one domain, with the pointer last stored for each. -/
structure Table (Pointee : Type) where
  names : List String
  nodup : names.Nodup
  pointer : String → Option Pointee

def Table.empty : Table Pointee := ⟨[], List.nodup_nil, fun _ => none⟩

/-- A known name keeps its place; a new one is appended. -/
def Table.write (t : Table Pointee) (name : String) (p : Pointee) : Table Pointee where
  names := if name ∈ t.names then t.names else t.names ++ [name]
  nodup := by
    split_ifs with h
    · exact t.nodup
    · exact List.nodup_append.mpr ⟨t.nodup, List.nodup_singleton name, by
        intro a ha b hb
        rintro rfl
        exact h (List.mem_singleton.mp hb ▸ ha)⟩
  pointer := Function.update t.pointer name (some p)

abbrev Cache (Pointee : Type) := Nat → Table Pointee

def store (c : Cache Pointee) (indom : Nat) (name : String) (p : Pointee) :
    Except PcpException (Int × Cache Pointee) :=
  .ok (((c indom).names.idxOf name : Nat), Function.update c indom ((c indom).write name p))

def lookup (c : Cache Pointee) (indom : Nat) (i : Int) :
    Except PcpException (LookupResult Pointee) :=
  match (c indom).names[i.toNat]?, decide (0 ≤ i) with
  | some name, true => .ok ⟨name, (c indom).pointer name⟩
  | _, _ => .error ⟨.pmErrInst, none⟩

def addInstance (D : Finmap fun _ : Int => String) (i : Int) (name : String) :
    Finmap fun _ : Int => String :=
  match D.lookup i with
  | some _ => D
  | none => D.insert i name

/-- The name table as a library. -/
def library (Pointee : Type) : Library Pointee where
  Cache := Cache Pointee
  InstanceDomain := Finmap fun _ : Int => String
  emptyCache := fun _ => Table.empty
  store := store
  lookup := lookup
  emptyDomain := ∅
  addInstance := addInstance
  instanceName D i := D.lookup i

theorem lookup_ok_iff (c : Cache Pointee) (indom : Nat) (i : Int) (entry : LookupResult Pointee) :
    lookup c indom i = .ok entry ↔ 0 ≤ i ∧ (c indom).names[i.toNat]? = some entry.name ∧
      (c indom).pointer entry.name = entry.opaquePointer := by
  unfold lookup
  by_cases hi : 0 ≤ i
  · cases hn : (c indom).names[i.toNat]? with
    | none => simp [hi]
    | some name =>
      cases entry
      simp only [hi, decide_true, Except.ok.injEq, LookupResult.mk.injEq, true_and,
        Option.some.injEq]
      exact and_congr_right fun h => by rw [h]
  · simp [hi]

theorem write_get_idxOf (t : Table Pointee) (name : String) (p : Pointee) :
    (t.write name p).names[t.names.idxOf name]? = some name := by
  by_cases h : name ∈ t.names
  · simp only [Table.write, h, if_true]
    rw [List.getElem?_eq_getElem (List.idxOf_lt_length_of_mem h), List.getElem_idxOf]
  · simp [Table.write, h]

theorem write_get_known (t : Table Pointee) (name : String) (p : Pointee) {k : Nat} {m : String}
    (h : t.names[k]? = some m) : (t.write name p).names[k]? = some m := by
  by_cases hm : name ∈ t.names
  · simpa [Table.write, hm] using h
  · simp only [Table.write, hm, if_false]
    rw [List.getElem?_append_left (List.getElem?_eq_some_iff.mp h).1, h]

theorem write_get_other (t : Table Pointee) (name : String) (p : Pointee) {k : Nat}
    (hk : k ≠ t.names.idxOf name) : (t.write name p).names[k]? = t.names[k]? := by
  by_cases h : name ∈ t.names
  · simp [Table.write, h]
  · rw [List.idxOf_eq_length h] at hk
    simp only [Table.write, h, if_false]
    rcases Nat.lt_or_ge k t.names.length with hlt | hge
    · exact List.getElem?_append_left hlt
    · rw [List.getElem?_eq_none hge, List.getElem?_eq_none (by simp; omega)]

theorem names_position (t : Table Pointee) {k : Nat} {name : String}
    (h : t.names[k]? = some name) : t.names.idxOf name = k := by
  obtain ⟨hk, rfl⟩ := List.getElem?_eq_some_iff.mp h
  exact t.nodup.idxOf_getElem k hk

theorem lookup_store_self (c : Cache Pointee) (indom : Nat) (name : String) (p : Pointee) :
    lookup (Function.update c indom ((c indom).write name p)) indom
      ((c indom).names.idxOf name) = .ok ⟨name, some p⟩ := by
  refine (lookup_ok_iff _ _ _ _).mpr ⟨Int.natCast_nonneg _, ?_, ?_⟩
  · simpa using write_get_idxOf (c indom) name p
  · simp [Table.write]

theorem lookup_store_other (c : Cache Pointee) (indom : Nat) (name : String) (p : Pointee)
    (indom' : Nat) (j : Int) (h : (indom', j) ≠ (indom, ((c indom).names.idxOf name : Int))) :
    lookup (Function.update c indom ((c indom).write name p)) indom' j = lookup c indom' j := by
  by_cases hd : indom' = indom
  · subst indom'
    have hj : 0 ≤ j → j.toNat ≠ (c indom).names.idxOf name := by
      intro h0 he
      exact h (by rw [← he, Int.toNat_of_nonneg h0])
    unfold lookup
    by_cases h0 : 0 ≤ j
    · simp only [Function.update_self, write_get_other _ _ _ (hj h0)]
      cases hn : (c indom).names[j.toNat]? with
      | none => rfl
      | some m =>
        have hm : m ≠ name := fun he => hj h0 (he ▸ (names_position _ hn).symm)
        simp only [h0, decide_true, Table.write, Function.update_of_ne hm]
    · simp [h0]
  · unfold lookup
    simp only [Function.update_of_ne hd]

theorem instanceName_add (D : Finmap fun _ : Int => String) (i : Int) (name : String)
    (h : ∀ m, D.lookup i = some m → m = name) :
    (addInstance D i name).lookup = Function.update D.lookup i (some name) := by
  funext j
  unfold addInstance
  cases hi : D.lookup i with
  | none =>
    by_cases hj : j = i
    · subst j; simp [Finmap.lookup_insert]
    · simp [Finmap.lookup_insert_of_ne _ hj, Function.update_of_ne hj]
  | some m =>
    obtain rfl := h m hi
    by_cases hj : j = i
    · subst j; simp [hi]
    · simp [Function.update_of_ne hj]

theorem store_ok {c : Cache Pointee} {indom : Nat} {name : String} {p : Pointee} {i : Int}
    {c' : Cache Pointee} (h : (library Pointee).store c indom name p = .ok (i, c')) :
    ((c indom).names.idxOf name : Int) = i ∧
      Function.update c indom ((c indom).write name p) = c' :=
  Prod.mk.inj (Except.ok.inj h)

/-- The name table is a library in the sense of the laws. -/
theorem library_lawful (Pointee : Type) : (library Pointee).Lawful where
  lookup_empty indom i entry := by
    simp [library, lookup, Table.empty]
  lookup_stored {c indom name p i c'} h := by
    obtain ⟨rfl, rfl⟩ := store_ok h
    exact lookup_store_self c indom name p
  lookup_other {c indom name p i c'} h indom' j hj := by
    obtain ⟨rfl, rfl⟩ := store_ok h
    exact lookup_store_other c indom name p indom' j hj
  store_known {c indom name p i c'} h j entry hl he := by
    obtain ⟨rfl, -⟩ := store_ok h
    obtain ⟨h0, hn, -⟩ := (lookup_ok_iff _ _ _ _).mp hl
    rw [← he, names_position _ hn, Int.toNat_of_nonneg h0]
  store_unused {c indom name p i c'} h entry hl := by
    obtain ⟨rfl, rfl⟩ := store_ok h
    obtain ⟨-, hn, -⟩ := (lookup_ok_iff _ _ _ _).mp hl
    have hw := write_get_idxOf (c indom) name p
    rw [Int.toNat_natCast] at hn
    exact Option.some.inj ((write_get_known _ name p hn).symm.trans hw)
  instanceName_empty i := Finmap.lookup_empty (β := fun _ : Int => String) i
  instanceName_add D i name h := instanceName_add D i name h

end QpidPmda.Pcp.NameTable
