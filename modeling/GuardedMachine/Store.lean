import Std.Data.ExtTreeMap

/-!
# The variable store

A `Store` gives 64-bit integer values to finitely many names.  Reading is lenient: a name the store
does not hold reads as `0`, so a declared variable that was never written and a name that was never
declared are told apart only by membership.

Stores are extensional.  `Store.ext_iff` says that two of them are equal exactly when they hold the
same names and read the same on every name, whatever sequence of writes produced them; and
`Store.toList` lists each name once, in code-point order.  Everything else about stores follows from
what a write does to membership (`mem_write`) and to reads (`read_write`).
-/

set_option autoImplicit false

namespace GuardedMachine

/-- A finite map from variable names to their current values. -/
structure Store where
  /-- The names the store holds, each with its value. -/
  values : Std.ExtTreeMap String Int64 := ∅
deriving DecidableEq

namespace Store

instance : EmptyCollection Store := ⟨{}⟩

instance : Inhabited Store := ⟨∅⟩

instance : Membership String Store := ⟨fun σ x => x ∈ σ.values⟩

instance (x : String) (σ : Store) : Decidable (x ∈ σ) :=
  inferInstanceAs (Decidable (x ∈ σ.values))

/-- The value of `x`, which is `0` for a name the store does not hold. -/
def read (σ : Store) (x : String) : Int64 := σ.values.getD x 0

/-- Gives `x` the value `v`, adding the name if the store does not hold it yet. -/
def write (σ : Store) (x : String) (v : Int64) : Store := ⟨σ.values.insert x v⟩

/-- Makes the store hold `x` with value `0`, whatever it was before. -/
def declare (σ : Store) (x : String) : Store := σ.write x 0

/-- The number of names held. -/
def size (σ : Store) : Nat := σ.values.size

/-- Whether no name is held. -/
def isEmpty (σ : Store) : Bool := σ.values.isEmpty

/-- The names held with their values, in the order of the names. -/
def toList (σ : Store) : List (String × Int64) := σ.values.toList

/-- The names held, in order. -/
def names (σ : Store) : List String := σ.values.keys

/-! ## What a write does -/

variable {σ τ : Store} {x y : String} {v : Int64}

@[simp] theorem not_mem_empty : ¬ x ∈ (∅ : Store) := Std.ExtTreeMap.not_mem_empty

@[simp] theorem read_empty : (∅ : Store).read x = 0 := Std.ExtTreeMap.getD_empty

/-- Membership in terms of the underlying map. -/
theorem mem_iff : x ∈ σ ↔ x ∈ σ.values := Iff.rfl

theorem mem_write : y ∈ σ.write x v ↔ x = y ∨ y ∈ σ := by
  rw [mem_iff, mem_iff, write, Std.ExtTreeMap.mem_insert, Std.compare_eq_iff_eq]

theorem read_write : (σ.write x v).read y = if x = y then v else σ.read y := by
  rw [read, write, Std.ExtTreeMap.getD_insert, read]
  simp only [Std.compare_eq_iff_eq]

@[simp] theorem mem_write_self : x ∈ σ.write x v := mem_write.2 (.inl rfl)

@[simp] theorem read_write_self : (σ.write x v).read x = v := by rw [read_write, if_pos rfl]

theorem read_write_of_ne (h : x ≠ y) : (σ.write x v).read y = σ.read y := by
  rw [read_write, if_neg h]

/-- The lenient read. -/
theorem read_of_not_mem (h : ¬ x ∈ σ) : σ.read x = 0 := Std.ExtTreeMap.getD_eq_fallback h

theorem mem_declare : y ∈ σ.declare x ↔ x = y ∨ y ∈ σ := mem_write

theorem read_declare : (σ.declare x).read y = if x = y then 0 else σ.read y := read_write

/-! ## Equality of stores, and the list of their contents -/

theorem values_getElem? : σ.values[x]? = if x ∈ σ then some (σ.read x) else none := by
  split
  · rename_i h
    rw [read, Std.ExtTreeMap.getD_eq_getD_getElem?, Std.ExtTreeMap.getElem?_eq_some_getElem h]
    rfl
  · rename_i h
    exact Std.ExtTreeMap.getElem?_eq_none h

/-- Stores with the same names that read the same are equal. -/
@[ext] theorem ext (hmem : ∀ x, x ∈ σ ↔ x ∈ τ) (hread : ∀ x, σ.read x = τ.read x) : σ = τ := by
  obtain ⟨s⟩ := σ
  obtain ⟨t⟩ := τ
  congr 1
  refine Std.ExtTreeMap.ext_getElem? fun x => ?_
  have hs := values_getElem? (σ := ⟨s⟩) (x := x)
  have ht := values_getElem? (σ := ⟨t⟩) (x := x)
  simp only [hmem x, hread x] at hs
  exact hs.trans ht.symm

theorem mem_toList : (x, v) ∈ σ.toList ↔ x ∈ σ ∧ σ.read x = v := by
  rw [toList, Std.ExtTreeMap.mem_toList_iff_getElem?_eq_some, values_getElem?]
  split <;> simp_all

theorem mem_names : x ∈ σ.names ↔ x ∈ σ := Std.ExtTreeMap.mem_keys

/-- No name is listed twice. -/
theorem names_nodup : σ.names.Nodup :=
  Std.ExtTreeMap.distinct_keys.imp fun h he => h (Std.compare_eq_iff_eq.2 he)

theorem map_fst_toList : σ.toList.map Prod.fst = σ.names := Std.ExtTreeMap.map_fst_toList_eq_keys

theorem length_names : σ.names.length = σ.size := Std.ExtTreeMap.length_keys

theorem isEmpty_iff : σ.isEmpty ↔ ∀ x, ¬ x ∈ σ := by
  rw [isEmpty, Std.ExtTreeMap.isEmpty_iff, Std.ExtTreeMap.eq_empty_iff_forall_not_mem]
  rfl

/-- Whatever lists the same names, each of them once, lists them in some order. -/
theorem names_perm {l : List String} (hl : l.Nodup) (h : ∀ x, x ∈ l ↔ x ∈ σ) : σ.names.Perm l :=
  (List.perm_ext_iff_of_nodup names_nodup hl).2 fun x => mem_names.trans (h x).symm

/-- A name is listed with the value it is read with. -/
theorem toList_eq_map : σ.toList = σ.names.map fun x => (x, σ.read x) := by
  have hread : σ.toList.map (fun p => (p.1, σ.read p.1)) = σ.toList.map id :=
    List.map_congr_left fun p hp => Prod.ext rfl (mem_toList.1 hp).2
  rw [← map_fst_toList, List.map_map]
  exact (hread.trans (List.map_id _)).symm

end Store

end GuardedMachine
