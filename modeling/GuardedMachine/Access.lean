import GuardedMachine.Guard
import GuardedMachine.Update

/-!
# Stores on their own

A store that belongs to no machine is told what to hold and asked for what it holds.  An `Access` is
either of the two, `Store.access` carries one out and answers it, and `Store.made` is what becomes
of an empty store by any number of them.

Each access writes one name or none, and says nothing about any other (`Store.mem_access`,
`Store.read_access`).  So a store holds the names that were written (`Store.mem_made`), and the
value of a name is what the accesses that write it have made of `0` one after the other, whatever
came between them (`Store.read_made`).
-/

set_option autoImplicit false

namespace GuardedMachine

/-- What a store can be told and asked. -/
inductive Access where
  /-- Makes the store hold a name with value `0`. -/
  | declare (x : String)
  /-- Gives a name a value. -/
  | write (x : String) (v : Int64)
  /-- Makes an update. -/
  | update (u : Update)
  /-- Asks for the value of a name. -/
  | read (x : String)
  /-- Asks whether a name is held. -/
  | holds (x : String)
  /-- Asks whether a guard holds. -/
  | check (g : Guard)
deriving DecidableEq, Repr

namespace Access

/-- What a store answers. -/
inductive Answer where
  /-- There is nothing to tell. -/
  | done
  | value (v : Int64)
  | verdict (b : Bool)
  /-- A value was replaced by another one. -/
  | change (old new : Int64)
deriving DecidableEq, Repr

/-- The name that is written. -/
def target? : Access → Option String
  | declare x | write x _ => some x
  | update u => some u.var
  | read _ | holds _ | check _ => none

/-- What becomes of the value of the name that is written. -/
def written : Access → Int64 → Int64
  | declare _, _ => 0
  | write _ v, _ => v
  | update u, old => u.change.eval old
  | read _, old | holds _, old | check _, old => old

end Access

namespace Store

/-- The store after an access, and its answer. -/
def access (σ : Store) : Access → Store × Access.Answer
  | .declare x => (σ.declare x, .done)
  | .write x v => (σ.write x v, .done)
  | .update u => (u.apply σ, .change (σ.read u.var) (u.written σ))
  | .read x => (σ, .value (σ.read x))
  | .holds x => (σ, .verdict (decide (x ∈ σ)))
  | .check g => (σ, .verdict (decide (g.Holds σ)))

/-- The store after any number of accesses. -/
def accessed (σ : Store) (xs : List Access) : Store := xs.foldl (fun σ x => (σ.access x).1) σ

/-- What becomes of an empty store. -/
def made (xs : List Access) : Store := (∅ : Store).accessed xs

variable {σ : Store} {x : Access} {xs ys : List Access} {n : String}

theorem accessed_append : σ.accessed (xs ++ ys) = (σ.accessed xs).accessed ys := List.foldl_append

theorem made_concat : made (xs ++ [x]) = ((made xs).access x).1 := accessed_append

/-! ## One access -/

/-- The name that is written is held afterwards. -/
theorem mem_access : n ∈ (σ.access x).1 ↔ n ∈ σ ∨ x.target? = some n := by
  cases x with
  | declare _ | write _ _ | update _ =>
    rw [Access.target?, Option.some.injEq, or_comm]
    exact mem_write
  | read _ | holds _ | check _ => simp [access, Access.target?]

/-- The name that is written has another value afterwards, and every other name has the same. -/
theorem read_access :
    (σ.access x).1.read n = if x.target? = some n then x.written (σ.read n) else σ.read n := by
  cases x with
  | declare _ | write _ _ =>
    simp only [access, declare, read_write, Access.target?, Access.written, Option.some.injEq]
  | update u =>
    simp only [access, Update.read_apply, Access.target?, Access.written, Option.some.injEq,
      Update.written]
    split
    · rename_i h
      rw [h]
    · rfl
  | read _ | holds _ | check _ => rfl

/-! ## Any number of them -/

theorem mem_made : n ∈ made xs ↔ ∃ x ∈ xs, x.target? = some n := by
  have hmem (σ : Store) : n ∈ σ.accessed xs ↔ n ∈ σ ∨ ∃ x ∈ xs, x.target? = some n := by
    induction xs generalizing σ with
    | nil => simp [accessed]
    | cons x xs ih =>
      rw [accessed, List.foldl_cons, ← accessed, ih, mem_access]
      simp only [List.mem_cons, exists_eq_or_imp, or_assoc]
  rw [made, hmem, or_iff_right not_mem_empty]

/-- Only the accesses that write a name count for its value. -/
theorem read_accessed :
    (σ.accessed xs).read n =
      (xs.filter fun x => x.target? = some n).foldl (fun v x => x.written v) (σ.read n) := by
  induction xs generalizing σ with
  | nil => rfl
  | cons x xs ih =>
    rw [accessed, List.foldl_cons, ← accessed, ih, read_access]
    by_cases hx : x.target? = some n <;> simp [hx]

theorem read_made :
    (made xs).read n =
      (xs.filter fun x => x.target? = some n).foldl (fun v x => x.written v) 0 := by
  rw [made, read_accessed, read_empty]

end Store

end GuardedMachine
