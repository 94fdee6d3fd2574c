import Mathlib.Data.List.Count
import Mathlib.Data.List.Perm.Basic

/-!
# What a program does with the allocator

A trace lists the blocks a program was given and the pointers it has passed to `free`.  A program
that gives up should have given back each block once: one that is missing is leaked, and one that
is freed twice, or was never given out, corrupts the heap.
-/

namespace RejectProcess.Lib

variable {α : Type*}

/-- A call of the allocator. -/
inductive AllocEvent (α : Type*)
  | alloc (p : α)
  | free (p : α)
deriving DecidableEq, Repr

namespace AllocEvent

/-- The blocks that were given out. -/
def allocs : List (AllocEvent α) → List α
  | [] => []
  | alloc p :: t => p :: allocs t
  | free _ :: t => allocs t

/-- The pointers that were freed. -/
def frees : List (AllocEvent α) → List α
  | [] => []
  | alloc _ :: t => frees t
  | free p :: t => p :: frees t

@[simp] lemma allocs_append (t t' : List (AllocEvent α)) :
    allocs (t ++ t') = allocs t ++ allocs t' := by
  induction t with
  | nil => rfl
  | cons e t ih => cases e <;> simp [allocs, ih]

@[simp] lemma frees_append (t t' : List (AllocEvent α)) :
    frees (t ++ t') = frees t ++ frees t' := by
  induction t with
  | nil => rfl
  | cons e t ih => cases e <;> simp [frees, ih]

@[simp] lemma allocs_map_alloc (ps : List α) : allocs (ps.map alloc) = ps := by
  induction ps with
  | nil => rfl
  | cons p ps ih => simp [allocs, ih]

@[simp] lemma frees_map_alloc (ps : List α) : frees (ps.map alloc) = [] := by
  induction ps with
  | nil => rfl
  | cons p ps ih => simp [frees, ih]

@[simp] lemma allocs_map_free (ps : List α) : allocs (ps.map free) = [] := by
  induction ps with
  | nil => rfl
  | cons p ps ih => simp [allocs, ih]

@[simp] lemma frees_map_free (ps : List α) : frees (ps.map free) = ps := by
  induction ps with
  | nil => rfl
  | cons p ps ih => simp [frees, ih]

variable [DecidableEq α]

/-- Every block was freed exactly once, and nothing else was. -/
def FreedOnce (t : List (AllocEvent α)) : Prop :=
  ∀ p, (frees t).count p = if p ∈ allocs t then 1 else 0

end AllocEvent

end RejectProcess.Lib
