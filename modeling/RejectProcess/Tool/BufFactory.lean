import Mathlib.Data.List.Basic

/-!
# Buffer factories

`tool/buf_factory.c`: a pool of buffers handed out from the head of a free list and taken
back at its tail.  A buffer is named by its index in `buf_array`, and the free list is the
sequence of the buffers that own its nodes.
-/

namespace RejectProcess

/-- A buffer of a factory, by its index in `buf_array`. -/
abbrev Buffer := ℕ

/-- A `struct buffer_factory`: the free list, and what the memory of each buffer holds. -/
structure BufferFactory (α : Type*) where
  list : List Buffer
  memory : Buffer → α

namespace BufferFactory

variable {α : Type*}

/-- The factory `create_buf_factory` builds: all `num` buffers are free, in index order, and
their memory is whatever `malloc` returned. -/
def create (num : ℕ) (memory : Buffer → α) : BufferFactory α where
  list := List.range num
  memory := memory

/-- `buf_factory_produce`.  `none` is `ERROR("buf factory crash !")`, which ends the process. -/
def produce (f : BufferFactory α) : Option (Buffer × BufferFactory α) :=
  match f.list with
  | [] => none
  | buf :: rest => some (buf, { f with list := rest })

/-- `buf_factory_recycle`. -/
def recycle (f : BufferFactory α) (buf : Buffer) : BufferFactory α :=
  { f with list := f.list ++ [buf] }

/-- A store into the memory of one buffer. -/
def store (f : BufferFactory α) (buf : Buffer) (x : α) : BufferFactory α :=
  { f with memory := fun b => if b = buf then x else f.memory b }

@[simp] lemma create_list (num : ℕ) (mem : Buffer → α) :
    (create num mem).list = List.range num := rfl

@[simp] lemma recycle_list (f : BufferFactory α) (buf : Buffer) :
    (f.recycle buf).list = f.list ++ [buf] := rfl

@[simp] lemma store_list (f : BufferFactory α) (buf : Buffer) (x : α) :
    (f.store buf x).list = f.list := rfl

@[simp] lemma store_memory_self (f : BufferFactory α) (buf : Buffer) (x : α) :
    (f.store buf x).memory buf = x := by
  simp [store]

lemma store_memory_of_ne (f : BufferFactory α) {buf b : Buffer} (x : α) (h : b ≠ buf) :
    (f.store buf x).memory b = f.memory b := by
  simp [store, h]

/-- What `produce` returns: the head of the free list, which it takes off. -/
lemma produce_eq_some {f f' : BufferFactory α} {buf : Buffer} :
    f.produce = some (buf, f') ↔ f.list = buf :: f'.list ∧ f'.memory = f.memory := by
  obtain ⟨l, mem⟩ := f
  obtain ⟨l', mem'⟩ := f'
  cases l with
  | nil => simp [produce]
  | cons b rest =>
    simp only [produce, Option.some.injEq, Prod.mk.injEq, mk.injEq, List.cons.injEq]
    constructor
    · rintro ⟨rfl, rfl, rfl⟩
      exact ⟨⟨rfl, rfl⟩, rfl⟩
    · rintro ⟨⟨rfl, rfl⟩, rfl⟩
      exact ⟨rfl, rfl, rfl⟩

lemma produce_eq_none {f : BufferFactory α} : f.produce = none ↔ f.list = [] := by
  obtain ⟨l, mem⟩ := f
  cases l <;> simp [produce]

end BufferFactory

end RejectProcess
