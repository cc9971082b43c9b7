import Mathlib.Logic.Function.Basic

/-- Memory, cell by cell. An address is handed out once, and its cell is live
until it is freed. -/
structure Heap (α : Type*) where
  next : Nat
  cells : Nat → Option α
  fresh : ∀ p, next ≤ p → cells p = none

namespace Heap

variable {α : Type*}

def empty : Heap α where
  next := 0
  cells _ := none
  fresh _ _ := rfl

/-- The heap after the cell `next` is allocated. -/
def alloc (h : Heap α) (a : α) : Heap α where
  next := h.next + 1
  cells := Function.update h.cells h.next (some a)
  fresh p hp := by
    rw [Function.update_of_ne (by omega)]
    exact h.fresh p (by omega)

def free (h : Heap α) (p : Nat) : Heap α where
  next := h.next
  cells := Function.update h.cells p none
  fresh q hq := by
    rw [Function.update_apply, h.fresh q hq, ite_self]

/-- A write to a live cell; there is nothing to write to in another. -/
def put (h : Heap α) (p : Nat) (a : α) : Heap α where
  next := h.next
  cells := Function.update h.cells p ((h.cells p).map (fun _ => a))
  fresh q hq := by
    rw [Function.update_apply]
    split
    · rename_i hqp
      rw [← hqp, h.fresh q hq, Option.map_none]
    · exact h.fresh q hq

@[simp] theorem next_alloc (h : Heap α) (a : α) : (h.alloc a).next = h.next + 1 := rfl

@[simp] theorem next_free (h : Heap α) (p : Nat) : (h.free p).next = h.next := rfl

@[simp] theorem next_put (h : Heap α) (p : Nat) (a : α) : (h.put p a).next = h.next := rfl

theorem cells_alloc (h : Heap α) (a : α) (q : Nat) :
    (h.alloc a).cells q = if q = h.next then some a else h.cells q := Function.update_apply ..

theorem cells_free (h : Heap α) (p q : Nat) :
    (h.free p).cells q = if q = p then none else h.cells q := Function.update_apply ..

theorem cells_put (h : Heap α) (p q : Nat) (a : α) :
    (h.put p a).cells q = if q = p then (h.cells p).map (fun _ => a) else h.cells q :=
  Function.update_apply ..

@[ext] theorem ext {h h' : Heap α} (hnext : h.next = h'.next)
    (hcells : ∀ p, h.cells p = h'.cells p) : h = h' := by
  cases h
  cases h'
  obtain rfl := hnext
  obtain rfl := funext hcells
  rfl

variable {h : Heap α} {a : α} {p : Nat}

/-- What is live already is not what the next allocation gives. -/
theorem lt_next (hp : h.cells p = some a) : p < h.next := by
  by_contra hle
  rw [h.fresh p (by omega)] at hp
  cases hp

theorem cells_alloc_self (h : Heap α) (a : α) : (h.alloc a).cells h.next = some a := by
  rw [cells_alloc, if_pos rfl]

theorem cells_alloc_live {b : α} (hp : h.cells p = some b) (a : α) :
    (h.alloc a).cells p = some b := by
  rw [cells_alloc, if_neg (Nat.ne_of_lt (lt_next hp)), hp]

theorem cells_put_self {b : α} (hp : h.cells p = some b) (a : α) :
    (h.put p a).cells p = some a := by
  rw [cells_put, if_pos rfl, hp, Option.map_some]

theorem cells_put_ne {q : Nat} (hq : q ≠ p) (a : α) : (h.put p a).cells q = h.cells q := by
  rw [cells_put, if_neg hq]

/-- Of two writes to a cell the second stays. -/
theorem put_put (h : Heap α) (p : Nat) (a b : α) : (h.put p a).put p b = h.put p b := by
  apply Heap.ext
  · rfl
  · intro q
    simp only [cells_put]
    split
    · rw [if_pos trivial, Option.map_map]
      rfl
    · rfl

theorem alloc_put (h : Heap α) (a b : α) : (h.alloc a).put h.next b = h.alloc b := by
  apply Heap.ext
  · rfl
  · intro q
    simp only [cells_put, cells_alloc]
    split
    · rw [if_pos trivial, Option.map_some]
    · rfl

end Heap
