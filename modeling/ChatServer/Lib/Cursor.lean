import ChatServer.Lib.Mealy

/-!
# A cursor in an append-only log

A `Cursor α` is a log that only grows, together with a position in it: the
entries before the position have been consumed, the rest are pending.  Draining
hands over everything pending and moves the position to the end.

The one fact a consumer needs is `Cursor.run_flatten`: over any run the drained
segments, laid end to end, are exactly the part of the log the position has
passed — nothing is skipped and nothing is handed over twice.
-/

universe u

/-- A log with a position inside it. -/
structure Cursor (α : Type u) where
  /-- Everything appended so far, oldest first. -/
  log : List α
  /-- How many entries have been consumed. -/
  pos : ℕ
  /-- The position lies inside the log. -/
  pos_le : pos ≤ log.length

namespace Cursor

variable {α : Type u}

/-- The empty log. -/
def empty : Cursor α := ⟨[], 0, Nat.le_refl _⟩

/-- The entries already consumed. -/
def consumed (c : Cursor α) : List α := c.log.take c.pos

/-- The entries not consumed yet. -/
def pending (c : Cursor α) : List α := c.log.drop c.pos

/-- Append one entry. -/
def push (c : Cursor α) (a : α) : Cursor α :=
  ⟨c.log ++ [a], c.pos, Nat.le_trans c.pos_le (by simp)⟩

/-- Consume everything pending. -/
def drain (c : Cursor α) : Cursor α := ⟨c.log, c.log.length, Nat.le_refl _⟩

/-- What can happen to a cursor. -/
inductive Act (α : Type u) where
  | push (a : α)
  | drain

/-- The machine of a cursor; a drain emits the segment it hands over. -/
def machine (α : Type u) : Mealy (Cursor α) (Act α) (List α) where
  step c
    | .push a => some (c.push a, [])
    | .drain => some (c.drain, [c.pending])

@[simp] theorem consumed_append_pending (c : Cursor α) : c.consumed ++ c.pending = c.log :=
  List.take_append_drop c.pos c.log

@[simp] theorem consumed_push (c : Cursor α) (a : α) : (c.push a).consumed = c.consumed :=
  List.take_append_of_le_length c.pos_le

@[simp] theorem pending_push (c : Cursor α) (a : α) : (c.push a).pending = c.pending ++ [a] :=
  List.drop_append_of_le_length c.pos_le

@[simp] theorem consumed_drain (c : Cursor α) : c.drain.consumed = c.log := List.take_length

@[simp] theorem pending_drain (c : Cursor α) : c.drain.pending = [] := List.drop_length

/-- Over any run, what was consumed before it followed by the segments drained
in it is what is consumed after it. -/
theorem run_flatten {c c' : Cursor α} {as : List (Act α)} {segs : List (List α)}
    (h : (machine α).run c as = some (c', segs)) : c.consumed ++ segs.flatten = c'.consumed := by
  refine Mealy.run_induction (P := fun _ c' segs ↦ c.consumed ++ segs.flatten = c'.consumed)
    (by simp) ?_ h
  intro _ c₁ segs₁ a c₂ segs₂ ih hs
  cases a with
  | push a =>
      obtain ⟨rfl, rfl⟩ := Prod.mk.inj (Option.some.inj hs)
      simpa using ih
  | drain =>
      obtain ⟨rfl, rfl⟩ := Prod.mk.inj (Option.some.inj hs)
      rw [List.flatten_append, ← List.append_assoc, ih]
      simp

end Cursor
