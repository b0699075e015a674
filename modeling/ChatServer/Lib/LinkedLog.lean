import Mathlib.Data.List.Basic

/-!
# Linked logs

A list whose elements carry an identifier and a reference to the element before them.  `Linked`
says that the references are those identifiers: the first element refers to nothing, and each
other one to its predecessor.  A log that grows only by elements that refer to its end stays
linked (`Linked.concat`).
-/

universe u v

/-- Every element refers to the one before it. -/
structure Linked {α : Type u} {ι : Type v} (id : α → ι) (prev : α → Option ι) (l : List α) :
    Prop where
  first : ∀ a, l[0]? = some a → prev a = none
  next : ∀ i a b, l[i]? = some a → l[i + 1]? = some b → prev b = some (id a)

namespace Linked

variable {α : Type u} {ι : Type v} {id : α → ι} {prev : α → Option ι} {l : List α}

theorem nil : Linked id prev [] where
  first a h := by cases h
  next i a b h := by cases h

/-- An element that refers to the end of a log can be added to it. -/
theorem concat (h : Linked id prev l) {b : α} (hb : prev b = l.getLast?.map id) :
    Linked id prev (l ++ [b]) := by
  constructor
  · intro a ha
    cases l with
    | nil =>
        cases ha
        exact hb
    | cons a' l =>
        cases ha
        exact h.first a rfl
  · intro i a c ha hc
    rcases Nat.lt_trichotomy (i + 1) l.length with hlt | heq | hgt
    · rw [List.getElem?_append_left (Nat.lt_of_succ_lt hlt)] at ha
      rw [List.getElem?_append_left hlt] at hc
      exact h.next i a c ha hc
    · rw [heq, List.getElem?_concat_length] at hc
      cases hc
      rw [List.getElem?_append_left (by omega)] at ha
      rw [hb, List.getLast?_eq_getElem?, ← heq, Nat.add_sub_cancel, ha]
      rfl
    · have hend : (l ++ [b]).length ≤ i + 1 := by
        rw [List.length_append, List.length_singleton]
        exact hgt
      rw [List.getElem?_eq_none hend] at hc
      cases hc

end Linked
