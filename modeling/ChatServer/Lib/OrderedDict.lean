import Mathlib.Data.List.Nodup

/-!
# Insertion-ordered dictionaries

`OrderedDict κ υ` is a finite map that remembers the order in which its keys
were first set: the `dict` of Python.  It is an association list together with
the proof that no key occurs twice, so a lookup never has to say which of two
entries it means.

Setting a key that is present replaces its value in place; setting a new key
appends it.  Every later proof goes through the four lookup laws `get?_empty`,
`get?_set_self`, `get?_set_of_ne` and `get?_filterKeys`.
-/

universe u v

/-- A finite map with distinct keys, in insertion order. -/
@[ext]
structure OrderedDict (κ : Type u) (υ : Type v) where
  /-- The key-value pairs, oldest key first. -/
  entries : List (κ × υ)
  /-- No key occurs twice. -/
  nodup : (entries.map Prod.fst).Nodup
deriving DecidableEq

namespace OrderedDict

variable {κ : Type u} {υ : Type v}

/-- The dictionary without entries. -/
def empty : OrderedDict κ υ := ⟨[], List.nodup_nil⟩

instance instEmptyCollection : EmptyCollection (OrderedDict κ υ) := ⟨empty⟩

instance instInhabited : Inhabited (OrderedDict κ υ) := ⟨∅⟩

/-- The keys, oldest first. -/
def keys (d : OrderedDict κ υ) : List κ := d.entries.map Prod.fst

/-- Whether the dictionary has no entries: the falsity of a Python `dict`. -/
def isEmpty (d : OrderedDict κ υ) : Bool := d.entries.isEmpty

@[simp] theorem entries_empty : (∅ : OrderedDict κ υ).entries = [] := rfl

@[simp] theorem keys_empty : (∅ : OrderedDict κ υ).keys = [] := rfl

theorem isEmpty_iff {d : OrderedDict κ υ} : d.isEmpty = true ↔ d = ∅ := by
  rw [isEmpty, List.isEmpty_iff]
  exact ⟨fun h ↦ OrderedDict.ext h, fun h ↦ h ▸ rfl⟩

section

variable [DecidableEq κ]

/-! ## Association lists -/

/-- Replace the value of `k`, or append the pair when `k` is new. -/
def setEntry (k : κ) (v : υ) : List (κ × υ) → List (κ × υ)
  | [] => [(k, v)]
  | (k', v') :: l => if k' = k then (k, v) :: l else (k', v') :: setEntry k v l

/-- The value of the first pair with key `k`. -/
def lookupEntry (k : κ) : List (κ × υ) → Option υ
  | [] => none
  | (k', v') :: l => if k' = k then some v' else lookupEntry k l

theorem map_fst_setEntry (k : κ) (v : υ) (l : List (κ × υ)) :
    (setEntry k v l).map Prod.fst =
      if k ∈ l.map Prod.fst then l.map Prod.fst else l.map Prod.fst ++ [k] := by
  induction l with
  | nil => simp [setEntry]
  | cons hd tl ih =>
      obtain ⟨k', v'⟩ := hd
      by_cases h : k' = k
      · simp [setEntry, h]
      · have hk : ¬ k = k' := fun e ↦ h e.symm
        simp only [setEntry, h, if_false, List.map_cons, ih, List.mem_cons, hk, false_or]
        split <;> simp

theorem nodup_setEntry (k : κ) (v : υ) {l : List (κ × υ)} (h : (l.map Prod.fst).Nodup) :
    ((setEntry k v l).map Prod.fst).Nodup := by
  rw [map_fst_setEntry]
  split
  · exact h
  · rename_i hk
    exact List.nodup_append.mpr ⟨h, List.nodup_singleton k, by
      intro a ha b hb hab
      exact hk (List.mem_singleton.mp hb ▸ hab ▸ ha)⟩

theorem lookupEntry_setEntry (k k₁ : κ) (v : υ) (l : List (κ × υ)) :
    lookupEntry k₁ (setEntry k v l) = if k = k₁ then some v else lookupEntry k₁ l := by
  induction l with
  | nil => simp [setEntry, lookupEntry]
  | cons hd tl ih =>
      obtain ⟨k', v'⟩ := hd
      by_cases h : k' = k
      · subst h
        by_cases h₁ : k' = k₁ <;> simp [setEntry, lookupEntry, h₁]
      · by_cases h₁ : k = k₁
        · subst h₁
          simp [setEntry, lookupEntry, h, ih]
        · simp [setEntry, lookupEntry, h, ih, h₁]

theorem lookupEntry_eq_none_iff {k : κ} {l : List (κ × υ)} :
    lookupEntry k l = none ↔ k ∉ l.map Prod.fst := by
  induction l with
  | nil => simp [lookupEntry]
  | cons hd tl ih =>
      obtain ⟨k', v'⟩ := hd
      by_cases h : k' = k
      · simp [lookupEntry, h]
      · have hk : ¬ k = k' := fun e ↦ h e.symm
        simp [lookupEntry, h, ih, hk]

theorem lookupEntry_of_mem {k : κ} {v : υ} {l : List (κ × υ)} (hl : (l.map Prod.fst).Nodup)
    (h : (k, v) ∈ l) : lookupEntry k l = some v := by
  induction l with
  | nil => cases h
  | cons hd tl ih =>
      obtain ⟨k', v'⟩ := hd
      rw [List.map_cons, List.nodup_cons] at hl
      rw [lookupEntry]
      rcases List.mem_cons.mp h with heq | h
      · cases heq
        exact if_pos rfl
      · have hne : k' ≠ k := by
          rintro rfl
          exact hl.1 (List.mem_map.mpr ⟨(k', v), h, rfl⟩)
        rw [if_neg hne, ih hl.2 h]

theorem lookupEntry_filter (p : κ → Bool) (k : κ) (l : List (κ × υ)) :
    lookupEntry k (l.filter fun e ↦ p e.1) = if p k then lookupEntry k l else none := by
  induction l with
  | nil => simp [lookupEntry]
  | cons hd tl ih =>
      obtain ⟨k', v'⟩ := hd
      by_cases h : k' = k
      · subst h
        cases hp : p k' <;> simp [lookupEntry, hp, ih]
      · cases hp : p k' <;> simp [lookupEntry, hp, h, ih]

/-! ## The operations -/

/-- `d.get(k)`. -/
def get? (d : OrderedDict κ υ) (k : κ) : Option υ := lookupEntry k d.entries

/-- `d[k] = v`. -/
def set (d : OrderedDict κ υ) (k : κ) (v : υ) : OrderedDict κ υ :=
  ⟨setEntry k v d.entries, nodup_setEntry k v d.nodup⟩

/-- Keep the entries whose key satisfies `p`. -/
def filterKeys (d : OrderedDict κ υ) (p : κ → Bool) : OrderedDict κ υ :=
  ⟨d.entries.filter fun e ↦ p e.1, d.nodup.sublist (List.filter_sublist.map Prod.fst)⟩

@[simp] theorem get?_empty (k : κ) : (∅ : OrderedDict κ υ).get? k = none := rfl

theorem get?_set (d : OrderedDict κ υ) (k k₁ : κ) (v : υ) :
    (d.set k v).get? k₁ = if k = k₁ then some v else d.get? k₁ :=
  lookupEntry_setEntry k k₁ v d.entries

@[simp] theorem get?_set_self (d : OrderedDict κ υ) (k : κ) (v : υ) :
    (d.set k v).get? k = some v := by
  rw [get?_set, if_pos rfl]

theorem get?_set_of_ne (d : OrderedDict κ υ) {k k₁ : κ} (v : υ) (h : k ≠ k₁) :
    (d.set k v).get? k₁ = d.get? k₁ := by
  rw [get?_set, if_neg h]

@[simp] theorem get?_filterKeys (d : OrderedDict κ υ) (p : κ → Bool) (k : κ) :
    (d.filterKeys p).get? k = if p k then d.get? k else none :=
  lookupEntry_filter p k d.entries

theorem get?_of_mem {d : OrderedDict κ υ} {k : κ} {v : υ} (h : (k, v) ∈ d.entries) :
    d.get? k = some v :=
  lookupEntry_of_mem d.nodup h

theorem get?_eq_none_iff {d : OrderedDict κ υ} {k : κ} : d.get? k = none ↔ k ∉ d.keys :=
  lookupEntry_eq_none_iff

@[simp] theorem mem_keys_set {d : OrderedDict κ υ} {k k₁ : κ} {v : υ} :
    k₁ ∈ (d.set k v).keys ↔ k₁ = k ∨ k₁ ∈ d.keys := by
  change k₁ ∈ (setEntry k v d.entries).map Prod.fst ↔ k₁ = k ∨ k₁ ∈ d.entries.map Prod.fst
  rw [map_fst_setEntry]
  split
  · rename_i h
    exact ⟨Or.inr, fun h' ↦ h'.elim (fun e ↦ e ▸ h) id⟩
  · simp [or_comm]

/-! ## Filling a dictionary from a list -/

/-- Every element is read and set under its key; the first that cannot be read ends it. -/
def collect {ε α : Type*} (read : α → Except ε υ) (key : υ → κ) :
    List α → OrderedDict κ υ → Except ε (OrderedDict κ υ)
  | [], d => .ok d
  | a :: as, d =>
      match read a with
      | .error e => .error e
      | .ok v => collect read key as (d.set (key v) v)

/-- Of the values with one key the last one is left. -/
theorem get?_foldl_set (key : υ → κ) (vs : List υ) (d : OrderedDict κ υ) (k : κ) :
    (vs.foldl (fun d v ↦ d.set (key v) v) d).get? k =
      (vs.reverse.find? (key · = k)).or (d.get? k) := by
  induction vs generalizing d with
  | nil => rfl
  | cons v vs ih =>
      rw [List.foldl_cons, ih, get?_set, List.reverse_cons, List.find?_append]
      by_cases h : key v = k
      · simp [h]
      · simp [h]

/-- What is collected is what setting the values one after another gives. -/
theorem exists_of_collect_eq_ok {ε α : Type*} {read : α → Except ε υ} {key : υ → κ} {as : List α}
    {d d' : OrderedDict κ υ} (h : collect read key as d = .ok d') :
    ∃ vs, List.Forall₂ (fun a v ↦ read a = .ok v) as vs ∧
      d' = vs.foldl (fun d v ↦ d.set (key v) v) d := by
  induction as generalizing d with
  | nil =>
      cases h
      exact ⟨[], .nil, rfl⟩
  | cons a as ih =>
      cases ha : read a with
      | error e => simp only [collect, ha, reduceCtorEq] at h
      | ok v =>
          simp only [collect, ha] at h
          obtain ⟨vs, hvs, rfl⟩ := ih h
          exact ⟨v :: vs, .cons ha hvs, rfl⟩

/-- What cannot be read is the first that cannot be. -/
theorem exists_of_collect_eq_error {ε α : Type*} {read : α → Except ε υ} {key : υ → κ}
    {as : List α} {d : OrderedDict κ υ} {e : ε} (h : collect read key as d = .error e) :
    ∃ before a after, as = before ++ a :: after ∧ (∀ b ∈ before, ∃ v, read b = .ok v) ∧
      read a = .error e := by
  induction as generalizing d with
  | nil => cases h
  | cons a as ih =>
      cases ha : read a with
      | error e' =>
          simp only [collect, ha, Except.error.injEq] at h
          subst h
          exact ⟨[], a, as, rfl, List.forall_mem_nil _, ha⟩
      | ok v =>
          simp only [collect, ha] at h
          obtain ⟨before, b, after, rfl, hbefore, hb⟩ := ih h
          exact ⟨a :: before, b, after, rfl, List.forall_mem_cons.mpr ⟨⟨v, ha⟩, hbefore⟩, hb⟩

end

end OrderedDict
