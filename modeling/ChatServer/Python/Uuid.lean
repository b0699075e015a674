import ChatServer.Python.Basic

/-!
# `uuid.UUID`

A UUID is a 128-bit number.  `str` prints it as thirty-two hexadecimal digits in
groups of 8, 4, 4, 4 and 12; the constructor reads that form back, together with
the looser ones it also admits (a `urn:` or `uuid:` prefix, braces, hyphens
anywhere).  `UUID.parse_str` is the round trip on which restoring a stored
identifier rests.
-/

/-- A 128-bit identifier. -/
structure UUID where
  /-- The identifier as a number. -/
  int : ℕ
  /-- It has at most 128 bits. -/
  lt : int < 2 ^ 128
deriving DecidableEq, Repr

namespace UUID

open Py

/-- The identifier with the low 128 bits of a number. -/
def ofNat (n : ℕ) : UUID := ⟨n % 2 ^ 128, Nat.mod_lt n (by decide)⟩

/-- `str(u)`. -/
def str (u : UUID) : String :=
  let h := hexDigits 32 u.int
  String.ofList (h.take 8 ++ '-' :: ((h.drop 8).take 4 ++ '-' :: ((h.drop 12).take 4 ++
    '-' :: ((h.drop 16).take 4 ++ '-' :: h.drop 20))))

/-- `UUID(text)`. -/
def parse (text : String) : Except PyExc UUID :=
  let hex := removeAll ['u', 'u', 'i', 'd', ':'] (removeAll ['u', 'r', 'n', ':'] text.toList)
  let hex := (strip (fun c ↦ c = '{' || c = '}') hex).filter (· ≠ '-')
  if hex.length = 32 then
    match intVal 16 hex with
    | none => .error (.valueError "invalid literal for int() with base 16")
    | some n =>
        if h : 0 ≤ n ∧ n.toNat < 2 ^ 128 then .ok ⟨n.toNat, h.2⟩
        else .error (.valueError "int is out of range (need a 128-bit value)")
  else .error (.valueError "badly formed hexadecimal UUID string")

/-- The characters `str` uses. -/
theorem mem_str {u : UUID} {c : Char} (h : c ∈ u.str.toList) : c ∈ '-' :: hexAlphabet := by
  have hd : ∀ {l : List Char}, (∀ x ∈ l, x ∈ hexDigits 32 u.int) → c ∈ l → c ∈ hexAlphabet :=
    fun hl hc ↦ mem_hexDigits (hl c hc)
  have hgroup : ∀ {n m : ℕ}, c ∈ ((hexDigits 32 u.int).drop n).take m → c ∈ '-' :: hexAlphabet :=
    fun h ↦ List.mem_cons_of_mem _
      (hd (fun _ hx ↦ List.mem_of_mem_drop (List.mem_of_mem_take hx)) h)
  simp only [str, String.toList_ofList, List.mem_append, List.mem_cons] at h
  rcases h with h | rfl | h | rfl | h | rfl | h | rfl | h
  · exact List.mem_cons_of_mem _ (hd (fun _ ↦ List.mem_of_mem_take) h)
  · exact List.mem_cons_self
  · exact hgroup h
  · exact List.mem_cons_self
  · exact hgroup h
  · exact List.mem_cons_self
  · exact hgroup h
  · exact List.mem_cons_self
  · exact List.mem_cons_of_mem _ (hd (fun _ ↦ List.mem_of_mem_drop) h)

/-- Dropping the hyphens of `str u` leaves the thirty-two digits. -/
theorem filter_str (u : UUID) : u.str.toList.filter (· ≠ '-') = hexDigits 32 u.int := by
  have hd : ∀ l : List Char, (∀ x ∈ l, x ∈ hexDigits 32 u.int) → l.filter (· ≠ '-') = l := by
    intro l hl
    refine List.filter_eq_self.mpr fun c hc ↦ ?_
    have hmem : c ∈ hexAlphabet := mem_hexDigits (hl c hc)
    exact decide_eq_true (ne_of_mem_of_not_mem hmem (by decide))
  have hsub : ∀ n m : ℕ, ∀ x ∈ ((hexDigits 32 u.int).drop n).take m, x ∈ hexDigits 32 u.int :=
    fun n m x hx ↦ List.mem_of_mem_drop (List.mem_of_mem_take hx)
  simp only [str, String.toList_ofList, List.filter_append, List.filter_cons, ne_eq,
    not_true_eq_false, decide_false, Bool.false_eq_true, if_false]
  rw [hd _ fun _ ↦ List.mem_of_mem_take, hd _ (hsub 8 4), hd _ (hsub 12 4), hd _ (hsub 16 4),
    hd _ fun _ ↦ List.mem_of_mem_drop]
  have h₁ : (hexDigits 32 u.int).take 8 ++ ((hexDigits 32 u.int).drop 8).take 4 =
      (hexDigits 32 u.int).take 12 := (List.take_add (i := 8) (j := 4)).symm
  have h₂ : (hexDigits 32 u.int).take 12 ++ ((hexDigits 32 u.int).drop 12).take 4 =
      (hexDigits 32 u.int).take 16 := (List.take_add (i := 12) (j := 4)).symm
  have h₃ : (hexDigits 32 u.int).take 16 ++ ((hexDigits 32 u.int).drop 16).take 4 =
      (hexDigits 32 u.int).take 20 := (List.take_add (i := 16) (j := 4)).symm
  rw [← List.append_assoc, h₁, ← List.append_assoc, h₂, ← List.append_assoc, h₃,
    List.take_append_drop]

/-- The printed digits read back as the number. -/
theorem intVal_hexDigits (u : UUID) : intVal 16 (hexDigits 32 u.int) = some (u.int : ℤ) := by
  have hval : digitsVal 16 0 false (hexDigits 32 u.int) = some u.int := by
    rw [digitsVal_hexDigits 31 u.int, Nat.mod_eq_of_lt (by simpa using u.lt)]
  have hnot : ∀ c ∉ hexAlphabet, c ∉ hexDigits 32 u.int := fun c hc h ↦ hc (mem_hexDigits h)
  rw [intVal_eq_digitsVal 16 (fun c hc ↦ (ascii_of_mem_hexAlphabet (mem_hexDigits hc)).1)
    (fun c hc ↦ (ascii_of_mem_hexAlphabet (mem_hexDigits hc)).2)
    ⟨hnot _ (by decide), hnot _ (by decide)⟩ ⟨hnot _ (by decide), hnot _ (by decide)⟩, hval]
  rfl

/-- **Round trip.**  The text of an identifier restores the identifier. -/
theorem parse_str (u : UUID) : parse u.str = .ok u := by
  have hu : 'u' ∉ u.str.toList := fun h ↦ absurd (mem_str h) (by decide)
  have hbrace : ∀ c ∈ u.str.toList, (decide (c = '{') || decide (c = '}')) = false := by
    intro c hc
    have hopen : c ≠ '{' := ne_of_mem_of_not_mem (mem_str hc) (by decide)
    have hclose : c ≠ '}' := ne_of_mem_of_not_mem (mem_str hc) (by decide)
    rw [decide_eq_false hopen, decide_eq_false hclose]
    rfl
  rw [parse, removeAll_eq_self hu, removeAll_eq_self hu, strip_eq_self hbrace]
  simp only [filter_str, length_hexDigits, if_true, intVal_hexDigits]
  have hlt : (0 : ℤ) ≤ u.int ∧ (u.int : ℤ).toNat < 2 ^ 128 := ⟨by omega, by simpa using u.lt⟩
  rw [dif_pos hlt]
  rfl

end UUID
