import Mathlib.Algebra.Group.Nat.Defs
import Mathlib.Data.Int.Notation
import Mathlib.Data.List.Basic

/-!
# The part of the Python runtime the server leans on

Exceptions, the conversion `int(...)` of text, and the text methods that parse
identifiers.  Everything here follows the language reference; none of it names
the chat server.

Text is handled as a list of characters throughout, because the operations are
scans.  Digits are the ASCII ones: `int` also accepts the decimal digits of
other scripts, which no caller produces.
-/

/-- An exception, with the argument it was raised with. -/
inductive PyExc where
  | valueError (message : String)
  | typeError (message : String)
  | keyError (key : String)
  | indexError (message : String)
  | attributeError (message : String)
  | fileNotFoundError (message : String)
  | fileExistsError (message : String)
  | permissionError (message : String)
  | osError (message : String)
  | systemExit (message : String)
  | cancelledError
  /-- `any_llm.AuthenticationError`. -/
  | authenticationError (message : String)
  /-- Any other `any_llm.AnyLLMError`. -/
  | anyLlmError (message : String)
  /-- An exception of a class the program never names. -/
  | other (cls message : String)
deriving DecidableEq, Repr

/-- Whether its class is below `Exception`: `except Exception` catches the others not. -/
def PyExc.isException : PyExc → Bool
  | cancelledError | systemExit _ => false
  | _ => true

namespace Py

/-- A sequence of two statements succeeds when both do. -/
theorem bind_eq_ok {ε α β : Type} {x : Except ε α} {f : α → Except ε β} {b : β} :
    (x >>= f) = .ok b ↔ ∃ a, x = .ok a ∧ f a = .ok b := by
  cases x with
  | error e =>
      constructor
      · intro h
        cases h
      · rintro ⟨a, h, -⟩
        cases h
  | ok a =>
      constructor
      · intro h
        exact ⟨a, rfl, h⟩
      · rintro ⟨a', h, hf⟩
        cases h
        exact hf

theorem map_eq_ok {ε α β : Type} {f : α → β} {x : Except ε α} {b : β} :
    x.map f = .ok b ↔ ∃ a, x = .ok a ∧ b = f a := by
  cases x with
  | error e =>
      constructor
      · intro h
        cases h
      · rintro ⟨a, h, -⟩
        cases h
  | ok a =>
      constructor
      · intro h
        cases h
        exact ⟨a, rfl, rfl⟩
      · rintro ⟨a', h, rfl⟩
        cases h
        rfl

/-- Every exception that is raised has a property. -/
def RaisesOnly {α : Type} (P : PyExc → Prop) (x : Except PyExc α) : Prop :=
  ∀ e, x = .error e → P e

section

variable {α β : Type} {P : PyExc → Prop}

theorem raisesOnly_ok (a : α) : RaisesOnly P (.ok a) := nofun

theorem raisesOnly_error {e : PyExc} : @RaisesOnly α P (.error e) ↔ P e := by
  constructor
  · intro h
    exact h e rfl
  · rintro h e' ⟨⟩
    exact h

/-- A sequence of two statements raises what the first does, or what the second does once
the first has succeeded. -/
theorem raisesOnly_bind {x : Except PyExc α} {f : α → Except PyExc β} :
    RaisesOnly P (x >>= f) ↔ RaisesOnly P x ∧ ∀ a, x = .ok a → RaisesOnly P (f a) := by
  cases x with
  | error e =>
      constructor
      · intro h
        exact ⟨raisesOnly_error.mpr (h e rfl), nofun⟩
      · rintro ⟨h, -⟩ e' ⟨⟩
        exact h e rfl
  | ok a =>
      constructor
      · intro h
        refine ⟨raisesOnly_ok a, ?_⟩
        rintro a' ⟨⟩
        exact h
      · rintro ⟨-, h⟩
        exact h a rfl

/-- What is done with the value does not matter to what is raised. -/
theorem raisesOnly_map {x : Except PyExc α} {f : α → β} :
    RaisesOnly P (x.map f) ↔ RaisesOnly P x := by
  cases x with
  | error e => exact raisesOnly_error.trans raisesOnly_error.symm
  | ok a => exact iff_of_true (raisesOnly_ok (f a)) (raisesOnly_ok a)

end

/-- Every element a loop comes to has a property; it goes on after an element on which `f`
succeeds. -/
def EachReached {ε α β : Type} (f : α → Except ε β) (Q : α → Prop) : List α → Prop
  | [] => True
  | a :: as => Q a ∧ ((∃ b, f a = .ok b) → EachReached f Q as)

/-- A loop raises what its body does on the elements it comes to. -/
theorem raisesOnly_mapM {α β : Type} {P : PyExc → Prop} {f : α → Except PyExc β} {Q : α → Prop}
    (h : ∀ a, RaisesOnly P (f a) ↔ Q a) (as : List α) :
    RaisesOnly P (as.mapM f) ↔ EachReached f Q as := by
  induction as with
  | nil => exact iff_of_true (raisesOnly_ok []) trivial
  | cons a as ih =>
      rw [List.mapM_cons, raisesOnly_bind, h, EachReached, ← ih]
      have hrest : ∀ b, RaisesOnly P (do return b :: (← as.mapM f)) ↔
          RaisesOnly P (as.mapM f) := by
        intro b
        rw [raisesOnly_bind]
        exact and_iff_left fun bs _ ↦ raisesOnly_ok (b :: bs)
      constructor
      · rintro ⟨ha, has⟩
        refine ⟨ha, ?_⟩
        rintro ⟨b, hb⟩
        exact (hrest b).mp (has b hb)
      · rintro ⟨ha, has⟩
        refine ⟨ha, ?_⟩
        intro b hb
        exact (hrest b).mpr (has ⟨b, hb⟩)

/-- Two computations that succeed with related values or raise the same. -/
inductive Both {ε α β : Type} (R : α → β → Prop) : Except ε α → Except ε β → Prop where
  | ok {a : α} {b : β} (h : R a b) : Both R (.ok a) (.ok b)
  | error (e : ε) : Both R (.error e) (.error e)

/-- Two sequences that begin alike and go on alike end alike. -/
theorem Both.bind {ε α β α' β' : Type} {R : α → β → Prop} {R' : α' → β' → Prop}
    {x : Except ε α} {y : Except ε β} {f : α → Except ε α'} {g : β → Except ε β'}
    (h : Both R x y) (hfg : ∀ a b, R a b → Both R' (f a) (g b)) : Both R' (x >>= f) (y >>= g) := by
  cases h with
  | ok hab => exact hfg _ _ hab
  | error e => exact .error e

/-- What corresponds to a failure. -/
theorem Both.eq_error {ε α β : Type} {R : α → β → Prop} {e : ε} {y : Except ε β}
    (h : Both R (.error e) y) : y = .error e := by
  cases h
  rfl

/-- What corresponds to a result. -/
theorem Both.exists_eq_ok {ε α β : Type} {R : α → β → Prop} {a : α} {y : Except ε β}
    (h : Both R (.ok a) y) : ∃ b, y = .ok b ∧ R a b := by
  cases h with
  | ok hab => exact ⟨_, rfl, hab⟩

theorem Both.refl {ε α : Type} (x : Except ε α) : Both Eq x x := by
  cases x with
  | ok a => exact .ok rfl
  | error e => exact .error e

/-- What is not below one is a positive number. -/
theorem one_le_toNat {n : ℤ} (h : ¬ n < 1) : 1 ≤ n.toNat := by omega

theorem ok_of_toOption {ε α : Type} {x : Except ε α} {a : α} (h : x.toOption = some a) :
    x = .ok a := by
  cases x with
  | error e => cases h
  | ok b => exact congrArg Except.ok (Option.some.inj h)

/-- The characters of which `str.isspace` holds. -/
def isSpace (c : Char) : Bool :=
  let n := c.toNat
  (9 ≤ n && n ≤ 13) || (28 ≤ n && n ≤ 32) || n = 0x85 || n = 0xa0 || n = 0x1680 ||
    (0x2000 ≤ n && n ≤ 0x200a) || n = 0x2028 || n = 0x2029 || n = 0x202f || n = 0x205f ||
    n = 0x3000

/-- `s.strip(...)`: drop the characters satisfying `p` from both ends. -/
def strip (p : Char → Bool) (s : List Char) : List Char :=
  ((s.dropWhile p).reverse.dropWhile p).reverse

/-- `s.replace(pat, '')`: delete the occurrences of `pat`, leftmost first.  The
counter is how much of an occurrence is still to be skipped. -/
def removeAllFrom (pat : List Char) : ℕ → List Char → List Char
  | _, [] => []
  | n + 1, _ :: cs => removeAllFrom pat n cs
  | 0, c :: cs =>
      if pat.isPrefixOf (c :: cs) then removeAllFrom pat (pat.length - 1) cs
      else c :: removeAllFrom pat 0 cs

@[inherit_doc removeAllFrom]
def removeAll (pat s : List Char) : List Char := removeAllFrom pat 0 s

/-- The value of a digit in the bases up to 36. -/
def digitVal (c : Char) : Option ℕ :=
  if '0' ≤ c ∧ c ≤ '9' then some (c.toNat - 48)
  else if 'a' ≤ c ∧ c ≤ 'z' then some (c.toNat - 87)
  else if 'A' ≤ c ∧ c ≤ 'Z' then some (c.toNat - 55)
  else none

/-- The digits of an integer literal: at least one digit, and single underscores
only between digits.  The flag says whether the last character was a digit. -/
def digitsVal (base : ℕ) : ℕ → Bool → List Char → Option ℕ
  | acc, last, [] => if last then some acc else none
  | acc, last, c :: cs =>
      if c = '_' then if last then digitsVal base acc false cs else none
      else
        match digitVal c with
        | some d => if d < base then digitsVal base (acc * base + d) true cs else none
        | none => none

/-- The digits of a literal after an optional `0x` (in base sixteen only), which
an underscore may follow. -/
def unsignedVal (base : ℕ) (s : List Char) : Option ℕ :=
  match s with
  | '0' :: x :: cs =>
      if base = 16 ∧ (x = 'x' ∨ x = 'X') then
        match cs with
        | '_' :: cs => digitsVal base 0 false cs
        | cs => digitsVal base 0 false cs
      else digitsVal base 0 false ('0' :: x :: cs)
  | s => digitsVal base 0 false s

/-- The zeros of the decimal digits of Unicode 15; the nine others follow each. -/
def decimalZeros : List ℕ :=
  [0x30, 0x660, 0x6f0, 0x7c0, 0x966, 0x9e6, 0xa66, 0xae6, 0xb66, 0xbe6, 0xc66, 0xce6, 0xd66,
   0xde6, 0xe50, 0xed0, 0xf20, 0x1040, 0x1090, 0x17e0, 0x1810, 0x1946, 0x19d0, 0x1a80, 0x1a90,
   0x1b50, 0x1bb0, 0x1c40, 0x1c50, 0xa620, 0xa8d0, 0xa900, 0xa9d0, 0xa9f0, 0xaa50, 0xabf0,
   0xff10, 0x104a0, 0x10d30, 0x11066, 0x110f0, 0x11136, 0x111d0, 0x112f0, 0x11450, 0x114d0,
   0x11650, 0x116c0, 0x11730, 0x118e0, 0x11950, 0x11c50, 0x11d50, 0x11da0, 0x11f50, 0x16a60,
   0x16ac0, 0x16b50, 0x1d7ce, 0x1d7d8, 0x1d7e2, 0x1d7ec, 0x1d7f6, 0x1e140, 0x1e2f0, 0x1e4f0,
   0x1e950, 0x1fbf0]

/-- What `int()` reads a character as: below 127 as itself, beyond as a blank or as a
decimal digit, or as a question mark, which no number holds. -/
def toAscii (c : Char) : Char :=
  if c.toNat < 127 then c
  else if isSpace c then ' '
  else
    match decimalZeros.find? fun z ↦ z ≤ c.toNat ∧ c.toNat < z + 10 with
    | some z => Char.ofNat (48 + (c.toNat - z))
    | none => '?'

/-- What `int()` skips at both ends of what it reads: the control characters from 28
to 31 stay, white space though they are. -/
def isAsciiSpace (c : Char) : Bool := (9 ≤ c.toNat && c.toNat ≤ 13) || c = ' '

/-- `int(s, base)` on a text; `none` is its `ValueError`. -/
def intVal (base : ℕ) (s : List Char) : Option ℤ :=
  match strip isAsciiSpace (s.map toAscii) with
  | '+' :: cs => (unsignedVal base cs).map Int.ofNat
  | '-' :: cs => (unsignedVal base cs).map fun n ↦ -Int.ofNat n
  | cs => (unsignedVal base cs).map Int.ofNat

/-! ## Scans that find nothing -/

theorem dropWhile_eq_self {p : Char → Bool} {s : List Char} (h : ∀ c ∈ s, p c = false) :
    s.dropWhile p = s := by
  cases s with
  | nil => rfl
  | cons c cs => simp [List.dropWhile, h c (by simp)]

theorem strip_eq_self {p : Char → Bool} {s : List Char} (h : ∀ c ∈ s, p c = false) :
    strip p s = s := by
  rw [strip, dropWhile_eq_self h, dropWhile_eq_self (by simpa using h), List.reverse_reverse]

/-- Nothing is deleted from a text without the first character of the pattern. -/
theorem removeAll_eq_self {p : Char} {pat s : List Char} (h : p ∉ s) :
    removeAll (p :: pat) s = s := by
  induction s with
  | nil => rfl
  | cons c cs ih =>
      have hc : p ≠ c := fun e ↦ h (by simp [e])
      have hp : (p :: pat).isPrefixOf (c :: cs) = false := by
        simp [List.isPrefixOf, hc]
      rw [removeAll, removeAllFrom, hp]
      exact congrArg (c :: ·) (ih fun hm ↦ h (by simp [hm]))

/-- Without the letter of a prefix, the literal is just its digits. -/
theorem unsignedVal_eq_digitsVal (base : ℕ) {s : List Char} (hx : 'x' ∉ s) (hX : 'X' ∉ s) :
    unsignedVal base s = digitsVal base 0 false s := by
  unfold unsignedVal
  split
  · rename_i c cs
    refine if_neg ?_
    rintro ⟨-, rfl | rfl⟩
    · exact hx (by simp)
    · exact hX (by simp)
  · rfl

theorem map_toAscii {s : List Char} (h : ∀ c ∈ s, c.toNat < 127) : s.map toAscii = s :=
  (List.map_congr_left fun c hc ↦ if_pos (h c hc)).trans s.map_id

/-- A text of bare digits reads as its digits. -/
theorem intVal_eq_digitsVal (base : ℕ) {s : List Char} (hascii : ∀ c ∈ s, c.toNat < 127)
    (hs : ∀ c ∈ s, isAsciiSpace c = false) (hsign : '+' ∉ s ∧ '-' ∉ s)
    (hx : 'x' ∉ s ∧ 'X' ∉ s) :
    intVal base s = (digitsVal base 0 false s).map Int.ofNat := by
  rw [intVal, map_toAscii hascii, strip_eq_self hs]
  split
  · exact absurd List.mem_cons_self hsign.1
  · exact absurd List.mem_cons_self hsign.2
  · rw [unsignedVal_eq_digitsVal base hx.1 hx.2]

/-! ## Hexadecimal digits -/

/-- A lower-case hexadecimal digit. -/
def hexDigit (d : ℕ) : Char := if d < 10 then Char.ofNat (48 + d) else Char.ofNat (87 + d)

/-- The last `k` hexadecimal digits of `n`, most significant first: the format
`%0kx` for `n < 16 ^ k`. -/
def hexDigits : ℕ → ℕ → List Char
  | 0, _ => []
  | k + 1, n => hexDigits k (n / 16) ++ [hexDigit (n % 16)]

/-- The sixteen hexadecimal digits. -/
def hexAlphabet : List Char := (List.range 16).map hexDigit

theorem hexDigit_mem_alphabet {d : ℕ} (h : d < 16) : hexDigit d ∈ hexAlphabet :=
  List.mem_map.mpr ⟨d, List.mem_range.mpr h, rfl⟩

theorem hexDigit_ascii :
    ∀ d < 16, (hexDigit d).toNat < 127 ∧ isAsciiSpace (hexDigit d) = false := by decide

theorem ascii_of_mem_hexAlphabet {c : Char} (h : c ∈ hexAlphabet) :
    c.toNat < 127 ∧ isAsciiSpace c = false := by
  obtain ⟨d, hd, rfl⟩ := List.mem_map.mp h
  exact hexDigit_ascii d (List.mem_range.mp hd)

theorem digitVal_hexDigit : ∀ d < 16, digitVal (hexDigit d) = some d := by decide

theorem hexDigit_ne_underscore : ∀ d < 16, hexDigit d ≠ '_' := by decide

@[simp] theorem length_hexDigits (k n : ℕ) : (hexDigits k n).length = k := by
  induction k generalizing n with
  | zero => rfl
  | succ k ih => simp [hexDigits, ih]

theorem mem_hexDigits {k n : ℕ} {c : Char} (h : c ∈ hexDigits k n) : c ∈ hexAlphabet := by
  induction k generalizing n with
  | zero => simp [hexDigits] at h
  | succ k ih =>
      rcases List.mem_append.mp h with h | h
      · exact ih h
      · rw [List.mem_singleton.mp h]
        exact hexDigit_mem_alphabet (Nat.mod_lt n (by decide))

/-- Reading digits distributes over appending one more. -/
theorem digitsVal_concat {d : ℕ} (hd : d < 16) {s : List Char} {acc m : ℕ} {last : Bool}
    (h : digitsVal 16 acc last s = some m) :
    digitsVal 16 acc last (s ++ [hexDigit d]) = some (m * 16 + d) := by
  induction s generalizing acc last with
  | nil =>
      cases last with
      | false => simp [digitsVal] at h
      | true =>
          have hm : acc = m := by simpa [digitsVal] using h
          simp [digitsVal, digitVal_hexDigit d hd, hexDigit_ne_underscore d hd, hd, hm]
  | cons c cs ih =>
      rw [List.cons_append, digitsVal]
      rw [digitsVal] at h
      by_cases hu : c = '_'
      · cases last with
        | false => simp [hu] at h
        | true =>
            simp only [hu, if_true] at h ⊢
            exact ih h
      · simp only [hu, if_false] at h ⊢
        cases hv : digitVal c with
        | none => simp [hv] at h
        | some e =>
            simp only [hv] at h ⊢
            by_cases he : e < 16
            · simp only [he, if_true] at h ⊢
              exact ih h
            · simp [he] at h

/-- The digits printed for `n` read back as `n`, modulo what does not fit. -/
theorem digitsVal_hexDigits (k n : ℕ) :
    digitsVal 16 0 false (hexDigits (k + 1) n) = some (n % 16 ^ (k + 1)) := by
  induction k generalizing n with
  | zero =>
      have hd : n % 16 < 16 := Nat.mod_lt n (by decide)
      simp [hexDigits, digitsVal, digitVal_hexDigit _ hd, hexDigit_ne_underscore _ hd, hd]
  | succ k ih =>
      rw [hexDigits, digitsVal_concat (Nat.mod_lt n (by decide)) (ih (n / 16)),
        Nat.pow_succ' (n := k + 1), Nat.mod_mul, Nat.mul_comm _ 16, Nat.add_comm]

end Py
