import ChatServer.Python.Basic

/-!
# Rendering and formatting of text

Two pieces of the Python runtime that turn values into text:

* `Py.repr`, and `Py.strMessages` on top of it: how `str` renders a list of
  dictionaries from strings to strings;
* `Py.percent`: the `%` operator with a `str` on both sides.

A format is read by a small automaton, one character at a time, in the order of
the reference: flags, width, precision, length modifier, conversion.  The right
operand is a single value that exactly one conversion has to consume, so the
automaton also carries whether that has happened.

Which characters outside ASCII are printable is a table of the Unicode standard,
so it is a parameter, the class `UnicodeData`.
-/

/-- The part of the Unicode character database that `repr` consults. -/
class UnicodeData where
  /-- `str.isprintable` on one character outside ASCII. -/
  isPrintable : Char → Bool

/-- The table in which nothing outside ASCII is printable, to evaluate runs with. -/
@[reducible] def UnicodeData.asciiOnly : UnicodeData := ⟨fun _ ↦ false⟩

/-- `TypeError` or `ValueError`: what Python raises for an operand it cannot use. -/
def PyExc.IsDataError : PyExc → Prop
  | .typeError _ | .valueError _ => True
  | _ => False

namespace Py

/-! ## `repr` -/

section

variable [UnicodeData]

/-- Whether `repr` shows a character as itself. -/
def isPrintable (c : Char) : Bool :=
  if c.toNat < 128 then 32 ≤ c.toNat && c.toNat < 127 else UnicodeData.isPrintable c

/-- A numeric escape, as short as the code point allows. -/
def escapeCode (c : Char) : List Char :=
  if c.toNat < 0x100 then '\\' :: 'x' :: hexDigits 2 c.toNat
  else if c.toNat < 0x10000 then '\\' :: 'u' :: hexDigits 4 c.toNat
  else '\\' :: 'U' :: hexDigits 8 c.toNat

/-- One character of a literal delimited by `quote`. -/
def reprChar (printable : Char → Bool) (quote c : Char) : List Char :=
  if c = quote || c = '\\' then ['\\', c]
  else if c = '\t' then ['\\', 't']
  else if c = '\n' then ['\\', 'n']
  else if c = '\r' then ['\\', 'r']
  else if printable c then [c]
  else escapeCode c

/-- A string literal: double quotes only around a text that has a single quote
and no double quote. -/
def literal (printable : Char → Bool) (s : List Char) : List Char :=
  let quote := if '\'' ∈ s ∧ '"' ∉ s then '"' else '\''
  quote :: s.flatMap (reprChar printable quote) ++ [quote]

/-- `repr(s)`. -/
def repr (s : List Char) : List Char := literal isPrintable s

/-- `ascii(s)`. -/
def ascii (s : List Char) : List Char :=
  literal (fun c ↦ decide (c.toNat < 128) && isPrintable c) s

/-- `", ".join(parts)`. -/
def joinComma : List (List Char) → List Char
  | [] => []
  | [p] => p
  | p :: ps => p ++ ',' :: ' ' :: joinComma ps

/-- `str(d)` for a dictionary from strings to strings, given by its entries. -/
def strDict (entries : List (String × String)) : List Char :=
  '{' :: joinComma (entries.map fun e ↦ repr e.1.toList ++ ':' :: ' ' :: repr e.2.toList) ++ ['}']

/-- `str(ms)` for a list of such dictionaries. -/
def strMessages (ms : List (List (String × String))) : String :=
  String.ofList ('[' :: joinComma (ms.map strDict) ++ [']'])

/-! ## The `%` operator -/

/-- What a conversion specifier has collected before its conversion character. -/
structure FormatSpec where
  /-- The `-` flag. -/
  left : Bool := false
  width : ℕ := 0
  precision : Option ℕ := none
deriving Repr

/-- Where the automaton stands in a format. -/
inductive FormatMode where
  /-- Outside every specifier. -/
  | text
  /-- Right after a `%`. -/
  | start
  | flags (spec : FormatSpec)
  | width (spec : FormatSpec)
  /-- After the `.` of a precision. -/
  | dot (spec : FormatSpec)
  | precision (spec : FormatSpec) (digits : ℕ)
  /-- After a length modifier. -/
  | conversion (spec : FormatSpec)

/-- How one character of a specifier is read. -/
inductive FormatStep where
  | more (mode : FormatMode)
  /-- The specifier `%%`. -/
  | percent
  /-- A `*` asks for an integer from the operand. -/
  | star
  | convert (spec : FormatSpec) (conversion : Char)
  | fail (e : PyExc)

/-- A length modifier is skipped, anything else is the conversion. -/
def lengthStep (spec : FormatSpec) (c : Char) : FormatStep :=
  if c = 'h' || c = 'l' || c = 'L' then .more (.conversion spec) else .convert spec c

/-- After the width: an optional precision. -/
def precisionStep (spec : FormatSpec) (c : Char) : FormatStep :=
  if c = '.' then .more (.dot { spec with precision := some 0 }) else lengthStep spec c

/-- The digits of a width; the limit is that of a signed 64-bit size. -/
def widthStep (spec : FormatSpec) (c : Char) : FormatStep :=
  if c.isDigit then
    let w := spec.width * 10 + (c.toNat - 48)
    if 2 ^ 63 ≤ w then .fail (.valueError "width too big")
    else .more (.width { spec with width := w })
  else precisionStep spec c

/-- The flags, or the start of the width. -/
def flagStep (spec : FormatSpec) (c : Char) : FormatStep :=
  if c = '-' then .more (.flags { spec with left := true })
  else if c = '+' || c = ' ' || c = '#' || c = '0' then .more (.flags spec)
  else if c = '*' then .star
  else widthStep spec c

/-- The digits of a precision; the limit is that of a signed 32-bit integer. -/
def precisionDigits (spec : FormatSpec) (p : ℕ) (c : Char) : FormatStep :=
  if c.isDigit then
    let p' := p * 10 + (c.toNat - 48)
    if 2 ^ 31 ≤ p' then .fail (.valueError "precision too big")
    else .more (.precision { spec with precision := some p' } p')
  else lengthStep spec c

/-- Read one character inside a specifier. -/
def FormatMode.read : FormatMode → Char → FormatStep
  | .text, _ => .more .text
  | .start, c =>
      if c = '%' then .percent
      else if c = '(' then .fail (.typeError "format requires a mapping")
      else flagStep {} c
  | .flags spec, c => flagStep spec c
  | .width spec, c => widthStep spec c
  | .dot spec, c => if c = '*' then .star else precisionDigits spec 0 c
  | .precision spec p, c => precisionDigits spec p c
  | .conversion spec, c => .convert spec c

/-- Truncate to the precision and pad to the width. -/
def FormatSpec.pad (spec : FormatSpec) (s : List Char) : List Char :=
  let s := match spec.precision with
    | some p => s.take p
    | none => s
  let fill := List.replicate (spec.width - s.length) ' '
  if spec.left then s ++ fill else fill ++ s

/-- Convert a text operand; `i` is where the conversion character stands. -/
def convertStr (arg : List Char) (spec : FormatSpec) (c : Char) (i : ℕ) :
    Except PyExc (List Char) :=
  if c = 's' then .ok (spec.pad arg)
  else if c = 'r' then .ok (spec.pad (repr arg))
  else if c = 'a' then .ok (spec.pad (ascii arg))
  else if c = 'c' then
    match arg with
    | [_] => .ok (spec.pad arg)
    | _ => .error (.typeError "%c requires int or char")
  else if c ∈ ['d', 'i', 'u'] then
    .error (.typeError s!"%{c} format: a real number is required, not str")
  else if c ∈ ['o', 'x', 'X'] then
    .error (.typeError s!"%{c} format: an integer is required, not str")
  else if c ∈ ['e', 'E', 'f', 'F', 'g', 'G'] then
    .error (.typeError "must be real number, not str")
  else .error (.valueError (String.ofList ("unsupported format character '".toList ++
    [if 31 ≤ c.toNat ∧ c.toNat < 127 then c else '?'] ++ "' (0x".toList ++
    Nat.toDigits 16 c.toNat ++ ") at index ".toList ++ Nat.toDigits 10 i)))

/-- The output of a format from mode `mode` on.  `used` says whether a conversion
has consumed the operand, `i` is the position in the format. -/
def percentFrom (arg : List Char) : FormatMode → Bool → ℕ → List Char → Except PyExc (List Char)
  | .text, used, _, [] =>
      if used then .ok []
      else .error (.typeError "not all arguments converted during string formatting")
  | .text, used, i, c :: cs =>
      if c = '%' then percentFrom arg .start used (i + 1) cs
      else (percentFrom arg .text used (i + 1) cs).map (c :: ·)
  | _, _, _, [] => .error (.valueError "incomplete format")
  | mode, used, i, c :: cs =>
      match mode.read c with
      | .more mode => percentFrom arg mode used (i + 1) cs
      | .percent => (percentFrom arg .text used (i + 1) cs).map ('%' :: ·)
      | .star =>
          if used then .error (.typeError "not enough arguments for format string")
          else .error (.typeError "* wants int")
      | .fail e => .error e
      | .convert spec conv =>
          if used then .error (.typeError "not enough arguments for format string")
          else
            match convertStr arg spec conv i with
            | .error e => .error e
            | .ok out => (percentFrom arg .text true (i + 1) cs).map (out ++ ·)

/-- `format % arg` for two strings. -/
def percent (format arg : String) : Except PyExc String :=
  (percentFrom arg.toList .text false 0 format.toList).map String.ofList

end

/-! ## What the `%` operator raises -/

theorem isDataError_of_flagStep {spec : FormatSpec} {c : Char} {e : PyExc}
    (h : flagStep spec c = .fail e) : e.IsDataError := by
  simp only [flagStep, widthStep, precisionStep, lengthStep] at h
  repeat' split at h
  all_goals cases h
  trivial

theorem isDataError_of_precisionDigits {spec : FormatSpec} {p : ℕ} {c : Char} {e : PyExc}
    (h : precisionDigits spec p c = .fail e) : e.IsDataError := by
  simp only [precisionDigits, lengthStep] at h
  repeat' split at h
  all_goals cases h
  trivial

theorem isDataError_of_read {mode : FormatMode} {c : Char} {e : PyExc}
    (h : mode.read c = .fail e) : e.IsDataError := by
  cases mode with
  | text => cases h
  | start =>
      simp only [FormatMode.read] at h
      split at h
      · cases h
      · split at h
        · cases h
          trivial
        · exact isDataError_of_flagStep h
  | flags spec => exact isDataError_of_flagStep h
  | width spec =>
      simp only [FormatMode.read, widthStep, precisionStep, lengthStep] at h
      repeat' split at h
      all_goals cases h
      trivial
  | dot spec =>
      simp only [FormatMode.read] at h
      split at h
      · cases h
      · exact isDataError_of_precisionDigits h
  | precision spec p => exact isDataError_of_precisionDigits h
  | conversion spec => cases h

section

variable [UnicodeData]

theorem isDataError_of_convertStr {arg : List Char} {spec : FormatSpec} {c : Char} {i : ℕ}
    {e : PyExc} (h : convertStr arg spec c i = .error e) : e.IsDataError := by
  unfold convertStr at h
  repeat' split at h
  all_goals cases h
  all_goals trivial

/-- Scanning a format raises nothing but `TypeError` and `ValueError`. -/
theorem isDataError_of_percentFrom {arg : List Char} {mode : FormatMode} {used : Bool} {i : ℕ}
    {cs : List Char} {e : PyExc} (h : percentFrom arg mode used i cs = .error e) :
    e.IsDataError := by
  have hmap : ∀ {f : List Char → List Char} {x : Except PyExc (List Char)},
      x.map f = .error e → x = .error e := by
    intro f x hx
    cases x with
    | error e' => exact hx
    | ok s => cases hx
  fun_induction percentFrom arg mode used i cs with
  | case1 => cases h
  | case3 used i cs ih => exact ih h
  | case4 used i c cs hc ih => exact ih (hmap h)
  | case6 mode used i c cs hmode mode' hread ih => exact ih h
  | case7 mode used i c cs hmode hread ih => exact ih (hmap h)
  | case10 mode used i c cs hmode e' hread =>
      cases h
      exact isDataError_of_read hread
  | case12 mode used i c cs hmode spec conv hread hused e' hconvert =>
      cases h
      exact isDataError_of_convertStr hconvert
  | case13 mode used i c cs hmode spec conv hread hused out hconvert ih => exact ih (hmap h)
  | _ =>
      cases h
      trivial

/-- The `%` operator raises nothing but `TypeError` and `ValueError`. -/
theorem isDataError_of_percent {format arg : String} {e : PyExc}
    (h : percent format arg = .error e) : e.IsDataError := by
  unfold percent at h
  cases hrest : percentFrom arg.toList .text false 0 format.toList with
  | error e' =>
      rw [hrest] at h
      cases h
      exact isDataError_of_percentFrom hrest
  | ok out =>
      rw [hrest] at h
      cases h

end

end Py
