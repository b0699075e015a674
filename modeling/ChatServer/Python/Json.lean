import ChatServer.Python.Basic
import Mathlib.Algebra.Order.Floor.Defs
import Mathlib.Data.List.Infix
import Mathlib.Data.Rat.Floor

/-!
# JSON values

The values `json.load` can return, with the operations the server applies to them before it
knows their type: truth value, `int`, `in`, `dict` and `set`.  Finite floats are exact
rationals, as everywhere in this development.
-/

/-- A JSON value as Python holds it.  `json.load` also reads `NaN` and `Infinity`, and a
number that is too large as `Infinity`. -/
inductive Json where
  | null
  | bool (b : Bool)
  | int (n : ℤ)
  | float (q : ℚ)
  | infinity (negative : Bool)
  | nan
  | str (s : String)
  | arr (items : List Json)
  | obj (entries : List (String × Json))

namespace Json

instance : Inhabited Json := ⟨null⟩

/-- `type(v).__name__`. -/
def typeName : Json → String
  | null => "NoneType"
  | bool _ => "bool"
  | int _ => "int"
  | float _ => "float"
  | infinity _ => "float"
  | nan => "float"
  | str _ => "str"
  | arr _ => "list"
  | obj _ => "dict"

/-- `bool(v)`. -/
def truthy : Json → Bool
  | null => false
  | bool b => b
  | int n => n ≠ 0
  | float q => q ≠ 0
  | infinity _ => true
  | nan => true
  | str s => s ≠ ""
  | arr items => !items.isEmpty
  | obj entries => !entries.isEmpty

/-- `int(v)`: floats are truncated towards zero, texts are parsed. -/
def toInt : Json → Except PyExc ℤ
  | bool b => .ok (if b then 1 else 0)
  | int n => .ok n
  | float q => .ok (if 0 ≤ q then ⌊q⌋ else ⌈q⌉)
  | infinity _ => .error (.other "OverflowError" "cannot convert float infinity to integer")
  | nan => .error (.valueError "cannot convert float NaN to integer")
  | str s =>
      match Py.intVal 10 s.toList with
      | some n => .ok n
      | none => .error (.valueError "invalid literal for int() with base 10")
  | v =>
      .error (.typeError s!"int() argument must be a string, a bytes-like object or a real number, not '{v.typeName}'")

@[simp] theorem toInt_int (n : ℤ) : (int n).toInt = .ok n := rfl

/-! ## Collections of any kind -/

/-- Whether a value is a given text. -/
def isText (key : String) : Json → Bool
  | str s => s = key
  | _ => false

/-- Whether a value can be a key. -/
def hashable : Json → Bool
  | arr _ => false
  | obj _ => false
  | _ => true

/-- What iterating over a value yields, if it can be iterated over. -/
def elements? : Json → Option (List Json)
  | str s => some (s.toList.map fun c ↦ str (String.singleton c))
  | arr items => some items
  | obj entries => some (entries.map fun e ↦ str e.1)
  | _ => none

/-- `key in v`. -/
def contains (key : String) : Json → Except PyExc Bool
  | str s => .ok (key.toList <:+: s.toList)
  | arr items => .ok (items.any (isText key))
  | obj entries => .ok (entries.lookup key).isSome
  | v => .error (.typeError s!"argument of type '{v.typeName}' is not iterable")

/-- `set(v)`, as the list of its elements. -/
def toSet (v : Json) : Except PyExc (List Json) :=
  match v.elements? with
  | none => .error (.typeError s!"'{v.typeName}' object is not iterable")
  | some items =>
      match items.find? (!·.hashable) with
      | some item => .error (.typeError s!"unhashable type: '{item.typeName}'")
      | none => .ok items

/-- The `i`-th element of the sequence `dict` is given, as a key and its value. -/
def toPair (i : ℕ) (v : Json) : Except PyExc (Json × Json) :=
  match v.elements? with
  | none => .error (.typeError
      s!"cannot convert dictionary update sequence element #{i} to a sequence")
  | some [key, value] =>
      if key.hashable then .ok (key, value)
      else .error (.typeError s!"unhashable type: '{key.typeName}'")
  | some items => .error (.valueError
      s!"dictionary update sequence element #{i} has length {items.length}; 2 is required")

/-- `dict(v)` of what is not a dictionary itself. -/
def pairsOf (v : Json) : Except PyExc (List (Json × Json)) :=
  match v.elements? with
  | none => .error (.typeError s!"'{v.typeName}' object is not iterable")
  | some items => items.zipIdx.mapM fun e ↦ toPair e.2 e.1

/-- `dict(v)`, as the pairs in the order in which they are set. -/
def toDict : Json → Except PyExc (List (Json × Json))
  | obj entries => .ok (entries.map fun e ↦ (str e.1, e.2))
  | v => v.pairsOf

/-- `d.get(key)` of such pairs: what was set last. -/
def getLast (d : List (Json × Json)) (key : String) : Option Json :=
  (d.reverse.find? fun e ↦ e.1.isText key).map (·.2)

/-- `v.get(key)`. -/
def get (key : String) : Json → Except PyExc (Option Json)
  | obj entries => .ok (entries.lookup key)
  | v => .error (.attributeError s!"'{v.typeName}' object has no attribute 'get'")

/-- `v[key]`. -/
def getItem (key : String) : Json → Except PyExc Json
  | obj entries =>
      match entries.lookup key with
      | some v => .ok v
      | none => .error (.keyError key)
  | str _ => .error (.typeError "string indices must be integers, not 'str'")
  | arr _ => .error (.typeError "list indices must be integers or slices, not str")
  | v => .error (.typeError s!"'{v.typeName}' object is not subscriptable")

/-- `v.items()`. -/
def items : Json → Except PyExc (List (String × Json))
  | obj entries => .ok entries
  | v => .error (.attributeError s!"'{v.typeName}' object has no attribute 'items'")

end Json
