import Mathlib.Algebra.Order.Ring.Rat
import Mathlib.Order.WithBot
import QspNode.Exceptions

namespace qsp.config

/-- A number as far as comparisons tell: its value, which may be infinite, or
    `none` for the float that is not a number. -/
abbrev Number := Option (WithBot (WithTop ℚ))

def Number.of (q : ℚ) : Number := some (WithBot.some (WithTop.some q))

def Number.lt : Number → Number → Bool
  | some x, some y => x < y
  | _, _ => false

def Number.le : Number → Number → Bool
  | some x, some y => x ≤ y
  | _, _ => false

/-- The values that a configuration file may hold. Of a date only the name of its
    type is known. -/
inductive Value where
  | None
  | bool (b : Bool)
  | int (n : Int)
  | float (x : Number)
  | str (s : String)
  | list (items : List Value)
  | dict (entries : List (Value × Value))
  | date (type_name : String)

def Value.type_name : Value → String
  | .None => "NoneType"
  | .bool _ => "bool"
  | .int _ => "int"
  | .float _ => "float"
  | .str _ => "str"
  | .list _ => "list"
  | .dict _ => "dict"
  | .date type_name => type_name

def Value.number : Value → Option Number
  | .bool b => some (Number.of (if b then 1 else 0))
  | .int n => some (Number.of n)
  | .float x => some x
  | _ => none

def Value.is_nan (v : Value) : Bool := v.number = some none

def Value.is_str (v : Value) (s : String) : Bool :=
  match v with
  | .str t => t = s
  | _ => false

/-- Python's `bool(v)`. -/
def Value.truthy : Value → Bool
  | .None => false
  | .bool b => b
  | .int n => n ≠ 0
  | .float x => x ≠ Number.of 0
  | .str s => s ≠ ""
  | .list items => !items.isEmpty
  | .dict entries => !entries.isEmpty
  | .date _ => true

/-- A comparison of two values, by its symbol. How two of them are ordered
    neither of which is a number or a string is left open. -/
def compare (symbol : String) (numbers : Number → Number → Bool) (strings : String → String → Bool)
    (order : String → Value → Value → Except PyException Bool) (a b : Value) : Except PyException Bool :=
  match a.number, b.number with
  | some x, some y => .ok (numbers x y)
  | none, none =>
    match a, b with
    | .str s, .str t => .ok (strings s t)
    | _, _ => order symbol a b
  | _, _ =>
    .error (.TypeError
      ("'" ++ symbol ++ "' not supported between instances of '" ++ a.type_name ++ "' and '" ++
        b.type_name ++ "'"))

/-- Python's `a > b`. -/
def gt (order : String → Value → Value → Except PyException Bool) : Value → Value → Except PyException Bool :=
  compare ">" (fun x y => y.lt x) (fun s t => t < s) order

/-- Python's `a < b`. -/
def lt (order : String → Value → Value → Except PyException Bool) : Value → Value → Except PyException Bool :=
  compare "<" Number.lt (fun s t => s < t) order

/-- The values are numbers, and the first does not exceed the second. -/
def le (a b : Value) : Bool :=
  match a.number, b.number with
  | some x, some y => x.le y
  | _, _ => false

def Value.lookup (key : String) (entries : List (Value × Value)) : Option Value :=
  (entries.find? (fun entry => entry.1.is_str key)).map Prod.snd

/-- Python's `v.get(key, default)`. -/
def Value.get (v : Value) (key : String) (default : Value) : Except PyException Value :=
  match v with
  | .dict entries => .ok ((Value.lookup key entries).getD default)
  | v => .error (.AttributeError ("'" ++ v.type_name ++ "' object has no attribute 'get'"))

/-- Python's `v[key] = value` for a key that is there. -/
def Value.set (v : Value) (key : String) (value : Value) : Value :=
  match v with
  | .dict entries =>
    .dict (entries.map (fun entry => if entry.1.is_str key then (entry.1, value) else entry))
  | v => v

/-- The characters of `text.replace(old, new)`, with a bound on their number. -/
def replace_chars (old new : List Char) : Nat → List Char → List Char
  | 0, cs => cs
  | _ + 1, [] => []
  | n + 1, c :: cs =>
    if old.isPrefixOf (c :: cs) then new ++ replace_chars old new n ((c :: cs).drop old.length)
    else c :: replace_chars old new n cs

/-- Python's `v.replace(old, new)`. -/
def Value.replace (v : Value) (old new : String) : Except PyException Value :=
  match v with
  | .str s => .ok (.str (String.ofList (replace_chars old.toList new.toList s.length s.toList)))
  | v => .error (.AttributeError ("'" ++ v.type_name ++ "' object has no attribute 'replace'"))

section
variable {order : String → Value → Value → Except PyException Bool} {symbol : String}
  {numbers : Number → Number → Bool} {strings : String → String → Bool} {a b : Value} {r : Bool}

/-- Only a number compares with a number. -/
theorem number_of_compare (hcompare : compare symbol numbers strings order a b = .ok r)
    (hb : b.number.isSome) : a.number.isSome := by
  obtain ⟨y, hy⟩ := Option.isSome_iff_exists.mp hb
  unfold compare at hcompare
  cases ha : a.number with
  | none => simp [ha, hy] at hcompare
  | some x => rfl

theorem Number.le_iff_of_lt {x y : Number} (hlt : y.lt x = false) :
    x.le y = true ↔ x ≠ none ∧ y ≠ none := by
  cases x with
  | none => simp [Number.le]
  | some x =>
    cases y with
    | none => simp [Number.le]
    | some y => simpa [Number.le, Number.lt] using hlt

theorem le_iff {x y : Number} (hx : a.number = some x) (hy : b.number = some y) (hlt : y.lt x = false) :
    le a b = true ↔ a.is_nan = false ∧ b.is_nan = false := by
  simp [le, Value.is_nan, hx, hy, Number.le_iff_of_lt hlt]

/-- What does not exceed a number is at most that number, unless one of the two
    is not a number. -/
theorem le_iff_of_gt (hgt : gt order a b = .ok false) (hb : b.number.isSome) :
    le a b = true ↔ a.is_nan = false ∧ b.is_nan = false := by
  obtain ⟨x, hx⟩ := Option.isSome_iff_exists.mp (number_of_compare hgt hb)
  obtain ⟨y, hy⟩ := Option.isSome_iff_exists.mp hb
  simp only [gt, compare, hx, hy, Except.ok.injEq] at hgt
  exact le_iff hx hy hgt

/-- What is not below a number is at least that number, unless one of the two is
    not a number. -/
theorem le_iff_of_lt (hlt : lt order a b = .ok false) (hb : b.number.isSome) :
    le b a = true ↔ b.is_nan = false ∧ a.is_nan = false := by
  obtain ⟨x, hx⟩ := Option.isSome_iff_exists.mp (number_of_compare hlt hb)
  obtain ⟨y, hy⟩ := Option.isSome_iff_exists.mp hb
  simp only [lt, compare, hx, hy, Except.ok.injEq] at hlt
  exact le_iff hy hx hlt

end

end qsp.config
