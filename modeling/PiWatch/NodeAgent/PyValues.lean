import PiWatch.Backend.Floats

/-!
# Values and exceptions of the node agent

What the readers of the agent return and raise. The agent catches exceptions by class:
`UnicodeDecodeError` and `JSONDecodeError` are kinds of `ValueError`.
-/

namespace PiWatch

namespace NodeAgent

inductive ReadError
  | osError
  | unicodeDecodeError
  | jsonDecodeError
  | subprocessError
  | indexError
  | recursionError
  | raised (e : PyError)
  deriving DecidableEq

namespace ReadError

def isOSError : ReadError → Bool
  | osError => true
  | _ => false

def isValueError : ReadError → Bool
  | unicodeDecodeError | jsonDecodeError | raised .valueError => true
  | _ => false

def isIndexError : ReadError → Bool
  | indexError => true
  | _ => false

/-- `except (OSError, ValueError)`. -/
def isFileError (e : ReadError) : Bool := e.isOSError || e.isValueError

/-- `except (OSError, ValueError, IndexError)`. -/
def isParseError (e : ReadError) : Bool := e.isFileError || e.isIndexError

end ReadError

/-- A value in a payload or a JSON document. A text is its code points: a JSON escape may stand
for half of a surrogate pair. -/
inductive PyValue
  | none
  | bool (b : Bool)
  | int (z : ℤ)
  | float (x : PyFloat)
  | str (text : List ℕ)
  | list (items : List PyValue)
  | dict (entries : List (List ℕ × PyValue))

namespace PyValue

/-- A text read from a file. -/
def ofText (cs : List Char) : PyValue := .str (cs.map Char.toNat)

def ofOption {α : Type} (f : α → PyValue) : Option α → PyValue
  | .none => .none
  | .some a => f a

/-- Nothing, or `None`. -/
def IsMissing (v : Option PyValue) : Prop := v = .none ∨ v = .some .none

mutual

/-- How deep lists and dictionaries nest. -/
def depth : PyValue → ℕ
  | list items => depthList items + 1
  | dict entries => depthFields entries + 1
  | _ => 0

def depthList : List PyValue → ℕ
  | [] => 0
  | item :: items => max item.depth (depthList items)

def depthFields : List (List ℕ × PyValue) → ℕ
  | [] => 0
  | (_, v) :: entries => max v.depth (depthFields entries)

end

end PyValue

/-! ## Conversions -/

/-- `sys.get_int_max_str_digits()`. -/
def maxStrDigits : ℕ := 4300

/-- How many digits `int()` reads. -/
def digitCount (cs : List Char) : ℕ :=
  (PyText.digitPart false (PyText.sign (PyText.strip cs)).2).1.length

/-- `int(text)`; without a value it raises `ValueError`. -/
def intOf? (cs : List Char) : Option ℤ :=
  if digitCount cs ≤ maxStrDigits then PyText.pyInt (String.ofList cs) else none

def valueOrRaise {α : Type} : Option α → Except ReadError α
  | none => .error (.raised .valueError)
  | some a => .ok a

/-- `float(text)`; without a value it raises `ValueError`. -/
def floatOf? (cs : List Char) : Option PyFloat := PyFloat.ofString (String.ofList cs)

/-- `text.split()`. -/
def words (cs : List Char) : List (List Char) :=
  (cs.splitOnP PyText.isSpace).filter (· ≠ [])

/-- `xs[i]`. -/
def item {α : Type} (xs : List α) (i : ℕ) : Except ReadError α :=
  match xs[i]? with
  | none => .error .indexError
  | some x => .ok x

/-- `a / b` of integers. -/
def trueDiv (a b : ℤ) : Except ReadError PyFloat :=
  if b = 0 then .error (.raised .zeroDivisionError)
  else
    let quotient := PyFloat.ofRat (a / b)
    if quotient.isFinite then .ok quotient else .error (.raised .overflowError)

/-- `round(x)`. -/
def roundToInt : PyFloat → Except ReadError ℤ
  | .finite q => .ok (roundHalfEven q)
  | .nan => .error (.raised .valueError)
  | .posInf | .negInf => .error (.raised .overflowError)

/-! ## Numbers -/

/-- An operand of the arithmetic: a truth value counts as an integer. -/
inductive PyNumber
  | int (z : ℤ)
  | float (x : PyFloat)

namespace PyNumber

def ofValue : PyValue → Except ReadError PyNumber
  | .bool b => .ok (.int b.toNat)
  | .int z => .ok (.int z)
  | .float x => .ok (.float x)
  | _ => .error (.raised .typeError)

/-- The float an operand becomes next to a float. -/
def toFloat : PyNumber → Except ReadError PyFloat
  | int z =>
    let x := PyFloat.ofRat z
    if x.isFinite then .ok x else .error (.raised .overflowError)
  | float x => .ok x

/-- `a - b`. -/
def sub : PyNumber → PyNumber → Except ReadError PyNumber
  | int a, int b => .ok (int (a - b))
  | a, b => do return float ((← a.toFloat).sub (← b.toFloat))

/-- `max(0, a)`: zero unless the other one is greater. -/
def maxZero : PyNumber → PyNumber
  | int z => int (max 0 z)
  | float x => if (PyFloat.finite 0).lt x then float x else int 0

/-- `a * n`. -/
def mulInt (n : ℤ) : PyNumber → Except ReadError PyNumber
  | int z => .ok (int (z * n))
  | float x => do return float (x.mul (← (int n).toFloat))

/-- `a / x` for a float. -/
def divFloat (a : PyNumber) (x : PyFloat) : Except ReadError PyFloat := do
  match (← a.toFloat).div? x with
  | none => .error (.raised .zeroDivisionError)
  | some quotient => .ok quotient

end PyNumber

end NodeAgent

end PiWatch
