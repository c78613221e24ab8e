import PiWatch.Backend.Floats

/-!
# Resource quantities

`parse_cpu` and `parse_mem` read a plain decimal number with one of a few suffixes. A
Kubernetes quantity may also have a sign, other suffixes and an exponent.
-/

namespace PiWatch

def isAsciiDigit (c : Char) : Bool := '0' ≤ c && c ≤ '9'

/-- `_QUANTITY_NUMBER_RE`: digits and maybe a fraction. The end of the pattern also matches
before a line feed that ends the text. -/
def quantityNumberMatches (cs : List Char) : Bool :=
  let rest := cs.dropWhile isAsciiDigit
  cs.head?.any isAsciiDigit &&
    match rest with
    | [] | ['\n'] => true
    | '.' :: fraction =>
      fraction.head?.any isAsciiDigit &&
        (fraction.dropWhile isAsciiDigit = [] || fraction.dropWhile isAsciiDigit = ['\n'])
    | _ => false

/-- `_finite`; without a value it raises `ValueError`. -/
def finiteQuantity (number : List Char) (factor : PyFloat) : Option PyFloat :=
  if quantityNumberMatches number then
    (PyFloat.ofString (String.ofList number)).bind fun x =>
      let result := x.mul factor
      if result.isFinite then some result else none
  else none

/-- The first suffix of the table a text ends in, cut off and read with its factor. -/
def parseWith (table : List (String × PyFloat)) (v : String) : Option PyFloat :=
  let cs := PyText.strip v.toList
  match table.find? fun e => e.1.toList.isSuffixOf cs with
  | some (suffix, factor) => finiteQuantity (cs.take (cs.length - suffix.length)) factor
  | none => finiteQuantity cs (.finite 1)

def cpuFactors : List (String × PyFloat) :=
  [("n", .ofRat (1 / 10 ^ 9)), ("u", .ofRat (1 / 10 ^ 6)), ("m", .ofRat (1 / 10 ^ 3))]

def memFactors : List (String × PyFloat) :=
  [("Ki", .finite 1024), ("Mi", .finite (1024 ^ 2)), ("Gi", .finite (1024 ^ 3)),
    ("Ti", .finite (1024 ^ 4)), ("K", .finite (10 ^ 3)), ("M", .finite (10 ^ 6)),
    ("G", .finite (10 ^ 9)), ("T", .finite (10 ^ 12))]

def parseCpu : String → Option PyFloat := parseWith cpuFactors

def parseMem : String → Option PyFloat := parseWith memFactors

theorem isFinite_finiteQuantity {number : List Char} {factor x : PyFloat}
    (h : finiteQuantity number factor = some x) : x.isFinite := by
  unfold finiteQuantity at h
  split at h
  · obtain ⟨y, -, hy⟩ := Option.bind_eq_some_iff.mp h
    dsimp only at hy
    split at hy
    · obtain rfl := Option.some.inj hy
      assumption
    · cases hy
  · cases h

/-- What a quantity parses to is a finite number. -/
theorem isFinite_parseWith {table : List (String × PyFloat)} {v : String} {x : PyFloat}
    (h : parseWith table v = some x) : x.isFinite := by
  unfold parseWith at h
  dsimp only at h
  split at h
  · exact isFinite_finiteQuantity h
  · exact isFinite_finiteQuantity h

end PiWatch
