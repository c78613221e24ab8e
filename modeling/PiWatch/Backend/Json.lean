import Mathlib.Data.Rat.Defs
import PiWatch.Framework.Dict

/-!
# Values of the backend

Numbers are exact rationals next to the non-finite floats, and the open dictionaries
(metric samples, healthcheck configurations) hold JSON values.
-/

namespace PiWatch

/-- Seconds since the epoch, as `time.time()` reads them. -/
abbrev Time := ℚ

inductive PyFloat
  | finite (q : ℚ)
  | nan
  | posInf
  | negInf
  deriving DecidableEq

inductive Json
  | null
  | bool (b : Bool)
  | num (x : PyFloat)
  | str (s : String)
  | arr (xs : List Json)
  | obj (fields : List (String × Json))

namespace Json

mutual

private def decEq : (a b : Json) → Decidable (a = b)
  | .null, .null => .isTrue rfl
  | .bool a, .bool b => decidable_of_iff (a = b) (by simp)
  | .num a, .num b => decidable_of_iff (a = b) (by simp)
  | .str a, .str b => decidable_of_iff (a = b) (by simp)
  | .arr a, .arr b => @decidable_of_iff _ (a = b) (by simp) (decEqList a b)
  | .obj a, .obj b => @decidable_of_iff _ (a = b) (by simp) (decEqFields a b)
  | .null, .bool _ | .null, .num _ | .null, .str _ | .null, .arr _ | .null, .obj _
  | .bool _, .null | .bool _, .num _ | .bool _, .str _ | .bool _, .arr _ | .bool _, .obj _
  | .num _, .null | .num _, .bool _ | .num _, .str _ | .num _, .arr _ | .num _, .obj _
  | .str _, .null | .str _, .bool _ | .str _, .num _ | .str _, .arr _ | .str _, .obj _
  | .arr _, .null | .arr _, .bool _ | .arr _, .num _ | .arr _, .str _ | .arr _, .obj _
  | .obj _, .null | .obj _, .bool _ | .obj _, .num _ | .obj _, .str _
  | .obj _, .arr _ => .isFalse (by simp)

private def decEqList : (as bs : List Json) → Decidable (as = bs)
  | [], [] => .isTrue rfl
  | [], _ :: _ | _ :: _, [] => .isFalse (by simp)
  | a :: as, b :: bs => @decidable_of_iff _ (a = b ∧ as = bs) (by simp)
      (@instDecidableAnd _ _ (decEq a b) (decEqList as bs))

private def decEqFields : (as bs : List (String × Json)) → Decidable (as = bs)
  | [], [] => .isTrue rfl
  | [], _ :: _ | _ :: _, [] => .isFalse (by simp)
  | (k, a) :: as, (l, b) :: bs => @decidable_of_iff _ ((k = l ∧ a = b) ∧ as = bs) (by simp)
      (@instDecidableAnd _ _ (@instDecidableAnd _ _ (instDecidableEqString k l) (decEq a b))
        (decEqFields as bs))

end

instance : DecidableEq Json := decEq

/-- A finite number. -/
def ofRat (q : ℚ) : Json := .num (.finite q)

end Json

/-- A JSON object: a `dict[str, Any]` in Python, a plain object in the browser. -/
abbrev Obj := Dict String Json

namespace Obj

/-- A property used as a property key. Every key the backend sends is a string; a missing
property reads as `undefined`, which is the key text "undefined". -/
def text (d : Obj) (field : String) : String :=
  match d.get? field with
  | some (.str s) => s
  | _ => "undefined"

/-- `d.get(field)` and `d.field`, with an absent field, `None` and `undefined` identified. -/
def field (d : Obj) (f : String) : Json := (d.get? f).getD .null

/-- Equal but for one extra field. -/
def AgreeExcept (f : String) (d e : Obj) : Prop := ∀ g, g ≠ f → d.get? g = e.get? g

end Obj

/-- A field of an object received as JSON. -/
inductive Field (α : Type*)
  | absent
  | null
  | val (a : α)
  deriving DecidableEq

namespace Field

variable {α : Type*}

/-- `d.get(f)`. -/
def get : Field α → Option α
  | val a => some a
  | _ => none

/-- `d.get(f, default)`, for a field that is read further. Without a value that raises: there is
nothing to read in `None`. -/
def getOr (default : α) : Field α → Option α
  | absent => some default
  | null => none
  | val a => some a

end Field

/-- Python's `a or b` on an optional text: the empty text is falsy too. -/
def pyOr (a b : Option String) : Option String :=
  match a with
  | some s => if s = "" then b else some s
  | none => b

end PiWatch
