import Mathlib.Data.List.Induction
import PiWatch.Framework.Dict
import PiWatch.Framework.Run

/-!
# Keyed writes

A write stores a value under a key or removes the key. What a sequence of writes leaves
under a key is what the last write to that key said, whatever was written elsewhere.
-/

namespace PiWatch

variable {κ ν : Type*} [DecidableEq κ]

/-- Store a value under a key, or remove the key. -/
abbrev Write (κ ν : Type*) := κ × Option ν

namespace Dict

def write (d : Dict κ ν) (w : Write κ ν) : Dict κ ν :=
  match w.2 with
  | some v => d.insert w.1 v
  | none => d.erase w.1

theorem get?_write (d : Dict κ ν) (w : Write κ ν) (k : κ) :
    (d.write w).get? k = if k = w.1 then w.2 else d.get? k := by
  obtain ⟨k', v⟩ := w
  cases v with
  | none => exact get?_erase d k' k
  | some v => exact get?_insert d k' k v

end Dict

/-- What the last write to a key said. -/
def lastWrite (ws : List (Write κ ν)) (k : κ) : Option (Option ν) :=
  ((ws.filter fun w => w.1 = k).getLast?).map Prod.snd

theorem lastWrite_concat (ws : List (Write κ ν)) (w : Write κ ν) (k : κ) :
    lastWrite (ws ++ [w]) k = if w.1 = k then some w.2 else lastWrite ws k := by
  unfold lastWrite
  rw [List.filter_append]
  by_cases hk : w.1 = k
  · simp [hk]
  · simp [hk]

/-- After a sequence of writes, a key holds what its last write said. -/
theorem get?_runFrom_write (d : Dict κ ν) (ws : List (Write κ ν)) (k : κ) :
    (runFrom Dict.write d ws).get? k = (lastWrite ws k).getD (d.get? k) := by
  induction ws using List.reverseRecOn with
  | nil => rfl
  | append_singleton ws w ih =>
    rw [runFrom_append, runFrom_cons, runFrom_nil, Dict.get?_write, lastWrite_concat, ih]
    by_cases hk : w.1 = k
    · rw [if_pos hk.symm, if_pos hk, Option.getD_some]
    · rw [if_neg (Ne.symm hk), if_neg hk]

end PiWatch
