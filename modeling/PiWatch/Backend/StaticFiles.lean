import PiWatch.Backend.Floats
import PiWatch.Framework.FileTree

/-!
# Static files

`spa` answers every path that is neither `/api` nor `/ws`: with a file of the static directory,
or else with the page of the frontend.
-/

namespace PiWatch

/-- `os.path.join(base, path)`. -/
def joinPath (base path : List Char) : List Char :=
  if path.head? = some '/' then path
  else if base = [] ∨ base.getLast? = some '/' then base ++ path
  else base ++ '/' :: path

namespace StaticFiles

variable (t : FileTree)

/-- `os.path.isfile` of an absolute path. -/
def isfile (path : List Char) : Bool :=
  (t.locate [] path).any fun loc => t.entry loc = some .file

def indexHtml (base : List Char) : List Char := joinPath base "index.html".toList

/-- `spa`: the path of the file that is sent. `os.path.realpath` raises on a null character. -/
def spa (cwd : Location) (staticDir fullPath : List Char) : Except PyError (List Char) :=
  if Char.ofNat 0 ∈ fullPath then .error .valueError
  else
    let base := (t.realpath cwd staticDir).text
    let candidate := (t.realpath cwd (joinPath base fullPath)).text
    let inside := (base ++ ['/']).isPrefixOf candidate
    if fullPath ≠ [] ∧ inside ∧ isfile t candidate then .ok candidate else .ok (indexHtml base)

/-- The place the system finds for a path is a regular file strictly below a place, and also its
canonical path. -/
def FileBelow (base : Location) (path : List Char) : Prop :=
  ∃ n more, t.locate [] path = some (base ++ n :: more) ∧
    t.entry (base ++ n :: more) = some .file ∧ t.realpath [] path = base ++ n :: more

theorem joinPath_absolute {base path : List Char} (h : base.head? = some '/') :
    (joinPath base path).head? = some '/' := by
  cases base with
  | nil => cases h
  | cons c base =>
    unfold joinPath
    split_ifs with hpath
    · exact hpath
    · exact h
    · exact h

theorem pathStart_absolute {path : List Char} (h : path.head? = some '/') (cwd : Location) :
    pathStart cwd path = [] := if_pos h

/-- What the system finds for the text of a canonical path is the place the text names. -/
theorem eq_of_locate_text {loc x : Location} (hresolved : t.Resolved loc) (hloc : loc ≠ [])
    (h : t.locate [] loc.text = some x) : x = loc := by
  rw [FileTree.locate, pathStart_absolute loc.head?_text, Location.pathParts_text hloc] at h
  rw [t.walk_here (by rw [h]; rfl)] at h
  rw [← List.nil_append loc] at hresolved
  exact t.walk_of_resolved hresolved h

/-- A file that passes the test of its text is below the directory. -/
theorem fileBelow_of_inside {cwd base : Location} {path : List Char}
    (habsolute : path.head? = some '/')
    (hinside : (base.text ++ ['/']).isPrefixOf (t.realpath cwd path).text)
    (hfile : isfile t (t.realpath cwd path).text) :
    FileBelow t base (t.realpath cwd path).text := by
  have hcanonical : t.realpath cwd path = t.realpath [] path := by
    rw [FileTree.realpath, FileTree.realpath, pathStart_absolute habsolute,
      pathStart_absolute habsolute]
  rw [hcanonical] at hinside hfile ⊢
  have hresolved := t.resolved_realpath t.resolved_nil path
  obtain ⟨n, more, hbelow⟩ := Location.below_of_prefix (List.isPrefixOf_iff_prefix.mp hinside)
  unfold isfile at hfile
  cases hx : t.locate [] (t.realpath [] path).text with
  | none =>
    rw [hx] at hfile
    cases hfile
  | some x =>
    rw [hx, Option.any_some, decide_eq_true_eq] at hfile
    obtain rfl := eq_of_locate_text t hresolved (by simp [hbelow]) hx
    have hsame := t.realpath_eq_of_locate t.resolved_nil hx
    rw [hbelow] at hx hfile hsame ⊢
    exact ⟨n, more, hx, hfile, hsame⟩

/-- A null character raises; whatever else is asked for, the answer is the page of the frontend or
a regular file strictly below the static directory, which is the place the system finds it at. -/
theorem spa_stays_inside (cwd : Location) (staticDir fullPath : List Char) :
    (spa t cwd staticDir fullPath = .error .valueError ↔ Char.ofNat 0 ∈ fullPath) ∧
    (∀ path, spa t cwd staticDir fullPath = .ok path →
      path = indexHtml (t.realpath cwd staticDir).text ∨
        FileBelow t (t.realpath cwd staticDir) path) ∧
    ∀ directory, t.Resolved cwd → t.locate cwd staticDir = some directory →
      t.realpath cwd staticDir = directory := by
  refine ⟨?_, ?_, fun directory hcwd hlocate => t.realpath_eq_of_locate hcwd hlocate⟩
  · unfold spa
    dsimp only
    split_ifs with hnull hserved
    · exact iff_of_true rfl hnull
    · exact iff_of_false (by simp) hnull
    · exact iff_of_false (by simp) hnull
  · intro path hpath
    unfold spa at hpath
    dsimp only at hpath
    split_ifs at hpath with hnull hserved
    · rw [← Except.ok.inj hpath]
      exact Or.inr (fileBelow_of_inside t (joinPath_absolute (Location.head?_text _)) hserved.2.1
        hserved.2.2)
    · exact Or.inl (Except.ok.inj hpath).symm

end StaticFiles

end PiWatch
