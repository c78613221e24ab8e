import Mathlib.Data.List.Basic
import PiWatch.Framework.Dict
import PiWatch.Framework.Separator

/-!
# Directory trees with symbolic links

Two accounts of a path: the walk of the system, which fails on what is missing and on too many
links, and `realpath`, which never fails. A link met again while it is being resolved is left in
the path; the walk fails there.
-/

namespace PiWatch

/-- The name of an entry of a directory. -/
structure FileName where
  chars : List Char
  noSlash : '/' ∉ chars
  proper : chars ≠ [] ∧ chars ≠ ['.'] ∧ chars ≠ ['.', '.']
  deriving DecidableEq

/-- A place in the tree, as the names on the way from the root. -/
abbrev Location := List FileName

inductive FileEntry
  | directory
  | file
  | link (target : List Char)
  | special
  deriving DecidableEq

structure FileTree where
  entries : Dict Location FileEntry
  inDirectory : ∀ loc n, loc ++ [n] ∈ entries → loc = [] ∨ entries.get? loc = some .directory

/-! ## Paths -/

inductive PathPart
  | here
  | up
  | name (n : FileName)
  deriving DecidableEq

/-- A part of a path between two slashes. -/
def pathPart (cs : List Char) : PathPart :=
  if h : '/' ∉ cs ∧ cs ≠ [] ∧ cs ≠ ['.'] ∧ cs ≠ ['.', '.'] then .name ⟨cs, h.1, h.2⟩
  else if cs = ['.', '.'] then .up
  else .here

def pathParts (path : List Char) : List PathPart := (path.splitOn '/').map pathPart

/-- Where a path starts that is read at a place. -/
def pathStart (loc : Location) (path : List Char) : Location :=
  if path.head? = some '/' then [] else loc

namespace Location

def text (loc : Location) : List Char :=
  if loc = [] then ['/'] else loc.flatMap fun n => '/' :: n.chars

end Location

namespace FileTree

variable (t : FileTree)

def entry (loc : Location) : Option FileEntry :=
  if loc = [] then some .directory else t.entries.get? loc

/-- The target of the link at a place. -/
def link? (loc : Location) : Option (List Char) :=
  match t.entries.get? loc with
  | some (.link target) => some target
  | _ => none

/-- The place the system finds for a path when it follows at most so many links. -/
def walk (links : ℕ) (loc : Location) : List PathPart → Option Location
  | [] => some loc
  | part :: rest =>
    if t.entry loc = some .directory then
      match part with
      | .here => walk links loc rest
      | .up => walk links loc.dropLast rest
      | .name n =>
        match t.link? (loc ++ [n]) with
        | some target =>
          match links with
          | 0 => none
          | links + 1 => walk links (pathStart loc target) (pathParts target ++ rest)
        | none => if (t.entry (loc ++ [n])).isSome then walk links (loc ++ [n]) rest else none
    else none
termination_by rest => (links, rest.length)

/-- How many entries are not among the given ones. -/
def remaining (seen : List Location) : ℕ :=
  (t.entries.keys.filter fun loc => decide (loc ∉ seen)).length

theorem mem_keys_of_link? {loc : Location} {target : List Char} (h : t.link? loc = some target) :
    loc ∈ t.entries.keys := by
  unfold link? at h
  split at h
  · rename_i target' hget
    rw [← Dict.mem_iff_mem_keys, Dict.mem_def, hget]
    rfl
  · cases h

theorem remaining_lt {loc : Location} {seen : List Location} (hkey : loc ∈ t.entries.keys)
    (hseen : loc ∉ seen) : t.remaining (loc :: seen) < t.remaining seen := by
  have hsplit : (t.entries.keys.filter fun loc' => decide (loc' ∉ loc :: seen)) =
      (t.entries.keys.filter fun loc' => decide (loc' ∉ seen)).filter fun loc' => loc' ≠ loc := by
    rw [List.filter_filter]
    apply List.filter_congr
    intro loc' _
    simp [not_or]
  rw [remaining, remaining, hsplit, List.length_filter_lt_length_iff_exists]
  exact ⟨loc, List.mem_filter.mpr ⟨hkey, by simpa using hseen⟩, by simp⟩

/-- `os.path.realpath` from a place on, while the given links are being resolved. -/
def realpathFrom (seen : List Location) (path : Location) : List PathPart → Location
  | [] => path
  | .here :: rest => realpathFrom seen path rest
  | .up :: rest => realpathFrom seen path.dropLast rest
  | .name n :: rest =>
    match _h : t.link? (path ++ [n]) with
    | none => realpathFrom seen (path ++ [n]) rest
    | some target =>
      if _hseen : path ++ [n] ∈ seen then realpathFrom seen (path ++ [n]) rest
      else
        realpathFrom seen
          (realpathFrom ((path ++ [n]) :: seen) (pathStart path target) (pathParts target)) rest
termination_by rest => (t.remaining seen, rest.length)
decreasing_by
  · exact Prod.Lex.right _ (by simp)
  · exact Prod.Lex.right _ (by simp)
  · exact Prod.Lex.right _ (by simp)
  · exact Prod.Lex.right _ (by simp)
  · exact Prod.Lex.left _ _ (t.remaining_lt (t.mem_keys_of_link? _h) _hseen)
  · exact Prod.Lex.right _ (by simp)

/-! ## The walk -/

theorem walk_nil (k : ℕ) (loc : Location) : t.walk k loc [] = some loc := by
  rw [walk]

theorem entry_of_walk {k : ℕ} {loc : Location} {part : PathPart} {rest : List PathPart}
    (h : (t.walk k loc (part :: rest)).isSome) : t.entry loc = some .directory := by
  by_contra hne
  rw [walk.eq_def] at h
  dsimp only at h
  rw [if_neg hne] at h
  cases h

theorem walk_here {k : ℕ} {loc : Location} {rest : List PathPart}
    (h : (t.walk k loc (.here :: rest)).isSome) :
    t.walk k loc (.here :: rest) = t.walk k loc rest := by
  rw [walk, if_pos (t.entry_of_walk h)]

theorem walk_up {k : ℕ} {loc : Location} {rest : List PathPart}
    (h : (t.walk k loc (.up :: rest)).isSome) :
    t.walk k loc (.up :: rest) = t.walk k loc.dropLast rest := by
  rw [walk, if_pos (t.entry_of_walk h)]

theorem walk_name {k : ℕ} {loc : Location} {n : FileName} {rest : List PathPart}
    (hlink : t.link? (loc ++ [n]) = none) (h : (t.walk k loc (.name n :: rest)).isSome) :
    t.walk k loc (.name n :: rest) = t.walk k (loc ++ [n]) rest := by
  have hentry := t.entry_of_walk h
  rw [walk, if_pos hentry, hlink] at h ⊢
  dsimp only at h ⊢
  split_ifs at h ⊢
  · rfl
  · cases h

/-- A link takes one of the links the walk may follow. -/
theorem walk_link {k : ℕ} {loc : Location} {n : FileName} {rest : List PathPart}
    {target : List Char} (hlink : t.link? (loc ++ [n]) = some target)
    (h : (t.walk k loc (.name n :: rest)).isSome) :
    ∃ k', k = k' + 1 ∧ t.walk k loc (.name n :: rest) =
      t.walk k' (pathStart loc target) (pathParts target ++ rest) := by
  have hentry := t.entry_of_walk h
  rw [walk, if_pos hentry, hlink] at h ⊢
  cases k with
  | zero => cases h
  | succ k => exact ⟨k, rfl, rfl⟩

/-- No walk gets past the name. -/
def Dead (loc : Location) (n : FileName) : Prop :=
  ∀ k rest, t.walk k loc (.name n :: rest) = none

/-- A walk that gets past the name comes by the place, with fewer links left. -/
def Reaches (loc : Location) (n : FileName) (loc' : Location) (rest : List PathPart) : Prop :=
  ∀ k r, (t.walk k loc (.name n :: r)).isSome →
    ∃ k' r', k' < k ∧ (t.walk k' loc' (rest ++ r')).isSome

/-- A link that comes by itself again is never got past. -/
theorem dead_of_reaches {loc : Location} {n : FileName} {rest : List PathPart}
    (h : t.Reaches loc n loc (.name n :: rest)) : t.Dead loc n := by
  intro k
  induction k using Nat.strongRecOn with
  | ind k ih =>
    intro r
    by_contra hsome
    obtain ⟨k', r', hlt, hwalk⟩ := h k r (Option.isSome_iff_ne_none.mpr hsome)
    rw [List.cons_append, ih k' hlt] at hwalk
    cases hwalk

/-- A part of the path is no link, or no walk gets past it. -/
def Resolved (path : Location) : Prop :=
  ∀ loc n more, path = loc ++ n :: more → t.link? (loc ++ [n]) = none ∨ t.Dead loc n

theorem resolved_nil : t.Resolved [] := by
  intro loc n more h
  simp at h

theorem resolved_concat {path : Location} {n : FileName} (hpath : t.Resolved path)
    (hn : t.link? (path ++ [n]) = none ∨ t.Dead path n) : t.Resolved (path ++ [n]) := by
  intro loc n' more h
  rcases List.eq_nil_or_concat' more with rfl | ⟨more, last, rfl⟩
  · obtain ⟨rfl, hlast⟩ := List.append_inj' h rfl
    obtain rfl := (List.cons.inj hlast).1
    exact hn
  · rw [← List.cons_append, ← List.append_assoc] at h
    exact hpath loc n' more (List.append_inj' h rfl).1

theorem resolved_dropLast {path : Location} (h : t.Resolved path) : t.Resolved path.dropLast := by
  intro loc n more hsplit
  rcases List.eq_nil_or_concat' path with rfl | ⟨init, last, rfl⟩
  · simp at hsplit
  · rw [List.dropLast_concat] at hsplit
    exact h loc n (more ++ [last]) (by rw [hsplit, List.append_assoc, List.cons_append])

theorem resolved_pathStart {path : Location} (h : t.Resolved path) (target : List Char) :
    t.Resolved (pathStart path target) := by
  unfold pathStart
  split_ifs
  · exact t.resolved_nil
  · exact h

/-- Where there is nothing but names that are no links, the walk stays on its way. -/
theorem walk_of_resolved {k : ℕ} {base loc : Location} {x : Location}
    (hresolved : t.Resolved (base ++ loc))
    (h : t.walk k base (loc.map .name) = some x) : x = base ++ loc := by
  induction loc generalizing base with
  | nil =>
    rw [List.map_nil, walk_nil] at h
    rw [List.append_nil, Option.some.inj h]
  | cons n loc ih =>
    rw [List.map_cons] at h
    have hsome : (t.walk k base (.name n :: loc.map .name)).isSome := by rw [h]; rfl
    rcases hresolved base n loc rfl with hlink | hdead
    · rw [t.walk_name hlink hsome] at h
      rw [List.append_cons] at hresolved ⊢
      exact ih hresolved h
    · rw [hdead] at h
      cases h

/-! ## `realpath` -/

theorem realpathFrom_name {seen : List Location} {path : Location} {n : FileName}
    {rest : List PathPart} (h : t.link? (path ++ [n]) = none ∨ path ++ [n] ∈ seen) :
    t.realpathFrom seen path (.name n :: rest) = t.realpathFrom seen (path ++ [n]) rest := by
  rw [realpathFrom]
  split
  · rfl
  · rename_i target hlink
    rcases h with hnone | hseen
    · rw [hlink] at hnone
      cases hnone
    · rw [dif_pos hseen]

theorem realpathFrom_link {seen : List Location} {path : Location} {n : FileName}
    {rest : List PathPart} {target : List Char} (hlink : t.link? (path ++ [n]) = some target)
    (hseen : path ++ [n] ∉ seen) :
    t.realpathFrom seen path (.name n :: rest) = t.realpathFrom seen
      (t.realpathFrom ((path ++ [n]) :: seen) (pathStart path target) (pathParts target)) rest := by
  rw [realpathFrom]
  split
  · rename_i hnone
    rw [hlink] at hnone
    cases hnone
  · rename_i target' htarget
    obtain rfl := Option.some.inj (hlink.symm.trans htarget)
    rw [dif_neg hseen]

/-- A walk over the parts comes by the place, with no more links left than before. -/
def Passes (path : Location) (parts : List PathPart) (out : Location) : Prop :=
  ∀ k r x, t.walk k path (parts ++ r) = some x → ∃ k', k' ≤ k ∧ t.walk k' out r = some x

variable {t}

/-- What a walk to the place goes on to, it also goes on to from before the place. -/
private theorem Reaches.mono {loc : Location} {n : FileName} {path path' : Location}
    {rest rest' : List PathPart} (h : t.Reaches loc n path rest)
    (hstep : ∀ k r, (t.walk k path (rest ++ r)).isSome →
      ∃ k' r', k' ≤ k ∧ (t.walk k' path' (rest' ++ r')).isSome) : t.Reaches loc n path' rest' := by
  intro k r hwalk
  obtain ⟨k₁, r₁, hlt, hwalk₁⟩ := h k r hwalk
  obtain ⟨k₂, r₂, hle, hwalk₂⟩ := hstep k₁ r₁ hwalk₁
  exact ⟨k₂, r₂, by omega, hwalk₂⟩

private theorem passes_of_eq {path path' out : Location} {part : PathPart} {rest : List PathPart}
    (h : t.Passes path' rest out)
    (hstep : ∀ k r, (t.walk k path (part :: r)).isSome →
      t.walk k path (part :: r) = t.walk k path' r) : t.Passes path (part :: rest) out := by
  intro k r x hwalk
  rw [List.cons_append] at hwalk
  rw [hstep k _ (by rw [hwalk]; rfl)] at hwalk
  exact h k r x hwalk

private theorem Reaches.of_eq {loc : Location} {n : FileName} {path path' : Location}
    {part : PathPart} {rest : List PathPart} (h : t.Reaches loc n path (part :: rest))
    (hstep : ∀ k r, (t.walk k path (part :: r)).isSome →
      t.walk k path (part :: r) = t.walk k path' r) : t.Reaches loc n path' rest := by
  refine h.mono fun k r hwalk => ⟨k, r, Nat.le_refl k, ?_⟩
  rw [List.cons_append] at hwalk
  rwa [hstep k _ hwalk] at hwalk

section Link

variable {path : Location} {n : FileName} {target : List Char} {rest : List PathPart}
  (hlink : t.link? (path ++ [n]) = some target)

include hlink

/-- A walk over a link comes by it again on the way through its target, with fewer links left. -/
private theorem reaches_of_link :
    t.Reaches path n (pathStart path target) (pathParts target) := by
  intro k r hwalk
  obtain ⟨k', rfl, heq⟩ := t.walk_link hlink hwalk
  exact ⟨k', r, Nat.lt_succ_self k', by rwa [heq] at hwalk⟩

private theorem Reaches.of_link {loc : Location} {m : FileName}
    (h : t.Reaches loc m path (.name n :: rest)) :
    t.Reaches loc m (pathStart path target) (pathParts target) := by
  refine h.mono fun k r hwalk => ?_
  rw [List.cons_append] at hwalk
  obtain ⟨k', rfl, heq⟩ := t.walk_link hlink hwalk
  exact ⟨k', rest ++ r, Nat.le_succ k', by rwa [heq] at hwalk⟩

/-- The walk goes on behind the place its target leads to. -/
private theorem walk_behind_link {out x : Location} {k : ℕ} {r : List PathPart}
    (hout : t.Passes (pathStart path target) (pathParts target) out)
    (hwalk : t.walk k path (.name n :: rest ++ r) = some x) :
    ∃ k', k' ≤ k ∧ t.walk k' out (rest ++ r) = some x := by
  rw [List.cons_append] at hwalk
  obtain ⟨k', rfl, heq⟩ := t.walk_link hlink (Option.isSome_of_eq_some hwalk)
  rw [heq] at hwalk
  obtain ⟨k'', hle, hwalk'⟩ := hout k' _ x hwalk
  exact ⟨k'', by omega, hwalk'⟩

end Link

/-- Resolving keeps to the way of every walk, and leaves no link in the path that a walk gets
past. The links being resolved come by the place that is reached. -/
theorem realpathFrom_spec (seen : List Location) (path : Location) (parts : List PathPart)
    (hpath : t.Resolved path)
    (hseen : ∀ loc n, loc ++ [n] ∈ seen → t.Reaches loc n path parts) :
    t.Resolved (t.realpathFrom seen path parts) ∧
      t.Passes path parts (t.realpathFrom seen path parts) := by
  induction seen, path, parts using realpathFrom.induct t with
  | case1 seen path =>
    rw [realpathFrom]
    exact ⟨hpath, fun k r x hwalk => ⟨k, Nat.le_refl k, hwalk⟩⟩
  | case2 seen path rest ih =>
    have hstep : ∀ k r, (t.walk k path (.here :: r)).isSome →
        t.walk k path (.here :: r) = t.walk k path r := fun _ _ hwalk => t.walk_here hwalk
    obtain ⟨hresolved, hpasses⟩ := ih hpath fun loc n hloc => (hseen loc n hloc).of_eq hstep
    rw [realpathFrom]
    exact ⟨hresolved, passes_of_eq hpasses hstep⟩
  | case3 seen path rest ih =>
    have hstep : ∀ k r, (t.walk k path (.up :: r)).isSome →
        t.walk k path (.up :: r) = t.walk k path.dropLast r := fun _ _ hwalk => t.walk_up hwalk
    obtain ⟨hresolved, hpasses⟩ := ih (t.resolved_dropLast hpath)
      fun loc n hloc => (hseen loc n hloc).of_eq hstep
    rw [realpathFrom]
    exact ⟨hresolved, passes_of_eq hpasses hstep⟩
  | case4 seen path n rest hlink ih =>
    have hstep : ∀ k r, (t.walk k path (.name n :: r)).isSome →
        t.walk k path (.name n :: r) = t.walk k (path ++ [n]) r :=
      fun _ _ hwalk => t.walk_name hlink hwalk
    obtain ⟨hresolved, hpasses⟩ := ih (t.resolved_concat hpath (Or.inl hlink))
      fun loc n hloc => (hseen loc n hloc).of_eq hstep
    rw [t.realpathFrom_name (Or.inl hlink)]
    exact ⟨hresolved, passes_of_eq hpasses hstep⟩
  | case5 seen path n rest target hlink hmem ih =>
    -- The link is being resolved, so no walk gets past it.
    have hdead : t.Dead path n := t.dead_of_reaches (hseen path n hmem)
    have hstep : ∀ k r, (t.walk k path (.name n :: r)).isSome →
        t.walk k path (.name n :: r) = t.walk k (path ++ [n]) r := by
      intro k r hwalk
      rw [hdead] at hwalk
      cases hwalk
    obtain ⟨hresolved, hpasses⟩ := ih (t.resolved_concat hpath (Or.inr hdead))
      fun loc n hloc => (hseen loc n hloc).of_eq hstep
    rw [t.realpathFrom_name (Or.inr hmem)]
    exact ⟨hresolved, passes_of_eq hpasses hstep⟩
  | case6 seen path n rest target hlink hmem ihTarget ihRest =>
    obtain ⟨htarget, hpassesTarget⟩ := ihTarget (t.resolved_pathStart hpath target) (by
      intro loc n' hloc
      rcases List.mem_cons.mp hloc with heq | hloc
      · obtain ⟨rfl, hn⟩ := List.append_inj' heq rfl
        obtain rfl := (List.cons.inj hn).1
        exact reaches_of_link hlink
      · exact (hseen loc n' hloc).of_link hlink)
    obtain ⟨hresolved, hpasses⟩ := ihRest htarget (by
      intro loc n' hloc
      refine (hseen loc n' hloc).mono fun k r hwalk => ?_
      obtain ⟨x, hx⟩ := Option.isSome_iff_exists.mp hwalk
      obtain ⟨k', hle, hwalk'⟩ := walk_behind_link hlink hpassesTarget hx
      exact ⟨k', r, hle, by rw [hwalk']; rfl⟩)
    rw [t.realpathFrom_link hlink hmem]
    refine ⟨hresolved, fun k r x hwalk => ?_⟩
    obtain ⟨k', hle, hwalk'⟩ := walk_behind_link hlink hpassesTarget hwalk
    obtain ⟨k'', hle', hwalk''⟩ := hpasses k' r x hwalk'
    exact ⟨k'', by omega, hwalk''⟩

variable (t)

/-- The links a system follows before it gives up. -/
def maxLinks : ℕ := 40

/-- The place the system finds for a path. -/
def locate (cwd : Location) (path : List Char) : Option Location :=
  t.walk maxLinks (pathStart cwd path) (pathParts path)

/-- `os.path.realpath`, before it is written as a text. -/
def realpath (cwd : Location) (path : List Char) : Location :=
  t.realpathFrom [] (pathStart cwd path) (pathParts path)

theorem resolved_realpath {cwd : Location} (hcwd : t.Resolved cwd) (path : List Char) :
    t.Resolved (t.realpath cwd path) :=
  (realpathFrom_spec [] _ _ (t.resolved_pathStart hcwd path) (by simp)).1

/-- The canonical path of what the system finds is the place it finds. -/
theorem realpath_eq_of_locate {cwd loc : Location} (hcwd : t.Resolved cwd) {path : List Char}
    (h : t.locate cwd path = some loc) : t.realpath cwd path = loc := by
  have hpasses := (realpathFrom_spec [] _ (pathParts path) (t.resolved_pathStart hcwd path)
    (by simp)).2
  obtain ⟨k, -, hwalk⟩ := hpasses maxLinks [] loc (by rw [List.append_nil]; exact h)
  rw [walk_nil] at hwalk
  exact Option.some.inj hwalk

end FileTree

/-! ## Texts -/

theorem pathPart_chars (n : FileName) : pathPart n.chars = .name n := by
  rw [pathPart, dif_pos ⟨n.noSlash, n.proper⟩]

private theorem splitOn_names (n : FileName) (loc : Location) :
    (n.chars ++ loc.flatMap fun m => '/' :: m.chars).splitOn '/' =
      n.chars :: loc.map FileName.chars := by
  induction loc generalizing n with
  | nil => rw [List.flatMap_nil, List.append_nil, List.splitOn_eq_singleton n.noSlash, List.map_nil]
  | cons m loc ih =>
    rw [List.flatMap_cons, List.cons_append, List.splitOn_append_cons_self_of_not_mem n.noSlash, ih,
      List.map_cons]

namespace Location

theorem head?_text (loc : Location) : loc.text.head? = some '/' := by
  unfold text
  split_ifs with hloc
  · rfl
  · obtain ⟨n, loc, rfl⟩ := List.exists_cons_of_ne_nil hloc
    rfl

/-- The parts of the text of a place are its names. -/
theorem pathParts_text {loc : Location} (hloc : loc ≠ []) :
    pathParts loc.text = .here :: loc.map .name := by
  obtain ⟨n, loc, rfl⟩ := List.exists_cons_of_ne_nil hloc
  have hslash := List.splitOn_append_cons_self_of_not_mem (List.not_mem_nil (a := '/'))
    (n.chars ++ loc.flatMap fun m => '/' :: m.chars)
  rw [text, if_neg hloc, List.flatMap_cons, List.cons_append, pathParts]
  rw [List.nil_append] at hslash
  rw [hslash, splitOn_names, List.map_cons, List.map_cons, List.map_map, pathPart_chars,
    List.map_cons]
  congr 2
  exact List.map_congr_left fun m _ => pathPart_chars m

private theorem exists_of_flatMap {base loc : Location} {rest : List Char}
    (h : (base.flatMap fun n => '/' :: n.chars) ++ '/' :: rest =
      loc.flatMap fun n => '/' :: n.chars) :
    ∃ n more, loc = base ++ n :: more := by
  induction base generalizing loc with
  | nil =>
    cases loc with
    | nil => cases h
    | cons n more => exact ⟨n, more, rfl⟩
  | cons m base ih =>
    cases loc with
    | nil => cases h
    | cons n loc =>
      rw [List.flatMap_cons, List.flatMap_cons, List.cons_append, List.cons_append,
        List.cons_append, List.append_assoc] at h
      have htail := (List.cons.inj h).2
      obtain ⟨cs, hcs⟩ :
          ∃ cs, (base.flatMap fun n => '/' :: n.chars) ++ '/' :: rest = '/' :: cs := by
        cases base with
        | nil => exact ⟨rest, rfl⟩
        | cons b base => exact ⟨_, rfl⟩
      cases loc with
      | nil =>
        rw [List.flatMap_nil, List.append_nil, hcs] at htail
        exact absurd (by rw [← htail]; simp) n.noSlash
      | cons n' loc =>
        have hcut := hcs ▸ htail
        rw [List.flatMap_cons, List.cons_append] at hcut
        obtain ⟨hchars, -⟩ := sep_append_inj m.noSlash n.noSlash hcut
        rw [hchars] at htail
        obtain ⟨last, more, hmore⟩ := ih (List.append_cancel_left htail)
        have hname : m = n := by
          cases m
          cases n
          simpa using hchars
        exact ⟨last, more, by rw [hmore, hname, List.cons_append]⟩

/-- A text that starts with that of a place and a slash is that of a place strictly below. -/
theorem below_of_prefix {base loc : Location} (h : base.text ++ ['/'] <+: loc.text) :
    ∃ n more, loc = base ++ n :: more := by
  obtain ⟨rest, hrest⟩ := h
  rw [List.append_assoc, List.singleton_append] at hrest
  cases loc with
  | nil =>
    have hlength := congrArg List.length hrest
    have hbase : 0 < base.text.length := List.length_pos_of_ne_nil fun hnil => by
      have hhead := base.head?_text
      rw [hnil] at hhead
      cases hhead
    rw [List.length_append, List.length_cons] at hlength
    change _ = 1 at hlength
    omega
  | cons n more =>
    cases base with
    | nil => exact ⟨n, more, rfl⟩
    | cons b base =>
      rw [text, text, if_neg (List.cons_ne_nil b base), if_neg (List.cons_ne_nil n more)] at hrest
      exact exists_of_flatMap hrest

end Location

end PiWatch
