import PiWatch.Framework.Dict
import PiWatch.Framework.Run

/-!
# List and watch

A server holds objects under keys. A session lists them, applies the list to a store, and
then applies the change events of a watch that starts from the list. A watch may end at any
point; changes made until the next list are not delivered. `seen` records what the session
has been told, and the store always shows exactly that.
-/

namespace PiWatch

inductive EvType
  | added
  | modified
  | deleted
  deriving DecidableEq

variable {κ ρ σ ω ν : Type*} [DecidableEq κ] {key : ρ → κ}

/-- The objects a server holds, each under its own key. -/
structure Source (key : ρ → κ) where
  objects : Dict κ ρ
  named : ∀ k r, objects.get? k = some r → key r = k

namespace Source

def put (src : Source key) (r : ρ) : Source key where
  objects := src.objects.insert (key r) r
  named := by
    intro k r' h
    rw [Dict.get?_insert] at h
    by_cases hk : k = key r
    · rw [if_pos hk, Option.some.injEq] at h
      rw [← h, hk]
    · rw [if_neg hk] at h
      exact src.named k r' h

def delete (src : Source key) (k : κ) : Source key where
  objects := src.objects.erase k
  named := by
    intro k' r h
    rw [Dict.get?_erase] at h
    split at h
    · cases h
    · exact src.named k' r h

/-- What a list call returns. -/
def items (src : Source key) : List ρ := src.objects.values

theorem mem_items {src : Source key} {r : ρ} :
    r ∈ src.items ↔ src.objects.get? (key r) = some r := by
  rw [items, Dict.values, List.mem_map]
  constructor
  · intro hitem
    obtain ⟨⟨k, r'⟩, he, rfl⟩ := hitem
    have hget := Dict.get?_eq_some_iff.mpr he
    rwa [src.named k r' hget]
  · intro h
    exact ⟨(key r, r), Dict.get?_eq_some_iff.mp h, rfl⟩

end Source

/-- A store fed by events, seen through `view`. An event touches its own object's entry only,
and what else happens to the store touches none. -/
structure Follower (key : ρ → κ) (σ ω ν : Type*) where
  apply : σ → EvType → ρ → σ
  other : σ → ω → σ
  view : σ → κ → Option ν
  shown : ρ → Option ν
  view_apply : ∀ s ev r k, view (apply s ev r) k =
    if k = key r then (if ev = .deleted then none else shown r) else view s k
  view_other : ∀ s o k, view (other s o) k = view s k

inductive Phase (key : ρ → κ)
  | idle
  | listed (src : Source key)
  | watching

/-- The server, one session with it and the session's store. `pending` holds the events the
next watch steps will deliver. -/
structure Session (key : ρ → κ) (σ : Type*) where
  source : Source key
  phase : Phase key
  pending : List (EvType × ρ)
  seen : Dict κ ρ
  store : σ

inductive ListWatchAction (κ ρ ω : Type*)
  | put (r : ρ)
  | delete (k : κ)
  | list
  | seed
  | deliver
  | stop
  | other (o : ω)

namespace Session

/-- A change event, queued unless no list or watch is open. -/
def notify (sys : Session key σ) (ev : EvType) (r : ρ) : List (EvType × ρ) :=
  match sys.phase with
  | .idle => []
  | _ => sys.pending ++ [(ev, r)]

def learn (key : ρ → κ) (seen : Dict κ ρ) (ev : EvType) (r : ρ) : Dict κ ρ :=
  if ev = .deleted then seen.erase (key r) else seen.insert (key r) r

/-- What a step hands to the store, in order. -/
def handed (sys : Session key σ) : ListWatchAction κ ρ ω → List (EvType × ρ)
  | .seed =>
    match sys.phase with
    | .listed src => src.items.map fun r => (.added, r)
    | _ => []
  | .deliver =>
    match sys.phase, sys.pending with
    | .watching, e :: _ => [e]
    | _, _ => []
  | _ => []

end Session

namespace Follower

open Session

variable (F : Follower key σ ω ν)

def seed (s : σ) (items : List ρ) : σ := items.foldl (fun s r => F.apply s .added r) s

def step (sys : Session key σ) : ListWatchAction κ ρ ω → Session key σ
  | .put r =>
    let ev := if key r ∈ sys.source.objects then .modified else .added
    { sys with source := sys.source.put r, pending := sys.notify ev r }
  | .delete k =>
    match sys.source.objects.get? k with
    | none => sys
    | some r => { sys with source := sys.source.delete k, pending := sys.notify .deleted r }
  | .list =>
    match sys.phase with
    | .idle => { sys with phase := .listed sys.source, pending := [] }
    | _ => sys
  | .seed =>
    match sys.phase with
    | .listed src =>
      { sys with
        phase := .watching
        seen := sys.seen.merge src.objects
        store := F.seed sys.store src.items }
    | _ => sys
  | .deliver =>
    match sys.phase, sys.pending with
    | .watching, (ev, r) :: rest =>
      { sys with
        pending := rest
        seen := learn key sys.seen ev r
        store := F.apply sys.store ev r }
    | _, _ => sys
  | .stop => { sys with phase := .idle, pending := [] }
  | .other o => { sys with store := F.other sys.store o }

/-- The store shows what the session has been told. -/
def ShowsSeen (sys : Session key σ) : Prop :=
  ∀ k, F.view sys.store k = (sys.seen.get? k).bind F.shown

/-- The store shows exactly the objects of the source. -/
def Mirrors (s : σ) (src : Source key) : Prop :=
  ∀ k, F.view s k = (src.objects.get? k).bind F.shown

/-- Whenever a list is applied, the store mirrors it from then on. -/
def MirrorsAfterSeed (sys : Session key σ) (a : ListWatchAction κ ρ ω) : Prop :=
  ∀ src, a = .seed → sys.phase = .listed src → F.Mirrors (F.step sys a).store src

/-- No shown object has vanished from the list without the session being told. -/
def NothingMissed (sys : Session key σ) (a : ListWatchAction κ ρ ω) : Prop :=
  ∀ src, a = .seed → sys.phase = .listed src →
    ∀ k r, sys.seen.get? k = some r → F.shown r ≠ none → k ∈ src.objects

variable {F}

/-- The store of a session changes by what it is handed, or by other calls. -/
theorem store_step (sys : Session key σ) (a : ListWatchAction κ ρ ω) :
    (F.step sys a).store = match a with
      | .other o => F.other sys.store o
      | _ => (sys.handed a).foldl (fun s e => F.apply s e.1 e.2) sys.store := by
  cases a with
  | put r => rfl
  | delete k =>
    simp only [step]
    split <;> rfl
  | list =>
    simp only [step]
    split <;> rfl
  | seed =>
    simp only [step, handed]
    split
    · rw [List.foldl_map]
      rfl
    · rfl
  | deliver =>
    obtain ⟨src, phase, pending, seen, store⟩ := sys
    cases phase <;> cases pending <;> rfl
  | stop => rfl
  | other o => rfl

private theorem view_seed_entries {l : List (κ × ρ)} (hnodup : (l.map Prod.fst).Nodup)
    (hnamed : ∀ e ∈ l, key e.2 = e.1) (s : σ) (k : κ) :
    F.view (F.seed s (l.map Prod.snd)) k =
      match l.lookup k with
      | some r => F.shown r
      | none => F.view s k := by
  induction l generalizing s with
  | nil => rfl
  | cons e l ih =>
    obtain ⟨k', r⟩ := e
    have hkey : key r = k' := hnamed (k', r) (by simp)
    rw [List.map_cons, List.nodup_cons] at hnodup
    rw [List.map_cons, seed, List.foldl_cons]
    refine (ih hnodup.2 (fun e he => hnamed e (by simp [he])) _).trans ?_
    rw [List.lookup_cons, F.view_apply, hkey]
    by_cases hk : k = k'
    · subst hk
      have hnone : l.lookup k = none := by
        rw [List.lookup_eq_none_iff]
        intro e he
        rw [bne_iff_ne]
        intro heq
        exact hnodup.1 (List.mem_map.mpr ⟨e, he, heq.symm⟩)
      simp [hnone]
    · simp [hk, beq_eq_false_iff_ne.mpr hk]

theorem view_seed (src : Source key) (s : σ) (k : κ) :
    F.view (F.seed s src.items) k =
      match src.objects.get? k with
      | some r => F.shown r
      | none => F.view s k :=
  view_seed_entries src.objects.nodup
    (fun e he => src.named e.1 e.2 (Dict.get?_eq_some_iff.mpr he)) s k

private theorem get?_learn (seen : Dict κ ρ) (ev : EvType) (r : ρ) (k : κ) :
    (learn key seen ev r).get? k =
      if k = key r then (if ev = .deleted then none else some r) else seen.get? k := by
  unfold learn
  by_cases hev : ev = .deleted
  · simp only [if_pos hev, Dict.get?_erase]
  · simp only [if_neg hev, Dict.get?_insert]

theorem showsSeen_step {sys : Session key σ} (h : F.ShowsSeen sys)
    (a : ListWatchAction κ ρ ω) : F.ShowsSeen (F.step sys a) := by
  cases a with
  | put r => exact h
  | delete k =>
    simp only [step]
    split <;> exact h
  | list =>
    simp only [step]
    split <;> exact h
  | seed =>
    simp only [step]
    split
    · intro k
      rw [view_seed, Dict.get?_merge]
      split
      · simp_all
      · simp_all [h k]
    · exact h
  | deliver =>
    simp only [step]
    split
    · rename_i ev r rest _ _
      intro k
      rw [F.view_apply, get?_learn]
      by_cases hk : k = key r
      · by_cases hev : ev = .deleted <;> simp [hk, hev]
      · simp only [if_neg hk, h k]
    · exact h
  | stop => exact h
  | other o =>
    intro k
    exact (F.view_other _ _ _).trans (h k)

theorem mirrorsAfterSeed_iff {sys : Session key σ} (h : F.ShowsSeen sys)
    (a : ListWatchAction κ ρ ω) : F.MirrorsAfterSeed sys a ↔ F.NothingMissed sys a := by
  refine forall_congr' fun src => forall_congr' fun ha => forall_congr' fun hphase => ?_
  subst ha
  have hstore : (F.step sys .seed).store = F.seed sys.store src.items := by
    simp only [step, hphase]
  rw [hstore]
  constructor
  · intro hmirror k r hseen hshown
    by_contra hmem
    have hk := hmirror k
    rw [view_seed, Dict.get?_eq_none_iff.mpr hmem, Option.bind_none] at hk
    simp only [h k, hseen, Option.bind_some] at hk
    exact hshown hk
  · intro hnone k
    rw [view_seed]
    cases hk : src.objects.get? k with
    | some r => rfl
    | none =>
      simp only [h k, Option.bind_none, Option.bind_eq_none_iff]
      intro r hr
      by_contra hshown
      exact Dict.get?_eq_none_iff.mp hk (hnone k r hr hshown)

/-- Over any run, every list is mirrored exactly when no deletion of a shown object fell
between a watch and the next list. -/
theorem mirrorsAfterSeed_run_iff {sys : Session key σ} (h : F.ShowsSeen sys)
    (as : List (ListWatchAction κ ρ ω)) :
    AlongRun F.step F.MirrorsAfterSeed sys as ↔ AlongRun F.step F.NothingMissed sys as :=
  alongRun_congr (fun sys' a (hs : F.ShowsSeen sys') => mirrorsAfterSeed_iff hs a)
    (fun _ a hs _ => showsSeen_step hs a) h as

/-! ## Catching up -/

/-- What a session will have been told once the events on their way have arrived. -/
def catchUp (key : ρ → κ) (seen : Dict κ ρ) (pending : List (EvType × ρ)) : Dict κ ρ :=
  pending.foldl (fun seen e => learn key seen e.1 e.2) seen

theorem catchUp_concat (seen : Dict κ ρ) (pending : List (EvType × ρ)) (ev : EvType) (r : ρ) :
    catchUp key seen (pending ++ [(ev, r)]) = learn key (catchUp key seen pending) ev r :=
  List.foldl_concat _ _ _ _

variable (F) in
/-- Two collections of objects look the same. -/
def SameShown (d e : Dict κ ρ) : Prop :=
  ∀ k, (d.get? k).bind F.shown = (e.get? k).bind F.shown

theorem SameShown.refl (d : Dict κ ρ) : F.SameShown d d := fun _ => rfl

theorem sameShown_learn {d e : Dict κ ρ} (h : F.SameShown d e) (ev : EvType) (r : ρ) :
    F.SameShown (learn key d ev r) (learn key e ev r) := by
  intro k
  rw [get?_learn, get?_learn]
  by_cases hk : k = key r
  · rw [if_pos hk, if_pos hk]
  · rw [if_neg hk, if_neg hk]
    exact h k

theorem sameShown_catchUp {d e : Dict κ ρ} (h : F.SameShown d e) (pending : List (EvType × ρ)) :
    F.SameShown (catchUp key d pending) (catchUp key e pending) := by
  induction pending generalizing d e with
  | nil => exact h
  | cons x pending ih => exact ih (sameShown_learn h x.1 x.2)

variable (F) in
/-- The session has been told, or will be, of everything that changed since its list. -/
def Synced (sys : Session key σ) : Prop :=
  match sys.phase with
  | .idle => True
  | .listed src => F.SameShown (catchUp key src.objects sys.pending) sys.source.objects
  | .watching => F.SameShown (catchUp key sys.seen sys.pending) sys.source.objects

private theorem sameShown_put {d : Dict κ ρ} {src : Source key} (h : F.SameShown d src.objects)
    {ev : EvType} (hev : ev ≠ .deleted) (r : ρ) :
    F.SameShown (learn key d ev r) (src.put r).objects := by
  intro k
  rw [get?_learn, if_neg hev, Source.put, Dict.get?_insert]
  by_cases hk : k = key r
  · rw [if_pos hk, if_pos hk]
  · rw [if_neg hk, if_neg hk]
    exact h k

private theorem sameShown_delete {d : Dict κ ρ} {src : Source key}
    (h : F.SameShown d src.objects) {k : κ} {r : ρ} (hr : src.objects.get? k = some r) :
    F.SameShown (learn key d .deleted r) (src.delete k).objects := by
  intro k'
  rw [get?_learn, if_pos rfl, src.named k r hr, Source.delete, Dict.get?_erase]
  by_cases hk : k' = k
  · rw [if_pos hk, if_pos hk]
  · rw [if_neg hk, if_neg hk]
    exact h k'

/-- A list brings a session that missed nothing up to date. -/
private theorem sameShown_seed {sys : Session key σ} {src : Source key}
    (hphase : sys.phase = .listed src)
    (hmissed : F.NothingMissed sys (.seed : ListWatchAction κ ρ ω)) :
    F.SameShown (sys.seen.merge src.objects) src.objects := by
  intro k
  rw [Dict.get?_merge]
  cases hk : src.objects.get? k with
  | some r => rfl
  | none =>
    cases hseen : sys.seen.get? k with
    | none => rfl
    | some r =>
      -- what is told of but not listed is not shown
      by_contra hshown
      rw [Option.none_or, Option.bind_some, Option.bind_none] at hshown
      exact Dict.get?_eq_none_iff.mp hk (hmissed src rfl hphase k r hseen hshown)

theorem synced_step {sys : Session key σ} (h : F.Synced sys) {a : ListWatchAction κ ρ ω}
    (hmissed : F.NothingMissed sys a) : F.Synced (F.step sys a) := by
  obtain ⟨source, phase, pending, seen, store⟩ := sys
  cases a with
  | put r =>
    have hev : (if key r ∈ source.objects then EvType.modified else .added) ≠ .deleted := by
      split <;> simp
    cases phase with
    | idle => trivial
    | listed src =>
      simp only [Synced, step, notify, catchUp_concat] at h ⊢
      exact sameShown_put h hev r
    | watching =>
      simp only [Synced, step, notify, catchUp_concat] at h ⊢
      exact sameShown_put h hev r
  | delete k =>
    cases hr : source.objects.get? k with
    | none =>
      simp only [step, hr]
      exact h
    | some r =>
      cases phase with
      | idle =>
        simp only [step, hr]
        trivial
      | listed src =>
        simp only [Synced, step, hr, notify, catchUp_concat] at h ⊢
        exact sameShown_delete h hr
      | watching =>
        simp only [Synced, step, hr, notify, catchUp_concat] at h ⊢
        exact sameShown_delete h hr
  | list =>
    cases phase with
    | idle => exact SameShown.refl _
    | listed src => exact h
    | watching => exact h
  | seed =>
    cases phase with
    | idle => exact h
    | listed src =>
      intro k
      exact (sameShown_catchUp (sameShown_seed rfl hmissed) pending k).trans (h k)
    | watching => exact h
  | deliver =>
    cases phase with
    | idle => exact h
    | listed src => exact h
    | watching => cases pending <;> exact h
  | stop => trivial
  | other o => cases phase <;> exact h

/-- A watch with nothing on its way shows the source as it is now. -/
theorem mirrors_of_synced {sys : Session key σ} (hseen : F.ShowsSeen sys) (h : F.Synced sys)
    (hphase : sys.phase = .watching) (hpending : sys.pending = []) :
    F.Mirrors sys.store sys.source := by
  intro k
  rw [Synced, hphase, hpending] at h
  exact (hseen k).trans (h k)

end Follower

end PiWatch
