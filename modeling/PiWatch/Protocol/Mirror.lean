import PiWatch.Collectors.K8sWatch
import PiWatch.Protocol.Ws

/-!
# From the cluster to the browser

The watch loops of all kinds run on one state next to the other collectors, and the browsers
follow that state. What a browser shows of a kind is compared with what the API server holds.
-/

namespace PiWatch

/-- The collection of a kind in the browser. -/
def Snapshot.collection (snap : Snapshot) : (k : ObjectKind) → Dict String k.Slim
  | .nodes => snap.nodes
  | .pods => snap.pods
  | .deployments => snap.deployments
  | .statefulsets => snap.statefulsets
  | .daemonsets => snap.daemonsets
  | .services => snap.services
  | .hpas => snap.hpas
  | .networkpolicies => snap.networkPolicies
  | .secrets => snap.secrets
  | .configmaps => snap.configmaps
  | .persistentvolumes => snap.orphanedPvs

theorem Snapshot.Agrees.collection {b : Snapshot} {s : ClusterState} (h : b.Agrees s.snapshot)
    (k : ObjectKind) : (b.collection k).SameMap (k.collection s) := by
  cases k
  · exact h.nodes
  · exact h.pods
  · exact h.deployments
  · exact h.statefulsets
  · exact h.daemonsets
  · exact h.services
  · exact h.hpas
  · exact h.networkPolicies
  · exact h.secrets
  · exact h.configmaps
  · exact h.orphanedPvs

/-- The actions of a session that has nothing else on its store. -/
def ListWatchAction.lift {κ ρ ω : Type*} : ListWatchAction κ ρ Empty → ListWatchAction κ ρ ω
  | .put r => .put r
  | .delete k => .delete k
  | .list => .list
  | .seed => .seed
  | .deliver => .deliver
  | .stop => .stop

namespace Mirror

open K8sWatch

/-! ## The calls of `_apply` -/

/-- The mutation that takes an object out of its collection. -/
def removal : ObjectKind → String → Time → Op
  | .nodes => .removeNode
  | .pods => .removePod
  | .deployments => .removeDeployment
  | .statefulsets => .removeStatefulset
  | .daemonsets => .removeDaemonset
  | .services => .removeService
  | .hpas => .removeHpa
  | .networkpolicies => .removeNetworkPolicy
  | .secrets => .removeSecret
  | .configmaps => .removeConfigmap
  | .persistentvolumes => .removeOrphanedPv

/-- The mutation that stores an object under its own key. -/
def upsert : (k : ObjectKind) → k.Slim → Time → Op
  | .nodes, obj => .upsertNode obj.name obj
  | .pods, obj => .upsertPod obj.key obj
  | .deployments, obj => .upsertDeployment obj.key obj
  | .statefulsets, obj => .upsertStatefulset obj.key obj
  | .daemonsets, obj => .upsertDaemonset obj.key obj
  | .services, obj => .upsertService obj.key obj
  | .hpas, obj => .upsertHpa obj.key obj
  | .networkpolicies, obj => .upsertNetworkPolicy obj.key obj
  | .secrets, obj => .upsertSecret obj.key obj
  | .configmaps, obj => .upsertConfigmap obj.key obj
  | .persistentvolumes, obj => .upsertOrphanedPv obj.key obj

/-- The method `_apply` calls for an object. -/
def opOf (k : ObjectKind) (ev : EvType) (obj : k.Slim) (t : Time) : Op :=
  if ev = .deleted ∨ ¬ surfaced k obj then removal k (k.objKey obj) t else upsert k obj t

theorem exec_opOf (s : ClusterState) (k : ObjectKind) (ev : EvType) (obj : k.Slim) (t : Time) :
    s.exec (opOf k ev obj t) = apply s k ev obj t := by
  unfold opOf
  cases k <;>
    simp only [apply, surfaced, decide_eq_true_eq, not_true, or_false, not_not, ne_eq] <;>
    split_ifs <;> rfl

theorem wellKeyed_opOf (k : ObjectKind) (ev : EvType) (obj : k.Slim) (t : Time) :
    (opOf k ev obj t).WellKeyed := by
  unfold opOf
  split_ifs
  · cases k <;> trivial
  · cases k <;> rfl

theorem kind_opOf (k : ObjectKind) (ev : EvType) (obj : k.Slim) (t : Time) :
    (opOf k ev obj t).kind = some k := by
  unfold opOf
  split_ifs
  · cases k <;> rfl
  · cases k <;> rfl

/-- The calls for what a step of a loop hands over, stamped in turn. -/
def callsOf (k : ObjectKind) (clock : ℕ → Time) (handed : List (EvType × k.Raw)) : List Op :=
  handed.zipIdx.map fun e => opOf k e.1.1 (k.mapper e.1.2) (clock e.2)

theorem mem_callsOf {k : ObjectKind} {clock : ℕ → Time} {handed : List (EvType × k.Raw)} {op : Op}
    (h : op ∈ callsOf k clock handed) : op.WellKeyed ∧ op.kind = some k := by
  obtain ⟨e, -, rfl⟩ := List.mem_map.mp h
  exact ⟨wellKeyed_opOf _ _ _ _, kind_opOf _ _ _ _⟩

theorem runFrom_callsOf (k : ObjectKind) (clock : ℕ → Time) (handed : List (EvType × k.Raw))
    (s : ClusterState) :
    runFrom ClusterState.step s (callsOf k clock handed) =
      handed.foldl (fun s e => (follower k).apply s e.1 e.2) s := by
  have hrun : ∀ n, runFrom ClusterState.step s
      ((handed.zipIdx n).map fun e => opOf k e.1.1 (k.mapper e.1.2) (clock e.2)) =
      handed.foldl (fun s e => (follower k).apply s e.1 e.2) s := by
    induction handed generalizing s with
    | nil => exact fun _ => rfl
    | cons e handed ih =>
      intro n
      rw [List.zipIdx_cons, List.map_cons, runFrom_cons, List.foldl_cons, ih, ClusterState.step,
        exec_opOf, apply_fst_stamp s k e.1 (k.mapper e.2) (clock n) 0]
      rfl
  exact hrun 0

/-! ## The whole system -/

/-- What the API server holds of a kind, and how far the kind's loop has come. -/
structure Loop (k : ObjectKind) where
  source : Source (watchKey k)
  phase : Phase (watchKey k)
  pending : List (EvType × k.Raw)
  seen : Dict String k.Raw

structure World where
  loops : (k : ObjectKind) → Loop k
  server : Ws.Server

/-- The session of one kind's loop with the shared state. -/
def World.session (w : World) (k : ObjectKind) : Session (watchKey k) ClusterState where
  source := (w.loops k).source
  phase := (w.loops k).phase
  pending := (w.loops k).pending
  seen := (w.loops k).seen
  store := w.server.state

def loopOf {k : ObjectKind} (sys : Session (watchKey k) ClusterState) : Loop k :=
  ⟨sys.source, sys.phase, sys.pending, sys.seen⟩

/-- A change of the cluster or a step of a loop, a call of any other collector, or a step of a
browser's connection. -/
inductive Action
  | watch (k : ObjectKind) (a : ListWatchAction String k.Raw Empty) (clock : ℕ → Time)
  | call (op : Op)
  | client (a : Ws.Act)

/-- The other collectors keep to their own collections, and only they make calls. -/
def Action.Sensible : Action → Prop
  | .watch _ _ _ => True
  | .call op => op.WellKeyed ∧ op.kind = none
  | .client (.call _) => False
  | .client _ => True

def step (w : World) : Action → World
  | .watch k a clock =>
    { loops := Function.update w.loops k (loopOf ((follower k).step (w.session k) a.lift))
      server := runFrom Ws.step w.server
        ((callsOf k clock ((w.session k).handed
          (a.lift : ListWatchAction String k.Raw {op : Op // op.kind ≠ some k}))).map .call) }
  | .call op => { w with server := Ws.step w.server (.call op) }
  | .client a => { w with server := Ws.step w.server a }

/-- No list is missing a surfaced object its loop was told of. -/
def NothingMissed (w : World) : Action → Prop
  | .watch k a _ => (follower k).NothingMissed (w.session k) a.lift
  | _ => True

/-- Any cluster, loops that have not begun, and a fresh state with its reloaded history. -/
def start (cluster : (k : ObjectKind) → Source (watchKey k)) (t : Time)
    (hist : Dict String (Ring historyLen Obj)) : World where
  loops k := ⟨cluster k, .idle, [], ∅⟩
  server := Ws.serverOf { ClusterState.init t with nodeHistory := hist }

/-! ## What a step keeps -/

theorem collection_run_of_kind_ne {k : ObjectKind} {s : ClusterState} {ops : List Op}
    (h : ∀ op ∈ ops, op.kind ≠ some k) :
    k.collection (runFrom ClusterState.step s ops) = k.collection s := by
  induction ops generalizing s with
  | nil => rfl
  | cons op ops ih =>
    rw [runFrom_cons, ih fun x hx => h x (by simp [hx])]
    exact collection_step_of_kind_ne (h op (by simp))

theorem state_calls (server : Ws.Server) (ops : List Op) :
    (runFrom Ws.step server (ops.map .call)).state =
      runFrom ClusterState.step server.state ops := by
  induction ops generalizing server with
  | nil => rfl
  | cons op ops ih => exact ih (Ws.step server (.call op))

theorem state_client (server : Ws.Server) {a : Ws.Act} (h : ∀ op, a ≠ .call op) :
    (Ws.step server a).state = server.state := by
  cases a with
  | connect id =>
    simp only [Ws.step]
    split <;> rfl
  | call op => exact absurd rfl (h op)
  | _ => rfl

/-- Every loop's collection shows what the loop has been told, and it was told everything. -/
structure Sound (w : World) : Prop where
  server : w.server.Sound
  seen : ∀ k, (follower k).ShowsSeen (w.session k)
  synced : ∀ k, (follower k).Synced (w.session k)

/-- Calls that leave a kind alone leave its session as it was. -/
theorem showsSeen_of_collection {k : ObjectKind} {sys sys' : Session (watchKey k) ClusterState}
    (h : (follower k).ShowsSeen sys) (hseen : sys'.seen = sys.seen)
    (hstore : k.collection sys'.store = k.collection sys.store) :
    (follower k).ShowsSeen sys' := by
  intro key
  have hkey := h key
  rw [hseen]
  exact (congrArg (·.get? key) hstore).trans hkey

private theorem session_watch (w : World) (k : ObjectKind)
    (a : ListWatchAction String k.Raw Empty) (clock : ℕ → Time) :
    (step w (.watch k a clock)).session k = (follower k).step (w.session k) a.lift := by
  have hstore : (runFrom Ws.step w.server ((callsOf k clock ((w.session k).handed
      (a.lift : ListWatchAction String k.Raw {op : Op // op.kind ≠ some k}))).map .call)).state =
      ((follower k).step (w.session k) a.lift).store := by
    rw [state_calls, runFrom_callsOf, Follower.store_step]
    cases a with
    | other o => cases o
    | _ => rfl
  have hloop : (step w (.watch k a clock)).loops k =
      loopOf ((follower k).step (w.session k) a.lift) := Function.update_self _ _ _
  rw [World.session, hloop]
  change Session.mk _ _ _ _ (runFrom Ws.step w.server _).state = _
  rw [hstore]
  rfl

private theorem loops_watch_of_ne (w : World) {k k' : ObjectKind} (hne : k' ≠ k)
    (a : ListWatchAction String k.Raw Empty) (clock : ℕ → Time) :
    (step w (.watch k a clock)).loops k' = w.loops k' :=
  Function.update_of_ne hne _ _

theorem sound_step {w : World} (h : Sound w) {a : Action} (hsensible : a.Sensible)
    (hmissed : NothingMissed w a) : Sound (step w a) := by
  cases a with
  | watch k a clock =>
    refine ⟨?_, fun k' => ?_, fun k' => ?_⟩
    · refine Ws.sound_run h.server fun act hact => ?_
      obtain ⟨op, hop, rfl⟩ := List.mem_map.mp hact
      exact (mem_callsOf hop).1
    · by_cases hk : k' = k
      · subst hk
        rw [session_watch]
        exact Follower.showsSeen_step (h.seen k') a.lift
      · have hloops := loops_watch_of_ne w hk a clock
        refine showsSeen_of_collection (h.seen k') (congrArg Loop.seen hloops) ?_
        change k'.collection (runFrom Ws.step w.server _).state = _
        rw [state_calls]
        exact collection_run_of_kind_ne fun op hop heq =>
          hk (Option.some.inj (heq.symm.trans (mem_callsOf hop).2))
    · by_cases hk : k' = k
      · subst hk
        rw [session_watch]
        exact Follower.synced_step (h.synced k') hmissed
      · have hloops := loops_watch_of_ne w hk a clock
        have hsynced := h.synced k'
        simp only [Follower.Synced, World.session, hloops] at hsynced ⊢
        exact hsynced
  | call op =>
    have hserver : (Ws.step w.server (.call op)).Sound := Ws.sound_step h.server hsensible.1
    refine ⟨hserver, fun k => ?_, h.synced⟩
    refine showsSeen_of_collection (h.seen k) rfl ?_
    exact collection_step_of_kind_ne (by rw [hsensible.2]; simp)
  | client act =>
    have hcall : ∀ op, act ≠ .call op := by
      rintro op rfl
      exact hsensible
    refine ⟨Ws.sound_step h.server ?_, fun k => ?_, h.synced⟩
    · cases act with
      | call op => exact absurd rfl (hcall op)
      | _ => trivial
    · refine showsSeen_of_collection (h.seen k) rfl ?_
      exact congrArg k.collection (state_client w.server hcall)

theorem sound_start (cluster : (k : ObjectKind) → Source (watchKey k)) (t : Time)
    (hist : Dict String (Ring historyLen Obj)) : Sound (start cluster t hist) where
  server := ⟨⟨t, hist, [], by simp, rfl⟩, fun id c hc => by simp [start, Ws.serverOf] at hc⟩
  seen k := by
    intro key
    cases k <;> rfl
  synced _ := trivial

theorem sound_run {w : World} (h : Sound w) {as : List Action} (hsensible : ∀ a ∈ as, a.Sensible)
    (hmissed : AlongRun step NothingMissed w as) : Sound (runFrom step w as) := by
  induction as generalizing w with
  | nil => exact h
  | cons a as ih =>
    exact ih (sound_step h (hsensible a (by simp)) hmissed.1)
      (fun x hx => hsensible x (by simp [hx])) hmissed.2

/-- Over any interleaving of the cluster's changes, the loops of all kinds, the other collectors
and the browsers: a browser that was sent all deltas published since it connected shows, of a kind
whose watch is up to date, exactly the surfaced objects the API server holds now, each under its
key, if no list was missing a surfaced object its loop had been told of and no node or check bears
a name every object inherits. -/
theorem browser_shows_cluster (cluster : (k : ObjectKind) → Source (watchKey k)) (t : Time)
    (hist : Dict String (Ring historyLen Obj)) (as : List Action)
    (hsensible : ∀ a ∈ as, a.Sensible)
    (hmissed : AlongRun step NothingMissed (start cluster t hist) as) (id : ℕ) (c : Ws.Client)
    (hc : (runFrom step (start cluster t hist) as).server.clients.get? id = some c)
    (hsent : c.mailbox.taken = c.published) (hflight : c.inFlight = [])
    (hnames : AlongRun ClusterState.step
      (fun s' op => op.ReadsOwnNames c.base.snapshot s') c.base c.calls)
    (k : ObjectKind)
    (hphase : ((runFrom step (start cluster t hist) as).loops k).phase = .watching)
    (hpending : ((runFrom step (start cluster t hist) as).loops k).pending = []) :
    ∃ snap, c.page = .showing snap ∧ ∀ key obj, (snap.collection k).get? key = some obj ↔
      ∃ r ∈ ((runFrom step (start cluster t hist) as).loops k).source.items,
        surfaced k (k.mapper r) ∧ key = k.objKey (k.mapper r) ∧ obj = k.mapper r := by
  have hsound := sound_run (sound_start cluster t hist) hsensible hmissed
  set w := runFrom step (start cluster t hist) as
  have hclient := hsound.server.clients id c hc
  -- what was published has been applied, so the page tracks the state
  obtain ⟨snap, hsnap, htracks⟩ := applyDeltas_tracks hclient.reachable hclient.keyed hnames
  have hpage := hclient.page_eq
  rw [hflight, List.foldl_nil, hsent, Ws.Client.published, hsnap] at hpage
  -- and the state mirrors the API server
  have hmirrors : (follower k).Mirrors w.server.state (w.loops k).source :=
    Follower.mirrors_of_synced (hsound.seen k) (hsound.synced k) hphase hpending
  refine ⟨snap, hpage, fun key obj => ?_⟩
  have hsame := htracks.toAgrees.collection k key
  rw [← hclient.state_eq] at hsame
  rw [hsame]
  exact holdsExactly_iff.mpr hmirrors key obj

private def fresh : (k : ObjectKind) → Source (watchKey k) := fun _ => ⟨∅, by simp⟩

private def rpi2 : V1Node where
  metadata := ⟨⟨"rpi-2", by decide⟩, none⟩
  labels := none
  unschedulable := none
  taints := none
  conditions := none
  addresses := none
  nodeInfo := none
  capacity := none

/-- A browser connects, the node loop lists and watches, and a node joins. -/
def joining : List Action :=
  [.client (.connect 0), .watch .nodes .list fun _ => 1, .watch .nodes .seed fun _ => 1,
    .watch .nodes (.put rpi2) fun _ => 2, .watch .nodes .deliver fun _ => 3, .client (.take 0),
    .client (.receive 0), .client (.receive 0)]

def joined : World := runFrom step (start fresh 0 ∅) joining

section Witness

attribute [local semireducible] Ring.push

theorem browser_shows_cluster_joined :
    ∃ snap, ((joined.server.clients.get? 0).map Ws.Client.page) = some (.showing snap) ∧
      ∀ key obj, (snap.collection .nodes).get? key = some obj ↔
        ∃ r ∈ (joined.loops .nodes).source.items, surfaced .nodes (mapNode r) ∧
          key = (mapNode r).name ∧ obj = mapNode r := by
  have hserved : ∃ c, joined.server.clients.get? 0 = some c := ⟨_, rfl⟩
  obtain ⟨c, hc⟩ := hserved
  have hmissed : AlongRun step NothingMissed (start fresh 0 ∅) joining := by
    refine ⟨trivial, ?_, ?_, ?_, ?_, trivial, trivial, trivial, trivial⟩
    · rintro src ⟨⟩
    · rintro src - - k r hseen -
      cases hseen
    · rintro src ⟨⟩
    · rintro src ⟨⟩
  have hshows := browser_shows_cluster fresh 0 ∅ joining (by simp [joining, Action.Sensible])
    hmissed 0 c hc
  obtain rfl := Option.some.inj (hc.symm.trans rfl)
  obtain ⟨snap, hpage, hshown⟩ := hshows rfl rfl ⟨trivial, trivial⟩ .nodes rfl rfl
  exact ⟨snap, congrArg some hpage, hshown⟩

end Witness

end Mirror

end PiWatch
