import PiWatch.Protocol.Deltas

/-!
# Hardware data and timestamps

The server replaces a node's hardware entry and stamps its history points itself, while the
browser merges every node delta into its entry and stamps its points with the message's
time. This module says exactly when the two stay together.
-/

namespace PiWatch

open ClusterState Store

/-- Two browsers hold the same hardware maps, up to the delta's `node` field, and the same
history timestamps. -/
structure Snapshot.AgreesOnHardware (b s : Snapshot) : Prop where
  hardware : ∀ node, Option.Rel (Obj.AgreeExcept "node") (b.hardware.get? node)
    (s.hardware.get? node)
  timestamps : ∀ node, (b.chart node).map (·.field "t") = (s.chart node).map (·.field "t")

/-- A metrics sample adds nothing to a hardware entry that the entry does not already hold,
its time included; a hardware sample brings every field the node has had before. All clock
readings of one call are equal. -/
def Op.KeepsHardware (s : ClusterState) : Op → Prop
  | .recordNodeSample node sample tr t =>
    tr = t ∧ ∃ hw, s.hardware.get? node = some hw ∧ hw.get? "t" = some (.ofRat tr) ∧
      ∀ f, f ≠ "t" → ∀ v,
        (sample.get? f).or (((s.nodeMetrics.get? node).getD ∅).get? f) = some v →
          hw.get? f = some v
  | .recordHardware node data th tr t =>
    th = tr ∧ tr = t ∧ ∀ f, f ∉ data → f ≠ "t" → f ≠ "node" →
      f ∉ (s.nodeMetrics.get? node).getD ∅ ∧ f ∉ (s.hardware.get? node).getD ∅
  | _ => True

/-! ## Timestamps -/

private theorem ofRat_injective {p q : ℚ} (h : Json.ofRat p = Json.ofRat q) : p = q := by
  simpa [Json.ofRat] using h

private theorem field_t_livePoint (t : Time) (d : Obj) :
    (livePoint t d).field "t" = .ofRat t := by
  simp [livePoint, Obj.field, Dict.get?_ofList, List.lookup_cons]

/-- One sample keeps the timestamps together exactly when both clocks read the same. -/
theorem timestamps_sampled_iff {b : Snapshot} {s : ClusterState} {node : String} {sample : Obj}
    {tr t : Time}
    (h : ∀ n, (b.chart n).map (·.field "t") = (s.chart n).map (·.field "t")) :
    (∀ n, ((b.sampled node (s.mergedSample node sample tr) t).chart n).map (·.field "t") =
      ((s.recordNodeSample node sample tr t).1.chart n).map (·.field "t")) ↔ tr = t := by
  have hnode : ∀ n, ((b.sampled node (s.mergedSample node sample tr) t).chart n).map
        (·.field "t") = ((s.recordNodeSample node sample tr t).1.chart n).map (·.field "t") ↔
      (n = node → Json.ofRat t = Json.ofRat tr) := by
    intro n
    rw [chart_sampled, chart_recordNodeSample]
    by_cases hn : n = node
    · subst hn
      rw [if_pos rfl, if_pos rfl, List.map_append, List.map_append, map_rtake, map_rtake, h n,
        List.append_cancel_left_eq]
      simp [field_t_livePoint, field_t_historyPoint]
    · rw [if_neg hn, if_neg hn]
      simp [h n, hn]
  rw [forall_congr' hnode]
  constructor
  · intro hall
    exact (ofRat_injective (hall node rfl)).symm
  · intro heq n _
    subst heq
    rfl

/-! ## Hardware entries -/

section

variable {b : Snapshot} {s : ClusterState}

private theorem hardware_sampled (b : Snapshot) (node n : String) (merged : Obj) (t : Time) :
    (b.sampled node merged t).hardware.get? n =
      if n = node then
        some ((spreadAt b.hardware node).merge (labelled "node" node merged))
      else b.hardware.get? n := by
  rw [Snapshot.sampled, Dict.get?_insert]

/-- After one delta the browser's entry is `hw` exactly when each field of the merged sample,
or else of the server's old entry, is the field of `hw`. -/
private theorem agree_merge_iff {node : String} {merged hw : Obj}
    (h : Option.Rel (Obj.AgreeExcept "node") (b.hardware.get? node) (s.hardware.get? node)) :
    Obj.AgreeExcept "node" ((spreadAt b.hardware node).merge (labelled "node" node merged)) hw ↔
      ∀ f, f ≠ "node" →
        (merged.get? f).or (((s.hardware.get? node).getD ∅).get? f) = hw.get? f := by
  refine forall_congr' fun f => forall_congr' fun hf => ?_
  rw [Dict.get?_merge, get?_labelled_of_ne hf, spreadAt_agree h f hf]

private theorem agrees_sampled_iff {node : String} {merged : Obj} {t : Time} {hw : Option Obj}
    (h : ∀ n, Option.Rel (Obj.AgreeExcept "node") (b.hardware.get? n) (s.hardware.get? n)) :
    (∀ n, Option.Rel (Obj.AgreeExcept "node") ((b.sampled node merged t).hardware.get? n)
      (if n = node then hw else s.hardware.get? n)) ↔
    ∃ e, hw = some e ∧ ∀ f, f ≠ "node" →
      (merged.get? f).or (((s.hardware.get? node).getD ∅).get? f) = e.get? f := by
  constructor
  · intro hall
    have hnode := hall node
    rw [hardware_sampled, if_pos rfl, if_pos rfl] at hnode
    cases hw with
    | none => cases hnode
    | some e =>
      cases hnode with
      | some hmerge => exact ⟨e, rfl, (agree_merge_iff (h node)).mp hmerge⟩
  · intro hexists n
    obtain ⟨e, rfl, he⟩ := hexists
    rw [hardware_sampled]
    by_cases hn : n = node
    · rw [if_pos hn, if_pos hn]
      exact .some ((agree_merge_iff (h node)).mpr he)
    · rw [if_neg hn, if_neg hn]
      exact h n

/-- A metrics sample leaves the server's entry alone, so it may only repeat it. -/
private theorem hardware_recordNodeSample_iff (hclean : s.CleanMetrics) {node : String}
    {sample : Obj} {tr t : Time} (hsample : "node" ∉ sample)
    (h : ∀ n, Option.Rel (Obj.AgreeExcept "node") (b.hardware.get? n) (s.hardware.get? n)) :
    (∀ n, Option.Rel (Obj.AgreeExcept "node")
      ((b.sampled node (s.mergedSample node sample tr) t).hardware.get? n)
      (s.hardware.get? n)) ↔
    ∃ hw, s.hardware.get? node = some hw ∧ hw.get? "t" = some (.ofRat tr) ∧
      ∀ f, f ≠ "t" → ∀ v,
        (sample.get? f).or (((s.nodeMetrics.get? node).getD ∅).get? f) = some v →
          hw.get? f = some v := by
  have hif : ∀ n, s.hardware.get? n =
      if n = node then s.hardware.get? node else s.hardware.get? n := by
    intro n
    split <;> simp_all
  rw [forall_congr' fun n => by rw [hif n], agrees_sampled_iff h]
  refine exists_congr fun hw => and_congr_right fun hhw => ?_
  rw [hhw, Option.getD_some]
  constructor
  · intro hall
    have hfield : ∀ f, f ≠ "node" → ∀ v, (s.mergedSample node sample tr).get? f = some v →
        hw.get? f = some v := by
      intro f hf v hv
      rw [← hall f hf, hv, Option.some_or]
    refine ⟨hfield "t" (by simp) _ (by rw [get?_mergedSample, if_pos rfl]), fun f ht v hv => ?_⟩
    have hmerged : (s.mergedSample node sample tr).get? f = some v := by
      rw [get?_mergedSample, if_neg ht, hv]
    refine hfield f ?_ v hmerged
    intro hnode
    subst hnode
    exact mergedSample_clean hclean hsample (Dict.mem_def.mpr (by rw [hmerged]; rfl))
  · intro hentry f _
    obtain ⟨ht, hall⟩ := hentry
    cases hv : (s.mergedSample node sample tr).get? f with
    | none => rfl
    | some v =>
      rw [get?_mergedSample] at hv
      split at hv
      · rename_i hf
        rw [hf, ht, Option.some_or]
        exact hv.symm
      · rename_i hf
        exact (hall f hf v hv).symm

/-- A hardware sample replaces the server's entry, so nothing older may survive the merges. -/
private theorem hardware_recordHardware_iff {node : String} {data : Obj} {th tr t : Time}
    (h : ∀ n, Option.Rel (Obj.AgreeExcept "node") (b.hardware.get? n) (s.hardware.get? n)) :
    (∀ n, Option.Rel (Obj.AgreeExcept "node")
      ((b.sampled node (s.mergedSample node data tr) t).hardware.get? n)
      ((s.hardware.insert node (data.insert "t" (.ofRat th))).get? n)) ↔
    th = tr ∧ ∀ f, f ∉ data → f ≠ "t" → f ≠ "node" →
      f ∉ (s.nodeMetrics.get? node).getD ∅ ∧ f ∉ (s.hardware.get? node).getD ∅ := by
  rw [forall_congr' fun n => by rw [Dict.get?_insert], agrees_sampled_iff h]
  simp only [Option.some.injEq, exists_eq_left', Dict.get?_insert, get?_mergedSample]
  constructor
  · intro hall
    refine ⟨?_, fun f hf ht hn => ?_⟩
    · have ht := hall "t" (by simp)
      rw [if_pos rfl, if_pos rfl, Option.some_or, Option.some.injEq] at ht
      exact (ofRat_injective ht).symm
    · have hfield := hall f hn
      rw [if_neg ht, if_neg ht, Dict.get?_eq_none_iff.mpr hf, Option.none_or,
        Option.or_eq_none_iff] at hfield
      exact ⟨Dict.get?_eq_none_iff.mp hfield.1, Dict.get?_eq_none_iff.mp hfield.2⟩
  · intro hkeeps f hn
    obtain ⟨rfl, hall⟩ := hkeeps
    by_cases ht : f = "t"
    · rw [if_pos ht, if_pos ht, Option.some_or]
    · rw [if_neg ht, if_neg ht]
      cases hf : data.get? f with
      | some v => rfl
      | none =>
        obtain ⟨hlast, hold⟩ := hall f (Dict.get?_eq_none_iff.mp hf) ht hn
        rw [Option.none_or, Dict.get?_eq_none_iff.mpr hlast, Option.none_or]
        exact Dict.get?_eq_none_iff.mpr hold

end

/-! ## Runs -/

private theorem agreesOnHardware_iff {b : Snapshot} {s : ClusterState} :
    b.AgreesOnHardware s.snapshot ↔
      (∀ n, Option.Rel (Obj.AgreeExcept "node") (b.hardware.get? n) (s.hardware.get? n)) ∧
      ∀ n, (b.chart n).map (·.field "t") = (s.chart n).map (·.field "t") := by
  constructor
  · intro hag
    obtain ⟨hhw, htimes⟩ := hag
    exact ⟨hhw, fun n => chart_snapshot s n ▸ htimes n⟩
  · intro hag
    obtain ⟨hhw, htimes⟩ := hag
    exact ⟨hhw, fun n => (chart_snapshot s n).symm ▸ htimes n⟩

private theorem agreesOnHardware_snapshot (s : ClusterState) :
    s.snapshot.AgreesOnHardware s.snapshot :=
  ⟨fun _ => option_rel_refl (Obj.AgreeExcept.refl "node") _, fun _ => rfl⟩

/-- One sample: the browser reads its delta, and stays with the server exactly when the
sample keeps the hardware data. -/
private theorem agreesOnHardware_step {snap b : Snapshot} {s : ClusterState}
    (hfollows : Follows snap b s) (h : b.AgreesOnHardware s.snapshot) {op : Op}
    (hk : op.WellKeyed) (hop : op.sampledNode.isSome) (hread : op.ReadsOwnNames snap s) :
    ∃ b', applyDeltas b (s.exec op).2 = some b' ∧
      (b'.AgreesOnHardware (s.step op).snapshot ↔ op.KeepsHardware s) := by
  obtain ⟨hhw, htimes⟩ := agreesOnHardware_iff.mp h
  cases op with
  | recordNodeSample node sample tr t =>
    have hown := (readsOwn_iff hfollows.inherited node).mpr hread
    refine ⟨_, applyDeltas_recordNodeSample hfollows.clean hk hown, ?_⟩
    rw [agreesOnHardware_iff, and_comm]
    exact and_congr (timestamps_sampled_iff htimes)
      (hardware_recordNodeSample_iff hfollows.clean hk hhw)
  | recordHardware node data th tr t =>
    have hown := (readsOwn_iff hfollows.inherited node).mpr hread
    refine ⟨_, applyDeltas_recordNodeSample hfollows.clean hk hown, ?_⟩
    rw [agreesOnHardware_iff, Op.KeepsHardware, and_left_comm, and_comm]
    exact and_congr (timestamps_sampled_iff htimes) (hardware_recordHardware_iff hhw)
  | _ => simp [Op.sampledNode] at hop

private structure FollowsHardware (snap b : Snapshot) (s : ClusterState) : Prop
  extends Follows snap b s where
  agrees : b.AgreesOnHardware s.snapshot

/-- Over node samples alone, a browser connected since `s` and a freshly connected one hold
the same hardware maps and timestamps at every moment, exactly when every sample keeps them. -/
theorem agreesOnHardware_run_iff (s : ClusterState) (hs : s.Reachable) (ops : List Op)
    (hops : ∀ op ∈ ops, op.WellKeyed ∧ op.sampledNode.isSome) :
    (∀ done, done <+: ops → ∃ b, applyDeltas s.snapshot (s.published done) = some b ∧
      b.AgreesOnHardware (runFrom step s done).snapshot) ↔
    AlongRun step (fun s' op => op.ReadsOwnNames s.snapshot s' ∧ op.KeepsHardware s') s ops := by
  refine receive_agrees_iff (W := fun op => op.WellKeyed ∧ op.sampledNode.isSome)
    (fun b s' (h : FollowsHardware s.snapshot b s') => h.agrees) ?_ ?_
    ⟨follows_snapshot hs, agreesOnHardware_snapshot s⟩ hops
  · intro b s' op hinv hop hcond
    obtain ⟨hfollows, hag⟩ := hinv
    obtain ⟨hk, hop⟩ := hop
    obtain ⟨hread, hkeep⟩ := hcond
    obtain ⟨b', hrun, hiff⟩ := agreesOnHardware_step hfollows hag hk hop hread
    obtain ⟨b'', hrun', hfollows'⟩ := follows_step hfollows hk hread
    obtain rfl : b' = b'' := Option.some.inj (hrun.symm.trans hrun')
    exact ⟨b', hrun, hfollows', hiff.mpr hkeep⟩
  · intro b s' op hinv hop hcond b' hrun hag'
    obtain ⟨hfollows, hag⟩ := hinv
    obtain ⟨hk, hop⟩ := hop
    by_cases hread : op.ReadsOwnNames s.snapshot s'
    · obtain ⟨b'', hrun', hiff⟩ := agreesOnHardware_step hfollows hag hk hop hread
      obtain rfl : b' = b'' := Option.some.inj (hrun.symm.trans hrun')
      exact hcond ⟨hread, hiff.mp hag'⟩
    · have hthrows := throws_step hfollows hk hread
      rw [applyDeltas, hrun] at hthrows
      cases hthrows

theorem agreesOnHardware_run_two :
    ∃ b, applyDeltas (ClusterState.init 0).snapshot ((ClusterState.init 0).published
        [.recordHardware "rpi-1" (Dict.ofList [("nvme_percent_used", .ofRat 3)]) 1 1 1,
          .recordHardware "rpi-1" (Dict.ofList [("nvme_percent_used", .ofRat 4)]) 2 2 2]) =
        some b ∧
      b.AgreesOnHardware (runFrom step (ClusterState.init 0)
        [.recordHardware "rpi-1" (Dict.ofList [("nvme_percent_used", .ofRat 3)]) 1 1 1,
          .recordHardware "rpi-1" (Dict.ofList [("nvme_percent_used", .ofRat 4)]) 2 2
            2]).snapshot :=
  (agreesOnHardware_run_iff (ClusterState.init 0) ⟨0, ∅, [], by simp, rfl⟩ _
    (by simp [Op.WellKeyed, Op.sampledNode, Dict.mem_ofList])).mpr (by
      simp +contextual [Op.ReadsOwnNames, ReadsOwn, objectPrototype, Op.KeepsHardware, step, exec,
        recordHardware, recordNodeSample, mergedSample, ClusterState.init, Dict.get?_insert,
        Dict.mem_insert, Dict.mem_merge, Dict.mem_ofList]) _ List.prefix_rfl

private theorem bind_get?_eq {o o' : Option Obj} {f g : String}
    (h : Option.Rel (Obj.AgreeExcept f) o o') (hg : g ≠ f) :
    (o.bind fun d => d.get? g) = o'.bind fun d => d.get? g := by
  cases h with
  | none => rfl
  | some hag => exact hag g hg

/-- A pulled drive: the later sample lacks the SMART fields, the connected browser keeps them. -/
theorem agreesOnHardware_disagrees :
    ¬ ∀ s : ClusterState, s.Reachable → ∀ ops : List Op,
      (∀ op ∈ ops, op.WellKeyed ∧ op.sampledNode.isSome) →
        ∀ done, done <+: ops → ∃ b, applyDeltas s.snapshot (s.published done) = some b ∧
          b.AgreesOnHardware (runFrom step s done).snapshot := by
  intro h
  obtain ⟨b, hb, hag⟩ := h (ClusterState.init 0) ⟨0, ∅, [], by simp, rfl⟩
    [.recordHardware "rpi-1" (Dict.ofList [("nvme_percent_used", .ofRat 3)]) 1 1 1,
      .recordHardware "rpi-1" ∅ 2 2 2]
    (by simp [Op.WellKeyed, Op.sampledNode, Dict.mem_ofList]) _ List.prefix_rfl
  have hbrowser : (applyDeltas (ClusterState.init 0).snapshot ((ClusterState.init 0).published
      [.recordHardware "rpi-1" (Dict.ofList [("nvme_percent_used", .ofRat 3)]) 1 1 1,
        .recordHardware "rpi-1" ∅ 2 2 2])).bind (fun b => (b.hardware.get? "rpi-1").bind
          fun d => d.get? "nvme_percent_used") = some (.ofRat 3) := by decide +kernel
  have hserver : ((runFrom step (ClusterState.init 0)
      [.recordHardware "rpi-1" (Dict.ofList [("nvme_percent_used", .ofRat 3)]) 1 1 1,
        .recordHardware "rpi-1" ∅ 2 2 2]).snapshot.hardware.get? "rpi-1").bind
          (fun d => d.get? "nvme_percent_used") = none := by decide +kernel
  rw [hb, Option.bind_some, bind_get?_eq (hag.hardware "rpi-1") (by simp), hserver] at hbrowser
  cases hbrowser

end PiWatch
