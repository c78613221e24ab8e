import PiWatch.Backend.Dumps
import PiWatch.Backend.State

/-!
# What is sent of the state

The dictionaries the mappers build, the messages `publish` puts into the queues and the
snapshot, field by field as JSON values.
-/

namespace PiWatch

namespace Json

def ofNat (n : ℕ) : Json := .num (.finite n)

def optional {α : Type} (f : α → Json) : Option α → Json
  | none => .null
  | some a => f a

def text? : Option String → Json := optional .str

def texts (ss : List String) : Json := .arr (ss.map .str)

def ofDict {α : Type} (f : α → Json) (d : Dict String α) : Json :=
  .obj (d.entries.map fun e => (e.1, f e.2))

def ofObj (d : Obj) : Json := .obj d.entries

end Json

open Json

/-! ## Watched objects -/

def NodeTaint.toJson (t : NodeTaint) : Json :=
  .obj [("key", .str t.key), ("value", text? t.value), ("effect", .str t.effect)]

def NodeInfo.toJson (d : NodeInfo) : Json :=
  .obj [("name", .str d.name), ("ready", .bool d.ready), ("conditions", ofDict .str d.conditions),
    ("roles", texts d.roles), ("arch", text? d.arch), ("kubelet", text? d.kubelet),
    ("os_image", text? d.osImage), ("internal_ip", text? d.internalIp),
    ("cpu_capacity", text? d.cpuCapacity), ("mem_capacity", text? d.memCapacity),
    ("unschedulable", .bool d.unschedulable), ("taints", .arr (d.taints.map NodeTaint.toJson)),
    ("created", optional ofRat d.created)]

def PodInfo.toJson (d : PodInfo) : Json :=
  .obj [("key", .str d.key), ("name", .str d.name), ("namespace", .str d.ns),
    ("node", text? d.node), ("phase", text? d.phase), ("reason", text? d.reason),
    ("ready", .str d.ready), ("restarts", ofNat d.restarts), ("containers", texts d.containers),
    ("images", .arr (d.images.map text?)), ("oom_killed", .bool d.oomKilled),
    ("last_exit_reason", text? d.lastExitReason),
    ("last_exit_code", optional (fun z : ℤ => ofRat z) d.lastExitCode),
    ("init_progress", text? d.initProgress), ("init_reason", text? d.initReason),
    ("created", optional ofRat d.created)]

def DeploymentInfo.toJson (d : DeploymentInfo) : Json :=
  .obj [("key", .str d.key), ("name", .str d.name), ("namespace", .str d.ns),
    ("replicas", ofNat d.replicas), ("ready", ofNat d.ready), ("available", ofNat d.available),
    ("updated", ofNat d.updated), ("images", .arr (d.images.map text?))]

def StatefulSetInfo.toJson (d : StatefulSetInfo) : Json :=
  .obj [("key", .str d.key), ("name", .str d.name), ("namespace", .str d.ns),
    ("replicas", ofNat d.replicas), ("ready", ofNat d.ready), ("updated", ofNat d.updated),
    ("images", .arr (d.images.map text?))]

def DaemonSetInfo.toJson (d : DaemonSetInfo) : Json :=
  .obj [("key", .str d.key), ("name", .str d.name), ("namespace", .str d.ns),
    ("desired", ofNat d.desired), ("ready", ofNat d.ready), ("updated", ofNat d.updated),
    ("images", .arr (d.images.map text?))]

def ServicePort.toJson (p : ServicePort) : Json :=
  .obj [("port", ofNat p.port), ("protocol", text? p.protocol), ("name", text? p.name)]

def ServiceInfo.toJson (d : ServiceInfo) : Json :=
  .obj [("key", .str d.key), ("name", .str d.name), ("namespace", .str d.ns),
    ("type", text? d.type), ("cluster_ip", text? d.clusterIp),
    ("external_ips", texts d.externalIps), ("ports", .arr (d.ports.map ServicePort.toJson))]

/-- `field` is `target_pct` or `current_pct`. -/
def HpaMetric.toJson (field : String) (m : HpaMetric) : Json :=
  .obj [("name", .str m.name), (field, optional ofNat m.pct)]

def HpaInfo.toJson (d : HpaInfo) : Json :=
  .obj [("key", .str d.key), ("name", .str d.name), ("namespace", .str d.ns),
    ("target_kind", text? d.targetKind), ("target_name", text? d.targetName),
    ("min_replicas", optional ofNat d.minReplicas), ("max_replicas", optional ofNat d.maxReplicas),
    ("current_replicas", ofNat d.currentReplicas), ("desired_replicas", ofNat d.desiredReplicas),
    ("metrics", .arr (d.metrics.map (HpaMetric.toJson "target_pct"))),
    ("current_metrics", .arr (d.currentMetrics.map (HpaMetric.toJson "current_pct"))),
    ("able_to_scale", text? d.ableToScale), ("scaling_active", text? d.scalingActive),
    ("scaling_limited", text? d.scalingLimited)]

def NetworkPolicyInfo.toJson (d : NetworkPolicyInfo) : Json :=
  .obj [("key", .str d.key), ("name", .str d.name), ("namespace", .str d.ns),
    ("pod_selector", .str d.podSelector), ("policy_types", texts d.policyTypes),
    ("ingress_rules", ofNat d.ingressRules), ("egress_rules", ofNat d.egressRules)]

def SecretInfo.toJson (d : SecretInfo) : Json :=
  .obj [("key", .str d.key), ("name", .str d.name), ("namespace", .str d.ns),
    ("type", text? d.type), ("key_count", ofNat d.keyCount), ("immutable", .bool d.isImmutable),
    ("created", optional ofRat d.created)]

def ConfigMapInfo.toJson (d : ConfigMapInfo) : Json :=
  .obj [("key", .str d.key), ("name", .str d.name), ("namespace", .str d.ns),
    ("key_count", ofNat d.keyCount), ("immutable", .bool d.isImmutable),
    ("created", optional ofRat d.created)]

def OrphanedPvInfo.toJson (d : OrphanedPvInfo) : Json :=
  .obj [("key", .str d.key), ("name", .str d.name), ("phase", text? d.phase),
    ("capacity", text? d.capacity), ("storage_class", text? d.storageClass),
    ("reclaim_policy", text? d.reclaimPolicy), ("claim_namespace", text? d.claimNamespace),
    ("claim_name", text? d.claimName)]

def EventInfo.toJson (d : EventInfo) : Json :=
  .obj [("uid", .str d.uid), ("type", text? d.type), ("reason", text? d.reason),
    ("message", text? d.message), ("object", .str d.object), ("namespace", text? d.ns),
    ("count", ofNat d.count), ("t", optional ofRat d.t)]

/-! ## Polled objects -/

def FluxKustomization.toJson (d : FluxKustomization) : Json :=
  .obj [("key", .str d.key), ("name", .str d.name), ("namespace", .str d.ns),
    ("ready", .bool d.ready), ("reason", text? d.reason), ("message", text? d.message),
    ("last_applied_revision", text? d.lastAppliedRevision),
    ("last_transition_time", text? d.lastTransitionTime),
    ("next_reconcile_t", optional .num d.nextReconcileT),
    ("managed_resource_count", ofNat d.managedResourceCount),
    ("apply_pending", .bool d.applyPending), ("source_kind", text? d.sourceKind),
    ("source_name", text? d.sourceName), ("source_namespace", text? d.sourceNamespace)]

def FluxGitRepository.toJson (d : FluxGitRepository) : Json :=
  .obj [("key", .str d.key), ("name", .str d.name), ("namespace", .str d.ns),
    ("ready", .bool d.ready), ("reason", text? d.reason), ("message", text? d.message),
    ("url", text? d.url), ("ref", text? d.ref), ("revision", text? d.revision),
    ("last_update_time", text? d.lastUpdateTime)]

def FluxImagePolicy.toJson (d : FluxImagePolicy) : Json :=
  .obj [("key", .str d.key), ("name", .str d.name), ("namespace", .str d.ns),
    ("ready", .bool d.ready), ("image", text? d.image), ("latest_tag", text? d.latestTag),
    ("previous_tag", text? d.previousTag), ("tag_count", optional ofNat d.tagCount),
    ("last_scan_time", text? d.lastScanTime)]

def FluxImageAutomation.toJson (d : FluxImageAutomation) : Json :=
  .obj [("key", .str d.key), ("name", .str d.name), ("namespace", .str d.ns),
    ("ready", .bool d.ready), ("reason", text? d.reason), ("message", text? d.message),
    ("last_automation_run_time", text? d.lastAutomationRunTime),
    ("last_push_commit", text? d.lastPushCommit), ("last_push_time", text? d.lastPushTime)]

def PvcInfo.toJson (d : PvcInfo) : Json :=
  .obj [("key", .str d.key), ("name", .str d.name), ("namespace", .str d.ns),
    ("phase", text? d.phase), ("storage_class", text? d.storageClass),
    ("access_modes", texts d.accessModes), ("volume_name", text? d.volumeName),
    ("requested_bytes", optional .num d.requestedBytes),
    ("capacity_bytes", optional .num d.capacityBytes),
    ("usage_bytes", optional .num d.usageBytes), ("usage_pct", optional .num d.usagePct)]

def Listener.toJson (l : Listener) : Json :=
  .obj [("name", text? l.name), ("hostname", text? l.hostname), ("port", optional ofNat l.port),
    ("protocol", text? l.protocol)]

def GatewayInfo.toJson (d : GatewayInfo) : Json :=
  .obj [("key", .str d.key), ("name", .str d.name), ("namespace", .str d.ns),
    ("gateway_class_name", text? d.gatewayClassName), ("ready", .bool d.ready),
    ("reason", text? d.reason), ("message", text? d.message), ("addresses", texts d.addresses),
    ("listener_count", ofNat d.listenerCount), ("listeners_ready", ofNat d.listenersReady),
    ("attached_routes", ofNat d.attachedRoutes),
    ("listeners", .arr (d.listeners.map Listener.toJson))]

def HttpRouteInfo.toJson (d : HttpRouteInfo) : Json :=
  .obj [("key", .str d.key), ("name", .str d.name), ("namespace", .str d.ns),
    ("hostnames", texts d.hostnames), ("parent_names", texts d.parentNames),
    ("parent_namespaces", texts d.parentNamespaces), ("backend_names", texts d.backendNames),
    ("accepted", .bool d.accepted), ("resolved_refs", .bool d.resolvedRefs),
    ("reason", text? d.reason), ("message", text? d.message)]

def RateLimitPolicyInfo.toJson (d : RateLimitPolicyInfo) : Json :=
  .obj [("key", .str d.key), ("name", .str d.name), ("namespace", .str d.ns),
    ("targets", texts d.targets), ("rules", texts d.rules),
    ("reject_code", optional ofNat d.rejectCode), ("accepted", .bool d.accepted),
    ("reason", text? d.reason), ("message", text? d.message)]

/-! ## Healthchecks -/

def CheckResult.toJson (r : CheckResult) : Json :=
  .obj [("t", ofRat r.t), ("ok", .bool r.ok), ("ms", optional ofRat r.ms),
    ("detail", .str r.detail)]

def SnapshotCheck.toJson (e : SnapshotCheck) : Json :=
  .obj [("config", ofObj e.config), ("last", optional CheckResult.toJson e.last),
    ("uptime_pct", optional ofRat e.uptimePct),
    ("history", .arr (e.history.map CheckResult.toJson))]

/-- Without a value a field is left out. -/
def CheckData.toJson (d : CheckData) : Json :=
  .obj ([("name", .str d.name)] ++ (d.config.map fun c => ("config", ofObj c)).toList ++
    (d.t.map fun t => ("t", ofRat t)).toList ++
    [("ok", .bool d.ok), ("ms", optional ofRat d.ms), ("detail", .str d.detail)] ++
    (d.uptimePct.map fun u => ("uptime_pct", ofRat u)).toList)

/-! ## Messages -/

/-- The type of a message, and its data. -/
def Body.typeAndData : Body → String × Json
  | .node d => ("node", d.toJson)
  | .nodeDeleted name => ("node_deleted", .obj [("name", .str name)])
  | .pod d => ("pod", d.toJson)
  | .podDeleted key => ("pod_deleted", .obj [("key", .str key)])
  | .deployment d => ("deployment", d.toJson)
  | .deploymentDeleted key => ("deployment_deleted", .obj [("key", .str key)])
  | .statefulset d => ("statefulset", d.toJson)
  | .statefulsetDeleted key => ("statefulset_deleted", .obj [("key", .str key)])
  | .daemonset d => ("daemonset", d.toJson)
  | .daemonsetDeleted key => ("daemonset_deleted", .obj [("key", .str key)])
  | .service d => ("service", d.toJson)
  | .serviceDeleted key => ("service_deleted", .obj [("key", .str key)])
  | .hpa d => ("hpa", d.toJson)
  | .hpaDeleted key => ("hpa_deleted", .obj [("key", .str key)])
  | .networkPolicy d => ("network_policy", d.toJson)
  | .networkPolicyDeleted key => ("network_policy_deleted", .obj [("key", .str key)])
  | .secret d => ("secret", d.toJson)
  | .secretDeleted key => ("secret_deleted", .obj [("key", .str key)])
  | .configmap d => ("configmap", d.toJson)
  | .configmapDeleted key => ("configmap_deleted", .obj [("key", .str key)])
  | .orphanedPv d => ("orphaned_pv", d.toJson)
  | .orphanedPvDeleted key => ("orphaned_pv_deleted", .obj [("key", .str key)])
  | .event d => ("event", d.toJson)
  | .nodeMetrics d => ("node_metrics", ofObj d)
  | .podMetrics d => ("pod_metrics", ofObj d)
  | .fluxKustomizations d => ("flux_kustomizations", ofDict FluxKustomization.toJson d)
  | .fluxGitRepositories d => ("flux_git_repositories", ofDict FluxGitRepository.toJson d)
  | .fluxImagePolicies d => ("flux_image_policies", ofDict FluxImagePolicy.toJson d)
  | .fluxImageAutomations d => ("flux_image_automations", ofDict FluxImageAutomation.toJson d)
  | .pvcs d => ("pvcs", ofDict PvcInfo.toJson d)
  | .gateways d => ("gateways", ofDict GatewayInfo.toJson d)
  | .httpRoutes d => ("http_routes", ofDict HttpRouteInfo.toJson d)
  | .rateLimitPolicies d => ("rate_limit_policies", ofDict RateLimitPolicyInfo.toJson d)
  | .healthcheck d => ("healthcheck", d.toJson)
  | .healthcheckDeleted name => ("healthcheck_deleted", .obj [("name", .str name)])

def Msg.toJson (m : Msg) : Json :=
  .obj [("type", .str m.body.typeAndData.1), ("t", ofRat m.t), ("data", m.body.typeAndData.2)]

/-- `snapshot()`. -/
def Snapshot.toJson (s : Snapshot) : Json :=
  .obj [("demo_mode", .bool s.demoMode), ("started_at", ofRat s.startedAt),
    ("nodes", ofDict NodeInfo.toJson s.nodes), ("pods", ofDict PodInfo.toJson s.pods),
    ("deployments", ofDict DeploymentInfo.toJson s.deployments),
    ("statefulsets", ofDict StatefulSetInfo.toJson s.statefulsets),
    ("daemonsets", ofDict DaemonSetInfo.toJson s.daemonsets),
    ("services", ofDict ServiceInfo.toJson s.services), ("hpas", ofDict HpaInfo.toJson s.hpas),
    ("network_policies", ofDict NetworkPolicyInfo.toJson s.networkPolicies),
    ("secrets", ofDict SecretInfo.toJson s.secrets),
    ("configmaps", ofDict ConfigMapInfo.toJson s.configmaps),
    ("orphaned_pvs", ofDict OrphanedPvInfo.toJson s.orphanedPvs),
    ("events", .arr (s.events.map EventInfo.toJson)),
    ("node_metrics", ofDict ofObj s.nodeMetrics), ("hardware", ofDict ofObj s.hardware),
    ("pod_metrics", ofDict ofObj s.podMetrics),
    ("flux_kustomizations", ofDict FluxKustomization.toJson s.fluxKustomizations),
    ("flux_git_repositories", ofDict FluxGitRepository.toJson s.fluxGitRepositories),
    ("flux_image_policies", ofDict FluxImagePolicy.toJson s.fluxImagePolicies),
    ("flux_image_automations", ofDict FluxImageAutomation.toJson s.fluxImageAutomations),
    ("pvcs", ofDict PvcInfo.toJson s.pvcs), ("gateways", ofDict GatewayInfo.toJson s.gateways),
    ("http_routes", ofDict HttpRouteInfo.toJson s.httpRoutes),
    ("rate_limit_policies", ofDict RateLimitPolicyInfo.toJson s.rateLimitPolicies),
    ("node_history", ofDict (fun points => .arr (points.map ofObj)) s.nodeHistory),
    ("healthchecks", ofDict SnapshotCheck.toJson s.healthchecks)]

end PiWatch
