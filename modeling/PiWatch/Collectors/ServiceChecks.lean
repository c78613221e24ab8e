import PiWatch.Framework.Separator
import PiWatch.Backend.Numerals
import PiWatch.Collectors.RouteChecks

/-!
# The checks of Services

The state holds the load balanced Services under their keys, so the name of a check tells the
Service and the port number it is for.
-/

namespace PiWatch

open ClusterState

namespace Autochecks

/-! ## The Services in the state -/

/-- A change of the state. What happens to the Services is up to their watch loop. -/
inductive Change
  | service (ev : EvType) (raw : V1Service) (t : Time)
  | other (op : Op) (h : op.kind ≠ some .services)

def Change.step (s : ClusterState) : Change → ClusterState
  | service ev raw t => (K8sWatch.apply s .services ev (mapService raw) t).1
  | other op _ => s.step op

/-- Every Service is a mapped one of the right type, and stored under its key. -/
def ServicesMapped (s : ClusterState) : Prop :=
  ∀ key svc, s.services.get? key = some svc →
    svc.type = some "LoadBalancer" ∧ key = svc.key ∧ ∃ raw : V1Service, svc = mapService raw

theorem ServicesMapped.step {s : ClusterState} (h : ServicesMapped s) (c : Change) :
    ServicesMapped (c.step s) := by
  cases c with
  | other op hkind =>
    have hsame : (s.step op).services = s.services := collection_step_of_kind_ne hkind
    intro key svc hsvc
    rw [Change.step, hsame] at hsvc
    exact h key svc hsvc
  | service ev raw t =>
    have hservices : (Change.step s (.service ev raw t)).services = _ :=
      K8sWatch.collection_apply s .services ev (mapService raw) t
    intro key svc hsvc
    rw [hservices] at hsvc
    split_ifs at hsvc with hgone
    · rw [Dict.get?_erase] at hsvc
      split_ifs at hsvc
      exact h key svc hsvc
    · rw [Dict.get?_insert] at hsvc
      split_ifs at hsvc with hkey
      · obtain rfl := Option.some.inj hsvc
        rw [not_or, not_not] at hgone
        exact ⟨of_decide_eq_true hgone.2, hkey, raw, rfl⟩
      · exact h key svc hsvc

theorem servicesMapped_run (t : Time) (changes : List Change) :
    ServicesMapped (runFrom Change.step (ClusterState.init t) changes) := by
  refine runFrom_invariant (fun s c h => h.step c) ?_ changes
  intro key svc hsvc
  cases hsvc

/-! ## Their checks -/

/-- The port of a Service that is probed, and where. -/
def Probed (s : ClusterState) (key clusterIp : String) (port : ℕ) : Prop :=
  ∃ svc, s.services.get? key = some svc ∧ svc.type = some "LoadBalancer" ∧
    svc.clusterIp = some clusterIp ∧ clusterIp ≠ "" ∧ port ≠ 0 ∧ ∃ p ∈ svc.ports, p.port = port

/-- `f"{namespace}/{name}:{port}"`. -/
def checkName (key : String) (port : ℕ) : String := key ++ ":" ++ toString port

theorem checkName_inj {key key' : String} {port port' : ℕ}
    (h : checkName key port = checkName key' port') : key = key' ∧ port = port' := by
  have hdigits : ∀ n : ℕ, ':' ∉ (toString n).toList := by
    intro n hmem
    have hdigit := PyText.isDigit_toDigits n ':' (by simpa using hmem)
    revert hdigit
    decide
  have hchars : key.toList ++ ':' :: (toString port).toList =
      key'.toList ++ ':' :: (toString port').toList := by
    simpa [checkName, String.toList_append] using congrArg String.toList h
  obtain ⟨hkey, hport⟩ := append_sep_inj (hdigits port) (hdigits port') hchars
  have hvalue : PyText.pyInt (toString (port : ℤ)) = PyText.pyInt (toString (port' : ℤ)) :=
    congrArg PyText.pyInt (String.toList_inj.mp hport)
  rw [PyText.pyInt_toString, PyText.pyInt_toString, Option.some.injEq, Nat.cast_inj] at hvalue
  exact ⟨String.toList_inj.mp hkey, hvalue⟩

theorem slash_mem_checkName {svc : ServiceInfo} {raw : V1Service} (h : svc = mapService raw)
    (port : ℕ) : '/' ∈ (checkName svc.key port).toList := by
  subst h
  simp [checkName, mapService, ObjectMeta.key, String.toList_append, toString]

theorem mem_checksOfService_iff {svc : ServiceInfo} {raw : V1Service} (h : svc = mapService raw)
    {name : String} {check : Check} :
    (name, check) ∈ checksOfService svc ↔ ∃ clusterIp port, svc.clusterIp = some clusterIp ∧
      clusterIp ≠ "" ∧ port ≠ 0 ∧ (∃ p ∈ svc.ports, p.port = port) ∧
      name = checkName svc.key port ∧ check = .service clusterIp port svc.key := by
  have hkey : svc.ns ++ "/" ++ svc.name = svc.key := by
    subst h
    simp [mapService, ObjectMeta.key, toString]
  unfold checksOfService
  rw [hkey]
  split
  · rename_i hip
    simp [hip]
  · rename_i hip
    simp [hip]
  · rename_i clusterIp hne hip
    rw [List.mem_filterMap]
    constructor
    · intro hmem
      obtain ⟨p, hp, hcheck⟩ := hmem
      split_ifs at hcheck with hport
      obtain ⟨rfl, rfl⟩ := Prod.mk.inj (Option.some.inj hcheck)
      exact ⟨clusterIp, p.port, hip, hne, hport, ⟨p, hp, rfl⟩, rfl, rfl⟩
    · intro hprobed
      obtain ⟨clusterIp', port, hip', -, hport, ⟨p, hp, rfl⟩, rfl, rfl⟩ := hprobed
      obtain rfl := Option.some.inj (hip.symm.trans hip')
      exact ⟨p, hp, by rw [if_neg hport, checkName]⟩

/-- The Services of the state are probed on their ports, each under a name of its own. -/
theorem get?_serviceChecks {s : ClusterState} (h : ServicesMapped s) {name : String}
    {check : Check} :
    (serviceChecks s).get? name = some check ↔ ∃ key clusterIp port,
      Probed s key clusterIp port ∧ name = checkName key port ∧
        check = .service clusterIp port key := by
  have hmem : ∀ check, (name, check) ∈ s.services.values.flatMap checksOfService ↔
      ∃ key clusterIp port, Probed s key clusterIp port ∧ name = checkName key port ∧
        check = .service clusterIp port key := by
    intro check
    rw [List.mem_flatMap]
    constructor
    · intro hcheck
      obtain ⟨svc, hsvc, hcheck⟩ := hcheck
      obtain ⟨key, hkey⟩ := Dict.mem_values_iff.mp hsvc
      obtain ⟨htype, rfl, raw, hraw⟩ := h key svc hkey
      obtain ⟨clusterIp, port, hip, hne, hport, hp, hname, hcheck⟩ :=
        (mem_checksOfService_iff hraw).mp hcheck
      exact ⟨svc.key, clusterIp, port, ⟨svc, hkey, htype, hip, hne, hport, hp⟩, hname, hcheck⟩
    · intro hprobed
      obtain ⟨key, clusterIp, port, ⟨svc, hkey, -, hip, hne, hport, hp⟩, hname, hcheck⟩ := hprobed
      obtain ⟨-, rfl, raw, hraw⟩ := h key svc hkey
      exact ⟨svc, Dict.mem_values_iff.mpr ⟨_, hkey⟩,
        (mem_checksOfService_iff hraw).mpr ⟨clusterIp, port, hip, hne, hport, hp, hname, hcheck⟩⟩
  constructor
  · intro hcheck
    exact (hmem check).mp (Dict.mem_of_get?_ofList hcheck)
  · intro hprobed
    obtain ⟨check', hcheck'⟩ := Option.isSome_iff_exists.mp (Dict.mem_ofList.mpr
      (List.mem_map.mpr ⟨_, (hmem check).mpr hprobed, rfl⟩))
    obtain ⟨key', clusterIp', port', ⟨svc', hkey', -, hip', -⟩, hname', rfl⟩ :=
      (hmem check').mp (Dict.mem_of_get?_ofList hcheck')
    obtain ⟨key, clusterIp, port, ⟨svc, hkey, -, hip, -⟩, hname, rfl⟩ := hprobed
    obtain ⟨rfl, rfl⟩ := checkName_inj (hname.symm.trans hname')
    obtain rfl := Option.some.inj (hkey.symm.trans hkey')
    obtain rfl := Option.some.inj (hip.symm.trans hip')
    exact hcheck'

/-- Which checks there are. -/
structure ChecksExact (s : ClusterState) : Prop where
  /-- A route's check is the one of the last attachment that leads to a listener. -/
  route : ∀ hostname check, (routeChecks s).get? hostname = some check ↔
    ∃ before a after, attachments s = before ++ a :: after ∧ Adds s a hostname check ∧
      ∀ b ∈ after, ∀ other, ¬ Adds s b hostname other
  route_mem : ∀ hostname, hostname ∈ routeChecks s ↔
    ∃ a ∈ attachments s, ∃ gateway svc clusterIp listener port,
      Reaches s a hostname gateway svc clusterIp ∧ Listens gateway hostname listener port
  listener : ∀ gateway hostname listener, findListener gateway hostname = some listener →
    listener ∈ gateway.listeners ∧ servesHttp listener ∧
      (listener.hostname = some hostname ∨ CatchAll listener)
  preferred : ∀ gateway hostname listener, findListener gateway hostname = some listener →
    ∀ other ∈ gateway.listeners, servesHttp other → other.hostname = some hostname →
      listener.hostname = some hostname
  service : ∀ name check, (serviceChecks s).get? name = some check ↔
    ∃ key clusterIp port, Probed s key clusterIp port ∧ name = checkName key port ∧
      check = .service clusterIp port key
  service_unique : ∀ key clusterIp port, Probed s key clusterIp port →
    ∃! name, (serviceChecks s).get? name = some (.service clusterIp port key)
  /-- Without slashes in the hostnames, merging loses neither kind. -/
  merged : (∀ a ∈ attachments s, ∀ hostname ∈ a.route.hostnames, '/' ∉ hostname.toList) →
    ∀ name check, (desired s).get? name = some check ↔
      (routeChecks s).get? name = some check ∨ (serviceChecks s).get? name = some check

/-- The checks of every reachable state. -/
theorem checks_exact (t : Time) (changes : List Change) :
    ChecksExact (runFrom Change.step (ClusterState.init t) changes) := by
  have hmapped := servicesMapped_run t changes
  generalize runFrom Change.step (ClusterState.init t) changes = s at hmapped
  refine ⟨fun _ _ => get?_routeChecks, ?_, fun _ _ _ => serves_of_findListener, ?_,
    fun _ _ => get?_serviceChecks hmapped, ?_, ?_⟩
  · intro hostname
    rw [mem_routeChecks]
    constructor
    · rintro ⟨a, ha, -, gateway, svc, clusterIp, listener, port, hreaches, hlistens, -⟩
      exact ⟨a, ha, gateway, svc, clusterIp, listener, port, hreaches, hlistens⟩
    · rintro ⟨a, ha, gateway, svc, clusterIp, listener, port, hreaches, hlistens⟩
      exact ⟨a, ha, _, gateway, svc, clusterIp, listener, port, hreaches, hlistens, rfl⟩
  · intro gateway hostname listener hfound other hother hserves hhostname
    exact hostname_of_findListener hfound hother hserves hhostname
  · intro key clusterIp port hprobed
    refine ⟨checkName key port,
      (get?_serviceChecks hmapped).mpr ⟨key, clusterIp, port, hprobed, rfl, rfl⟩, ?_⟩
    intro name hname
    obtain ⟨key', clusterIp', port', -, rfl, hcheck⟩ := (get?_serviceChecks hmapped).mp hname
    obtain ⟨-, rfl, rfl⟩ := Check.service.inj hcheck
    rfl
  · intro hslash name check
    rw [desired, Dict.get?_merge, Option.or_eq_some_iff, or_comm]
    refine or_congr_left (and_iff_right_of_imp fun hroute => ?_)
    rw [Option.eq_none_iff_forall_ne_some]
    intro check' hservice
    obtain ⟨key, clusterIp, port, ⟨svc, hkey, -⟩, rfl, -⟩ :=
      (get?_serviceChecks hmapped).mp hservice
    obtain ⟨-, rfl, raw, hraw⟩ := hmapped key svc hkey
    obtain ⟨a, ha, -, gateway, svc', clusterIp', listener, port', hreaches, -⟩ :=
      mem_routeChecks.mp (Option.isSome_iff_exists.mpr ⟨check, hroute⟩)
    exact hslash a ha _ hreaches.listed (slash_mem_checkName hraw port)

end Autochecks

end PiWatch
