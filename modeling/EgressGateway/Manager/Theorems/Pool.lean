import EgressGateway.Manager.LoadBalancer
import EgressGateway.Manager.Theorems.Platform

open Kubernetes Azure Text Program

namespace Manager

variable [CaseFold] (S : Settings)

-- The scale set that is named by the profile of a specification.
def namedVMSS (c : Cloud) (spec : GatewaySpec) : Option VirtualMachineScaleSet :=
  if spec.gatewayVmssProfile.vmssName = "" then none
  else
    c.findVMSS (S.az.orDefault spec.gatewayVmssProfile.vmssResourceGroup)
      spec.gatewayVmssProfile.vmssName

-- The pool that a specification denotes in the inventory of the subscription.
def resolvePool (c : Cloud) (spec : GatewaySpec) : Option GatewayPool :=
  if spec.gatewayNodepoolName ≠ "" then
    match (c.listVMSS S.az.resourceGroup).find? (taggedWith ·.tags spec.gatewayNodepoolName) with
    | some vmss => some (.vmss vmss)
    | none      =>
      if (c.listVMs S.az.resourceGroup).any (taggedWith ·.tags spec.gatewayNodepoolName) then
        some (.vms spec.gatewayNodepoolName)
      else none
  else
    (namedVMSS S c spec).map .vmss

-- The pool that the other controller takes the same specification for, with the length of its prefix.
def resolveVMPool (c : Cloud) (spec : GatewaySpec) : Option (GatewayPool × Int) :=
  if spec.gatewayNodepoolName ≠ "" then
    match (c.listVMs S.az.resourceGroup).find? (taggedWith ·.tags spec.gatewayNodepoolName) with
    | some vm => (nodepoolIPPrefixSize vm.tags).toOption.map (.vms spec.gatewayNodepoolName, ·)
    | none    =>
      match (c.listVMSS S.az.resourceGroup).find? (taggedWith ·.tags spec.gatewayNodepoolName) with
      | some vmss => (nodepoolIPPrefixSize vmss.tags).toOption.map (.vmss vmss, ·)
      | none      => none
  else
    (namedVMSS S c spec).map (.vmss ·, spec.gatewayVmssProfile.publicIpPrefixSize)

-- The unique ID of that pool, which the load balancer cannot do without.
def poolID (c : Cloud) (spec : GatewaySpec) : Option String :=
  ((resolvePool S c spec).map (·.getUniqueID S)).filter (· ≠ "")

variable {S} {P : Platform} {A : Fault → Prop} {s : State} {spec : GatewaySpec}

theorem wp_getVMSSNamed :
    wp (world P S.az) (.faults A)
      (getVMSS spec.gatewayVmssProfile.vmssResourceGroup spec.gatewayVmssProfile.vmssName)
      (fun res s' => s' = s ∧ Read A (namedVMSS S s.cloud spec) res) s := by
  unfold getVMSS namedVMSS
  split
  case isTrue  => exact ⟨rfl, .inr rfl⟩
  case isFalse => exact wp_getVMSS

theorem wp_loadLBPool :
    wp (world P S.az) (.faults A) (loadLBPool spec)
      (fun res s' => s' = s ∧ Read A (resolvePool S s.cloud spec) res) s := by
  unfold loadLBPool
  by_cases hn : spec.gatewayNodepoolName ≠ ""
  case pos =>
    rw [if_pos hn]
    apply wp_bind_read wp_listVMSS
    case error => exact fun e he => ⟨rfl, .inl (he.resolve_right nofun)⟩
    rintro _ ⟨⟩
    cases hf : (s.cloud.listVMSS S.az.resourceGroup).find? (taggedWith ·.tags spec.gatewayNodepoolName)
    case some => exact ⟨rfl, by simp only [Read, resolvePool, if_pos hn, hf]⟩
    case none =>
      apply wp_bind_read wp_listVMs
      case error => exact fun e he => ⟨rfl, .inl (he.resolve_right nofun)⟩
      rintro _ ⟨⟩
      split
      case isTrue ha => exact ⟨rfl, by simp only [Read, resolvePool, if_pos hn, hf, if_pos ha]⟩
      case isFalse ha => exact ⟨rfl, .inr (by simp only [resolvePool, if_pos hn, hf, if_neg ha])⟩
  case neg =>
    rw [if_neg hn]
    apply wp_bind_read wp_getVMSSNamed
    case ok => exact fun vmss hv => ⟨rfl, by simp [Read, resolvePool, hn, hv]⟩
    case error => exact fun e he => ⟨rfl, he.imp_right fun hv => by simp [resolvePool, hn, hv]⟩

theorem wp_sized {pool : GatewayPool} {tags : Tags} :
    wp (world P S.az) (.faults A)
      ((Program.ofExcept (nodepoolIPPrefixSize tags)).bind fun prefixLen => ret (pool, prefixLen))
      (fun res s' => s' = s ∧ Read A ((nodepoolIPPrefixSize tags).toOption.map (pool, ·)) res) s := by
  cases nodepoolIPPrefixSize tags
  case ok    => exact ⟨rfl, rfl⟩
  case error => exact ⟨rfl, .inr rfl⟩

theorem wp_loadVMPool :
    wp (world P S.az) (.faults A) (loadVMPool spec)
      (fun res s' => s' = s ∧ Read A (resolveVMPool S s.cloud spec) res) s := by
  unfold loadVMPool
  by_cases hn : spec.gatewayNodepoolName ≠ ""
  case pos =>
    rw [if_pos hn]
    apply wp_bind_read wp_listVMs
    case error => exact fun e he => ⟨rfl, .inl (he.resolve_right nofun)⟩
    rintro _ ⟨⟩
    cases hv : (s.cloud.listVMs S.az.resourceGroup).find? (taggedWith ·.tags spec.gatewayNodepoolName)
    case some vm =>
      have hr : resolveVMPool S s.cloud spec =
          (nodepoolIPPrefixSize vm.tags).toOption.map (GatewayPool.vms spec.gatewayNodepoolName, ·) := by
        simp only [resolveVMPool, if_pos hn, hv]
      exact hr ▸ wp_sized
    case none =>
      apply wp_bind_read wp_listVMSS
      case error => exact fun e he => ⟨rfl, .inl (he.resolve_right nofun)⟩
      rintro _ ⟨⟩
      cases hf : (s.cloud.listVMSS S.az.resourceGroup).find? (taggedWith ·.tags spec.gatewayNodepoolName)
      case some vmss =>
        have hr : resolveVMPool S s.cloud spec =
            (nodepoolIPPrefixSize vmss.tags).toOption.map (GatewayPool.vmss vmss, ·) := by
          simp only [resolveVMPool, if_pos hn, hv, hf]
        exact hr ▸ wp_sized
      case none => exact ⟨rfl, .inr (by simp only [resolveVMPool, if_pos hn, hv, hf])⟩
  case neg =>
    rw [if_neg hn]
    apply wp_bind_read wp_getVMSSNamed
    case ok => exact fun vmss hv => ⟨rfl, by simp [Read, resolveVMPool, hn, hv]⟩
    case error => exact fun e he => ⟨rfl, he.imp_right fun hv => by simp [resolveVMPool, hn, hv]⟩

section Agreement

-- The tag of the node pool is found on the scale set `v` as well as on a virtual machine.
structure Ambiguous (S : Settings) (c : Cloud) (spec : GatewaySpec) (v : VirtualMachineScaleSet) :
    Prop where
  named    : spec.gatewayNodepoolName ≠ ""
  scaleSet : (c.listVMSS S.az.resourceGroup).find? (taggedWith ·.tags spec.gatewayNodepoolName) = some v
  machine  : ∃ vm ∈ c.listVMs S.az.resourceGroup, taggedWith vm.tags spec.gatewayNodepoolName

variable {p q : GatewayPool} {n : Int}

theorem resolvePool_of_run {φ : Oracle Sig}
    (h : (run (world P S.az) φ 0 (loadLBPool spec) s).result = .ok p) :
    resolvePool S s.cloud spec = some p := by
  have hr := (outcome_of_wp wp_loadLBPool (Eq.refl (run (world P S.az) φ 0 (loadLBPool spec) s))).right
  rwa [h] at hr

theorem resolveVMPool_of_run {φ : Oracle Sig}
    (h : (run (world P S.az) φ 0 (loadVMPool spec) s).result = .ok (q, n)) :
    resolveVMPool S s.cloud spec = some (q, n) := by
  have hr := (outcome_of_wp wp_loadVMPool (Eq.refl (run (world P S.az) φ 0 (loadVMPool spec) s))).right
  rwa [h] at hr

theorem find_machine {c : Cloud} {v : VirtualMachineScaleSet} (h : Ambiguous S c spec v) :
    ∃ vm, (c.listVMs S.az.resourceGroup).find? (taggedWith ·.tags spec.gatewayNodepoolName) = some vm :=
  have ⟨_, hm, ht⟩ := h.machine
  Option.isSome_iff_exists.mp <| List.find?_isSome.mpr ⟨_, hm, ht⟩

-- If the tag is found on both, then each controller takes what it looks for first.
theorem resolve_of_ambiguous {c : Cloud} {v : VirtualMachineScaleSet} (h : Ambiguous S c spec v)
    (hp : resolvePool S c spec = some p) (hq : resolveVMPool S c spec = some (q, n)) :
    p = .vmss v ∧ q = .vms spec.gatewayNodepoolName := by
  have ⟨vm, hv⟩ := find_machine h
  simp only [resolvePool, if_pos h.named, h.scaleSet, Option.some.injEq] at hp
  simp only [resolveVMPool, if_pos h.named, hv, Option.map_eq_some_iff, Prod.mk.injEq] at hq
  obtain ⟨_, _, rfl, _⟩ := hq
  exact ⟨hp.symm, rfl⟩

theorem resolve_of_unambiguous {c : Cloud} (h : ∀ v, ¬Ambiguous S c spec v)
    (hp : resolvePool S c spec = some p) (hq : resolveVMPool S c spec = some (q, n)) : p = q := by
  by_cases hn : spec.gatewayNodepoolName ≠ ""
  case neg =>
    simp only [resolvePool, if_neg hn, Option.map_eq_some_iff] at hp
    simp only [resolveVMPool, if_neg hn, Option.map_eq_some_iff, Prod.mk.injEq] at hq
    obtain ⟨v, hv, rfl⟩ := hp
    obtain ⟨w, hw, rfl, _⟩ := hq
    rw [Option.some.inj (hv.symm.trans hw)]
  case pos =>
    simp only [resolvePool, if_pos hn] at hp
    simp only [resolveVMPool, if_pos hn] at hq
    cases hf : (c.listVMSS S.az.resourceGroup).find? (taggedWith ·.tags spec.gatewayNodepoolName)
    case some v =>
      -- There is no machine with the tag, so the second search finds the same scale set.
      have hv : (c.listVMs S.az.resourceGroup).find? (taggedWith ·.tags spec.gatewayNodepoolName) = none :=
        List.find?_eq_none.mpr fun vm hm ht => h v ⟨hn, hf, vm, hm, ht⟩
      simp only [hf, hv, Option.some.injEq, Option.map_eq_some_iff, Prod.mk.injEq] at hp hq
      obtain ⟨_, _, rfl, _⟩ := hq
      exact hp.symm
    case none =>
      simp only [hf, Option.ite_none_right_eq_some, Option.some.injEq, List.any_eq_true] at hp
      obtain ⟨⟨vm, hm, ht⟩, rfl⟩ := hp
      have ⟨w, hw⟩ : ∃ w, (c.listVMs S.az.resourceGroup).find?
          (taggedWith ·.tags spec.gatewayNodepoolName) = some w :=
        Option.isSome_iff_exists.mp (List.find?_isSome.mpr ⟨vm, hm, ht⟩)
      simp only [hw, Option.map_eq_some_iff, Prod.mk.injEq] at hq
      obtain ⟨_, _, rfl, _⟩ := hq
      rfl

-- Both controllers resolve a specification to the same pool, and hence to the same backend pool of the
-- load balancer, unless its tag is found on machines of both kinds.
theorem loadPool_agree_iff {φ φ' : Oracle Sig}
    (hp : (run (world P S.az) φ 0 (loadLBPool spec) s).result = .ok p)
    (hq : (run (world P S.az) φ' 0 (loadVMPool spec) s).result = .ok (q, n)) :
    (p.getUniqueID S = q.getUniqueID S ∧
      S.az.getLBBackendAddressPoolID (p.getUniqueID S) =
        S.az.getLBBackendAddressPoolID (q.getUniqueID S)) ↔
    ∀ v, Ambiguous S s.cloud spec v → val v.uniqueID = S.newMD5 spec.gatewayNodepoolName := by
  replace hp := resolvePool_of_run hp
  replace hq := resolveVMPool_of_run hq
  constructor
  case mp =>
    rintro ⟨he, _⟩ v hv
    obtain ⟨rfl, rfl⟩ := resolve_of_ambiguous hv hp hq
    exact he
  case mpr =>
    intro h
    by_cases ha : ∃ v, Ambiguous S s.cloud spec v
    case pos =>
      have ⟨v, hv⟩ := ha
      obtain ⟨rfl, rfl⟩ := resolve_of_ambiguous hv hp hq
      have he : GatewayPool.getUniqueID S (.vmss v) = GatewayPool.getUniqueID S (.vms _) := h v hv
      exact ⟨he, by rw [he]⟩
    case neg =>
      obtain rfl := resolve_of_unambiguous (not_exists.mp ha) hp hq
      exact ⟨rfl, rfl⟩

end Agreement

end Manager

namespace Manager

namespace Sample

-- The node pool "gw" of the inventory consists of the scale set "vmss-1", and of virtual machines if
-- `vms` is not empty.
def machines (vms : List VirtualMachine) : State where
  cloud := { scaleSets := [scaleSet "vmss-1" "gw"], virtualMachines := vms }

def lbPool (s : State) : Except Err GatewayPool :=
  (run (world .simple settings.az) .calm 0 (loadLBPool poolSpec) s).result

def vmPool (s : State) : Except Err (GatewayPool × Int) :=
  (run (world .simple settings.az) .calm 0 (loadVMPool poolSpec) s).result

end Sample

open Sample in
theorem loadPool_agree_sample : ∃ p q n, lbPool (machines []) = .ok p ∧ vmPool (machines []) = .ok (q, n) ∧
    p.getUniqueID settings = q.getUniqueID settings := by
  have hp : lbPool (machines []) = .ok (.vmss (scaleSet "vmss-1" "gw")) := rfl
  have hq : vmPool (machines []) = .ok (.vmss (scaleSet "vmss-1" "gw"), 31) := rfl
  refine ⟨_, _, _, hp, hq, ((loadPool_agree_iff hp hq).mpr ?_).left⟩
  rintro v ⟨_, _, vm, hm, _⟩
  nomatch hm

open Sample in
-- The rule points to the backend pool of the scale set, to which no interface is ever added.
theorem loadPool_disagree :
    (lbPool (machines [virtualMachine "gw"])).map (·.getUniqueID settings) = .ok "vmss-1" ∧
    (vmPool (machines [virtualMachine "gw"])).map (·.1.getUniqueID settings) = .ok "md5-gw" :=
  ⟨rfl, rfl⟩

end Manager
