import EgressGateway.Manager.Theorems.Backends
import EgressGateway.Manager.Theorems.Profiles

-- The profiles of the nodes of a pool of virtual machines. Each gateway interface gets one, with the
-- addresses that it has been seen with last.

open Kubernetes Azure Text Program

namespace Manager

open Config

variable [CaseFold]

section Addresses

variable {name : String} {p : InterfaceProperties}

theorem gatewayIPs_foldl (cs : List Config) :
    (cs.foldl (gatewayIPStep name) {}).primaryIP = primaryAddress name cs ∧
    (cs.foldl (gatewayIPStep name) {}).secondaryIP = targetAddress name cs := by
  induction cs using List.reverseRecOn
  case nil => exact ⟨rfl, rfl⟩
  case append_singleton cs c hi =>
    unfold primaryAddress targetAddress at hi ⊢
    rw [List.foldl_append, lastAddress_append, lastAddress_append, ← hi.left, ← hi.right]
    generalize cs.foldl (gatewayIPStep name) {} = result
    change (gatewayIPStep name result c).primaryIP = _ ∧ (gatewayIPStep name result c).secondaryIP = _
    unfold gatewayIPStep
    cases hc : present c
    case none => simp [isTarget, isPrimary, hc]
    case some np =>
      obtain ⟨n, q⟩ := np
      cases ht : equalFold (val n) name <;> cases hp : val q.primary <;>
        simp [isTarget, isPrimary, address, hc, ht, hp]

theorem primaryIP_eq : (getGatewayIPConfig p name).primaryIP = primaryAddress name (nicConfigs p) :=
  (gatewayIPs_foldl _).left

theorem secondaryIP_eq : (getGatewayIPConfig p name).secondaryIP = targetAddress name (nicConfigs p) :=
  (gatewayIPs_foldl _).right

end Addresses

-- The gateway interfaces of a node pool among those that Azure has listed.
def gatewayNICs (nodepool : String) (nics : List (Option Azure.Interface)) : List Azure.Interface :=
  (nics.filterMap id).filter (isGatewayNIC nodepool)

-- The profile of a node, the interface of which has been seen as `seen`.
def nodeProfile (ipConfigName : String) (nic seen : Azure.Interface) : GatewayVMProfile where
  nodeName    := val nic.name
  primaryIP   := primaryAddress ipConfigName (configsOf seen)
  secondaryIP := targetAddress ipConfigName (configsOf seen)

def Filled (p : GatewayVMProfile) : Prop :=
  p.primaryIP ≠ "" ∧ p.secondaryIP ≠ ""

instance (p : GatewayVMProfile) : Decidable (Filled p) :=
  inferInstanceAs (Decidable (_ ∧ _))

variable {σ : Type}

-- What an update of the interface `name` has been answered with.
def updated (W : World Sig σ) (name : String) : Issued Sig σ → Option Azure.Interface
  | ⟨.createOrUpdateNetworkInterface rg n nic, s, f⟩ =>
    if n = name then (W.answer f (.createOrUpdateNetworkInterface rg n nic) s).1.toOption else none
  | _ => none

def updates (W : World Sig σ) (log : List (Issued Sig σ)) (nic : Azure.Interface) : List Azure.Interface :=
  log.filterMap (updated W (val nic.name))

def lastSeen (W : World Sig σ) (log : List (Issued Sig σ)) (nic : Azure.Interface) : Azure.Interface :=
  (updates W log nic).getLast?.getD nic

-- The profile of a node with the addresses that its interface has been seen with last.
def latestProfile (W : World Sig σ) (log : List (Issued Sig σ)) (ipConfigName : String) (nic : Azure.Interface) :
    GatewayVMProfile :=
  nodeProfile ipConfigName nic (lastSeen W log nic)

-- Azure answers the update of an interface with an interface of that name.
def KeepsName (W : World Sig σ) : Prop :=
  ∀ {rg name nic s r}, (W.exec (.createOrUpdateNetworkInterface rg name nic) s).1 = .ok r →
    val nic.name = name → val r.name = name

theorem keepsName_world {P : Platform} {az : CloudConfig} : KeepsName (world P az) := by
  intro rg name nic s r h hn
  rw [← Except.ok.inj h]
  exact hn

-- There is one entry for each of the interfaces and no other one, and no address is missing.
structure ExactNICs (W : World Sig σ) (log : List (Issued Sig σ)) (ipConfigName : String)
    (nics : List Azure.Interface) (secondaryIPs : List String) (ps : List GatewayVMProfile) : Prop where
  perm   : ps.Perm (nics.map (latestProfile W log ipConfigName))
  ips    : secondaryIPs = (nics.map (latestProfile W log ipConfigName)).map (·.secondaryIP)
  filled : (∀ p ∈ ps, Filled p) ∧ ∀ ip ∈ secondaryIPs, ip ≠ ""

section Visit

variable {S : Settings} {W : World Sig σ} {name prefixID pool : String} {nic : Azure.Interface} {s t : σ}
  {log log' : List (Issued Sig σ)}

omit [CaseFold] in
theorem updates_append : updates W (log ++ log') nic = updates W log nic ++ updates W log' nic :=
  List.filterMap_append

omit [CaseFold] in
theorem lastSeen_append_left (h : updates W log' nic = []) : lastSeen W (log ++ log') nic = lastSeen W log nic := by
  rw [lastSeen, updates_append, h, List.append_nil]
  rfl

omit [CaseFold] in
theorem lastSeen_append_right (h : updates W log nic = []) : lastSeen W (log ++ log') nic = lastSeen W log' nic := by
  rw [lastSeen, updates_append, h, List.nil_append]
  rfl

omit [CaseFold] in
theorem updates_other {rg n : String} {x : Azure.Interface} {f : Fault} (h : n ≠ val nic.name) :
    updates W [⟨.createOrUpdateNetworkInterface rg n x, s, f⟩] nic = [] := by
  simp [updates, updated, h]

omit [CaseFold] in
theorem updates_own {rg : String} {x r : Azure.Interface} {f : Fault}
    (h : (W.answer f (.createOrUpdateNetworkInterface rg (val nic.name) x) s).1 = .ok r) :
    updates W [⟨.createOrUpdateNetworkInterface rg (val nic.name) x, s, f⟩] nic = [r] := by
  simp [updates, updated, h, Except.toOption]

omit [CaseFold] in
theorem KeepsName.answer (hW : KeepsName W) {f : Fault} {rg : String} {x r : Azure.Interface}
    (h : (W.answer f (.createOrUpdateNetworkInterface rg (val x.name) x) s).1 = .ok r) :
    val r.name = val x.name := by
  cases f
  case none => exact hW h rfl
  case lost | applied => nomatch h

omit [CaseFold] in
theorem runs_ensurePublicIP {want : Bool} {pip : Option PublicIPAddress} (x : Azure.Interface)
    (h : Runs W (ensurePublicIP S prefixID nic want) s log (.ok pip) t) : updates W log x = [] := by
  unfold ensurePublicIP at h
  split at h
  case isFalse =>
    obtain ⟨rfl, _⟩ := runs_ret h
    rfl
  case isTrue =>
    have ⟨l₁, l₂, pipName, u, hl, hname, h⟩ := runs_bind h
    have ⟨l₃, l₄, pip', v, hl', hpip, h⟩ := runs_bind h
    obtain ⟨rfl, _⟩ := runs_ofExcept hname
    obtain ⟨rfl, _⟩ := runs_ret h
    rcases runs_guarded hpip with ⟨_, _, he⟩ | ⟨f, rfl, _⟩
    · nomatch he
    · rw [hl, hl']
      rfl

-- The interface is stored, and seen again, only if that is asked for.
theorem runs_storeNIC {ipCfg cfg : GatewayIPConfig} {update : Bool} {n : String} (hW : KeepsName W)
    (h : Runs W (storeNIC name nic ipCfg update) s log (.ok (n, cfg)) t) :
    n = val nic.name ∧ (∀ x : Azure.Interface, val nic.name ≠ val x.name → updates W log x = []) ∧
    (update = false ∧ log = [] ∧ cfg = ipCfg ∨
      ∃ r, (∀ x : Azure.Interface, val nic.name = val x.name → updates W log x = [r]) ∧
        cfg.primaryIP = primaryAddress name (configsOf r) ∧ cfg.secondaryIP = targetAddress name (configsOf r)) := by
  unfold storeNIC at h
  split at h
  case isFalse hu =>
    obtain ⟨rfl, hr, _⟩ := runs_ret h
    obtain ⟨rfl, rfl⟩ := Prod.mk.inj (Except.ok.inj hr)
    exact ⟨rfl, fun _ _ => rfl, .inl ⟨by simpa using hu, rfl, rfl⟩⟩
  case isTrue =>
    have ⟨l₁, l₂, r, u, hl, hstore, h⟩ := runs_bind h
    rcases runs_guarded (runs_mapError hstore) with ⟨_, _, he⟩ | ⟨f, rfl, hr⟩
    · nomatch he
    cases hp : r.properties
    case none => simp only [hp] at h; nomatch h
    case some p =>
      simp only [hp] at h
      obtain ⟨rfl, hres, _⟩ := runs_ret h
      obtain ⟨rfl, rfl⟩ := Prod.mk.inj (Except.ok.inj hres)
      rw [List.append_nil] at hl
      have hcs : configsOf r = nicConfigs p := by rw [configsOf, hp]; rfl
      refine ⟨hW.answer hr.symm, fun x hx => hl ▸ updates_other hx, .inr ⟨r, ?_, ?_, ?_⟩⟩
      · intro x hx
        rw [hl, hx]
        exact updates_own (hx ▸ hr.symm)
      · rw [primaryIP_eq, hcs]
      · rw [secondaryIP_eq, hcs]

-- What the calls for one interface have shown.
structure NICVisit (W : World Sig σ) (ipConfigName : String) (nic : Azure.Interface) (log : List (Issued Sig σ)) :
    Prop where
  others : ∀ x : Azure.Interface, val nic.name ≠ val x.name → updates W log x = []
  own    : updates W log nic = [] ∧ Filled (latestProfile W log ipConfigName nic) ∨ ∃ r, updates W log nic = [r]

theorem visit_reconcileNIC {vmConfig vmConfig' : GatewayVMConfiguration} {ip : String} (hW : KeepsName W)
    (h : Runs W (reconcileNIC S vmConfig nic prefixID pool true) s log (.ok (ip, vmConfig')) t) :
    NICVisit W (managedSubresourceName vmConfig) nic log ∧
    ip = (latestProfile W log (managedSubresourceName vmConfig) nic).secondaryIP ∧
    vmConfig' = recordProfile vmConfig (latestProfile W log (managedSubresourceName vmConfig) nic) := by
  unfold reconcileNIC at h
  cases hp : nic.properties
  case none => rw [hp] at h; nomatch h
  case some p =>
    simp only [hp] at h
    split at h
    case isTrue => nomatch h
    case isFalse hs =>
      have ⟨l₁, k₁, pip, s₁, hl₁, hpip, h⟩ := runs_bind h
      have ⟨l₂, k₂, ⟨nicName, ipCfg⟩, s₂, hl₂, hstore, h⟩ := runs_bind h
      simp only [Bool.not_true, Bool.false_eq_true, if_false] at h
      obtain ⟨rfl, hres, _⟩ := runs_ret h
      obtain ⟨rfl, rfl⟩ := Prod.mk.inj (Except.ok.inj hres)
      rw [List.append_nil] at hl₂
      subst hl₂
      have hpip := fun x => runs_ensurePublicIP x hpip
      have ⟨hn, hothers, hown⟩ := runs_storeNIC hW hstore
      have hseen : lastSeen W log nic = lastSeen W k₁ nic := by
        rw [hl₁, lastSeen_append_right (hpip nic)]
      have hups : ∀ x, updates W log x = updates W k₁ x := fun x => by
        rw [hl₁, updates_append, hpip x, List.nil_append]
      have hcs : configsOf nic = nicConfigs p := by rw [configsOf, hp]; rfl
      rcases hown with ⟨hu, rfl, rfl⟩ | ⟨r, hr, h₁, h₂⟩
      case inl =>
        have hprofile : latestProfile W log (managedSubresourceName vmConfig) nic =
            { nodeName := nicName,
              primaryIP := (getGatewayIPConfig p (managedSubresourceName vmConfig)).primaryIP,
              secondaryIP := (getGatewayIPConfig p (managedSubresourceName vmConfig)).secondaryIP } := by
          rw [latestProfile, hseen, primaryIP_eq, secondaryIP_eq, ← hcs, hn]
          rfl
        refine ⟨⟨fun x hx => (hups x).trans (hothers x hx), .inl ⟨hups nic, ?_⟩⟩, ?_, ?_⟩
        · rw [hprofile]
          simpa [incomplete, Filled] using (Bool.or_eq_false_iff.mp (Bool.or_eq_false_iff.mp hu).right).right
        · rw [hprofile]
        · rw [hprofile]
      case inr =>
        have hprofile : latestProfile W log (managedSubresourceName vmConfig) nic =
            { nodeName := nicName, primaryIP := ipCfg.primaryIP, secondaryIP := ipCfg.secondaryIP } := by
          rw [latestProfile, hseen, lastSeen, hr nic rfl, h₁, h₂, hn]
          rfl
        refine ⟨⟨fun x hx => (hups x).trans (hothers x hx), .inr ⟨r, (hups nic).trans (hr nic rfl)⟩⟩, ?_, ?_⟩
        · rw [hprofile]
        · rw [hprofile]

end Visit

section Loop

variable {S : Settings} {W : World Sig σ} {prefixID pool : String} {vmConfig : GatewayVMConfiguration}
  {nics done : List Azure.Interface} {acc acc' : List String × GatewayVMConfiguration} {s t : σ}
  {log log' : List (Issued Sig σ)}

-- What the loop over the interfaces has done so far.
structure NICProgress (W : World Sig σ) (vmConfig : GatewayVMConfiguration) (done : List Azure.Interface)
    (log : List (Issued Sig σ)) (acc : List String × GatewayVMConfiguration) : Prop where
  others  : ∀ x : Azure.Interface, val x.name ∉ done.map (val ·.name) → updates W log x = []
  own     : ∀ nic ∈ done, updates W log nic = [] ∧ Filled (latestProfile W log (managedSubresourceName vmConfig) nic) ∨
    ∃ r, updates W log nic = [r]
  entered : profiles acc.2 = Keyed.upserts (·.nodeName)
    (done.map (latestProfile W log (managedSubresourceName vmConfig))) (profiles vmConfig)
  ips     : acc.1 = (done.map (latestProfile W log (managedSubresourceName vmConfig))).map (·.secondaryIP)
  object  : acc.2.meta_ = vmConfig.meta_

theorem NICProgress.init : NICProgress W vmConfig [] [] ([], vmConfig) where
  others _ _ := rfl
  own        := nofun
  entered    := rfl
  ips        := rfl
  object     := rfl

-- One round of the loop.
def nicRound (S : Settings) (prefixID pool : String) (acc : List String × GatewayVMConfiguration)
    (nic : Azure.Interface) : M (List String × GatewayVMConfiguration) := do
  let (ip, vmConfig) ← reconcileNIC S acc.2 nic prefixID pool true
  ret (acc.1 ++ [ip], vmConfig)

theorem NICProgress.step {nic : Azure.Interface} (hW : KeepsName W)
    (hd : ((done ++ [nic]).map (val ·.name)).Nodup) (h : NICProgress W vmConfig done log acc)
    (hr : Runs W (nicRound S prefixID pool acc nic) s log' (.ok acc') t) :
    NICProgress W vmConfig (done ++ [nic]) (log ++ log') acc' := by
  obtain ⟨l, l', ⟨ip, vmConfig'⟩, u, hl, hnic, hret⟩ := runs_bind hr
  obtain ⟨rfl, hacc, _⟩ := runs_ret hret
  rw [List.append_nil] at hl
  subst hl
  cases Except.ok.inj hacc
  have hname : managedSubresourceName acc.2 = managedSubresourceName vmConfig := by
    rw [managedSubresourceName, h.object]
    rfl
  obtain ⟨hv, hip, hrec⟩ := visit_reconcileNIC hW hnic
  rw [hname] at hv hip hrec
  rw [List.map_append, List.map_singleton, List.nodup_append] at hd
  have hnew : val nic.name ∉ done.map (val ·.name) := fun hm =>
    hd.right.right _ hm _ (List.mem_singleton_self _) rfl
  have hne : ∀ x ∈ done, val nic.name ≠ val x.name := fun x hx he =>
    hnew (he ▸ List.mem_map_of_mem hx)
  -- Neither has the interface been updated before, nor are the others updated now.
  have hold : ∀ x ∈ done, latestProfile W (log ++ log') (managedSubresourceName vmConfig) x =
      latestProfile W log (managedSubresourceName vmConfig) x := fun x hx => by
    rw [latestProfile, lastSeen_append_left (hv.others x (hne x hx))]
    rfl
  have hown : latestProfile W (log ++ log') (managedSubresourceName vmConfig) nic =
      latestProfile W log' (managedSubresourceName vmConfig) nic := by
    rw [latestProfile, lastSeen_append_right (h.others nic hnew)]
    rfl
  have hmap : (done ++ [nic]).map (latestProfile W (log ++ log') (managedSubresourceName vmConfig)) =
      done.map (latestProfile W log (managedSubresourceName vmConfig)) ++
        [latestProfile W log' (managedSubresourceName vmConfig) nic] := by
    rw [List.map_append, List.map_singleton, hown, List.map_congr_left hold]
  constructor
  case others =>
    intro x hx
    rw [List.map_append, List.mem_append, not_or] at hx
    rw [updates_append, h.others x hx.left, hv.others x fun he => hx.right (by simp [he])]
    rfl
  case own =>
    intro x hx
    rw [updates_append]
    rcases List.mem_append.mp hx with hx | hx
    case inl => rw [hold x hx, hv.others x (hne x hx), List.append_nil]; exact h.own x hx
    case inr =>
      rw [List.mem_singleton.mp hx, hown, h.others nic hnew, List.nil_append]
      exact hv.own
  case entered =>
    rw [hmap, Keyed.upserts_append, ← h.entered, hrec]
    exact profiles_recordProfile
  case ips =>
    rw [hmap, List.map_append, ← h.ips, hip]
    rfl
  case object => rw [hrec]; exact h.object

theorem nicProgress_loop (hW : KeepsName W) (hd : (nics.map (val ·.name)).Nodup)
    (h : Runs W (forFold nics ([], vmConfig) (nicRound S prefixID pool)) s log (.ok acc) t) :
    NICProgress W vmConfig nics log acc := by
  let J := fun acc done l => (done.map (val ·.name)).Nodup → NICProgress W vmConfig done l acc
  have init : J ([], vmConfig) [] [] := fun _ => .init
  have hJ := runs_forFold init ?_ h
  · exact hJ hd
  intro acc done l nic s l' acc' t hp hr hd
  have hd' : (done.map (val ·.name)).Nodup := by
    rw [List.map_append, List.nodup_append] at hd
    exact hd.left
  exact (hp hd').step hW hd hr

end Loop

section Exact

variable {W : World Sig σ} {vmConfig : GatewayVMConfiguration} {nics : List Azure.Interface}
  {log : List (Issued Sig σ)} {acc : List String × GatewayVMConfiguration} {name : String} {nic r : Azure.Interface}

omit [CaseFold] in
theorem lastSeen_of_updates (h : updates W log nic = [r]) : lastSeen W log nic = r := by
  rw [lastSeen, h]
  rfl

theorem names_latestProfile :
    (nics.map (latestProfile W log name)).map (·.nodeName) = nics.map (val ·.name) := by
  rw [List.map_map]
  rfl

-- An address is missing only if it was missing in an answer.
theorem NICProgress.filled_iff (h : NICProgress W vmConfig nics log acc) (hn : nic ∈ nics) :
    Filled (latestProfile W log (managedSubresourceName vmConfig) nic) ↔
      ∀ r ∈ updates W log nic, Filled (nodeProfile (managedSubresourceName vmConfig) nic r) := by
  rcases h.own nic hn with ⟨hnone, hfilled⟩ | ⟨r, hr⟩
  case inl =>
    rw [hnone]
    exact iff_of_true hfilled (by simp)
  case inr => rw [hr, latestProfile, lastSeen_of_updates hr, List.forall_mem_singleton]

theorem NICProgress.exact_iff (h : NICProgress W vmConfig nics log acc) (hd : (nics.map (val ·.name)).Nodup)
    (hold : ((profiles vmConfig).map (·.nodeName)).Nodup) :
    ExactNICs W log (managedSubresourceName vmConfig) nics acc.1 (profiles acc.2) ↔
    (∀ p ∈ profiles vmConfig, p.nodeName ∈ nics.map (val ·.name)) ∧
    ∀ nic ∈ nics, ∀ r ∈ updates W log nic, Filled (nodeProfile (managedSubresourceName vmConfig) nic r) := by
  have hn : ((nics.map (latestProfile W log (managedSubresourceName vmConfig))).map (·.nodeName)).Nodup := by
    rwa [names_latestProfile]
  constructor
  case mp =>
    intro he
    refine ⟨fun p hp => ?_, fun nic hm => (h.filled_iff hm).mp ?_⟩
    case refine_1 =>
      have hkeys := (he.perm.map (·.nodeName)).mem_iff (a := p.nodeName)
      rw [names_latestProfile, h.entered, Keyed.map_upserts hn] at hkeys
      exact hkeys.mp (List.mem_append_left _ (List.mem_map_of_mem hp))
    case refine_2 => exact he.filled.left _ (he.perm.mem_iff.mpr (List.mem_map_of_mem hm))
  case mpr =>
    rintro ⟨hown, hfilled⟩
    have hperm : (profiles acc.2).Perm (nics.map (latestProfile W log (managedSubresourceName vmConfig))) := by
      have hp := Keyed.perm_upserts hold hn
      rw [← h.entered, names_latestProfile, List.filter_eq_self.mpr] at hp
      · exact hp
      · intro p hp
        have hkey : p.nodeName ∈ (profiles acc.2).map (·.nodeName) := List.mem_map_of_mem hp
        rw [h.entered, Keyed.map_upserts hn, names_latestProfile, List.mem_append] at hkey
        rcases hkey with hkey | hkey
        · obtain ⟨q, hq, he⟩ := List.mem_map.mp hkey
          exact decide_eq_true (he ▸ hown q hq)
        · exact decide_eq_true (List.mem_filter.mp hkey).left
    have hall : ∀ p ∈ nics.map (latestProfile W log (managedSubresourceName vmConfig)), Filled p := by
      intro p hp
      obtain ⟨nic, hm, rfl⟩ := List.mem_map.mp hp
      exact (h.filled_iff hm).mpr (hfilled nic hm)
    refine ⟨hperm, h.ips, fun p hp => hall p (hperm.mem_iff.mp hp), fun ip hip => ?_⟩
    rw [h.ips] at hip
    obtain ⟨p, hp, rfl⟩ := List.mem_map.mp hip
    exact (hall p hp).right

end Exact

end Manager

namespace Manager

open Sample

namespace Sample

def vmsRun : Outcome Sig State (List String × GatewayVMConfiguration) :=
  run (world .simple settings.az) .calm 0 (reconcileVMs settings "gw" (vmsCall "a" true).vmConfig "" true) nicState

end Sample

end Manager
