import EgressGateway.Base.Keyed
import EgressGateway.Base.Trace
import EgressGateway.Manager.AgentPoolVMs
import EgressGateway.Manager.Theorems.AgentPoolVMSS
import EgressGateway.Objects.Theorems.Store

-- The profiles of the nodes of a scale set are those of its instances, with the addresses that have been
-- read last.

open Kubernetes Azure Text Program

namespace Manager

variable [CaseFold]

def profiles (vmConfig : GatewayVMConfiguration) : List GatewayVMProfile :=
  vmConfig.status.elim [] (·.gatewayVMProfiles)

section Record

variable {vmConfig : GatewayVMConfiguration} {p : GatewayVMProfile}

omit [CaseFold] in
theorem modifyFirst_upsert (ps : List GatewayVMProfile) :
    (match modifyFirst (·.nodeName = p.nodeName) (fun _ => (p, ())) ps with
      | some (ps, _) => ps
      | none         => ps ++ [p]) = Keyed.upsert (·.nodeName) p ps := by
  induction ps
  case nil => rfl
  case cons q qs hi =>
    unfold modifyFirst Keyed.upsert
    by_cases hq : q.nodeName = p.nodeName
    case pos => simp [hq]
    case neg =>
      simp only [hq, decide_false, Bool.false_eq_true, if_false]
      rw [← hi]
      cases modifyFirst (·.nodeName = p.nodeName) (fun _ => (p, ())) qs <;> rfl

omit [CaseFold] in
theorem profiles_recordProfile :
    profiles (recordProfile vmConfig p) = Keyed.upsert (·.nodeName) p (profiles vmConfig) := by
  rw [← modifyFirst_upsert]
  obtain ⟨_, _, _ | _⟩ := vmConfig <;> rfl

end Record

open Config

omit [CaseFold] in
def address (c : Config) : String :=
  (present c).elim "" fun (_, p) => val p.privateIPAddress

-- The address of the last IP configuration of a kind.
def lastAddress (q : Config → Bool) (cs : List Config) : String :=
  (cs.filter q).getLast?.elim "" address

-- The addresses of the primary and of the target IP configuration.
def primaryAddress (name : String) (cs : List Config) : String :=
  lastAddress (fun c => !isTarget name c && isPrimary c) cs

def targetAddress (name : String) (cs : List Config) : String :=
  lastAddress (isTarget name) cs

section Addresses

variable {name : String}

omit [CaseFold] in
theorem lastAddress_append {q : Config → Bool} {cs : List Config} {c : Config} :
    lastAddress q (cs ++ [c]) = if q c then address c else lastAddress q cs := by
  unfold lastAddress
  rw [List.filter_append]
  cases hq : q c <;> simp [hq]

theorem interfaceIPs_append (cs ds : List Config) (ips : String × String) :
    interfaceIPs name (cs ++ ds) ips = interfaceIPs name ds (interfaceIPs name cs ips) :=
  List.foldl_append

theorem interfaceIPs_eq (name : String) (cs : List Config) :
    interfaceIPs name cs ("", "") = (primaryAddress name cs, targetAddress name cs) := by
  induction cs using List.reverseRecOn
  case nil => rfl
  case append_singleton cs c hi =>
    rw [interfaceIPs_append, hi]
    unfold primaryAddress targetAddress
    rw [lastAddress_append, lastAddress_append]
    cases hc : present c
    case none =>
      have hb : (c.bind fun c => c.properties.map (c.name, ·)) = none := hc
      simp [interfaceIPs, isTarget, isPrimary, hc, hb]
    case some np =>
      obtain ⟨n, p⟩ := np
      have hb : (c.bind fun c => c.properties.map (c.name, ·)) = some (n, p) := hc
      cases ht : equalFold (val n) name <;> cases hp : val p.primary <;>
        simp [interfaceIPs, isTarget, isPrimary, address, hc, hb, ht, hp]

end Addresses

variable {σ : Type}

def isNICRead (e : Issued Sig σ) : Bool :=
  match e.call with
  | .getVMSSInterface .. => true
  | _                    => false

-- The IP configurations that a read has shown.
def shown (r : Except Err Interface) : Option (List Config) :=
  match r with
  | .ok nic   => nic.properties.bind (·.ipConfigurations)
  | .error _  => none

-- One pass over the interfaces `names` of an instance, which has shown the IP configurations `cs`. It may
-- end with an interface that cannot be read, or not even be asked for.
inductive Pass (W : World Sig σ) (rg vmss id : String) :
    List String → List (Issued Sig σ) → List Config → Prop
  | done : Pass W rg vmss id [] [] []
  | read {names log cs ds name s f} :
    shown (W.answer f (.getVMSSInterface rg vmss id name) s).1 = some cs →
    Pass W rg vmss id names log ds →
    Pass W rg vmss id (name :: names) (⟨.getVMSSInterface rg vmss id name, s, f⟩ :: log) (cs ++ ds)
  | failed {names name s f} :
    shown (W.answer f (.getVMSSInterface rg vmss id name) s).1 = none →
    Pass W rg vmss id (name :: names) [⟨.getVMSSInterface rg vmss id name, s, f⟩] []
  | refused {names} : Pass W rg vmss id names [] []

def primaryNames (nics : List NetworkConfiguration) : List String :=
  (nics.filter isPrimaryNIC).map (val ·.name)

section Reads

variable {W : World Sig σ} {rg vmss id ipConfigName : String} {nics : List NetworkConfiguration}
  {ips ips' : String × String} {s t : σ} {log : List (Issued Sig σ)}

omit [CaseFold] in
theorem runs_guarded {names : List (String × String)} {c : Call} {r : Except Err (Reply c)}
    (h : Runs W (guarded names c) s log r t) :
    (log = [] ∧ ∃ e, r = .error e) ∨ ∃ f, log = [⟨c, s, f⟩] ∧ r = (W.answer f c s).1 := by
  unfold guarded at h
  split at h
  case h_1 =>
    have ⟨hl, hr, _⟩ := runs_throw h
    exact .inl ⟨hl, _, hr⟩
  case h_2 =>
    have ⟨f, hl, hr, _⟩ := runs_perform h
    exact .inr ⟨f, hl, hr⟩

omit [CaseFold] in
theorem primaryNames_cons {nic : NetworkConfiguration} :
    primaryNames (nic :: nics) =
      if isPrimaryNIC nic then val nic.name :: primaryNames nics else primaryNames nics := by
  unfold primaryNames
  cases hn : isPrimaryNIC nic <;> simp [hn]

theorem checkIPs_primary {nic : NetworkConfiguration} (hn : isPrimaryNIC nic = true) :
    checkIPs rg vmss id ipConfigName (nic :: nics) ips =
      (getVMSSInterface rg vmss id (val nic.name)).attempt.bind fun r =>
        match shown r with
        | none    => ret ips
        | some cs => checkIPs rg vmss id ipConfigName nics (interfaceIPs ipConfigName cs ips) := by
  rw [checkIPs, if_pos hn]
  refine congrArg _ (funext fun r => ?_)
  obtain _ | ⟨_, _, _, _ | ⟨_, _ | _⟩⟩ := r <;> rfl

theorem pass_checkIPs (h : Runs W (checkIPs rg vmss id ipConfigName nics ips) s log (.ok ips') t) :
    ∃ cs, Pass W rg vmss id (primaryNames nics) log cs ∧ ips' = interfaceIPs ipConfigName cs ips := by
  induction nics generalizing ips s log
  case nil =>
    obtain ⟨rfl, hr, _⟩ := runs_ret h
    exact ⟨[], .done, Except.ok.inj hr⟩
  case cons nic nics hi =>
    rw [primaryNames_cons]
    by_cases hn : isPrimaryNIC nic = true
    case neg =>
      rw [checkIPs, if_neg hn] at h
      rw [if_neg hn]
      exact hi h
    case pos =>
      rw [checkIPs_primary hn] at h
      rw [if_pos hn]
      have ⟨l, l', r, u, hl, hread, hrest⟩ := runs_bind h
      have ⟨_, hr, hread⟩ := runs_attempt hread
      obtain rfl := Except.ok.inj hr
      cases hs : shown r
      case none =>
        rw [hs] at hrest
        obtain ⟨rfl, hr, _⟩ := runs_ret hrest
        refine ⟨[], ?_, Except.ok.inj hr⟩
        rcases runs_guarded hread with ⟨rfl, _⟩ | ⟨f, rfl, rfl⟩
        · exact hl ▸ .refused
        · exact hl ▸ .failed hs
      case some cs =>
        rw [hs] at hrest
        have ⟨ds, hp, hips⟩ := hi hrest
        rcases runs_guarded hread with ⟨_, _, rfl⟩ | ⟨f, rfl, rfl⟩
        · nomatch hs
        · exact ⟨cs ++ ds, hl ▸ .read hs hp, hips.trans (interfaceIPs_append cs ds ips).symm⟩

def fetchStep (rg vmss id ipConfigName : String) (ips : String × String) (nic : NetworkConfiguration) :
    M (String × String) :=
  if isPrimaryNIC nic then do
    let vmNic ← mapError (Err.wrap <| "failed to get vmss(" ++ vmss ++ ") instance(" ++
        id ++ ") nic(" ++ val nic.name ++ "): ") <|
      getVMSSInterface rg vmss id (val nic.name)
    match vmNic.properties.bind (·.ipConfigurations) with
    | none           =>
      throw (Err.errorf ("vmss(" ++ vmss ++ ") instance(" ++ id ++ ") nic(" ++
        val nic.name ++ ") has empty ip configurations"))
    | some ipConfigs => ret (interfaceIPs ipConfigName ipConfigs ips)
  else ret ips

theorem fetchIPs_eq : fetchIPs rg vmss id ipConfigName nics =
    forFold nics ("", "") (fetchStep rg vmss id ipConfigName) := rfl

theorem runs_fetchStep {nic : NetworkConfiguration} (hn : isPrimaryNIC nic = true)
    (h : Runs W (fetchStep rg vmss id ipConfigName ips nic) s log (.ok ips') t) :
    ∃ f cs, log = [⟨.getVMSSInterface rg vmss id (val nic.name), s, f⟩] ∧
      shown (W.answer f (.getVMSSInterface rg vmss id (val nic.name)) s).1 = some cs ∧
      ips' = interfaceIPs ipConfigName cs ips := by
  rw [fetchStep, if_pos hn] at h
  have ⟨l, l', vmNic, u, hl, hread, hrest⟩ := runs_bind h
  rcases runs_guarded (runs_mapError hread) with ⟨_, _, hr⟩ | ⟨f, rfl, hr⟩
  · nomatch hr
  split at hrest
  case h_1 => nomatch hrest
  case h_2 cs hcs =>
    obtain ⟨rfl, hips, _⟩ := runs_ret hrest
    refine ⟨f, cs, hl, ?_, Except.ok.inj hips⟩
    rw [← hr]
    exact hcs

theorem pass_fetchIPs (h : Runs W (forFold nics ips (fetchStep rg vmss id ipConfigName)) s log (.ok ips') t) :
    ∃ cs, Pass W rg vmss id (primaryNames nics) log cs ∧ ips' = interfaceIPs ipConfigName cs ips := by
  induction nics generalizing ips s log
  case nil =>
    obtain ⟨rfl, hr, _⟩ := runs_ret h
    exact ⟨[], .done, Except.ok.inj hr⟩
  case cons nic nics hi =>
    have ⟨l, l', ips₁, u, hl, hstep, hrest⟩ := runs_bind h
    have ⟨ds, hp, hips⟩ := hi hrest
    rw [primaryNames_cons]
    by_cases hn : isPrimaryNIC nic = true
    case neg =>
      rw [fetchStep, if_neg hn] at hstep
      obtain ⟨rfl, hr, _⟩ := runs_ret hstep
      rw [if_neg hn]
      exact ⟨ds, hl ▸ hp, Except.ok.inj hr ▸ hips⟩
    case pos =>
      obtain ⟨f, cs, rfl, hs, rfl⟩ := runs_fetchStep hn hstep
      rw [if_pos hn]
      exact ⟨cs ++ ds, hl ▸ .read hs hp, hips.trans (interfaceIPs_append cs ds ips).symm⟩

omit [CaseFold] in
theorem Pass.reads {names : List String} {cs : List Config} (h : Pass W rg vmss id names log cs) :
    log.filter isNICRead = log := by
  refine List.filter_eq_self.mpr fun e he => ?_
  induction h
  case done | refused => nomatch he
  case failed =>
    rw [List.mem_singleton.mp he]
    rfl
  case read hi =>
    rcases List.mem_cons.mp he with rfl | he
    · rfl
    · exact hi he

omit [CaseFold] in
-- A pass over one interface is one read.
theorem Pass.single {name : String} {cs : List Config} (h : Pass W rg vmss id [name] log cs) (hcs : cs ≠ []) :
    ∃ s f, log = [⟨.getVMSSInterface rg vmss id name, s, f⟩] ∧
      shown (W.answer f (.getVMSSInterface rg vmss id name) s).1 = some cs := by
  cases h
  case refused | failed => exact absurd rfl hcs
  case read log cs ds s f hs h =>
    cases h <;> exact ⟨s, f, rfl, by rw [hs, List.append_nil]⟩

end Reads

omit [CaseFold] in
theorem bind_eq_ok {ε α β : Type} {x : Except ε α} {f : α → Except ε β} {b : β} (h : x >>= f = .ok b) :
    ∃ a, x = .ok a ∧ f a = .ok b := by
  cases x
  case error => nomatch h
  case ok a  => exact ⟨a, rfl, h⟩

-- The calls do not touch the names of the interfaces, or which of them are primary.
section Names

variable {nic nic' : NetworkConfiguration} {nics nics' : List NetworkConfiguration}

def heading (nic : NetworkConfiguration) : Bool × String :=
  (isPrimaryNIC nic, val nic.name)

omit [CaseFold] in
theorem primaryNames_congr (h : nics'.map heading = nics.map heading) : primaryNames nics' = primaryNames nics := by
  have hp : ∀ ns : List NetworkConfiguration,
      primaryNames ns = ((ns.map heading).filter (·.1)).map (·.2) := by
    intro ns
    rw [List.filter_map, List.map_map]
    rfl
  rw [hp, hp, h]

omit [CaseFold] in
@[simp]
theorem heading_setConfigs {cs : List IPConfiguration} : heading (nic.setConfigs cs) = heading nic := by
  cases nic with | mk _ p => cases p <;> rfl

theorem heading_sweepNIC {expected : IPConfiguration} {name : String} {want : Bool} :
    heading (sweepNIC expected name want nic).nic = heading nic := by
  unfold sweepNIC
  split
  case isFalse => rfl
  case isTrue =>
    split
    case h_1 => rfl
    case h_2 =>
      split
      case isTrue  => rfl
      case isFalse => exact heading_setConfigs

omit [CaseFold] in
theorem splitLast_eq {α : Type} {p : α → Bool} {xs pre post : List α} {x : α}
    (h : splitLast p xs = some (pre, x, post)) : xs = pre ++ x :: post := by
  induction xs generalizing pre
  case nil => cases h
  case cons y ys hi =>
    rw [splitLast] at h
    split at h
    case h_1 hs =>
      cases h
      rw [hi hs]
      rfl
    case h_2 =>
      split at h
      case isTrue =>
        cases h
        rfl
      case isFalse => cases h

theorem heading_reconcilePool {pool : String} {changed : Bool}
    (h : reconcileLbBackendPool pool nic = .ok (nic', changed)) : heading nic' = heading nic := by
  simp only [reconcileLbBackendPool] at h
  split at h
  case h_1 => nomatch h
  case h_2 =>
    cases h
    exact heading_setConfigs

theorem primaryNames_reconcile {name prefixID pool : String} {want changed : Bool}
    (h : reconcileVMSSNetworkInterface name prefixID pool want nics = .ok (nics', changed)) :
    primaryNames nics' = primaryNames nics := by
  have ⟨expected, _, h⟩ := bind_eq_ok h
  have hid : ((nics.map (sweepNIC expected name want)).map (·.nic)).map heading = nics.map heading := by
    simp [Function.comp_def, heading_sweepNIC]
  simp only at h
  split at h
  case h_1 => nomatch h
  case h_2 pre primary post hs =>
    have ⟨⟨n, _⟩, hr, h⟩ := bind_eq_ok h
    have hn := heading_reconcilePool hr
    cases h
    refine primaryNames_congr ?_
    rw [← hid, splitLast_eq hs, List.map_append, List.map_cons, List.map_append, List.map_cons, hn]
    congr 2
    split
    · exact heading_setConfigs
    · rfl

end Names

def computerName (vm : ScaleSetVM) : String :=
  val (vm.osProfile.bind (·.computerName))

-- The part of a run that is concerned with one instance: the profile has the addresses that the last pass
-- over its interfaces has shown. If there is only one primary interface, that is the last read.
structure Visit (W : World Sig σ) (rg vmss name : String) (vm : ScaleSetVM) (log : List (Issued Sig σ))
    (p : GatewayVMProfile) : Prop where
  node     : p.nodeName = computerName vm
  complete : p.primaryIP ≠ "" ∧ p.secondaryIP ≠ ""
  pass     : ∃ nics earlier last cs, vm.networkInterfaceConfigurations = some nics ∧
    log.filter isNICRead = earlier ++ last ∧
    Pass W rg vmss (val vm.instanceID) (primaryNames nics) last cs ∧
    p.primaryIP = primaryAddress name cs ∧ p.secondaryIP = targetAddress name cs
  last     : ∀ {nics nic}, vm.networkInterfaceConfigurations = some nics → nics.filter isPrimaryNIC = [nic] →
    ∃ s f vmNic cs,
      (log.filter isNICRead).getLast? =
        some ⟨.getVMSSInterface rg vmss (val vm.instanceID) (val nic.name), s, f⟩ ∧
      (W.answer f (.getVMSSInterface rg vmss (val vm.instanceID) (val nic.name)) s).1 = .ok vmNic ∧
      vmNic.properties.bind (·.ipConfigurations) = some cs ∧
      p.primaryIP = primaryAddress name cs ∧ p.secondaryIP = targetAddress name cs

section Visit

variable {W : World Sig σ} {rg vmss name prefixID pool ip : String} {vm : ScaleSetVM}
  {vmConfig vmConfig' : GatewayVMConfiguration} {p : GatewayVMProfile} {s t : σ}
  {log l l' : List (Issued Sig σ)} {nics : List NetworkConfiguration} {cs : List Config}

omit [CaseFold] in
theorem shown_some {r : Except Err Interface} (h : shown r = some cs) :
    ∃ nic, r = .ok nic ∧ nic.properties.bind (·.ipConfigurations) = some cs := by
  cases r
  case error  => nomatch h
  case ok nic => exact ⟨nic, rfl, h⟩

theorem visit_of_pass (hn : p.nodeName = computerName vm) (hv : vm.networkInterfaceConfigurations = some nics)
    (hl : log.filter isNICRead = l ++ l')
    (hp : Pass W rg vmss (val vm.instanceID) (primaryNames nics) l' cs)
    (hips : (p.primaryIP, p.secondaryIP) = interfaceIPs name cs ("", ""))
    (hc : incomplete (p.primaryIP, p.secondaryIP) = false) : Visit W rg vmss name vm log p := by
  rw [interfaceIPs_eq] at hips
  have ⟨h₁, h₂⟩ := Prod.ext_iff.mp hips
  have hc : p.primaryIP ≠ "" ∧ p.secondaryIP ≠ "" := by
    simpa [incomplete] using hc
  refine ⟨hn, hc, ⟨nics, l, l', cs, hv, hl, hp, h₁, h₂⟩, ?_⟩
  intro nics' nic hv' hnic
  obtain rfl := Option.some.inj (hv.symm.trans hv')
  rw [primaryNames, hnic] at hp
  have hcs : cs ≠ [] := by
    rintro rfl
    exact hc.left h₁
  have ⟨s, f, hlast, hs⟩ := hp.single hcs
  have ⟨vmNic, hok, hcs⟩ := shown_some hs
  refine ⟨s, f, vmNic, cs, ?_, hok, hcs, h₁, h₂⟩
  rw [hl, hlast, List.getLast?_concat]

omit [CaseFold] in
theorem runs_update {b : Bool} {interfaces : List NetworkConfiguration} {id : String} {g : Err → Err}
    (h : Runs W (when b (mapError g (updateVMSSInstance rg vmss id interfaces))) s log (.ok ()) t) :
    log.filter isNICRead = [] := by
  rcases runs_when h with ⟨_, h⟩ | ⟨_, rfl⟩
  · rcases runs_guarded (runs_mapError h) with ⟨rfl, _⟩ | ⟨f, rfl, _⟩ <;> rfl
  · rfl

-- The addresses are those of the first pass, or of a second one if there has been an update.
theorem pass_currentIPs {interfaces interfaces' : List NetworkConfiguration} {ips ips' : String × String}
    {id : String} {check fetch : Bool} {u v : σ}
    (hi : primaryNames interfaces' = primaryNames interfaces) (hf : check = false → fetch = true)
    (hknown : Runs W (knownIPs rg vmss id name interfaces check) s l (.ok ips) t)
    (hcur : Runs W (currentIPs rg vmss id name interfaces' ips fetch) u l' (.ok ips') v) :
    ∃ earlier last cs, (l ++ l').filter isNICRead = earlier ++ last ∧
      Pass W rg vmss id (primaryNames interfaces) last cs ∧ ips' = interfaceIPs name cs ("", "") := by
  rw [List.filter_append]
  cases fetch
  case true =>
    have ⟨cs, hp, hips⟩ := pass_fetchIPs hcur
    exact ⟨_, l', cs, by rw [hp.reads], hi ▸ hp, hips⟩
  case false =>
    obtain rfl : check = true := by simpa using hf
    obtain ⟨rfl, hips', _⟩ := runs_ret hcur
    have ⟨cs, hp, hips⟩ := pass_checkIPs hknown
    exact ⟨[], l, cs, by simp [hp.reads], hp, (Except.ok.inj hips').trans hips⟩

theorem visit_reconcileVMSSVM
    (h : Runs W (reconcileVMSSVM vmConfig vmss vm prefixID pool true) s log (.ok (ip, vmConfig')) t) :
    ∃ p, Visit W (getVMSSResourceGroup vmConfig) vmss (managedSubresourceName vmConfig) vm log p ∧
      ip = p.secondaryIP ∧ vmConfig' = recordProfile vmConfig p := by
  simp only [reconcileVMSSVM] at h
  split at h
  case h_1 | h_2 => nomatch h
  case h_3 interfaces osProfile hnics hos =>
    have ⟨l₁, k₁, ips, s₁, hl₁, hknown, h⟩ := runs_bind h
    have ⟨l₂, k₂, ⟨interfaces', need⟩, s₂, hl₂, hrec, h⟩ := runs_bind h
    have ⟨l₃, k₃, _, s₃, hl₃, hupd, h⟩ := runs_bind h
    have ⟨l₄, k₄, ⟨primaryIP, secondaryIP⟩, s₄, hl₄, hcur, h⟩ := runs_bind h
    obtain ⟨rfl, hrec, _⟩ := runs_ofExcept (runs_mapError hrec)
    split at h
    case isTrue => nomatch h
    case isFalse hc =>
      obtain ⟨rfl, hres, _⟩ := runs_ret h
      obtain ⟨rfl, rfl⟩ := Prod.mk.inj (Except.ok.inj hres)
      have ⟨earlier, last, cs, hl, hp, hips⟩ :=
        pass_currentIPs (primaryNames_reconcile hrec) (fun hf => by simp_all) hknown hcur
      have hlog : log.filter isNICRead = earlier ++ last := by
        rw [← hl, hl₁, hl₂, hl₃, hl₄]
        simp [runs_update hupd]
      have hname : val osProfile.computerName = computerName vm := by
        simp [computerName, hos]
      exact ⟨_, visit_of_pass hname hnics hlog hp hips (Bool.eq_false_iff.mpr hc), rfl, rfl⟩

end Visit

-- The part of a run that is concerned with the instance `vm`, and the profile that is entered for it.
structure Visited (σ : Type) where
  vm      : ScaleSetVM
  log     : List (Issued Sig σ)
  profile : GatewayVMProfile

-- The profiles are those of the nodes. Those that were there before keep their order, new ones follow.
structure Exact (old new nodes : List GatewayVMProfile) : Prop where
  perm  : new.Perm nodes
  order : new.map (·.nodeName) =
    (old.map (·.nodeName)).filter (· ∈ nodes.map (·.nodeName)) ++
    (nodes.map (·.nodeName)).filter (· ∉ old.map (·.nodeName))

-- What the loop over the instances has done so far.
structure Progress (W : World Sig σ) (rg vmss prefixID : String) (vmConfig : GatewayVMConfiguration)
    (visits : List (Visited σ)) (acc : List String × GatewayVMConfiguration) : Prop where
  each     : ∀ v ∈ visits, Visit W rg vmss (managedSubresourceName vmConfig) v.vm v.log v.profile
  entered  : profiles acc.2 = Keyed.upserts (·.nodeName) (visits.map (·.profile)) (profiles vmConfig)
  object   : acc.2.meta_ = vmConfig.meta_ ∧ acc.2.spec = vmConfig.spec
  ips      : acc.1 = if prefixID = "" then visits.map (·.profile.secondaryIP) else []

section Loop

variable {W : World Sig σ} {rg vmss prefixID pool : String} {vmConfig : GatewayVMConfiguration}
  {visits : List (Visited σ)} {acc acc' : List String × GatewayVMConfiguration} {s t : σ}
  {log : List (Issued Sig σ)}

omit [CaseFold] in
theorem exact_upserts {old nodes : List GatewayVMProfile} (ho : (old.map (·.nodeName)).Nodup)
    (hn : (nodes.map (·.nodeName)).Nodup) :
    Exact old ((Keyed.upserts (·.nodeName) nodes old).filter (·.nodeName ∈ nodes.map (·.nodeName))) nodes where
  perm  := Keyed.perm_upserts ho hn
  order := by
    have hm : ∀ ps : List GatewayVMProfile,
        (ps.filter (·.nodeName ∈ nodes.map (·.nodeName))).map (·.nodeName) =
          (ps.map (·.nodeName)).filter (· ∈ nodes.map (·.nodeName)) := by
      intro ps
      rw [List.filter_map]
      rfl
    rw [hm, Keyed.map_upserts hn, List.filter_append, List.filter_filter]
    congr 1
    refine List.filter_congr fun k hk => ?_
    simp [hk]

theorem Progress.init : Progress W rg vmss prefixID vmConfig [] ([], vmConfig) where
  each     := nofun
  entered  := rfl
  object   := ⟨rfl, rfl⟩
  ips      := by simp

-- One round of the loop.
def visitStep (vmss prefixID pool : String) (acc : List String × GatewayVMConfiguration) (vm : ScaleSetVM) :
    M (List String × GatewayVMConfiguration) := do
  let (privateIP, vmConfig) ← reconcileVMSSVM acc.2 vmss vm prefixID pool true
  ret (if true && prefixID = "" then acc.1 ++ [privateIP] else acc.1, vmConfig)

theorem Progress.step {vm : ScaleSetVM}
    (h : Progress W (getVMSSResourceGroup vmConfig) vmss prefixID vmConfig visits acc)
    (hr : Runs W (visitStep vmss prefixID pool acc vm) s log (.ok acc') t) :
    ∃ p, Progress W (getVMSSResourceGroup vmConfig) vmss prefixID vmConfig (visits ++ [⟨vm, log, p⟩]) acc' := by
  have ⟨l, l', ⟨ip, vmConfig'⟩, u, hl, hvm, hret⟩ := runs_bind hr
  obtain ⟨rfl, hacc, _⟩ := runs_ret hret
  rw [List.append_nil] at hl
  subst hl
  have ⟨p, hv, hip, hrec⟩ := visit_reconcileVMSSVM hvm
  cases Except.ok.inj hacc
  refine ⟨p, ?_⟩
  have hname : managedSubresourceName acc.2 = managedSubresourceName vmConfig := by
    rw [managedSubresourceName, h.object.left]
    rfl
  have hrg : getVMSSResourceGroup acc.2 = getVMSSResourceGroup vmConfig := by
    rw [getVMSSResourceGroup, h.object.right]
    rfl
  rw [hname, hrg] at hv
  constructor
  case each =>
    intro v hm
    rcases List.mem_append.mp hm with hm | hm
    · exact h.each v hm
    · rw [List.mem_singleton.mp hm]
      exact hv
  case entered =>
    rw [List.map_append, List.map_singleton, Keyed.upserts_append, ← h.entered, hrec]
    exact profiles_recordProfile
  case object => exact hrec ▸ h.object
  case ips =>
    rw [h.ips, hip]
    by_cases hp : prefixID = "" <;> simp [hp]

theorem progress_loop {instances : List ScaleSetVM}
    (h : Runs W (forFold instances ([], vmConfig) (visitStep vmss prefixID pool)) s log (.ok acc) t) :
    ∃ visits, visits.map (·.vm) = instances ∧ log = visits.flatMap (·.log) ∧
      Progress W (getVMSSResourceGroup vmConfig) vmss prefixID vmConfig visits acc := by
  refine runs_forFold (J := fun acc done l => ∃ visits, visits.map (·.vm) = done ∧
    l = visits.flatMap (·.log) ∧
    Progress W (getVMSSResourceGroup vmConfig) vmss prefixID vmConfig visits acc)
    ⟨[], rfl, rfl, .init⟩ ?_ h
  intro acc done l vm s l' acc' t ⟨visits, hd, hl, hp⟩ hr
  have ⟨p, hp⟩ := hp.step hr
  exact ⟨visits ++ [⟨vm, l', p⟩], by simp [hd], by simp [hl], hp⟩

omit [CaseFold] in
theorem profiles_pruneProfiles {instances : List ScaleSetVM} :
    profiles (pruneProfiles instances vmConfig) =
      (profiles vmConfig).filter (·.nodeName ∈ instances.map computerName) := by
  obtain ⟨_, _, _ | status⟩ := vmConfig
  case none => rfl
  case some =>
    refine List.filter_congr fun p _ => ?_
    rw [Bool.eq_iff_iff, List.any_eq_true, decide_eq_true_iff, List.mem_map]
    simp [computerName, eq_comm]

-- A status update that succeeds returns the status as it has been written.
def KeepsStatus (W : World Sig σ) : Prop :=
  ∀ {o s r}, (W.exec (.updateStatus .vmConfig o) s).1 = .ok r → r.status = o.status

theorem keepsStatus_world {P : Platform} {az : CloudConfig} : KeepsStatus (world P az) := by
  intro o s r h
  change (s.commit .vmConfig (Store.updateStatus s.api.clock (s.api.items .vmConfig) o)).1 = .ok r at h
  cases hu : Store.updateStatus s.api.clock (s.api.items .vmConfig) o
  case error => rw [hu] at h; nomatch h
  case ok w =>
    have ⟨old, _, _, hnew, _⟩ := Store.updateStatus_ok hu
    rw [hu] at h
    rw [← Except.ok.inj h, hnew, Store.revise]
    split
    case isTrue he  => exact (congrArg GatewayVMConfiguration.status he).symm
    case isFalse he => rfl

omit [CaseFold] in
theorem KeepsStatus.answer (h : KeepsStatus W) {f : Fault} {o r : GatewayVMConfiguration}
    (hr : (W.answer f (.updateStatus .vmConfig o) s).1 = .ok r) : r.status = o.status := by
  cases f
  case none => exact h hr
  case lost | applied => nomatch hr

end Loop

-- After a successful run the profiles are exactly those of the instances, with the addresses of the last
-- reads, whatever has been read and whatever has failed on the way.
theorem vmss_profiles_exact (S : Settings) {W : World Sig σ} (hW : KeepsStatus W) {φ : Oracle Sig} {n : Nat} {s : σ}
    {vmConfig vmConfig' : GatewayVMConfiguration} {vmss : VirtualMachineScaleSet} {prefixID : String}
    {privateIPs : List String} {log : List (Issued Sig σ)}
    (hold : ((profiles vmConfig).map (·.nodeName)).Nodup)
    (hr : (run W φ n (reconcileVMSS S vmConfig vmss prefixID true) s).result = .ok (privateIPs, vmConfig'))
    (hl : (run W φ n (reconcileVMSS S vmConfig vmss prefixID true) s).log = log) :
    ∃ instances before after, ∃ visits : List (Visited σ),
      (∃ s f, ⟨.listVMSSInstances (getVMSSResourceGroup vmConfig) (val vmss.name), s, f⟩ ∈ before ∧
        (W.answer f (.listVMSSInstances (getVMSSResourceGroup vmConfig) (val vmss.name)) s).1 = .ok instances) ∧
      log = before ++ visits.flatMap (·.log) ++ after ∧
      (∀ e ∈ before ++ after, isNICRead e = false) ∧
      visits.map (·.vm) = instances ∧
      (∀ v ∈ visits, Visit W (getVMSSResourceGroup vmConfig) (val vmss.name)
        (managedSubresourceName vmConfig) v.vm v.log v.profile) ∧
      ((instances.map computerName).Nodup →
        Exact (profiles vmConfig) (profiles vmConfig') (visits.map (·.profile))) ∧
      privateIPs = if prefixID = "" then visits.map (·.profile.secondaryIP) else [] := by
  have h := runs_run (W := W) φ n (reconcileVMSS S vmConfig vmss prefixID true) s
  rw [hr, hl] at h
  generalize (run W φ n (reconcileVMSS S vmConfig vmss prefixID true) s).state = t at h
  simp only [reconcileVMSS] at h
  split at h
  case h_1 => nomatch h
  case h_2 interfaces hnics =>
    have ⟨l₁, k₁, ⟨interfaces', need⟩, s₁, hl₁, hrec, h⟩ := runs_bind h
    have ⟨l₂, k₂, _, s₂, hl₂, hupd, h⟩ := runs_bind h
    have ⟨l₃, k₃, instances, s₃, hl₃, hlist, h⟩ := runs_bind h
    have ⟨l₄, k₄, ⟨ips, updated⟩, s₄, hl₄, hloop, h⟩ := runs_bind h
    have ⟨l₅, k₅, stored, s₅, hl₅, hstatus, h⟩ := runs_bind h
    obtain ⟨rfl, hrec, _⟩ := runs_ofExcept (runs_mapError hrec)
    obtain ⟨rfl, hres, _⟩ := runs_ret h
    obtain ⟨rfl, rfl⟩ := Prod.mk.inj (Except.ok.inj hres)
    have ⟨visits, hvisits, hlog, hprog⟩ := progress_loop hloop
    have hnames : (visits.map (·.profile)).map (·.nodeName) = instances.map computerName := by
      rw [← hvisits, List.map_map, List.map_map]
      exact List.map_congr_left fun v hv => (hprog.each v hv).node
    rcases runs_guarded (runs_mapError hlist) with ⟨_, _, hlist⟩ | ⟨f, hl₃', hlist⟩
    · nomatch hlist
    have ⟨g, hl₅', hstatus, _⟩ := runs_perform (runs_mapError hstatus)
    refine ⟨instances, l₂ ++ l₃, l₅, visits, ?_, ?_, ?_, hvisits, hprog.each, ?_, hprog.ips⟩
    case refine_1 => exact ⟨s₂, f, by simp [hl₃'], hlist.symm⟩
    case refine_2 => rw [hl₁, hl₂, hl₃, hl₄, hl₅, hlog]; simp
    case refine_3 =>
      have hupd' : l₂.filter isNICRead = [] := by
        rcases runs_when hupd with ⟨_, hupd⟩ | ⟨_, rfl⟩
        · rcases runs_guarded (runs_mapError hupd) with ⟨rfl, _⟩ | ⟨f, rfl, _⟩ <;> rfl
        · rfl
      have hnone : (l₂ ++ l₃ ++ l₅).filter isNICRead = [] := by
        rw [List.filter_append, List.filter_append, hupd', hl₃', hl₅']
        rfl
      exact fun e he => by simpa using List.filter_eq_nil_iff.mp hnone e he
    case refine_4 =>
      intro hn
      have hnew : profiles vmConfig' = profiles (pruneProfiles instances updated) := by
        rw [profiles, hW.answer hstatus.symm]
        rfl
      rw [hnew, profiles_pruneProfiles, hprog.entered, ← hnames]
      exact exact_upserts hold (hnames ▸ hn)

end Manager

namespace Manager

namespace Sample

def nodeNIC : Azure.Interface where
  name       := some "nic"
  id         := none
  tags       := []
  properties := some {
    provisioningState := some .succeeded
    ipConfigurations  := some [
      some ⟨some "ipconfig1", some {
        primary                 := some true
        privateIPAddressVersion := some .ipv4
        privateIPAddress        := some "10.0.0.5"
        subnet                  := some ⟨some "subnet"⟩
        publicIPAddress         := none }⟩,
      some ⟨some "egressgateway-a", some {
        primary                 := some false
        privateIPAddressVersion := some .ipv4
        privateIPAddress        := some "10.0.0.6"
        subnet                  := some ⟨some "subnet"⟩
        publicIPAddress         := none }⟩] }

def nodeSet : VirtualMachineScaleSet :=
  { scaleSet "vmss-1" "gw" with
    networkInterfaceConfigurations := some [primaryNIC]
    instances := [{
      id                             := some "vm-0"
      instanceID                     := some "0"
      networkInterfaceConfigurations := some [primaryNIC]
      osProfile                      := some ⟨some "node-0"⟩
      provisioningState              := some "Succeeded" }] }

def nodeState : State where
  cloud := { scaleSets := [nodeSet] }
  api   := { items := fun
    | .vmConfig => [vmConfig "a" "gw"]
    | _         => [] }

def nodeWorld : World Sig State :=
  world { Platform.simple with scaleSetNIC := fun _ _ => some nodeNIC } settings.az

def nodeRun : Outcome Sig State (List String × GatewayVMConfiguration) :=
  run nodeWorld .calm 0 (reconcileVMSS settings (vmConfig "a" "gw") nodeSet "" true) nodeState

-- The instances that a call lists have different names.
def listsDistinct : Issued Sig State → Bool
  | ⟨.listVMSSInstances rg name, s, f⟩ =>
    (nodeWorld.answer f (.listVMSSInstances rg name) s).1.toOption.all fun instances =>
      decide (instances.map computerName).Nodup
  | _ => true

end Sample

open Sample in
-- The instance gets the IP configuration of the gateway, and then its profile.
theorem vmss_profiles_exact_sample : ∃ ips c, nodeRun.result = .ok (ips, c) ∧
    ∃ visits : List (Visited State), Exact [] (profiles c) (visits.map (·.profile)) ∧
      ips = visits.map (·.profile.secondaryIP) := by
  have ⟨hok, hlists⟩ : nodeRun.result.toOption.isSome = true ∧ nodeRun.log.all listsDistinct = true := by
    decide +kernel
  cases hr : nodeRun.result
  case error e =>
    rw [hr] at hok
    nomatch hok
  case ok r =>
    have ⟨instances, before, after, visits, ⟨s, f, hm, hlist⟩, hlog, _, _, _, hexact, hips⟩ :=
      vmss_profiles_exact settings keepsStatus_world (by decide) hr rfl
    have he := List.all_eq_true.mp hlists _ (hlog ▸ List.mem_append_left _ (List.mem_append_left _ hm))
    have hn : (instances.map computerName).Nodup := by
      simpa [listsDistinct, nodeWorld, hlist, Except.toOption] using he
    exact ⟨r.1, r.2, rfl, visits, hexact hn, hips⟩

end Manager
