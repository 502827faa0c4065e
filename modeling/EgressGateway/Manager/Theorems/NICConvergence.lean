import EgressGateway.Manager.Theorems.NICProfiles
import EgressGateway.Manager.Theorems.PublicIPs

-- A second look at the interface of a gateway node. Whether it leaves the interface alone depends on how
-- Azure shows the public IP address that is attached to it.

open Kubernetes Azure Text Program

namespace Manager

open Config

variable [CaseFold] {S : Settings} {P : Platform}

-- The names of the IP configurations are different, and one of them, which has a subnet, is the primary one.
structure GatewayConfigs (cs : List Config) : Prop where
  unique  : cs.Pairwise fun c d => ∀ x ∈ c, ∀ y ∈ d, equalFold (val x.name) (val y.name) = false
  primary : ∃ c, cs.filter isPrimary = [c] ∧ ∃ subnet ∈ subnetOf c, val subnet.id ≠ ""

-- The public IP address of the target is shown with its properties, and not only by its ID.
def InFull (name : String) (nic : Azure.Interface) : Prop :=
  ∀ c ∈ configsOf nic, isTarget name c = true → ∀ q ∈ publicIP c, q.properties.isSome = true

def updatesNIC : Call → Bool
  | .createOrUpdateNetworkInterface .. => true
  | _                                  => false

section Same

variable {name subnetID : String} {pip : Option PublicIPAddress} {n : Option String}
  {p : InterfaceIPConfigurationProperties} {c : Config}

-- How the public IP addresses of two IP configurations are compared.
def differentPublicIP (pip₁ pip₂ : PublicIPAddress) : Bool :=
  val pip₁.name ≠ val pip₂.name ||
  differs (fun p q => differs differentID p.publicIPPrefix q.publicIPPrefix) pip₁.properties pip₂.properties

theorem same_iff :
    differentNIC ⟨n, some p⟩ (expectedNICConfig name subnetID pip) = false ↔
      val p.primary = false ∧ val p.privateIPAddressVersion = .ipv4 ∧
      differs differentID p.subnet (some ⟨some subnetID⟩) = false ∧
      differs differentPublicIP p.publicIPAddress pip = false := by
  change (decide (val p.primary ≠ false) || decide (val p.privateIPAddressVersion ≠ .ipv4) ||
    differs differentID p.subnet (some ⟨some subnetID⟩) || differs differentPublicIP p.publicIPAddress pip) = false ↔ _
  simp only [Bool.or_eq_false_iff, decide_eq_false_iff_not, not_not, and_assoc]

theorem differentPublicIP_self (q : PublicIPAddress) : differentPublicIP q q = false := by
  have hid : ∀ r : Option SubResource, differs differentID r r = false := fun r => by
    cases r <;> simp [differs, differentID, equalFold_refl]
  unfold differentPublicIP
  obtain ⟨_, _, _ | p⟩ := q
  case none => simp [differs]
  case some =>
    change (decide _ || differs differentID p.publicIPPrefix p.publicIPPrefix) = false
    rw [hid]
    simp

theorem different_expected :
    (some (expectedNICConfig name subnetID pip) : Config).any
      (differentNIC · (expectedNICConfig name subnetID pip)) = false := by
  refine same_iff.mpr ⟨rfl, rfl, ?_, ?_⟩
  · simp [differs, differentID, equalFold_refl]
  · cases pip <;> simp [differs, differentPublicIP_self]

-- The public IP address of an IP configuration that is as expected has its properties.
theorem properties_of_same (ht : isTarget name c = true) (hpip : ∀ q ∈ pip, q.properties.isSome = true)
    (h : c.any (differentNIC · (expectedNICConfig name subnetID pip)) = false) :
    ∀ r ∈ publicIP c, r.properties.isSome = true := by
  match c with
  | none | some ⟨_, none⟩ => cases ht
  | some ⟨n, some p⟩      =>
    intro r hr
    have hsame := (same_iff.mp h).right.right.right
    rw [show p.publicIPAddress = some r from hr] at hsame
    cases hq : pip
    case none => simp [hq, differs] at hsame
    case some q =>
      rw [hq] at hsame
      have hprop : q.properties.isSome = true := hpip q hq
      have hprops := (Bool.or_eq_false_iff.mp hsame).right
      obtain ⟨_, _, _ | _⟩ := r
      case some => rfl
      case none =>
        obtain ⟨_, _, _ | _⟩ := q
        · cases hprop
        · cases hprops

theorem publicIP_of_none (ht : isTarget name c = true)
    (h : c.any (differentNIC · (expectedNICConfig name subnetID none)) = false) : publicIP c = none := by
  match c with
  | none | some ⟨_, none⟩ => cases ht
  | some ⟨n, some p⟩      =>
    have hsame := (same_iff.mp h).right.right.right
    change p.publicIPAddress = none
    cases hp : p.publicIPAddress
    case none => rfl
    case some => simp [hp, differs] at hsame

theorem not_primary_of_same (ht : isTarget name c = true)
    (h : c.any (differentNIC · (expectedNICConfig name subnetID pip)) = false) : isPrimary c = false := by
  match c with
  | none | some ⟨_, none⟩ => cases ht
  | some ⟨n, some p⟩      => exact (same_iff.mp h).left

-- An IP configuration that is as expected is still so after it has been stored, unless its public IP
-- address is shown by its ID only.
theorem same_provision {now : Nat} {nicName : String} (ht : isTarget name c = true)
    (hpip : ∀ q ∈ pip, q.properties.isSome = true)
    (h : c.any (differentNIC · (expectedNICConfig name subnetID pip)) = false) :
    (c.map (P.provisionIPConfiguration now nicName)).any
        (differentNIC · (expectedNICConfig name subnetID pip)) = false ↔
      ∀ q ∈ publicIP (c.map (P.provisionIPConfiguration now nicName)), q.properties.isSome = true := by
  have hprops := properties_of_same ht hpip h
  match c with
  | none | some ⟨_, none⟩ => cases ht
  | some ⟨n, some p⟩      =>
    obtain ⟨hprimary, hversion, hsubnet, hsame⟩ := same_iff.mp h
    have hiff : (some (P.provisionIPConfiguration now nicName ⟨n, some p⟩) : Config).any
        (differentNIC · (expectedNICConfig name subnetID pip)) = false ↔
        differs differentPublicIP (p.publicIPAddress.map P.readPublicIP) pip = false :=
      (same_iff (n := n)).trans ⟨fun h => h.right.right.right, fun h => ⟨hprimary, hversion, hsubnet, h⟩⟩
    rw [Option.map_some, hiff]
    change _ ↔ ∀ q ∈ p.publicIPAddress.map P.readPublicIP, _
    cases hp : p.publicIPAddress
    case none =>
      rw [hp] at hsame
      simp [hsame]
    case some r =>
      have hr : r.properties.isSome = true := hprops r hp
      rw [hp] at hsame
      rcases P.readPublicIP_eq r with he | he
      · simp [he, hsame, hr]
      · -- Only its ID is left.
        cases hq : pip
        case none => simp [hq, differs] at hsame
        case some q =>
          have hd : differentPublicIP ⟨none, r.id, none⟩ q = true := by
            have hprop := hpip q hq
            obtain ⟨_, _, _ | _⟩ := q
            · cases hprop
            · simp [differentPublicIP, differs]
          simp [differs, he, hd]

end Same

section Edit

variable {name pool : String} {expected : InterfaceIPConfiguration} {cs : List Config} {c t : Config}
  {p : InterfaceProperties}

-- An interface with the target and a primary IP configuration in the pool is only edited for the target.
theorem editNIC_flag (h : cs.Pairwise fun c d => ¬(isTarget name c = true ∧ isTarget name d = true))
    (hp : nicConfigs p = cs) (hc : cs.filter isPrimary = [c]) (hpool : inPool pool c = true)
    (ht : cs.find? (isTarget name) = some t) :
    (editNIC name pool true expected p).2 = t.any (differentNIC · expected) := by
  unfold editNIC
  rw [hp, search_eq h, ht]
  cases hs : t.any (differentNIC · expected)
  case false =>
    have hstays : (some t).any (stays true expected) = true := by simp [stays, hs]
    simp [hstays, joinBackendPool_eq hc, hpool]
  case true =>
    have hstays : (some t).any (stays true expected) = false := by simp [stays, hs]
    simp [hstays]

theorem one_target (h : cs.Pairwise fun c d => ∀ x ∈ c, ∀ y ∈ d, equalFold (val x.name) (val y.name) = false) :
    cs.Pairwise fun c d => ¬(isTarget name c = true ∧ isTarget name d = true) := by
  refine h.imp fun hcd ⟨hc, hd⟩ => ?_
  have ⟨x, hx, hxn⟩ := isTarget_mem hc
  have ⟨y, hy, hyn⟩ := isTarget_mem hd
  have hxy : equalFold (val x.name) (val y.name) = true :=
    equalFold_iff.mpr ((equalFold_iff.mp hxn).trans (equalFold_iff.mp hyn).symm)
  exact Bool.false_ne_true ((hcd x hx y hy).symm.trans hxy)

theorem retained_pairwise (h : cs.Pairwise fun c d => ¬(isTarget name c = true ∧ isTarget name d = true)) :
    (retained name true expected cs).Pairwise fun c d => ¬(isTarget name c = true ∧ isTarget name d = true) := by
  unfold retained
  split
  case isTrue => exact h
  case isFalse =>
    refine List.pairwise_append.mpr ⟨h.sublist List.eraseP_sublist, by simp, ?_⟩
    intro c hc d _
    rw [Keyed.eraseP_eq_filter_not h] at hc
    have ht : isTarget name c = false := by simpa using (List.mem_filter.mp hc).right
    simp [ht]

-- The target, which is as expected.
theorem retained_target (h : cs.Pairwise fun c d => ¬(isTarget name c = true ∧ isTarget name d = true))
    (he : isTarget name (some expected) = true)
    (hsame : (some expected : Config).any (differentNIC · expected) = false) :
    ∃ t, (retained name true expected cs).find? (isTarget name) = some t ∧ t.any (differentNIC · expected) = false := by
  unfold retained
  split
  case isTrue hs =>
    obtain ⟨t, ht, hs⟩ := (Option.any_eq_true _ _).mp hs
    exact ⟨t, ht, by simpa [stays] using hs⟩
  case isFalse => exact ⟨_, Keyed.find?_replace h he, hsame⟩

theorem retained_primary (hc : cs.filter isPrimary = [c]) (hn : isTarget name c = false)
    (he : isPrimary (some expected) = false) : (retained name true expected cs).filter isPrimary = [c] := by
  unfold retained
  split
  case isTrue => exact hc
  case isFalse =>
    rw [List.filter_append, Keyed.filter_eraseP, hc]
    · simp [he]
    · intro d hd hp
      have hm : d ∈ cs.filter isPrimary := List.mem_filter.mpr ⟨hd, hp⟩
      rw [hc, List.mem_singleton] at hm
      rwa [hm]

-- The subnet of the primary IP configuration is the one that is found.
theorem subnetID_eq {subnet : SubResource} (acc : GatewayIPConfig) (hc : cs.filter isPrimary = [c])
    (hn : isTarget name c = false) (hs : subnetOf c = some subnet) :
    (cs.foldl (gatewayIPStep name) acc).subnetID = val subnet.id := by
  induction cs generalizing acc
  case nil => cases hc
  case cons d ds hi =>
    rw [List.foldl_cons]
    cases hd : isPrimary d
    case false =>
      rw [List.filter_cons_of_neg (by simp [hd])] at hc
      exact hi _ hc
    case true =>
      rw [List.filter_cons_of_pos hd, List.cons.injEq, List.filter_eq_nil_iff] at hc
      obtain ⟨rfl, hrest⟩ := hc
      rw [subnetID_foldl _ fun e he hp => absurd hp (hrest e he)]
      match d with
      | none | some ⟨_, none⟩ => cases hd
      | some ⟨n, some q⟩      =>
        have ht : equalFold (val n) name = false := hn
        have hp : val q.primary = true := hd
        have hq : q.subnet = some subnet := hs
        simp [gatewayIPStep, present, ht, hp, hq]

theorem editNIC_configs_eq (h : cs.Pairwise fun c d => ¬(isTarget name c = true ∧ isTarget name d = true))
    (hp : nicConfigs p = cs) (hc : (retained name true expected cs).filter isPrimary = [c]) :
    (editNIC name pool true expected p).1.ipConfigurations =
      some ((retained name true expected cs).map (join pool)) := by
  unfold editNIC
  rw [hp, search_eq h]
  by_cases hs : (cs.find? (isTarget name)).any (stays true expected) = true
  case pos =>
    have hr : retained name true expected cs = cs := if_pos hs
    rw [hr] at hc ⊢
    simp [hs, joinBackendPool_eq hc]
  case neg =>
    have hr : retained name true expected cs = cs.eraseP (isTarget name) ++ [some expected] := by
      simp [retained, hs]
    rw [hr] at hc ⊢
    simp [hs, joinBackendPool_eq hc]

-- An interface that has not been edited has the target, which is as expected.
theorem target_of_kept (h : cs.Pairwise fun c d => ¬(isTarget name c = true ∧ isTarget name d = true))
    (hp : nicConfigs p = cs) (he : (editNIC name pool true expected p).2 = false) :
    ∃ t, cs.filter (isTarget name) = [t] ∧ t.any (differentNIC · expected) = false := by
  unfold editNIC at he
  rw [hp, search_eq h] at he
  by_cases hs : (cs.find? (isTarget name)).any (stays true expected) = true
  case pos =>
    obtain ⟨t, ht, hs⟩ := (Option.any_eq_true _ _).mp hs
    exact ⟨t, Keyed.filter_of_find? h ht, by simpa [stays] using hs⟩
  case neg => simp [hs] at he

end Edit

section Round

variable {s : State} {vmConfig vmConfig' : GatewayVMConfiguration} {nic nic' : Azure.Interface} {name prefixID pool : String}

theorem returns_storedNIC {ipCfg : GatewayIPConfig} {update : Bool} :
    Returns (world P S.az) (storeNIC name nic ipCfg update) s fun r s' =>
      r.1 = val nic.name ∧
      (update = false ∧ r.2 = ipCfg ∧ s' = s ∨
        val nic.name ≠ "" ∧ s' = { s with cloud := s.cloud.putNIC P nic } ∧
        r.2.primaryIP = primaryAddress name (configsOf (P.provisionNIC s.cloud.writes nic)) ∧
        r.2.secondaryIP = targetAddress name (configsOf (P.provisionNIC s.cloud.writes nic))) := by
  unfold storeNIC
  split
  case isFalse hu => exact returns_ret ⟨rfl, .inl ⟨by simpa using hu, rfl, rfl⟩⟩
  case isTrue =>
    have hstore : Returns (world P S.az) (createOrUpdateNetworkInterface (val nic.name) nic) s fun r s' =>
        val nic.name ≠ "" ∧ r = P.provisionNIC s.cloud.writes nic ∧
        s' = { s with cloud := s.cloud.putNIC P nic } := by
      unfold createOrUpdateNetworkInterface guarded
      by_cases hn : val nic.name = ""
      case pos => simpa [hn] using returns_throw
      case neg => simpa [hn] using returns_perform fun _ h => ⟨(Except.ok.inj h).symm, rfl⟩
    refine Returns.bind hstore.mapError ?_
    rintro r s' ⟨hn, rfl, rfl⟩
    cases hp : (P.provisionNIC s.cloud.writes nic).properties
    case none => exact returns_throw
    case some p =>
      have hcs : configsOf (P.provisionNIC s.cloud.writes nic) = nicConfigs p := by rw [configsOf, hp]; rfl
      exact returns_ret ⟨rfl, .inr ⟨hn, rfl, by rw [primaryIP_eq, hcs], by rw [secondaryIP_eq, hcs]⟩⟩

-- The interface `nic` is `nic'` after a round that has succeeded.
structure RoundNIC (S : Settings) (P : Platform) (name prefixID pool : String) (nic nic' : Azure.Interface)
    (nics nics' : List Azure.Interface) (p : InterfaceProperties) : Prop where
  properties : nic.properties = some p
  subnet     : (getGatewayIPConfig p name).subnetID ≠ ""
  publicIP   : prefixID = "" ∨ ∃ q, publicIPOf S P prefixID true nic = some q
  edit       : ∃ e, e = editNIC name pool true
      (expectedNICConfig name (getGatewayIPConfig p name).subnetID (publicIPOf S P prefixID true nic)) p ∧
    (e.2 = false ∧ val p.provisioningState ≠ .failed ∧ nic' = nic ∧ nics' = nics ∨
      val nic.name ≠ "" ∧ (∃ now, nic' = P.provisionNIC now { nic with properties := some e.1 }) ∧
      nics' = nics.map fun n => if equalFold (val n.name) (val nic.name) then nic' else n)

theorem returns_ensuredIP :
    Returns (world P S.az) (ensurePublicIP S prefixID nic true) s fun pip s' =>
      pip = publicIPOf S P prefixID true nic ∧ s'.cloud.interfaces = s.cloud.interfaces ∧
      (prefixID = "" ∨ ∃ q, pip = some q) := by
  unfold ensurePublicIP publicIPOf
  split
  case isFalse h => exact returns_ret ⟨rfl, rfl, .inl (by simpa using h)⟩
  case isTrue h =>
    refine returns_ofExcept fun name hn => Returns.bind returns_createOrUpdatePublicIP ?_
    rintro pip s' ⟨rfl, rfl⟩
    exact returns_ret ⟨by rw [hn]; rfl, rfl, .inr ⟨_, rfl⟩⟩

theorem returns_roundNIC (S : Settings) (P : Platform) :
    Returns (world P S.az) (reconcileNIC S vmConfig nic prefixID pool true) s fun r s' =>
      ∃ nic' p, r.2 = recordProfile vmConfig (nodeProfile (managedSubresourceName vmConfig) nic nic') ∧
        RoundNIC S P (managedSubresourceName vmConfig) prefixID pool nic nic' s.cloud.interfaces s'.cloud.interfaces p := by
  unfold reconcileNIC
  cases hp : nic.properties
  case none => exact returns_throw
  case some p =>
    dsimp only
    have hcs : configsOf nic = nicConfigs p := by rw [configsOf, hp]; rfl
    split
    case isTrue => exact returns_throw
    case isFalse hs =>
      refine Returns.bind returns_ensuredIP ?_
      rintro pip s₁ ⟨rfl, hi, hq⟩
      refine Returns.bind returns_storedNIC ?_
      rintro ⟨nicName, ipCfg⟩ s₂ ⟨rfl, h⟩
      refine returns_ret ?_
      rcases h with ⟨hu, rfl, rfl⟩ | ⟨hn, rfl, hprimary, hsecondary⟩
      case inl =>
        rw [Bool.or_eq_false_iff, Bool.or_eq_false_iff, decide_eq_false_iff_not] at hu
        refine ⟨nic, p, ?_, hp, hs, hq, _, rfl, .inl ⟨hu.left, hu.right.left, rfl, hi⟩⟩
        rw [nodeProfile, hcs, primaryIP_eq, secondaryIP_eq]
      case inr =>
        refine ⟨_, p, ?_, hp, hs, hq, _, rfl, .inr ⟨hn, ⟨s₁.cloud.writes, rfl⟩, ?_⟩⟩
        · rw [nodeProfile, ← hprimary, ← hsecondary]
        · rw [← hi]
          rfl

-- The interface is not updated, and the object does not change, whatever happens to the calls.
def SettledNIC (S : Settings) (P : Platform) (vmConfig : GatewayVMConfiguration) (nic : Azure.Interface)
    (prefixID pool : String) : Prop :=
  ∀ s, Owes (world P S.az) (fun c _ => updatesNIC c = false) (reconcileNIC S vmConfig nic prefixID pool true) s ∧
    Returns (world P S.az) (reconcileNIC S vmConfig nic prefixID pool true) s fun r _ => r.2 = vmConfig

omit [CaseFold] in
theorem buildPublicIPName_ne {name : String} (h : buildPublicIPName S prefixID (val nic.name) = .ok name) :
    name ≠ "" := by
  unfold buildPublicIPName at h
  split at h
  case h_1 => cases h
  case h_2 id _ =>
    rintro rfl
    have hd := congrArg (fun r => (r.toOption.getD "").toList) h
    simp [Except.toOption] at hd

omit [CaseFold] in
theorem guarded_eq {names : List (String × String)} {c : Call} (h : ∀ x ∈ names, x.2 ≠ "") :
    guarded names c = request c := by
  unfold guarded
  rw [List.find?_eq_none.mpr (by simpa using h)]

omit [CaseFold] in
theorem uses_ensuredIP :
    (ensurePublicIP S prefixID nic true).Uses fun c => State → updatesNIC c = false := by
  unfold ensurePublicIP
  split
  · exact uses_ofExcept fun _ _ => uses_bind (uses_guarded fun _ => rfl) fun _ => uses_ret _
  · exact uses_ret _

theorem yields_ensuredIP (h : prefixID = "" ∨ ∃ q, publicIPOf S P prefixID true nic = some q) :
    ∃ s', Yields (world P S.az) (ensurePublicIP S prefixID nic true) s (publicIPOf S P prefixID true nic) s' := by
  unfold ensurePublicIP publicIPOf at *
  split
  case isFalse => exact ⟨s, yields_ret⟩
  case isTrue hp =>
    rcases h with h | ⟨q, hq⟩
    case inl => exact absurd h hp.left
    rw [if_pos hp] at hq
    cases hn : buildPublicIPName S prefixID (val nic.name)
    case error => rw [hn] at hq; cases hq
    case ok name =>
      have hstore : ∃ s', Yields (world P S.az) (createOrUpdatePublicIP name (expectedPublicIP prefixID)) s
          (storedPublicIP S P prefixID name) s' := by
        unfold createOrUpdatePublicIP
        rw [guarded_eq (by simpa using buildPublicIPName_ne hn)]
        exact ⟨_, yields_perform rfl⟩
      obtain ⟨s', hstore⟩ := hstore
      exact ⟨s', hstore.bind yields_ret⟩

-- Nothing but an edit is a reason to update an interface that is in order.
theorem settledNIC_iff {p : InterfaceProperties} (hp : nic.properties = some p)
    (hs : (getGatewayIPConfig p (managedSubresourceName vmConfig)).subnetID ≠ "")
    (hstate : val p.provisioningState ≠ .failed)
    (hf : Filled (nodeProfile (managedSubresourceName vmConfig) nic nic))
    (hq : prefixID = "" ∨ ∃ q, publicIPOf S P prefixID true nic = some q)
    (hrec : recordProfile vmConfig (nodeProfile (managedSubresourceName vmConfig) nic nic) = vmConfig)
    {e : InterfaceProperties × Bool}
    (he : e = editNIC (managedSubresourceName vmConfig) pool true (expectedNICConfig (managedSubresourceName vmConfig)
      (getGatewayIPConfig p (managedSubresourceName vmConfig)).subnetID (publicIPOf S P prefixID true nic)) p)
    (hn : e.2 = true → val nic.name ≠ "") :
    SettledNIC S P vmConfig nic prefixID pool ↔ e.2 = false := by
  have hcs : configsOf nic = nicConfigs p := by rw [configsOf, hp]; rfl
  rw [nodeProfile, hcs, ← primaryIP_eq, ← secondaryIP_eq] at hf hrec
  have hforce : (decide (val p.provisioningState = .failed) || true && incomplete
      ((getGatewayIPConfig p (managedSubresourceName vmConfig)).primaryIP,
       (getGatewayIPConfig p (managedSubresourceName vmConfig)).secondaryIP)) = false := by
    simp [incomplete, hstate, hf.left, hf.right]
  unfold SettledNIC reconcileNIC
  simp only [hp, hforce, Bool.or_false]
  rw [if_neg hs]
  constructor
  case mp =>
    intro h
    by_contra hne
    have hu : e.2 = true := by simpa using hne
    obtain ⟨s', hy⟩ := yields_ensuredIP (S := S) (P := P) (s := {}) hq
    have howes := ((h {}).left.rest hy).first
    rw [← he, hu] at howes
    have hstore : Owes (world P S.az) (fun c _ => updatesNIC c = false)
        (createOrUpdateNetworkInterface (val nic.name) { nic with properties := some e.1 }) s' :=
      wp_mapError.mp howes.first
    unfold createOrUpdateNetworkInterface at hstore
    rw [guarded_eq (by simpa using hn hu)] at hstore
    cases (wp_perform.mp hstore).left
  case mpr =>
    intro hu s
    constructor
    case left =>
      refine Owes.bind (owes_of_uses uses_ensuredIP) returns_ensuredIP ?_
      rintro pip s₁ ⟨rfl, _, _⟩
      rw [← he, hu]
      exact owes_ret
    case right =>
      refine Returns.bind returns_ensuredIP ?_
      rintro pip s₁ ⟨rfl, _, _⟩
      rw [← he, hu]
      exact returns_ret hrec

end Round

section Stored

variable {name pool subnetID : String} {pip : Option PublicIPAddress} {p p' : InterfaceProperties} {now : Nat}
  {nicName : String} {cs : List Config}

theorem Harmless.isTarget_eq {g : Config → Config} (hg : Harmless g) (c : Config) :
    isTarget name (g c) = isTarget name c := by
  have ⟨f, _, he⟩ := hg c
  rw [he]
  match c with
  | none | some ⟨_, none⟩ | some ⟨_, some _⟩ => rfl

theorem GatewayConfigs.primary_not_target {c : Config} (hc : cs.filter isPrimary = [c])
    (hs : (cs.foldl (gatewayIPStep name) {}).subnetID ≠ "") : isTarget name c = false := by
  by_contra ht
  refine hs (subnetID_foldl {} fun d hd hp => ?_)
  have hm : d ∈ cs.filter isPrimary := List.mem_filter.mpr ⟨hd, hp⟩
  rw [hc, List.mem_singleton] at hm
  rw [hm]
  simpa using ht

-- An IP configuration as Azure stores it.
def storedConfig (P : Platform) (pool nicName : String) (now : Nat) (c : Config) : Config :=
  (join pool c).map (P.provisionIPConfiguration now nicName)

theorem harmless_storedConfig : Harmless (storedConfig P pool nicName now) := by
  intro c
  obtain ⟨f, hf, hj⟩ := harmless_join pool c
  obtain ⟨f', hf', hp⟩ := harmless_provision P now nicName (join pool c)
  refine ⟨f' ∘ f, fun q => ⟨(hf' _).left.trans (hf q).left, (hf' _).right.trans (hf q).right⟩, ?_⟩
  rw [storedConfig, hp, hj]
  cases c <;> simp

-- The interface as it is stored has the target, which is looked at next time.
theorem GatewayConfigs.stored (h : GatewayConfigs (nicConfigs p)) (hs : (getGatewayIPConfig p name).subnetID ≠ "")
    (hsub : subnetID = (getGatewayIPConfig p name).subnetID)
    (hp' : nicConfigs p' = (retained name true (expectedNICConfig name subnetID pip) (nicConfigs p)).map
      (storedConfig P pool nicName now)) :
    (getGatewayIPConfig p' name).subnetID = subnetID ∧
    ∃ t, (nicConfigs p').filter (isTarget name) = [t.map (P.provisionIPConfiguration now nicName)] ∧
      isTarget name t = true ∧ t.any (differentNIC · (expectedNICConfig name subnetID pip)) = false ∧
      (editNIC name pool true (expectedNICConfig name subnetID pip) p').2 =
        (t.map (P.provisionIPConfiguration now nicName)).any
          (differentNIC · (expectedNICConfig name subnetID pip)) := by
  obtain ⟨c₀, hc₀, subnet, hsubnet, _⟩ := h.primary
  have hg : Harmless (storedConfig P pool nicName now) := harmless_storedConfig
  have hn := GatewayConfigs.primary_not_target hc₀ hs
  have hone : (nicConfigs p).Pairwise fun c d => ¬(isTarget name c = true ∧ isTarget name d = true) :=
    one_target h.unique
  have hprimary : (retained name true (expectedNICConfig name subnetID pip) (nicConfigs p)).filter isPrimary = [c₀] :=
    retained_primary hc₀ hn rfl
  have hkept : ∃ t, (retained name true (expectedNICConfig name subnetID pip) (nicConfigs p)).find? (isTarget name) = some t ∧
      t.any (differentNIC · (expectedNICConfig name subnetID pip)) = false :=
    retained_target hone (equalFold_refl name) different_expected
  obtain ⟨t, ht, hsame⟩ := hkept
  have htt : isTarget name t = true := List.find?_some ht
  have hgt : storedConfig P pool nicName now t = t.map (P.provisionIPConfiguration now nicName) := by
    simp [storedConfig, join, not_primary_of_same htt hsame]
  have hprimary' : (nicConfigs p').filter isPrimary = [storedConfig P pool nicName now c₀] := by
    rw [hp', List.filter_map, show isPrimary ∘ _ = isPrimary from funext hg.isPrimary_eq, hprimary]
    rfl
  have hpool : inPool pool (storedConfig P pool nicName now c₀) = true := by
    have hc : isPrimary c₀ = true := (List.mem_filter.mp (hc₀ ▸ List.mem_singleton_self c₀)).right
    rw [storedConfig, inPool_provision, inPool_join hc]
  have hone' : (nicConfigs p').Pairwise fun c d => ¬(isTarget name c = true ∧ isTarget name d = true) := by
    rw [hp']
    refine List.pairwise_map.mpr ((retained_pairwise hone).imp fun hcd => ?_)
    rwa [hg.isTarget_eq, hg.isTarget_eq]
  have ht' : (nicConfigs p').find? (isTarget name) = some (storedConfig P pool nicName now t) := by
    rw [hp', List.find?_map, show isTarget name ∘ _ = isTarget name from funext hg.isTarget_eq, ht]
    rfl
  refine ⟨?_, t, ?_, htt, hsame, ?_⟩
  · rw [hsub]
    have hn' : isTarget name (storedConfig P pool nicName now c₀) = false := (hg.isTarget_eq c₀).trans hn
    refine (subnetID_eq {} hprimary' hn' ((hg.subnetOf_eq c₀).trans hsubnet)).trans ?_
    exact (subnetID_eq {} hc₀ hn hsubnet).symm
  · rw [← hgt]
    exact Keyed.filter_of_find? hone' ht'
  · rw [← hgt]
    exact editNIC_flag hone' rfl hprimary' hpool ht'

omit [CaseFold] in
theorem recordProfile_eq (vmConfig : GatewayVMConfiguration) (q : GatewayVMProfile) :
    recordProfile vmConfig q = { vmConfig with
      status := some { vmConfig.status.getD {} with
        gatewayVMProfiles := Keyed.upsert (·.nodeName) q (vmConfig.status.getD {}).gatewayVMProfiles } } := by
  rw [← modifyFirst_upsert]
  rfl

omit [CaseFold] in
theorem recordProfile_self (vmConfig : GatewayVMConfiguration) (q : GatewayVMProfile) :
    recordProfile (recordProfile vmConfig q) q = recordProfile vmConfig q := by
  simp only [recordProfile_eq, Option.getD_some, Keyed.upsert_self]

end Stored

section Second

variable {s : State} {vmConfig vmConfig' : GatewayVMConfiguration} {nic nic' : Azure.Interface}
  {name prefixID pool ip : String} {p : InterfaceProperties} {nics nics' : List Azure.Interface}

theorem properties_publicIPOf : ∀ q ∈ publicIPOf S P prefixID true nic, q.properties.isSome = true := by
  intro q hq
  unfold publicIPOf at hq
  split at hq
  case isTrue =>
    obtain ⟨_, _, rfl⟩ := Option.map_eq_some_iff.mp hq
    rfl
  case isFalse => cases hq

theorem inFull_iff {t : Config} (h : (configsOf nic).filter (isTarget name) = [t]) :
    InFull name nic ↔ ∀ q ∈ publicIP t, q.properties.isSome = true := by
  have hmem : ∀ c, c ∈ configsOf nic ∧ isTarget name c = true ↔ c = t := fun c => by
    rw [← List.mem_filter, h, List.mem_singleton]
  constructor
  · exact fun hf => hf t ((hmem t).mpr rfl).left ((hmem t).mpr rfl).right
  · intro hf c hc ht
    rw [(hmem c).mp ⟨hc, ht⟩]
    exact hf

-- Whether the interface is edited again.
theorem RoundNIC.edited_iff (h : RoundNIC S P name prefixID pool nic nic' nics nics' p)
    (hg : GatewayConfigs (configsOf nic)) :
    ∃ p', nic'.properties = some p' ∧ (getGatewayIPConfig p' name).subnetID ≠ "" ∧
      val p'.provisioningState ≠ .failed ∧
      ((editNIC name pool true (expectedNICConfig name (getGatewayIPConfig p' name).subnetID
        (publicIPOf S P prefixID true nic')) p').2 = true → val nic'.name ≠ "") ∧
      ((editNIC name pool true (expectedNICConfig name (getGatewayIPConfig p' name).subnetID
        (publicIPOf S P prefixID true nic')) p').2 = false ↔ prefixID = "" ∨ InFull name nic') := by
  have hcs : configsOf nic = nicConfigs p := by rw [configsOf, h.properties]; rfl
  rw [hcs] at hg
  have hone : (nicConfigs p).Pairwise fun c d => ¬(isTarget name c = true ∧ isTarget name d = true) :=
    one_target hg.unique
  obtain ⟨e, he, ⟨hf, hstate, rfl, _⟩ | ⟨hn, ⟨now, rfl⟩, _⟩⟩ := h.edit
  case inl =>
    rw [he] at hf
    refine ⟨p, h.properties, h.subnet, hstate, fun ht => ?_, iff_of_true hf (.inr ?_)⟩
    · rw [hf] at ht
      cases ht
    · obtain ⟨t, ht, hsame⟩ := target_of_kept hone rfl hf
      rw [inFull_iff (hcs ▸ ht)]
      refine properties_of_same ?_ properties_publicIPOf hsame
      exact (List.mem_filter.mp (ht ▸ List.mem_singleton_self t)).right
  case inr =>
    obtain ⟨c₀, hc₀, _⟩ := hg.primary
    have hconfigs : e.1.ipConfigurations = _ := he ▸ editNIC_configs_eq hone rfl
      (retained_primary hc₀ (GatewayConfigs.primary_not_target hc₀ h.subnet) rfl)
    obtain ⟨p', hp', hp⟩ : ∃ p', p' = { e.1 with
        provisioningState := some .succeeded
        ipConfigurations := e.1.ipConfigurations.map
          (·.map (Option.map (P.provisionIPConfiguration now (val nic.name)))) } ∧
        (P.provisionNIC now { nic with properties := some e.1 }).properties = some p' := ⟨_, rfl, rfl⟩
    have hcs' : nicConfigs p' = (retained name true (expectedNICConfig name (getGatewayIPConfig p name).subnetID
        (publicIPOf S P prefixID true nic)) (nicConfigs p)).map (storedConfig P pool (val nic.name) now) := by
      rw [hp', nicConfigs, hconfigs]
      exact List.map_map
    obtain ⟨hsub, t, hfilter, ht, hsame, hflag⟩ := hg.stored h.subnet rfl hcs'
    have hpip : publicIPOf S P prefixID true (P.provisionNIC now { nic with properties := some e.1 }) =
      publicIPOf S P prefixID true nic := publicIPOf_congr rfl
    refine ⟨p', hp, hsub ▸ h.subnet, by simp [hp', val], fun _ => hn, ?_⟩
    have hfull : InFull name _ ↔ _ := inFull_iff (by rw [configsOf, hp]; exact hfilter)
    rw [hpip, hsub, hflag, same_provision ht properties_publicIPOf hsame, hfull]
    refine ⟨.inr, ?_⟩
    rintro (rfl | hf)
    case inr => exact hf
    case inl =>
      rw [publicIPOf_none] at hsame
      rw [publicIP_provision, publicIP_of_none ht hsame]
      simp

-- The interface after the round, found again among all interfaces.
theorem RoundNIC.eq_of_mem {x : Azure.Interface} (h : RoundNIC S P name prefixID pool nic nic' nics nics' p)
    (hd : Distinct nics) (hm : nic ∈ nics) (hx : x ∈ nics') (hn : x.name = nic.name) : x = nic' := by
  obtain ⟨e, _, ⟨_, _, rfl, rfl⟩ | ⟨_, ⟨now, hnic'⟩, rfl⟩⟩ := h.edit
  case inl => exact eq_of_equalFold hd hx hm (by rw [hn, equalFold_refl])
  case inr =>
    obtain ⟨y, hy, rfl⟩ := List.mem_map.mp hx
    split at hn
    case isTrue he => rw [if_pos he]
    case isFalse he => exact absurd (hn ▸ equalFold_refl _) he

end Second

end Manager

namespace Manager

namespace Sample

-- Shows the public IP addresses of interfaces by their IDs.
def byID : Platform :=
  { Platform.simple with
    readPublicIP    := fun p => ⟨none, p.id, none⟩
    readPublicIP_eq := fun _ => .inr rfl }

def nicOutcome (P : Platform) (prefixID : String) : Outcome Sig State (String × GatewayVMConfiguration) :=
  run (world P settings.az) .calm 0
    (reconcileNIC settings (egress prefixID) gatewayNIC prefixID (backendOf settings "gw") true) nicState

def nicAfter (P : Platform) (prefixID : String) : Azure.Interface :=
  (nicOutcome P prefixID).state.cloud.interfaces.headD gatewayNIC

def profiled (P : Platform) (prefixID : String) : GatewayVMConfiguration :=
  (nicOutcome P prefixID).result.toOption.elim (egress prefixID) (·.2)

theorem nicOutcome_ok {P : Platform} {prefixID : String} (h : (nicOutcome P prefixID).result.isOk = true) :
    ∃ ip, (nicOutcome P prefixID).result = .ok (ip, profiled P prefixID) := by
  have ⟨⟨ip, vmConfig⟩, hr⟩ := ok_of_isOk h
  exact ⟨ip, by simp [profiled, hr, Except.toOption]⟩

def userPrefixID := Platform.simple.prefixID "rg" "mine"

end Sample

end Manager
