import EgressGateway.Base.Keyed
import EgressGateway.Manager.AgentPoolVMs
import EgressGateway.Manager.Theorems.Platform
import Mathlib.Data.List.Nodup

-- What a reconcile of a pool of virtual machines leaves behind: the interfaces of the gateway nodes are
-- edited one by one, everything else stays as it is.

open Kubernetes Azure Text Program Keyed

namespace Manager

variable [CaseFold] {S : Settings} {P : Platform} {s : State}

namespace Cloud

-- The cloud after a public IP address, or an interface, has been written.

def putPublicIP (c : Cloud) (pip : PublicIPAddress) : Cloud :=
  { c with
    publicIPs := c.publicIPs.filter (!publicIPNamed (val pip.name) ·) ++ [pip]
    writes    := c.writes + 1 }

def putNIC (P : Platform) (c : Cloud) (nic : Azure.Interface) : Cloud :=
  { c with
    interfaces := c.interfaces.map fun n =>
      if equalFold (val n.name) (val nic.name) then P.provisionNIC c.writes nic else n
    writes := c.writes + 1 }

end Cloud

theorem returns_guarded {names : List (String × String)} {c : Call} {Q : Reply c → State → Prop}
    (h : ∀ a, (State.serve P S.az c s).1 = .ok a → Q a (State.serve P S.az c s).2) :
    Returns (world P S.az) (guarded names c) s Q := by
  unfold guarded
  split
  · exact returns_throw
  · exact returns_perform h

-- The public IP address as Azure stores it.
def storedPublicIP (S : Settings) (P : Platform) (ipPrefixID name : String) : PublicIPAddress :=
  { expectedPublicIP ipPrefixID with
    name := some name
    id   := some (P.publicIPID (S.az.orDefault "") name) }

-- The public IP address that is attached to an interface.
def publicIPOf (S : Settings) (P : Platform) (ipPrefixID : String) (wantIPConfig : Bool)
    (nic : Azure.Interface) : Option PublicIPAddress :=
  if ipPrefixID ≠ "" ∧ wantIPConfig = true then
    (buildPublicIPName S ipPrefixID (val nic.name)).toOption.map (storedPublicIP S P ipPrefixID)
  else none

theorem returns_createOrUpdatePublicIP {ipPrefixID name : String} :
    Returns (world P S.az) (createOrUpdatePublicIP name (expectedPublicIP ipPrefixID)) s fun pip s' =>
      pip = storedPublicIP S P ipPrefixID name ∧
      s' = { s with cloud := s.cloud.putPublicIP (storedPublicIP S P ipPrefixID name) } :=
  returns_guarded fun _ h => ⟨(Except.ok.inj h).symm, rfl⟩

theorem returns_createOrUpdateNetworkInterface {nic : Azure.Interface} :
    Returns (world P S.az) (createOrUpdateNetworkInterface (val nic.name) nic) s fun _ s' =>
      s' = { s with cloud := s.cloud.putNIC P nic } :=
  returns_guarded fun _ _ => rfl

theorem returns_ensurePublicIP {ipPrefixID : String} {nic : Azure.Interface} {want : Bool} :
    Returns (world P S.az) (ensurePublicIP S ipPrefixID nic want) s fun pip s' =>
      pip = publicIPOf S P ipPrefixID want nic ∧
      s' = { s with cloud := pip.elim s.cloud s.cloud.putPublicIP } := by
  unfold ensurePublicIP publicIPOf
  split
  case isFalse h => exact returns_ret ⟨rfl, rfl⟩
  case isTrue h =>
    refine returns_ofExcept fun name hn => Returns.bind returns_createOrUpdatePublicIP ?_
    rintro pip s' ⟨rfl, rfl⟩
    exact returns_ret ⟨by rw [hn]; rfl, rfl⟩

theorem returns_storeNIC {ipConfigName : String} {nic : Azure.Interface} {ipCfg : GatewayIPConfig}
    {update : Bool} :
    Returns (world P S.az) (storeNIC ipConfigName nic ipCfg update) s fun _ s' =>
      s' = { s with cloud := if update then s.cloud.putNIC P nic else s.cloud } := by
  unfold storeNIC
  split
  case isFalse => exact returns_ret (by simp)
  case isTrue h =>
    refine Returns.bind returns_createOrUpdateNetworkInterface.mapError fun n s' hs => ?_
    split
    · exact returns_throw
    · exact returns_ret (by simpa [h] using hs)

-- What becomes of the properties of an interface, and whether this is a change.
def Edits (ipConfigName lbBackendpoolID : String) (wantIPConfig : Bool) (nic : Azure.Interface)
    (pip : Option PublicIPAddress) (e : InterfaceProperties × Bool) : Prop :=
  ∃ p, nic.properties = some p ∧ (getGatewayIPConfig p ipConfigName).subnetID ≠ "" ∧
    e = editNIC ipConfigName lbBackendpoolID wantIPConfig
      (expectedNICConfig ipConfigName (getGatewayIPConfig p ipConfigName).subnetID pip) p

-- An interface before and after it has been dealt with.
def EditedNIC (S : Settings) (P : Platform) (ipConfigName ipPrefixID lbBackendpoolID : String)
    (wantIPConfig : Bool) (nic nic' : Azure.Interface) : Prop :=
  ∃ e, Edits ipConfigName lbBackendpoolID wantIPConfig nic (publicIPOf S P ipPrefixID wantIPConfig nic) e ∧
    (e.2 = false ∧ nic' = nic ∨ ∃ now, nic' = P.provisionNIC now { nic with properties := some e.1 })

-- One round of the loop over the interfaces.
def NICStep (S : Settings) (P : Platform) (ipConfigName ipPrefixID lbBackendpoolID : String)
    (wantIPConfig : Bool) (nic : Azure.Interface) (c c' : Cloud) : Prop :=
  let pip := publicIPOf S P ipPrefixID wantIPConfig nic
  let c₁ := pip.elim c c.putPublicIP
  ∃ e, Edits ipConfigName lbBackendpoolID wantIPConfig nic pip e ∧
    (e.2 = false ∧ c' = c₁ ∨ c' = c₁.putNIC P { nic with properties := some e.1 })

theorem nicStep_of_edit {name prefixID pool : String} {want : Bool} {nic : Azure.Interface} {c : Cloud}
    {e : InterfaceProperties × Bool} (force : Bool)
    (h : Edits name pool want nic (publicIPOf S P prefixID want nic) e) :
    NICStep S P name prefixID pool want nic c
      (if e.2 || force then
        Cloud.putNIC P ((publicIPOf S P prefixID want nic).elim c c.putPublicIP)
          { nic with properties := some e.1 }
      else (publicIPOf S P prefixID want nic).elim c c.putPublicIP) := by
  refine ⟨e, h, ?_⟩
  split
  case isTrue  => exact .inr rfl
  case isFalse hf => exact .inl ⟨(Bool.or_eq_false_iff.mp (Bool.not_eq_true _ ▸ hf)).left, rfl⟩

theorem returns_reconcileNIC {vmConfig : GatewayVMConfiguration} {nic : Azure.Interface}
    {ipPrefixID pool : String} {want : Bool} :
    Returns (world P S.az) (reconcileNIC S vmConfig nic ipPrefixID pool want) s fun r s' =>
      (r.2.meta_ = vmConfig.meta_ ∧ r.2.spec = vmConfig.spec) ∧ s'.api = s.api ∧
      NICStep S P (managedSubresourceName vmConfig) ipPrefixID pool want nic s.cloud s'.cloud := by
  unfold reconcileNIC
  cases hp : nic.properties
  case none => exact returns_throw
  case some p =>
    dsimp only
    split
    case isTrue => exact returns_throw
    case isFalse hs =>
      refine Returns.bind returns_ensurePublicIP ?_
      rintro pip s₁ ⟨rfl, rfl⟩
      refine Returns.bind returns_storeNIC ?_
      rintro ⟨nicName, ipCfg⟩ s₂ rfl
      have hstep : ∀ force, NICStep S P (managedSubresourceName vmConfig) ipPrefixID pool want nic s.cloud _ :=
        fun force => nicStep_of_edit force ⟨p, hp, hs, rfl⟩
      split
      all_goals exact returns_ret ⟨⟨rfl, rfl⟩, rfl, hstep _⟩

-- The effect of a whole reconcile on the cloud, the gateway nodes of which have the interfaces `nics`.
structure VMsEffect (S : Settings) (P : Platform) (ipConfigName ipPrefixID lbBackendpoolID : String)
    (wantIPConfig : Bool) (nics : List Azure.Interface) (c c' : Cloud) : Prop where
  rest       : ∃ nics pips n, c' = { c with interfaces := nics, publicIPs := pips, writes := n }
  interfaces : List.Forall₂ (fun n n' =>
      if n ∈ nics then EditedNIC S P ipConfigName ipPrefixID lbBackendpoolID wantIPConfig n n' else n' = n)
    c.interfaces c'.interfaces
  publicIPs  : ∀ q ∈ c'.publicIPs,
    (q ∈ c.publicIPs ∧ ∀ n ∈ nics, ∀ r ∈ publicIPOf S P ipPrefixID wantIPConfig n,
      publicIPNamed (val r.name) q = false) ∨
    ∃ n ∈ nics, publicIPOf S P ipPrefixID wantIPConfig n = some q

-- Azure identifies the interfaces of a resource group by their names.
def Distinct (nics : List Azure.Interface) : Prop :=
  (nics.map fun n => foldKey (val n.name)).Nodup

-- Only the names matter for that.
theorem Distinct.congr {nics nics' : List Azure.Interface} (hd : Distinct nics)
    (h : List.Forall₂ (fun n n' => n'.name = n.name) nics nics') : Distinct nics' := by
  have hnames : nics'.map (fun n => foldKey (val n.name)) = nics.map fun n => foldKey (val n.name) := by
    refine List.forall₂_eq_eq_eq ▸ List.forall₂_map_left_iff.mpr (List.forall₂_map_right_iff.mpr ?_)
    exact h.flip.imp fun _ _ hn => by rw [hn]
  rw [Distinct, hnames]
  exact hd

section Effect

variable {name prefixID pool : String} {want : Bool} {nics : List Azure.Interface}
  {nic nic' : Azure.Interface} {c c' c'' : Cloud}

theorem VMsEffect.refl : VMsEffect S P name prefixID pool want [] c c where
  rest       := ⟨_, _, _, rfl⟩
  interfaces := List.forall₂_same.mpr fun n _ => by simp
  publicIPs  := fun q hq => .inl ⟨hq, nofun⟩

theorem name_provisionNIC {now : Nat} : (P.provisionNIC now nic).name = nic.name := rfl

theorem EditedNIC.name_eq (h : EditedNIC S P name prefixID pool want nic nic') : nic'.name = nic.name := by
  obtain ⟨e, _, ⟨_, rfl⟩ | ⟨now, rfl⟩⟩ := h <;> rfl

theorem EditedNIC.tags_eq (h : EditedNIC S P name prefixID pool want nic nic') : nic'.tags = nic.tags := by
  obtain ⟨e, _, ⟨_, rfl⟩ | ⟨now, rfl⟩⟩ := h <;> rfl

theorem eq_of_equalFold {nic₁ nic₂ : Azure.Interface} (hd : Distinct nics) (h₁ : nic₁ ∈ nics)
    (h₂ : nic₂ ∈ nics) (h : equalFold (val nic₁.name) (val nic₂.name) = true) : nic₁ = nic₂ :=
  List.inj_on_of_nodup_map hd h₁ h₂ (equalFold_iff.mp h)

-- The public IP address is taken care of before the interface.
theorem VMsEffect.ensureIP (h : VMsEffect S P name prefixID pool want nics c c')
    (nic : Azure.Interface) : ∀ q ∈ ((publicIPOf S P prefixID want nic).elim c' c'.putPublicIP).publicIPs,
      (q ∈ c.publicIPs ∧ ∀ n ∈ nics ++ [nic], ∀ r ∈ publicIPOf S P prefixID want n,
        publicIPNamed (val r.name) q = false) ∨
      ∃ n ∈ nics ++ [nic], publicIPOf S P prefixID want n = some q := by
  intro q hq
  have hold : q ∈ c'.publicIPs → (∀ r ∈ publicIPOf S P prefixID want nic, publicIPNamed (val r.name) q = false) →
      (q ∈ c.publicIPs ∧ ∀ n ∈ nics ++ [nic], ∀ r ∈ publicIPOf S P prefixID want n,
        publicIPNamed (val r.name) q = false) ∨
      ∃ n ∈ nics ++ [nic], publicIPOf S P prefixID want n = some q := by
    intro hq hn
    rcases h.publicIPs q hq with ⟨hc, ho⟩ | ⟨n, hm, he⟩
    · refine .inl ⟨hc, fun n hm => ?_⟩
      rcases List.mem_append.mp hm with hm | hm
      · exact ho n hm
      · exact List.mem_singleton.mp hm ▸ hn
    · exact .inr ⟨n, List.mem_append_left _ hm, he⟩
  cases hp : publicIPOf S P prefixID want nic
  case none =>
    rw [hp] at hq
    exact hold hq (by simp [hp])
  case some r =>
    rw [hp] at hq
    rcases List.mem_append.mp hq with hq | hq
    · have ⟨hm, hf⟩ := List.mem_filter.mp hq
      exact hold hm (by simpa [hp] using hf)
    · obtain rfl := List.mem_singleton.mp hq
      exact .inr ⟨nic, by simp, hp⟩

theorem VMsEffect.step (hd : Distinct c.interfaces) (hm : nic ∈ c.interfaces)
    (h : VMsEffect S P name prefixID pool want nics c c')
    (hs : NICStep S P name prefixID pool want nic c' c'') :
    VMsEffect S P name prefixID pool want (nics ++ [nic]) c c'' := by
  have hips := h.ensureIP nic
  have ⟨e, he, hs⟩ := hs
  have ⟨is, ps, w, hrest⟩ := h.rest
  have hc₁ : ∃ ps w, (publicIPOf S P prefixID want nic).elim c' c'.putPublicIP =
      { c with interfaces := is, publicIPs := ps, writes := w } := by
    cases publicIPOf S P prefixID want nic
    case none   => exact ⟨ps, w, hrest⟩
    case some q => exact ⟨_, _, by rw [hrest]; rfl⟩
  obtain ⟨ps', w', hc₁⟩ := hc₁
  have hi := h.interfaces
  rw [hrest] at hi
  rcases hs with ⟨hf, rfl⟩ | rfl
  case inl =>
    refine ⟨⟨_, _, _, hc₁⟩, ?_, hips⟩
    rw [hc₁]
    refine forall₂_imp_of_mem hi fun n _ n' hn => ?_
    by_cases hnic : n ∈ nics
    · rw [if_pos (List.mem_append_left _ hnic)]
      rwa [if_pos hnic] at hn
    · rw [if_neg hnic] at hn
      split
      case isTrue hnic' =>
        obtain rfl : n = nic := List.mem_singleton.mp ((List.mem_append.mp hnic').resolve_left hnic)
        exact ⟨e, he, .inl ⟨hf, hn⟩⟩
      case isFalse => exact hn
  case inr =>
    rw [hc₁] at hips ⊢
    refine ⟨⟨_, _, _, rfl⟩, ?_, hips⟩
    refine List.forall₂_map_right_iff.mpr <| forall₂_imp_of_mem hi fun n hmn n' hn => ?_
    have hname : n'.name = n.name := by
      split at hn
      · exact hn.name_eq
      · rw [hn]
    dsimp only
    rw [hname]
    by_cases hnic : n = nic
    case pos =>
      subst hnic
      rw [if_pos (equalFold_refl _), if_pos (by simp)]
      exact ⟨e, he, .inr ⟨_, rfl⟩⟩
    case neg =>
      rw [if_neg fun hf => hnic (eq_of_equalFold hd hmn hm hf)]
      simpa [hnic] using hn

end Effect

theorem returns_reconcileVMs_api {agentPoolName ipPrefixID : String} {vmConfig : GatewayVMConfiguration}
    {want : Bool} :
    Returns (world P S.az) (reconcileVMs S agentPoolName vmConfig ipPrefixID want) s fun r s' =>
      r.2.meta_ = vmConfig.meta_ ∧ s'.api = s.api := by
  let J (acc : List String × GatewayVMConfiguration) (_ : List Azure.Interface) (s' : State) : Prop :=
    acc.2.meta_ = vmConfig.meta_ ∧ s'.api = s.api
  refine Returns.bind (P := fun _ s' => s' = s) (returns_perform fun _ _ => rfl) ?_
  rintro nics s' rfl
  refine returns_forFold (J := J) [] ⟨rfl, rfl⟩ ?_
  rintro ⟨ips, vc⟩ _ nic _ s₁ ⟨hm, ha⟩
  refine Returns.bind returns_reconcileNIC ?_
  rintro ⟨ip, vc'⟩ s₂ ⟨hv, ha', _⟩
  exact returns_ret ⟨hv.left.trans hm, ha'.trans ha⟩

theorem returns_reconcileVMs {agentPoolName ipPrefixID : String} {vmConfig : GatewayVMConfiguration}
    {want : Bool} (hd : Distinct s.cloud.interfaces) :
    Returns (world P S.az) (reconcileVMs S agentPoolName vmConfig ipPrefixID want) s fun r s' =>
      (r.2.meta_ = vmConfig.meta_ ∧ r.2.spec = vmConfig.spec) ∧ s'.api = s.api ∧
      VMsEffect S P (managedSubresourceName vmConfig) ipPrefixID
        (S.az.getLBBackendAddressPoolID (S.newMD5 agentPoolName)) want
        (s.cloud.interfaces.filter (isGatewayNIC vmConfig.spec.gatewayNodepoolName)) s.cloud s'.cloud := by
  let J (acc : List String × GatewayVMConfiguration) (done : List Azure.Interface) (s' : State) : Prop :=
    (acc.2.meta_ = vmConfig.meta_ ∧ acc.2.spec = vmConfig.spec) ∧ s'.api = s.api ∧
    VMsEffect S P (managedSubresourceName vmConfig) ipPrefixID
      (S.az.getLBBackendAddressPoolID (S.newMD5 agentPoolName)) want done s.cloud s'.cloud
  unfold reconcileVMs
  refine Returns.bind (P := fun nics s' => s' = s ∧ nics.filterMap id = s.cloud.interfaces)
    (returns_perform fun nics hn => ?_) ?_
  case refine_1 =>
    obtain rfl := Except.ok.inj hn
    exact ⟨rfl, by simp⟩
  case refine_2 =>
    rintro nics s' ⟨rfl, hn⟩
    rw [hn]
    refine returns_forFold (J := J) [] ⟨⟨rfl, rfl⟩, rfl, .refl⟩ ?_
    rintro ⟨ips, vc⟩ done nic hm s₁ ⟨hv, ha, he⟩
    refine Returns.bind returns_reconcileNIC ?_
    rintro ⟨ip, vc'⟩ s₂ ⟨hv', ha', hs⟩
    have hname : managedSubresourceName vc = managedSubresourceName vmConfig := by
      rw [managedSubresourceName, hv.left, managedSubresourceName]
    rw [hname] at hs
    refine returns_ret ⟨⟨hv'.left.trans hv.left, hv'.right.trans hv.right⟩, ha'.trans ha, ?_⟩
    exact he.step hd (List.mem_filter.mp hm).left hs

end Manager
