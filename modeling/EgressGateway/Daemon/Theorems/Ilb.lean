import EgressGateway.Daemon.Theorems.Sparing

-- The address of the load balancer on the host, over the life of a node.

open Kubernetes Text Net Program

namespace Daemon

def Node.eth0 (s : Node) : List Addr :=
  ((s.link .host "eth0").map (·.addrs)).getD []

-- The address of the load balancer in the subnet of the node.
def ilbNet (m : Metadata) (ip : String) : Option IPNet :=
  (m.subnetPrefix.bind atoi).bind fun subnetPrefix => parseIPNet (ip ++ "/" ++ toString subnetPrefix)

def ilbAddr (net : IPNet) : Addr where
  net   := net
  label := ilbIPLabel

def isIlb (a : Addr) : Bool :=
  a.label = ilbIPLabel

theorem ilbAddrs_eq (s : Node) : s.ilbAddrs = s.eth0.filter isIlb := by
  unfold Node.ilbAddrs Node.eth0
  cases s.link .host "eth0" <;> rfl

section Beside

variable {α β : Type} {s : Node} {c : Call}

-- Calls that leave `eth0` alone. Links of WireGuard are not part of a pair.
def Beside : Call → Prop
  | .linkAdd l   => l.name ≠ "eth0"
  | .vethAdd     => True
  | .linkSetNs n => n ≠ "eth0"
  | .linkDel _ n => hasPrefix n wireguardLinkNamePrefix = true
  | c            => c.writes (.links .host) = false

theorem findLink_addLink {n : Netns} {l : Link} {name : String} (h : l.name ≠ name) :
    (n.addLink l).findLink name = n.findLink name := by
  simp [Netns.addLink, Netns.findLink, List.find?_append, h]

theorem link_onHost {f : Netns → Except Err Netns} {name : String}
    (h : ∀ n n', f n = .ok n' → n'.findLink name = n.findLink name) :
    (s.onNetns .host f).2.link .host name = s.link .host name := by
  rcases Node.onNetns_cases s .host f with ⟨_, hs⟩ | ⟨n, n', hn, hf, _, hs⟩
  · rw [hs]
  · rw [hs, Node.link_setNetns, if_pos rfl, h n n' hf, Node.link_of_netns hn]

theorem eth0_serve (h : Beside c) : (Node.serve c s).2.link .host "eth0" = s.link .host "eth0" := by
  cases c
  case linkAdd l =>
    refine link_onHost fun n n' hf => ?_
    split at hf
    · nomatch hf
    · exact Except.ok.inj hf ▸ findLink_addLink h
  case vethAdd =>
    refine link_onHost fun n n' hf => ?_
    split at hf
    · nomatch hf
    · rw [← Except.ok.inj hf, findLink_addLink (by decide), findLink_addLink (by decide)]
  case linkSetNs n =>
    simp only [Node.serve, Node.moveLink]
    split
    case h_1 | h_2 => rfl
    case h_3 =>
      split
      case isTrue => rfl
      case isFalse => exact Node.findLink_dropLink.trans (if_neg (Ne.symm h))
  case linkDel ns n =>
    have hp : ∀ l, s.link ns n = some l → l.peer = none :=
      fun l hl => l.unpaired (Node.link_name hl ▸ h)
    rw [Node.link_linkDel hp, if_neg]
    rintro ⟨-, rfl⟩
    have hn : hasPrefix "eth0" wireguardLinkNamePrefix = false := by decide +kernel
    exact Bool.false_ne_true (hn.symm.trans h)
  all_goals exact Node.serve_link h

-- A program that leaves `eth0` alone if it returns.
def Keeps (p : M α) : Prop :=
  ∀ s, Returns world p s fun _ s' => s'.link .host "eth0" = s.link .host "eth0"

variable {p : M α}

theorem keeps_of_uses (h : p.Uses Beside) : Keeps p := fun _ =>
  wp_mono (wp_of_uses (R := fun s s' : Node => s'.link .host "eth0" = s.link .host "eth0") (fun _ => rfl)
    (fun h h' => h'.trans h) (fun _ _ => eth0_serve) h fun _ _ _ => trivial) fun _ _ h _ _ => h

theorem Keeps.bind {f : α → M β} (h : Keeps p) (hf : ∀ a, Keeps (f a)) : Keeps (p.bind f) := fun s =>
  (h s).bind fun a s' hs => (hf a s').mono fun _ _ hs' => hs'.trans hs

theorem Keeps.wrapError {context : String} (h : Keeps p) : Keeps (wrapError context p) := fun s =>
  returns_wrapError (h s)

theorem Keeps.onFailure {deferred : M Unit} (h : Keeps p) : Keeps (onFailure p deferred) := fun s =>
  returns_onFailure (h s)

theorem keeps_request (h : Beside c) : Keeps (request c) :=
  keeps_of_uses (uses_request h)

end Beside

section Addresses

variable {s : Node} {a : Addr} {m : Metadata}

theorem eth0_of_link {s' : Node} (h : s'.link .host "eth0" = s.link .host "eth0") : s'.eth0 = s.eth0 := by
  rw [Node.eth0, h, Node.eth0]

theorem eth0_addrDel : (Node.serve (.addrDel .host "eth0" a) s).2.eth0 = s.eth0.erase a := by
  unfold Node.eth0
  rw [Node.link_addrDel, if_pos ⟨rfl, rfl⟩]
  cases s.link .host "eth0" <;> rfl

theorem eth0_addrAdd (h : (Node.serve (.addrAdd .host "eth0" a) s).1 = .ok ()) :
    (Node.serve (.addrAdd .host "eth0" a) s).2.eth0 = s.eth0 ++ [a] := by
  obtain ⟨l, l', hl, hf⟩ := Node.onLink_ok.mp h
  split at hf
  case isTrue => cases hf
  case isFalse hs =>
    unfold Node.eth0
    rw [Node.link_addrAdd, if_pos ⟨rfl, rfl⟩, hl, Option.map_some, if_neg hs]
    rfl

theorem returns_addresses {context : String} :
    Returns world (wrapError context (request (.addrList .host "eth0"))) s
      fun as s' => s' = s ∧ as = s.eth0 := by
  refine returns_wrapError (returns_perform fun as h => ⟨Node.serve_reads rfl, ?_⟩)
  obtain ⟨l, hl, he⟩ := Node.lookLink_ok.mp h
  rw [Node.eth0, hl, ← Except.ok.inj he]
  rfl

theorem diff_filter (p : Addr → Bool) (as : List Addr) : as.diff (as.filter p) = as.filter (!p ·) := by
  induction as
  case nil => rfl
  case cons a as hi =>
    cases h : p a
    case true => simp [h, hi]
    case false =>
      have hn : a ∉ as.filter p := fun hm => by simp [h] at hm
      simp [h, List.cons_diff_of_not_mem hn, hi]

-- The loops over the addresses of `eth0` that delete some of them.
theorem returns_deleteAddrs {context : String} (P : Addr → Prop) [DecidablePred P] (as : List Addr) :
    Returns world (forEach as fun a =>
        if P a then wrapError context (request (.addrDel .host "eth0" a)) else ret ()) s
      fun _ s' => s'.eth0 = s.eth0.diff (as.filter P) := by
  refine returns_forEach (J := fun done (s' : Node) => s'.eth0 = s.eth0.diff (done.filter P)) [] rfl
    fun done a _ s' hs => ?_
  split
  case isTrue h =>
    refine returns_wrapError (returns_perform fun _ _ => ?_)
    rw [List.filter_append, List.diff_append, ← hs]
    exact eth0_addrDel.trans (by simp [h])
  case isFalse h => exact returns_ret (by simpa [h] using hs)

theorem returns_removeIlb : Returns world (reconcileIlbIPOnHost m "") s
    fun _ s' => s'.eth0 = s.eth0.filter (!isIlb ·) := by
  refine (returns_wrapError (returns_perform (P := fun _ s' => s' = s)
    fun _ _ => Node.serve_reads rfl)).bind fun _ s₁ h₁ => ?_
  obtain rfl := h₁
  refine returns_orError fun k hk => returns_orError fun i hi => ?_
  refine returns_addresses.bind fun as s₂ h₂ => ?_
  obtain ⟨rfl, rfl⟩ := h₂
  rw [if_pos rfl, ← diff_filter]
  exact returns_deleteAddrs (·.label = ilbIPLabel) s₂.eth0

-- What a reconcile makes of the addresses: the new one is added unless its IP is present.
def withIlb (net : IPNet) (as : List Addr) : List Addr :=
  if as.any (·.net.ip = net.ip) then as else as ++ [ilbAddr net]

theorem returns_addIlb {ip : String} (h : ip ≠ "") : Returns world (reconcileIlbIPOnHost m ip) s
    fun _ s' => ∃ net, ilbNet m ip = some net ∧ s'.eth0 = withIlb net s.eth0 := by
  refine (returns_wrapError (returns_perform (P := fun _ s' => s' = s)
    fun _ _ => Node.serve_reads rfl)).bind fun _ s₁ h₁ => ?_
  obtain rfl := h₁
  refine returns_orError fun k hk => returns_orError fun i hi => ?_
  refine returns_addresses.bind fun as s₂ h₂ => ?_
  obtain ⟨rfl, rfl⟩ := h₂
  rw [if_neg h]
  refine returns_orError fun net hn => ?_
  have hnet : ilbNet m ip = some net := by rw [ilbNet, hk, Option.bind_some, hi]; exact hn
  split
  case isTrue ha => exact returns_ret ⟨net, hnet, (if_pos ha).symm⟩
  case isFalse ha =>
    refine returns_wrapError (returns_perform fun _ hok => ⟨net, hnet, ?_⟩)
    exact (eth0_addrAdd hok).trans (if_neg ha).symm

theorem returns_removeSecondary {ip : String} : Returns world (removeSecondaryIpFromHost ip) s
    fun _ s' => s'.eth0 = s.eth0.filter (·.net.ip.text ≠ ip) := by
  have hl : Returns world eth0Addresses s fun as s' => s' = s ∧ as = s.eth0 := by
    refine (returns_wrapError (returns_perform (P := fun _ s' => s' = s)
      fun _ _ => Node.serve_reads rfl)).bind fun _ s₁ h₁ => ?_
    obtain rfl := h₁
    exact returns_addresses
  refine hl.bind fun as s₂ h₂ => ?_
  obtain ⟨rfl, rfl⟩ := h₂
  refine (returns_deleteAddrs (·.net.ip.text = ip) s₂.eth0).mono fun _ s' hs => ?_
  rw [hs, diff_filter]
  simp

theorem returns_getVMIP {gwConfig : StaticGatewayConfiguration} :
    Returns world (getVMIP m gwConfig) s
      fun ips s' => s' = s ∧ secondaryIP? m s.api gwConfig = some ips.2 := by
  refine (returns_perform (P := fun v s' => s' = s ∧
    s.api.vmConfigs.find? (·.meta_.key = gwConfig.meta_.key) = some v) fun v hv => ?_).bind ?_
  · refine ⟨Node.serve_reads rfl, ?_⟩
    change (s.reply _ _).1 = _ at hv
    cases hf : s.api.vmConfigs.find? (·.meta_.key = gwConfig.meta_.key)
    case none   => rw [hf] at hv; nomatch hv
    case some w => rw [hf] at hv; exact congrArg some (Except.ok.inj hv)
  · rintro v s' ⟨rfl, hv⟩
    refine wp_ofExcept.mpr fun ips hips => ⟨rfl, ?_⟩
    simp [secondaryIP?, hv, hips, Except.toOption]

theorem uses_getWireguardPrivateKey {gwConfig : StaticGatewayConfiguration} :
    (getWireguardPrivateKey gwConfig).Uses fun c : Call => c.reads = true := by
  refine uses_orError_bind fun _ _ => ?_
  refine uses_bind (uses_wrapError (uses_request rfl)) fun _ => ?_
  exact uses_orError_bind fun _ _ => uses_orError

theorem uses_reconcileIlbIPOnHost {ip : String} : (reconcileIlbIPOnHost m ip).Uses fun c : Call =>
    c.reads = true ∨ ∃ a, a.label = ilbIPLabel ∧ (c = .addrAdd .host "eth0" a ∨ c = .addrDel .host "eth0" a) := by
  refine uses_bind (uses_wrapError (uses_request (.inl rfl))) fun _ => ?_
  refine uses_orError_bind fun _ _ => uses_orError_bind fun _ _ => ?_
  refine uses_bind (uses_wrapError (uses_request (.inl rfl))) fun as => ?_
  split
  case isTrue =>
    refine uses_forEach fun a _ => ?_
    split
    case isTrue h => exact uses_wrapError (uses_request (.inr ⟨a, h, .inr rfl⟩))
    case isFalse  => trivial
  case isFalse =>
    refine uses_orError_bind fun net _ => ?_
    split
    case isTrue  => trivial
    case isFalse => exact uses_wrapError (uses_request (.inr ⟨_, rfl, .inl rfl⟩))

end Addresses

section Unlabelled

variable {s : Node} {a : Addr} {m : Metadata}

-- The addresses that do not belong to the load balancer.
def Node.otherAddrs (s : Node) : List Addr :=
  s.eth0.filter (!isIlb ·)

theorem otherAddrs_addrDel (h : a.label = ilbIPLabel) :
    (Node.serve (.addrDel .host "eth0" a) s).2.otherAddrs = s.otherAddrs := by
  rw [Node.otherAddrs, eth0_addrDel, ← List.erase_filter]
  exact List.erase_of_not_mem fun hm => by simp [isIlb, h] at hm

theorem otherAddrs_addrAdd (h : a.label = ilbIPLabel) :
    (Node.serve (.addrAdd .host "eth0" a) s).2.otherAddrs = s.otherAddrs := by
  unfold Node.otherAddrs Node.eth0
  rw [Node.link_addrAdd, if_pos ⟨rfl, rfl⟩]
  cases s.link .host "eth0"
  case none => rfl
  case some l =>
    dsimp only [Option.map_some, Option.getD_some]
    split
    · rfl
    · simp [isIlb, h]

-- Whatever happens to the calls.
theorem wp_otherAddrs {ip : String} : wp world (.faults fun _ => True) (reconcileIlbIPOnHost m ip)
    (fun _ s' => s'.otherAddrs = s.otherAddrs) s := by
  refine wp_of_uses (R := fun s s' : Node => s'.otherAddrs = s.otherAddrs) (fun _ => rfl)
    (fun h h' => h'.trans h) (fun c s hc => ?_) uses_reconcileIlbIPOnHost fun _ _ _ => trivial
  rcases hc with hr | ⟨a, ha, rfl | rfl⟩
  · exact congrArg Node.otherAddrs (Node.serve_reads hr)
  · exact otherAddrs_addrAdd ha
  · exact otherAddrs_addrDel ha

end Unlabelled

section Keeps

variable {gwConfig : StaticGatewayConfiguration} {c : Call}

theorem beside_of_reads (h : c.reads = true) : Beside c := by
  cases c <;> first | rfl | nomatch h

theorem beside_of_wireguardCalls {linkName linkAlias : String}
    (hn : hasPrefix linkName wireguardLinkNamePrefix = true) (h : wireguardCalls linkName linkAlias c) :
    Beside c := by
  have hne : linkName ≠ "eth0" := by
    rintro rfl
    exact absurd hn (by decide +kernel)
  cases c
  case linkAdd         => exact h ▸ hne
  case linkDel         => exact h.right ▸ hn
  case linkSetNs       => exact h ▸ hne
  case addrAdd         => exact h.left ▸ rfl
  case configureDevice => rfl
  all_goals first | rfl | nomatch h

theorem beside_of_connectCalls {snatIP : String} (h : connectCalls snatIP c) : Beside c := by
  have hne : hostLinkName ≠ "eth0" := by decide
  cases c
  case linkSetNs => exact h ▸ hne
  all_goals first | rfl | nomatch h

theorem keeps_ensureIPTablesChain {ns : Space} {target source comment : String} {rules : List Iptables.Rule} :
    Keeps (ensureIPTablesChain ns target source comment rules) := by
  refine keeps_of_uses (uses_bind (uses_wrapError (uses_request rfl)) fun _ => ?_)
  refine uses_bind (uses_wrapError (uses_request rfl)) fun _ => ?_
  split
  · trivial
  · exact uses_wrapError (uses_request rfl)

-- The pair of links is only deleted again if the function fails.
theorem keeps_reconcileVethPairInHost {snatIP : String} : Keeps (reconcileVethPairInHost snatIP) := by
  have hc : Keeps (connectVethPair snatIP) :=
    keeps_of_uses (uses_connectVethPair.mono fun _ => beside_of_connectCalls)
  refine Keeps.bind (keeps_of_uses (uses_attempt (uses_request rfl))) fun r => ?_
  cases r
  case ok => exact hc
  case error e =>
    dsimp only
    split
    case isFalse => exact keeps_of_uses trivial
    case isTrue =>
      refine Keeps.bind (Keeps.wrapError (keeps_request trivial)) fun _ => Keeps.onFailure ?_
      exact Keeps.bind (Keeps.wrapError (keeps_request rfl)) fun _ => hc

theorem keeps_reconcileVethPair {vmPrimaryIP vmSecondaryIP : String} :
    Keeps (reconcileVethPair vmPrimaryIP vmSecondaryIP) := by
  refine Keeps.bind keeps_reconcileVethPairInHost.wrapError fun _ => keeps_of_uses ?_
  refine uses_bind (uses_wrapError (uses_request rfl)) fun _ => uses_hostNet fun net hn => ?_
  refine uses_bind (uses_ensureAddr rfl rfl) fun _ => ?_
  refine uses_bind (uses_wrapError (uses_request rfl)) fun _ => uses_hostNet fun _ _ => ?_
  refine uses_bind (uses_wrapError (uses_addOrReplaceRoute rfl rfl)) fun _ => ?_
  exact uses_wrapError (uses_addOrReplaceRoute rfl rfl)

theorem keeps_configureGatewayNamespace {privateKey : Key} {vmPrimaryIP vmSecondaryIP : String} :
    Keeps (configureGatewayNamespace gwConfig privateKey vmPrimaryIP vmSecondaryIP) := by
  have hw : Keeps (reconcileWireguardLink gwConfig privateKey) :=
    keeps_of_uses <| uses_reconcileWireguardLink.mono fun _ =>
      beside_of_wireguardCalls (Chains.hasPrefix_linkNameOf _)
  refine Keeps.bind (Keeps.wrapError (keeps_request rfl)) fun _ => ?_
  refine Keeps.bind hw fun _ => Keeps.bind keeps_reconcileVethPair fun _ => ?_
  refine Keeps.bind (Keeps.wrapError (keeps_request rfl)) fun _ => ?_
  refine Keeps.bind (Keeps.wrapError (keeps_request rfl)) fun _ s => ?_
  refine returns_ofExcept fun mark _ => ?_
  exact Keeps.bind keeps_ensureIPTablesChain (fun _ => keeps_ensureIPTablesChain) s

theorem keeps_updateGatewayNodeStatus {g : GatewayConfiguration} {add : Bool} :
    Keeps (updateGatewayNodeStatus g add) := by
  refine Keeps.bind (keeps_of_uses (uses_attempt (uses_request rfl))) fun r => keeps_of_uses ?_
  cases r
  case ok st => cases add <;> exact uses_writeStatus fun _ => rfl
  case error e =>
    dsimp only
    split
    · trivial
    · split
      · trivial
      · refine uses_bind (uses_wrapError (uses_request rfl)) fun _ => ?_
        exact uses_wrapError (uses_request rfl)

end Keeps

section Steps

variable {m : Metadata} {s : Node}

theorem returns_reads {α : Type} {p : M α} (h : p.Uses fun c : Call => c.reads = true) :
    Returns world p s fun _ s' => s' = s :=
  wp_mono (wp_of_uses (R := fun s s' : Node => s' = s) (fun _ => rfl) (fun h h' => h'.trans h)
    (fun _ _ => Node.serve_reads) h fun _ _ _ => trivial) fun _ _ h _ _ => h

-- The addresses after a reconcile that has returned.
theorem returns_reconcile {gwConfig : StaticGatewayConfiguration}
    (h : gwConfig.status.gatewayServerProfile.ip ≠ "") :
    Returns world (reconcile m gwConfig) s fun _ s' =>
      ∃ net ip, ilbNet m gwConfig.status.gatewayServerProfile.ip = some net ∧
        secondaryIP? m s.api gwConfig = some ip ∧
        s'.eth0 = (withIlb net s.eth0).filter (·.net.ip.text ≠ ip) := by
  refine (returns_reads uses_getWireguardPrivateKey).bind fun key s₁ h₁ => ?_
  obtain rfl := h₁
  have hilb := (returns_addIlb (m := m) (s := s₁) h).frame uses_reconcileIlbIPOnHost
    (R := fun s s' : Node => s'.api = s.api) (fun _ => rfl) (fun h h' => h'.trans h) ?_
  case refine_1 =>
    rintro c s (hr | ⟨a, -, rfl | rfl⟩)
    · exact congrArg Node.api (Node.serve_reads hr)
    all_goals exact Node.serve_api rfl
  refine hilb.bind fun _ s₂ ⟨⟨net, hn, h₂⟩, ha⟩ => ?_
  refine returns_getVMIP.bind fun ips s₃ ⟨h₃, hip⟩ => ?_
  obtain rfl := h₃
  rw [ha] at hip
  refine returns_removeSecondary.bind fun _ s₄ h₄ => ?_
  refine Returns.mono (P := fun _ s' => s'.link .host "eth0" = s₄.link .host "eth0") ?_
    fun _ s' hs => ⟨net, ips.2, hn, hip, by rw [eth0_of_link hs, h₄, h₂]⟩
  refine Keeps.bind keeps_ensureIPTablesChain (fun _ => ?_) s₄
  refine Keeps.bind keeps_ensureIPTablesChain fun _ => ?_
  refine Keeps.bind keeps_configureGatewayNamespace fun _ => ?_
  exact Keeps.bind keeps_updateGatewayNodeStatus fun _ => keeps_request rfl

variable [CaseFold] (m)

-- The part of the clean-up that looks for active gateways.
def findActive : M Existing := do
  let gwConfigs ← wrapError "failed to list staticGatewayConfigurations: " (request .listGwConfigs)
  forFold gwConfigs {} (collectExisting m)

def removeInactive (existing : Existing) : M Unit := do
  wrapError "failed to get network namespace ns-static-egress-gateway: " (request .getNS)
  let links ← wrapError "failed to list links in gateway namespace: " (request (.linkList .gateway))
  let _ ← wrapError "failed to get host link in gateway namespace: " <|
    request (.linkByName .gateway hostLinkName)
  let ips ← wrapError "failed to list addresses on host0 in gateway namespace: " <|
    request (.addrList .gateway hostLinkName)
  removeOrphaned m existing links ips

variable {m}

theorem cleanUp_eq : cleanUp m = (findActive m).bind (removeInactive m) :=
  (bind_assoc ..).symm

theorem returns_findActive : Returns world (findActive m) s fun _ s' => s' = s := by
  refine returns_reads (uses_bind (uses_wrapError (uses_request rfl)) fun gwConfigs => ?_)
  refine uses_forFold fun acc gwConfig _ => ?_
  unfold collectExisting
  split
  case isFalse => trivial
  case isTrue =>
    refine uses_bind (uses_attempt (uses_bind (uses_request rfl) fun v => ?_)) fun r => ?_
    · cases vmIPOf m v <;> trivial
    · cases r <;> trivial

omit [CaseFold] in
theorem keeps_removeOrphaned {existing : Existing} {links : List Link} {ips : List Addr} :
    Keeps ((removeOrphans (isOrphanedIP existing) ensureDeleteIP ips).bind fun _ =>
      removeOrphans (isOrphanedLink existing) ensureDeleteLink links) := by
  refine keeps_of_uses (uses_bind (uses_removeOrphans fun a _ _ => ?_) fun _ =>
    uses_removeOrphans fun l _ ho => ?_)
  · refine uses_bind (uses_wrapError (uses_request rfl)) fun _ => ?_
    refine uses_bind (uses_wrapError (uses_request rfl)) fun _ => uses_forgetIP.mono fun c hc => ?_
    cases c
    all_goals first | rfl | nomatch hc
  · refine uses_bind (uses_wrapError (uses_request (Bool.and_eq_true_iff.mp ho).left)) fun _ => ?_
    refine uses_forgetLink.mono fun c hc => ?_
    cases c
    all_goals first | rfl | nomatch hc

omit [CaseFold] in
theorem returns_removeInactive {existing : Existing} :
    Returns world (removeInactive m existing) s fun _ s' =>
      s'.eth0 = if existing.wgLinks = [] then s.eth0.filter (!isIlb ·) else s.eth0 := by
  refine Returns.bind (returns_reads (uses_wrapError (uses_request rfl))) fun _ s₁ h₁ => ?_
  obtain rfl := h₁
  refine Returns.bind (returns_reads (uses_wrapError (uses_request rfl))) fun links s₂ h₂ => ?_
  obtain rfl := h₂
  refine Returns.bind (returns_reads (uses_wrapError (uses_request rfl))) fun _ s₃ h₃ => ?_
  obtain rfl := h₃
  refine Returns.bind (returns_reads (uses_wrapError (uses_request rfl))) fun ips s₄ h₄ => ?_
  obtain rfl := h₄
  have he : removeOrphaned m existing links ips =
      ((removeOrphans (isOrphanedIP existing) ensureDeleteIP ips).bind fun _ =>
        removeOrphans (isOrphanedLink existing) ensureDeleteLink links).bind fun _ =>
          if existing.wgLinks = [] then removeLeftovers m else ret () := (bind_assoc ..).symm
  rw [he]
  refine (keeps_removeOrphaned s₄).bind fun _ s₅ h₅ => ?_
  rw [← eth0_of_link h₅]
  split
  case isFalse => exact returns_ret rfl
  case isTrue =>
    refine (returns_wrapError returns_removeIlb).bind fun _ s₆ h₆ => ?_
    refine Returns.mono (keeps_of_uses (uses_wrapError ?_) s₆) fun _ s' hs => (eth0_of_link hs).trans h₆
    exact uses_removeIPTablesChains rfl fun _ _ => ⟨rfl, rfl⟩

end Steps

section Runs

variable [CaseFold]

-- Runs of a node whose load balancer has the IP `ip`. `active` tells whether a gateway has been reconciled
-- since the last clean-up that did not find any. `moves` is asked when the load balancer is re-created, and
-- `fits` when a gateway is reconciled. In between anything else may change.
inductive IlbRun (m : Metadata) (moves : Bool → Prop) (fits : Bool → IPNet → String → Node → Prop) :
    String → Bool → Node → Prop
  | init {ip s} (h : s.ilbAddrs = []) : IlbRun m moves fits ip false s
  | outside {ip active s s'} (hr : IlbRun m moves fits ip active s) (hs : s'.ilbAddrs = s.ilbAddrs) :
      IlbRun m moves fits ip active s'
  | recreate {ip ip' active s} (hr : IlbRun m moves fits ip active s) (hm : moves active) :
      IlbRun m moves fits ip' active s
  | reconcile {ip active s o gwConfig φ n} (hr : IlbRun m moves fits ip active s)
      (ready : isReady gwConfig = true) (current : gwConfig.status.gatewayServerProfile.ip = ip)
      (hf : ∀ net secondary, ilbNet m ip = some net → secondaryIP? m s.api gwConfig = some secondary →
        fits active net secondary s)
      (ho : run world φ n (reconcile m gwConfig) s = o) (hok : o.result = .ok ()) :
      IlbRun m moves fits ip true o.state
  | cleanUp {ip active s o existing φ n} (hr : IlbRun m moves fits ip active s)
      (hf : (run world φ n (findActive m) s).result = .ok existing)
      (ho : run world φ n (cleanUp m) s = o) (hok : o.result = .ok ()) :
      IlbRun m moves fits ip (active && !existing.wgLinks.isEmpty) o.state

-- The addresses of the load balancer that the node should have.
def Follows (m : Metadata) (ip : String) (active : Bool) (s : Node) : Prop :=
  if active then ∃ net, ilbNet m ip = some net ∧ s.ilbAddrs = [ilbAddr net] else s.ilbAddrs = []

-- The address is not the one that the node uses for its egress traffic, and it is not on the host already.
def Fits (active : Bool) (net : IPNet) (secondary : String) (s : Node) : Prop :=
  net.ip.text ≠ secondary ∧ (active = false → ∀ a ∈ s.eth0, a.net.ip ≠ net.ip)

variable {m : Metadata} {ip : String} {active : Bool} {s s' : Node}

omit [CaseFold] in
theorem Follows.reconcile {net : IPNet} {secondary : String} (h : Follows m ip active s)
    (hn : ilbNet m ip = some net) (hf : Fits active net secondary s)
    (hs : s'.eth0 = (withIlb net s.eth0).filter (·.net.ip.text ≠ secondary)) :
    Follows m ip true s' := by
  refine ⟨net, hn, ?_⟩
  have hne := hf.left
  rw [ilbAddrs_eq, hs, List.filter_comm]
  cases active
  case true =>
    obtain ⟨net', hn', hi⟩ := h
    obtain rfl := Option.some.inj (hn.symm.trans hn')
    rw [ilbAddrs_eq] at hi
    have hm : ilbAddr net ∈ s.eth0 := (List.mem_filter.mp (hi ▸ List.mem_singleton_self _)).left
    have ha : s.eth0.any (·.net.ip = net.ip) = true :=
      List.any_eq_true.mpr ⟨_, hm, decide_eq_true rfl⟩
    rw [withIlb, if_pos ha, hi]
    simp [ilbAddr, hne]
  case false =>
    have hi : s.eth0.filter isIlb = [] := ilbAddrs_eq s ▸ h
    have ha : ¬s.eth0.any (·.net.ip = net.ip) = true := by simpa using hf.right rfl
    rw [withIlb, if_neg ha, List.filter_append, hi]
    simp [ilbAddr, isIlb, hne]

theorem Follows.cleanUp {existing : Existing} {φ : Oracle Sig} {n : Nat} {o : Outcome Sig Node Unit}
    (h : Follows m ip active s) (hf : (run world φ n (findActive m) s).result = .ok existing)
    (ho : run world φ n (Daemon.cleanUp m) s = o) (hok : o.result = .ok ()) :
    Follows m ip (active && !existing.wgLinks.isEmpty) o.state := by
  rw [cleanUp_eq, run_bind, Outcome.andThen_ok hf] at ho
  subst ho
  have hs : (run world φ n (findActive m) s).state = s := returns_findActive.outcome rfl hf
  have hr := returns_removeInactive.outcome rfl hok
  rw [hs] at hr ⊢
  cases he : existing.wgLinks
  case nil =>
    rw [he, if_pos rfl] at hr
    simp [Follows, ilbAddrs_eq, hr, List.filter_filter]
  case cons =>
    rw [he, if_neg nofun] at hr
    simpa [Follows, ilbAddrs_eq, hr] using h

-- As long as the load balancer is re-created only while no gateway is active on the node, the addresses
-- follow it.
theorem ilb_follows (h : IlbRun m (· = false) Fits ip active s) :
    Follows m ip active s ∧ ∀ t φ n ip', (run world φ n (reconcileIlbIPOnHost m ip') t).state.otherAddrs =
      t.otherAddrs := by
  refine ⟨?_, fun t φ n ip' => outcome_of_wp wp_otherAddrs rfl⟩
  induction h
  case init h => exact h
  case outside hs hi => rwa [Follows, hs]
  case recreate hm hi =>
    obtain rfl := hm
    exact hi
  case reconcile ready current hf ho hok hi =>
    obtain rfl := current
    have hip : _ ≠ "" := (of_decide_eq_true ready).2.1
    have ⟨net, secondary, hn, hsec, hs⟩ := (returns_reconcile hip).outcome ho hok
    exact hi.reconcile hn (hf net secondary hn hsec) hs
  case cleanUp hf ho hok hi => exact hi.cleanUp hf ho hok

end Runs

namespace Sample

def gatewayAt (ip : String) : StaticGatewayConfiguration :=
  let c := gwConfig "a" "1" 6000
  { c with status.gatewayServerProfile.ip := ip }

def unused : Node :=
  node { gwConfigs := [gatewayAt "10.0.0.9"], vmConfigs := [vmConfig "a" "10.0.0.5"], secrets := [secret "a"] }

def first : Outcome Sig Node Unit :=
  run world .calm 0 (reconcile metadata (gatewayAt "10.0.0.9")) unused

-- The load balancer has another address when the gateway is reconciled the next time.
def second : Outcome Sig Node Unit :=
  run world .calm 0 (reconcile metadata (gatewayAt "10.0.0.10")) first.state

end Sample

theorem Sample.first_eq : run world .calm 0 (reconcile metadata (gatewayAt "10.0.0.9")) unused = first := by
  rw [first]

theorem Sample.second_eq :
    run world .calm 0 (reconcile metadata (gatewayAt "10.0.0.10")) first.state = second := by
  rw [second]

theorem Sample.fits_first {net : IPNet} {secondary : String} (hn : ilbNet metadata "10.0.0.9" = some net)
    (hsec : secondaryIP? metadata unused.api (gatewayAt "10.0.0.9") = some secondary) :
    Fits false net secondary unused := by
  have hs : secondaryIP? metadata unused.api (gatewayAt "10.0.0.9") = some "10.0.0.5" := by decide +kernel
  have ht : (ilbNet metadata "10.0.0.9").map (·.ip.text) = some "10.0.0.9" := by decide +kernel
  have he : unused.eth0 = [] := by decide +kernel
  rw [hn] at ht
  have ht : net.ip.text = "10.0.0.9" := Option.some.inj ht
  rw [hs] at hsec
  rw [Fits, ht, ← Option.some.inj hsec, he]
  exact ⟨by decide, fun _ _ => nofun⟩

open Sample in
theorem ilb_follows_sample : Follows metadata "10.0.0.9" true first.state := by
  have hr : IlbRun metadata (· = false) Fits "10.0.0.9" true first.state :=
    .reconcile (.init (by decide +kernel)) (by decide +kernel) rfl (fun _ _ => fits_first) first_eq
      (by decide +kernel)
  exact (ilb_follows hr).left

open Sample in
-- Both addresses are on the host, although the first one is not the load balancer's anymore.
theorem ilb_stale :
    IlbRun metadata (fun _ => True) (fun _ _ _ _ => True) "10.0.0.10" true second.state ∧
    second.state.ilbAddrs.map (·.net.ip.text) = ["10.0.0.9", "10.0.0.10"] ∧
    ¬Follows metadata "10.0.0.10" true second.state := by
  have hs : second.state.ilbAddrs.map (·.net.ip.text) = ["10.0.0.9", "10.0.0.10"] := by decide +kernel
  refine ⟨?_, hs, ?_⟩
  · have h₁ : IlbRun metadata (fun _ => True) (fun _ _ _ _ => True) "10.0.0.9" true first.state :=
      .reconcile (.init (by decide +kernel)) (by decide +kernel) rfl (fun _ _ _ _ => trivial) first_eq
        (by decide +kernel)
    exact .reconcile (.recreate h₁ trivial) (by decide +kernel) rfl (fun _ _ _ _ => trivial) second_eq
      (by decide +kernel)
  · rintro ⟨net, -, hi⟩
    rw [hi] at hs
    exact absurd (congrArg List.length hs) (by simp)

end Daemon
