import EgressGateway.Daemon.PodEndpoint
import EgressGateway.Daemon.Health
import EgressGateway.Daemon.Theorems.Ilb
import EgressGateway.Daemon.Theorems.LinkRules
import EgressGateway.Daemon.Theorems.Links
import EgressGateway.Manager.LoadBalancer

-- Which gateways the load balancer finds to be healthy on a node.

open Kubernetes Text Net Program Iptables

namespace Program

variable {I : Signature} {σ α : Type} {W : World I σ}

-- A contract that allows less and demands less.
theorem wp_relax {C C' : Contract I σ} {p : Program I α} {Q : Except I.Error α → σ → Prop} {s : σ}
    (h : wp W C p Q s) (ha : ∀ c s f, C'.allow c s f → C.allow c s f) (ho : ∀ c s, C.owe c s → C'.owe c s) :
    wp W C' p Q s := by
  induction p generalizing s
  case ret | throw => exact h
  case call c k hi => exact ⟨ho c s h.left, fun f hf => hi _ (h.right f (ha c s f hf))⟩

end Program

namespace Daemon

-- To whom the ports are given. Nobody has two of them.
structure Ports where
  owner : Int → Option String
  inj   : ∀ {j k u}, owner j = some u → owner k = some u → j = k

-- The ports that are published have been given away.
def Ports.Assigned (P : Ports) (api : Api) : Prop :=
  ∀ c ∈ api.gwConfigs, port c ≠ 0 → P.owner (port c) = some c.meta_.uid

-- The links that are named after a port carry the UID of its owner, and the rules that lead to the chains of
-- the gateways are where the daemon looks for them.
structure Sound (P : Ports) (s : Node) : Prop where
  ports : P.Assigned s.api
  label : ∀ ns, ∀ l ∈ s.links ns, ∀ k, l.name = linkNameOf k → P.owner k = some l.alias_
  named : ∀ l ∈ s.links .gateway, hasPrefix l.name wireguardLinkNamePrefix = true → ∃ k, l.name = linkNameOf k
  marks : Chains.marks.Sole (s.nat .gateway)
  snats : Chains.snats.Sole (s.nat .gateway)

-- The calls that keep it that way.

def Labels (P : Ports) : Call → Prop
  | .linkAdd l   => ∀ k, l.name = linkNameOf k → P.owner k = some l.alias_
  | .linkSetNs n => hasPrefix n wireguardLinkNamePrefix = true → ∃ k, n = linkNameOf k
  | _            => True

def Respects {K : Type} (D : Dispatch K) : Call → Prop
  | .ensureRule ns c r   => ns = .gateway → ∀ k, r.target = .jump (D.chain k) → c = D.source ∧ r = D.jump k
  | .restoreAll ns _ rs  => ns = .gateway → ∀ r ∈ rs, ∀ k, r.target ≠ .jump (D.chain k)
  | _                    => True

structure Proper (P : Ports) (c : Call) : Prop where
  labels : Labels P c
  marks  : Respects Chains.marks c
  snats  : Respects Chains.snats c

-- Besides, neither is a gateway link deleted nor does the probe server learn anything.
structure Tame (P : Ports) (c : Call) : Prop where
  proper   : Proper P c
  gateways : c.writes .gateways = false
  links    : ∀ n, c ≠ .linkDel .gateway n

section Calls

variable {P : Ports} {c : Call} {s : Node}

theorem sole_serve {K : Type} {D : Dispatch K} (h : Respects D c) (hs : D.Sole (s.nat .gateway)) :
    D.Sole ((Node.serve c s).2.nat .gateway) := by
  by_cases hw : c.writes (.nat .gateway) = true
  case neg => rwa [Node.serve_nat (Bool.eq_false_of_not_eq_true hw)]
  case pos =>
    rcases Node.serve_edits (s := s) hw with ⟨_, he⟩ | ⟨g, t, hg, ht, he⟩
    · rwa [he]
    · rw [Node.nat_of_netns hg] at hs
      rw [he, Node.nat_setNetns, if_pos rfl]
      cases c
      case ensureChain => exact Option.some.inj ht ▸ hs.ensureChain
      case ensureRule  => exact hs.ensureRule (h (of_decide_eq_true hw).symm) ht
      case restoreAll  => exact Option.some.inj ht ▸ hs.restoreAll (h (of_decide_eq_true hw).symm)
      case deleteRule  => exact Option.some.inj ht ▸ hs.deleteRule
      case removeChain => exact hs.removeChain ht
      all_goals cases hw

theorem hostVeth_ne (k : Int) : hostVethLinkName ≠ linkNameOf k :=
  fun h => ne_literal_of_diverge (by decide +kernel) _ h.symm

theorem serve_gwConfigs : (Node.serve c s).2.api.gwConfigs = s.api.gwConfigs := by
  have h := congrArg Api.gwConfigs (Node.serve_objects (c := c) (s := s))
  exact h

theorem sound_serve (h : Proper P c) (hs : Sound P s) : Sound P (Node.serve c s).2 := by
  constructor
  case ports => exact fun gwConfig hm => hs.ports gwConfig (serve_gwConfigs ▸ hm)
  case marks => exact sole_serve h.marks hs.marks
  case snats => exact sole_serve h.snats hs.snats
  case label =>
    intro ns l hl k hk
    cases Node.origin_serve hl
    case kept l' ha hm      => exact ha.right ▸ hs.label ns l' hm k (ha.left ▸ hk)
    case moved l' hm hc ha  => exact ha.right ▸ hs.label .host l' hm k (ha.left ▸ hk)
    case added hc           => subst hc; exact h.labels k hk
    case veth hc hv =>
      rcases hv with rfl | rfl
      · exact absurd hk (hostVeth_ne k)
      · exact absurd hk.symm (Chains.linkNameOf_ne_hostLinkName k)
  case named =>
    intro l hl hp
    cases Node.origin_serve hl
    case kept l' ha hm =>
      obtain ⟨k, hk⟩ := hs.named l' hm (ha.left ▸ hp)
      exact ⟨k, ha.left.trans hk⟩
    case moved l' hm hc ha =>
      subst hc
      exact h.labels hp

-- The link of a port.
def Linked (k : Int) (s : Node) : Prop :=
  ∃ l ∈ s.links .gateway, l.name = linkNameOf k

theorem linked_serve {k : Int} (h : c ≠ .linkDel .gateway (linkNameOf k)) (hs : Linked k s) :
    Linked k (Node.serve c s).2 := by
  obtain ⟨l, hl, hn⟩ := hs
  obtain ⟨l', hl', hn'⟩ := Node.name_serve (c := c) hl (hn ▸ Chains.hasPrefix_linkNameOf k) (hn ▸ h)
  exact ⟨l', hl', hn'.trans hn⟩

theorem linked_iff {k : Int} : Linked k s ↔ (s.link .gateway (linkNameOf k)).isSome = true := by
  simp [Linked, Node.link, List.find?_isSome]

-- Most calls have nothing to do with any of this.
def Call.plain : Call → Bool
  | .linkAdd _ | .linkSetNs _ | .addGateway _ | .removeGateway _    => false
  | .ensureRule ns .. | .restoreAll ns .. | .linkDel ns _ => ns = .host
  | _ => true

theorem plain_of_reads (h : c.reads = true) : c.plain = true := by
  cases c <;> first | rfl | cases h

theorem tame_of_plain (h : c.plain = true) : Tame P c := by
  cases c
  case linkAdd | linkSetNs | addGateway | removeGateway => cases h
  case linkDel ns n =>
    refine ⟨⟨trivial, trivial, trivial⟩, rfl, fun _ he => ?_⟩
    cases he
    cases h
  case ensureRule ns _ _ | restoreAll ns _ _ =>
    cases of_decide_eq_true h
    exact ⟨⟨trivial, fun he => (by cases he), fun he => by cases he⟩, rfl, fun _ => by simp⟩
  all_goals exact ⟨⟨trivial, trivial, trivial⟩, rfl, fun _ => by simp⟩

end Calls

section Uses

variable {P : Ports} {gwConfig : StaticGatewayConfiguration} {m : Metadata}

theorem tame_of_wireguardCalls {c : Call} {k : Int} {uid : String} (hk : P.owner k = some uid)
    (h : wireguardCalls (linkNameOf k) uid c) : Tame P c := by
  cases c
  case linkAdd l =>
    obtain rfl := h
    exact ⟨⟨fun j hj => Chains.linkNameOf_inj hj ▸ hk, trivial, trivial⟩, rfl, fun _ => by simp⟩
  case linkSetNs n  => exact ⟨⟨fun _ => ⟨k, h⟩, trivial, trivial⟩, rfl, fun _ => by simp⟩
  case linkDel ns n => exact tame_of_plain (decide_eq_true h.left)
  case addrAdd | configureDevice => exact tame_of_plain rfl
  all_goals exact tame_of_plain (plain_of_reads h)

theorem tame_of_vethCalls {c : Call} {ip : String} (h : vethCalls ip c) : Tame P c := by
  cases c
  case linkSetNs n =>
    refine ⟨⟨fun hp => ?_, trivial, trivial⟩, rfl, fun _ => by simp⟩
    obtain rfl := h
    exact absurd hp (by decide +kernel)
  case linkDel ns n => exact tame_of_plain (decide_eq_true h.left)
  case vethAdd | addrAdd | routeReplace | routeDel => exact tame_of_plain rfl
  all_goals exact tame_of_plain (plain_of_reads h)

theorem uses_ensureIPTablesChain {ok : Call → Prop} {ns : Space} {target source comment : String} {rules : List Rule}
    (hc : ok (.ensureChain ns target)) (hj : ok (.ensureRule ns source (Chains.jumpRule comment target)))
    (hr : ok (.restoreAll ns target rules)) : (ensureIPTablesChain ns target source comment rules).Uses ok := by
  refine uses_bind (uses_wrapError (uses_request hc)) fun _ => ?_
  refine uses_bind (uses_wrapError (uses_request hj)) fun _ => ?_
  split
  · trivial
  · exact uses_wrapError (uses_request hr)

theorem uses_updateStatus {ok : Call → Prop} {g : GatewayConfiguration} {add : Bool} (hg : ok .getStatus) (hn : ok .getNode)
    (hc : ∀ st, ok (.createStatus st)) (hu : ∀ st, ok (.updateStatus st)) :
    (updateGatewayNodeStatus g add).Uses ok := by
  refine uses_bind (uses_attempt (uses_request hg)) fun r => ?_
  cases r
  case ok st => cases add <;> exact uses_writeStatus hu
  case error e =>
    dsimp only
    split
    · trivial
    · split
      · trivial
      · exact uses_bind (uses_wrapError (uses_request hn)) fun _ => uses_wrapError (uses_request (hc _))

-- The jumps of a gateway go where they belong.
theorem tame_mark {k : Int} :
    Tame P (.ensureRule .gateway prerouting (Chains.jumpRule (Chains.markComment (linkNameOf k)) (Chains.mark k))) := by
  refine ⟨⟨trivial, fun _ j hj => ?_, fun _ j hj => ?_⟩, rfl, fun _ => by simp⟩
  · obtain rfl := Chains.mark_inj (Target.jump.inj hj)
    exact ⟨rfl, rfl⟩
  · exact absurd (Target.jump.inj hj) (Chains.mark_ne_snatOf _ _)

theorem tame_snat {k : Int} :
    Tame P (.ensureRule .gateway postrouting (Chains.jumpRule (Chains.snatComment (linkNameOf k)) (Chains.snatOf k))) := by
  refine ⟨⟨trivial, fun _ j hj => ?_, fun _ j hj => ?_⟩, rfl, fun _ => by simp⟩
  · exact absurd (Target.jump.inj hj).symm (Chains.mark_ne_snatOf _ _)
  · obtain rfl := Chains.snatOf_inj (Target.jump.inj hj)
    exact ⟨rfl, rfl⟩

theorem tame_restoreAll {ns : Space} {c : String} {r : Rule} (h : ∀ d, r.target ≠ .jump d) :
    Tame P (.restoreAll ns c [r]) := by
  have hr {K : Type} {D : Dispatch K} : Respects D (.restoreAll ns c [r]) := by
    intro _ r' hr' k
    rw [List.mem_singleton.mp hr']
    exact h _
  exact ⟨⟨trivial, hr, hr⟩, rfl, fun _ => by simp⟩

theorem uses_ensureLinkRules {k : Int} {ip : String} : (do
    ensureIPTablesChain .gateway (Chains.mark k) prerouting (Chains.markComment (linkNameOf k))
      [Chains.markRule (linkNameOf k) k]
    ensureIPTablesChain .gateway (Chains.snatOf k) postrouting (Chains.snatComment (linkNameOf k))
      [Chains.snatRule k ip] : M Unit).Uses (Tame P) := by
  refine uses_bind (uses_ensureIPTablesChain (tame_of_plain rfl) tame_mark
    (tame_restoreAll fun _ => by simp [Chains.markRule])) fun _ => ?_
  exact uses_ensureIPTablesChain (tame_of_plain rfl) tame_snat (tame_restoreAll fun _ => by simp [Chains.snatRule])

theorem uses_configureGatewayNamespace {privateKey : Key} {ip ip' : String}
    (hk : P.owner (port gwConfig) = some gwConfig.meta_.uid) :
    (configureGatewayNamespace gwConfig privateKey ip ip').Uses (Tame P) := by
  have reads {c : Call} {context : String} (h : c.plain = true) : (wrapError context (request c)).Uses (Tame P) :=
    uses_wrapError (uses_request (tame_of_plain h))
  refine uses_bind (reads rfl) fun _ => ?_
  refine uses_bind (uses_reconcileWireguardLink.mono fun _ => tame_of_wireguardCalls hk) fun _ => ?_
  refine uses_bind (uses_reconcileVethPair.mono fun _ => tame_of_vethCalls) fun _ => ?_
  refine uses_bind (reads rfl) fun _ => uses_bind (reads rfl) fun _ => ?_
  refine uses_ofExcept fun mark hm => ?_
  obtain rfl := getPacketMark_linkNameOf hm
  exact uses_ensureLinkRules

-- Everything that `reconcile` does before it tells the probe server.
def setUp (m : Metadata) (gwConfig : StaticGatewayConfiguration) : M Unit := do
  let privateKey ← getWireguardPrivateKey gwConfig
  reconcileIlbIPOnHost m gwConfig.status.gatewayServerProfile.ip
  let (vmPrimaryIP, vmSecondaryIP) ← getVMIP m gwConfig
  removeSecondaryIpFromHost vmSecondaryIP
  ensureIPTablesChain .host Chains.snat Iptables.postrouting Chains.noMasqueradeComment []
  ensureIPTablesChain .host (Chains.noSNAT vmSecondaryIP) Chains.snat
    (Chains.noSNATComment vmSecondaryIP) [Chains.noSNATRule vmSecondaryIP]
  configureGatewayNamespace gwConfig privateKey vmPrimaryIP vmSecondaryIP
  updateGatewayNodeStatus {
    staticGatewayConfiguration := gwConfig.meta_.key.text
    interfaceName              := getWireguardInterfaceName gwConfig } true

theorem reconcile_eq : reconcile m gwConfig = (setUp m gwConfig).bind fun _ => request (.addGateway gwConfig.meta_.uid) := by
  simp only [reconcile, setUp, bind_eq, Program.bind_assoc]

theorem uses_setUp (hk : P.owner (port gwConfig) = some gwConfig.meta_.uid) : (setUp m gwConfig).Uses (Tame P) := by
  refine uses_bind (uses_getWireguardPrivateKey.mono fun _ h => tame_of_plain (plain_of_reads h)) fun key => ?_
  refine uses_bind (uses_reconcileIlbIPOnHost.mono fun c h => ?_) fun _ => ?_
  · rcases h with h | ⟨a, -, rfl | rfl⟩
    · exact tame_of_plain (plain_of_reads h)
    all_goals exact tame_of_plain rfl
  refine uses_bind (uses_bind (uses_request (tame_of_plain rfl)) fun v => ?_) fun ips => ?_
  · cases vmIPOf m v <;> trivial
  refine uses_bind (uses_bind ?_ fun addresses => uses_forEach fun a _ => ?_) fun _ => ?_
  · exact uses_bind (uses_wrapError (uses_request (tame_of_plain rfl))) fun _ =>
      uses_wrapError (uses_request (tame_of_plain rfl))
  · split
    · exact uses_wrapError (uses_request (tame_of_plain rfl))
    · trivial
  refine uses_bind (uses_ensureIPTablesChain (tame_of_plain rfl) (tame_of_plain rfl) (tame_of_plain rfl)) fun _ => ?_
  refine uses_bind (uses_ensureIPTablesChain (tame_of_plain rfl) (tame_of_plain rfl) (tame_of_plain rfl)) fun _ => ?_
  refine uses_bind (uses_configureGatewayNamespace hk) fun _ => ?_
  exact uses_updateStatus (tame_of_plain rfl) (tame_of_plain rfl) (fun _ => tame_of_plain rfl) fun _ => tame_of_plain rfl

end Uses

section Linked

variable {P : Ports} {gwConfig : StaticGatewayConfiguration} {m : Metadata} {s : Node} {k : Int}

theorem returns_linked {α : Type} {p : M α} (hp : p.Uses (Tame P)) (h : Linked k s) :
    Returns world p s fun _ s' => Linked k s' :=
  wp_mono (wp_invariant (J := Linked k) (fun _ _ hc => linked_serve (hc.links _)) hp (fun _ _ _ => trivial) h)
    fun _ _ hs _ _ => hs

-- The configuration of a link begins with looking it up.
theorem returns_configureWireguardLink {privateKey : Key} {port : Int} {uid : String} (hk : P.owner k = some uid) :
    Returns world (configureWireguardLink (linkNameOf k) port privateKey) s fun _ s' => Linked k s' := by
  have hcalls : (configureWireguardLink (linkNameOf k) port privateKey).Uses (wireguardCalls (linkNameOf k) uid) :=
    uses_configureWireguardLink
  have hu := hcalls.mono fun _ => tame_of_wireguardCalls hk
  cases hl : s.link .gateway (linkNameOf k)
  case some => exact returns_linked hu (linked_iff.mpr (by rw [hl]; rfl))
  case none =>
    refine Returns.bind (P := fun _ _ => False) (returns_wrapError (returns_perform fun l h => ?_)) fun _ _ h => h.elim
    obtain ⟨l', hl', -⟩ := Node.lookLink_ok.mp h
    cases hl.symm.trans hl'

theorem returns_reconcileWireguardLink {privateKey : Key} (hk : P.owner (port gwConfig) = some gwConfig.meta_.uid) :
    Returns world (reconcileWireguardLink gwConfig privateKey) s fun _ s' => Linked (port gwConfig) s' := by
  refine returns_skip fun r s => ?_
  cases r
  case ok => exact returns_configureWireguardLink hk
  case error e =>
    dsimp only
    split
    · exact returns_skip fun _ _ => returns_configureWireguardLink hk
    · exact returns_throw

-- A gateway that has been set up has a link, and the name of the link has a packet mark.
theorem returns_setUp (hk : P.owner (port gwConfig) = some gwConfig.meta_.uid) :
    Returns world (setUp m gwConfig) s fun _ s' =>
      Linked (port gwConfig) s' ∧ getPacketMark (linkNameOf (port gwConfig)) = .ok (port gwConfig) := by
  refine returns_skip fun key _ => returns_skip fun _ _ => returns_skip fun ips _ => returns_skip fun _ _ => ?_
  refine returns_skip fun _ _ => returns_skip fun _ s => ?_
  have reads {c : Call} {context : String} (h : c.plain = true) : (wrapError context (request c)).Uses (Tame P) :=
    uses_wrapError (uses_request (tame_of_plain h))
  have hconf : Returns world (configureGatewayNamespace gwConfig key ips.1 ips.2) s fun _ s' =>
      Linked (port gwConfig) s' ∧ getPacketMark (linkNameOf (port gwConfig)) = .ok (port gwConfig) := by
    refine returns_skip fun _ _ => (returns_reconcileWireguardLink hk).bind fun _ s hl => ?_
    refine (returns_linked (uses_reconcileVethPair.mono fun _ => tame_of_vethCalls (P := P)) hl).bind fun _ s hl => ?_
    refine (returns_linked (reads rfl) hl).bind fun _ s hl => (returns_linked (reads rfl) hl).bind fun _ s hl => ?_
    refine returns_ofExcept fun mark hm => ?_
    obtain rfl := getPacketMark_linkNameOf hm
    exact (returns_linked (P := P) uses_ensureLinkRules hl).mono fun _ _ hl => ⟨hl, hm⟩
  refine hconf.bind fun _ s hs => ?_
  refine (returns_linked (P := P) ?_ hs.left).mono fun _ _ hl => ⟨hl, hs.right⟩
  exact uses_updateStatus (tame_of_plain rfl) (tame_of_plain rfl) (fun _ => tame_of_plain rfl) fun _ => tame_of_plain rfl

end Linked

-- The probe server knows the gateways `S`, each of which has a link.
structure Tracked (P : Ports) (S : Set String) (s : Node) : Prop where
  sound  : Sound P s
  active : ∀ u, u ∈ s.activeGateways ↔ u ∈ S
  linked : ∀ u ∈ S, ∃ k ≠ 0, P.owner k = some u ∧ Linked k s ∧ getPacketMark (linkNameOf k) = .ok k

section Tracked

variable {P : Ports} {S : Set String} {s : Node} {C : Contract Sig Node} {c : Call}

theorem Tracked.serve (h : Tracked P S s) (hc : Tame P c) : Tracked P S (Node.serve c s).2 where
  sound := sound_serve hc.proper h.sound
  active u := by rw [Node.serve_gateways hc.gateways, h.active]
  linked u hu := by
    obtain ⟨k, h₀, hk, hl, hm⟩ := h.linked u hu
    exact ⟨k, h₀, hk, linked_serve (hc.links _) hl, hm⟩

theorem Tracked.of_uses {α : Type} {p : M α} (h : Tracked P S s) (hp : p.Uses (Tame P)) (owe : ∀ c s, C.owe c s) :
    wp world C p (fun _ s' => Tracked P S s') s :=
  wp_invariant (J := Tracked P S) (fun _ _ hc hs => hs.serve hc) hp (fun c s _ => owe c s) h

theorem mem_addGateway {uid u : String} :
    u ∈ (Node.serve (.addGateway uid) s).2.activeGateways ↔ u = uid ∨ u ∈ s.activeGateways := by
  simp only [Node.serve]
  split
  case isTrue h  => exact ⟨.inr, fun hu => hu.elim (fun he => he ▸ h) id⟩
  case isFalse h => simp [or_comm]

theorem Tracked.add {uid : String} {k : Int} (h : Tracked P S s) (h₀ : k ≠ 0) (hk : P.owner k = some uid)
    (hl : Linked k s) (hm : getPacketMark (linkNameOf k) = .ok k) :
    Tracked P (insert uid S) (Node.serve (.addGateway uid) s).2 where
  sound := sound_serve ⟨trivial, trivial, trivial⟩ h.sound
  active u := by rw [mem_addGateway, h.active, Set.mem_insert_iff]
  linked u hu := by
    rcases hu with rfl | hu
    · exact ⟨k, h₀, hk, hl, hm⟩
    · exact h.linked u hu

theorem wp_reconcile_tracked {gwConfig : StaticGatewayConfiguration} {m : Metadata} (hC : Steady C) (h : Tracked P S s)
    (h₀ : port gwConfig ≠ 0) (hk : P.owner (port gwConfig) = some gwConfig.meta_.uid) :
    wp world C (reconcile m gwConfig)
      (fun r s' => Tracked P (if r.isOk then insert gwConfig.meta_.uid S else S) s') s := by
  have hr : wp world C (setUp m gwConfig) (fun r s' => ∀ a, r = .ok a → Linked (port gwConfig) s' ∧ _) s :=
    wp_relax (returns_setUp hk) (fun _ _ _ _ => trivial) fun c s _ => hC.owe c s
  rw [reconcile_eq]
  refine wp_seq (wp_and (h.of_uses (uses_setUp hk) hC.owe) hr) (fun _ s' hs => ?_) fun _ _ hs => hs.left
  obtain ⟨hl, hm⟩ := hs.right _ rfl
  exact wp_served hC rfl (hs.left.add h₀ hk hl hm)

theorem uses_peerStatus {ok : Call → Prop} {ps : List PeerConfiguration} {add : Bool} (hg : ok .getStatus) (hn : ok .getNode)
    (hc : ∀ st, ok (.createStatus st)) (hu : ∀ st, ok (.updateStatus st)) :
    (PodEndpoints.updateGatewayNodeStatus ps add).Uses ok := by
  refine uses_bind (uses_attempt (uses_request hg)) fun r => ?_
  cases r
  case ok st => cases add <;> exact uses_writeStatus hu
  case error e =>
    dsimp only
    split
    · trivial
    · split
      · trivial
      · exact uses_bind (uses_wrapError (uses_request hn)) fun _ => uses_wrapError (uses_request (hc _))

-- The other reconciler has nothing to do with all this.

section Peers

variable {gwConfig : StaticGatewayConfiguration} {podEndpoint : PodEndpoint} {keys : List String} {name : String}

theorem uses_plain {α : Type} {c : Call} {context : String} {f : Reply c → M α} (h : c.plain = true)
    (hf : ∀ a, (f a).Uses fun c : Call => c.plain = true) :
    ((wrapError context (request c)).bind f).Uses fun c : Call => c.plain = true :=
  uses_bind (uses_wrapError (uses_request h)) hf

theorem uses_reconcilePeer : (PodEndpoints.reconcile gwConfig podEndpoint).Uses fun c : Call => c.plain = true := by
  refine uses_plain rfl fun _ => uses_plain rfl fun _ => uses_orError_bind fun _ _ => uses_orError_bind fun _ _ => ?_
  refine uses_plain rfl fun _ => uses_bind (uses_wrapError ?_) fun _ => ?_
  · exact uses_plain rfl fun _ => uses_orError_bind fun _ _ => uses_wrapError (uses_request rfl)
  · exact uses_peerStatus rfl rfl (fun _ => rfl) fun _ => rfl

theorem uses_cleanUpWgLink : (PodEndpoints.cleanUpWgLink name keys).Uses fun c : Call => c.plain = true := by
  refine uses_plain rfl fun _ => uses_plain rfl fun _ => uses_plain rfl fun device => ?_
  dsimp only
  split
  case isTrue => trivial
  case isFalse =>
    refine uses_bind (uses_wrapError (uses_plain rfl fun _ => uses_plain rfl fun routes => ?_)) fun _ => ?_
    · refine uses_forEach fun route _ => ?_
      unfold PodEndpoints.deleteWireguardPeerRoute
      split
      · trivial
      · split
        · exact uses_wrapError (uses_request rfl)
        · trivial
    · exact uses_plain rfl fun _ => uses_ret _

theorem uses_cleanUpPeers [CaseFold] {m : Metadata} : (PodEndpoints.cleanUp m).Uses fun c : Call => c.plain = true := by
  refine uses_plain rfl fun es => uses_plain rfl fun gws => uses_bind (uses_forFold fun acc x _ => ?_) fun _ => ?_
  · refine uses_bind (uses_attempt uses_cleanUpWgLink) fun r => ?_
    cases r <;> trivial
  · exact uses_wrapError (uses_peerStatus rfl rfl (fun _ => rfl) fun _ => rfl)

theorem uses_peers [CaseFold] {m : Metadata} {key : NamespacedName} :
    (PodEndpoints.reconcileRequest m key).Uses fun c : Call => c.plain = true := by
  unfold PodEndpoints.reconcileRequest
  dsimp only
  split
  on_goal 1 => refine uses_bind (uses_wrapError uses_cleanUpPeers) fun _ => ?_
  -- What follows the clean-up is what is done without it.
  all_goals
    refine uses_bind (uses_attempt (uses_request rfl)) fun r => ?_
    cases r
    case error => dsimp only; split <;> trivial
    case ok podEndpoint =>
      refine uses_plain rfl fun gwConfig => ?_
      split
      · exact uses_reconcilePeer
      · trivial

end Peers

end Tracked

-- How a gateway link is forgotten when every call is served.

section Forget

variable {P : Ports} {s : Node} {C : Contract Sig Node} {K : Type} {D : Dispatch K} {k : K} {n : Netns}

theorem wp_removeChain_served {names : List String} {comment : String} (hC : Steady C) (hn : s.netns .gateway = some n)
    (hs : D.Sole (s.nat .gateway)) (hj : D.jump k = Chains.jumpRule comment (D.chain k)) :
    wp world C (removeIPTablesChain .gateway names ⟨D.chain k, D.source, comment⟩) (fun r _ => r = .ok ()) s := by
  unfold removeIPTablesChain
  split
  case isFalse => exact rfl
  case isTrue =>
    obtain ⟨t, ht⟩ := hs.removable k
    rw [hj, Node.nat_of_netns hn] at ht
    refine wp_seq (P := fun r s' => r = .ok () ∧
      s'.netns .gateway = some { n with nat := n.nat.deleteRule D.source (Chains.jumpRule comment (D.chain k)) })
      (wp_servedWrapped hC rfl ?_) (fun _ s' hs' => ?_) fun _ _ hs' => (by cases hs'.left)
    · simp only [Node.serve, Node.onNat, Node.onNetns, hn]
      exact ⟨rfl, Node.netns_setNetns.trans (if_pos rfl)⟩
    · refine wp_servedWrapped hC rfl ?_
      simp only [Node.serve, Node.onNat, Node.onNetns, hs'.right, ht]
      rfl

-- What the removal of chains leaves alone.
structure Beneath (P : Ports) (A : List String) (s : Node) : Prop where
  sound   : Sound P s
  present : (s.netns .gateway).isSome = true
  active  : s.activeGateways = A

theorem Beneath.of_uses {A : List String} {α : Type} {p : M α} (h : Beneath P A s)
    (hp : p.Uses fun c : Call => Proper P c ∧ c.writes .gateways = false) (owe : ∀ c s, C.owe c s) :
    wp world C p (fun _ s' => Beneath P A s') s := by
  refine wp_invariant (J := Beneath P A) (fun c s hc hs => ⟨sound_serve hc.left hs.sound, ?_, ?_⟩) hp (fun c s _ => owe c s) h
  · exact Node.serve_isSome.trans hs.present
  · exact (Node.serve_gateways hc.right).trans hs.active

theorem Beneath.removeChain {A : List String} {names : List String} {comment : String} (hC : Steady C) (h : Beneath P A s)
    (hs : D.Sole (s.nat .gateway)) (hj : D.jump k = Chains.jumpRule comment (D.chain k)) :
    wp world C (removeIPTablesChain .gateway names ⟨D.chain k, D.source, comment⟩)
      (fun r s' => r = .ok () ∧ Beneath P A s') s := by
  obtain ⟨n, hn⟩ := Option.isSome_iff_exists.mp h.present
  refine wp_and (wp_removeChain_served hC hn hs hj) (h.of_uses ?_ hC.owe)
  unfold removeIPTablesChain
  split
  case isFalse => trivial
  case isTrue =>
    refine uses_bind (uses_wrapError (uses_request ?_)) fun _ => uses_wrapError (uses_request ?_)
    all_goals exact ⟨⟨trivial, trivial, trivial⟩, rfl⟩

theorem Beneath.removeLinkRules {A : List String} {k : Int} (hC : Steady C) (h : Beneath P A s) :
    wp world C (removeIPTablesChains .gateway [
      ⟨Chains.mark k, prerouting, Chains.markComment (linkNameOf k)⟩,
      ⟨Chains.snatOf k, postrouting, Chains.snatComment (linkNameOf k)⟩])
      (fun r s' => r = .ok () ∧ Beneath P A s') s := by
  obtain ⟨n, hn⟩ := Option.isSome_iff_exists.mp h.present
  refine wp_known (a := n.nat.map (·.name)) hC rfl rfl (by simp only [Node.serve, Node.look, hn]) ?_
  refine wp_seq (h.removeChain (D := Chains.marks) (k := k) hC h.sound.marks rfl) (fun _ s₁ h₁ => ?_)
    fun _ _ hs => (by cases hs.left)
  refine wp_seq (h₁.right.removeChain (D := Chains.snats) (k := k) hC h₁.right.sound.snats rfl) (fun _ s₂ h₂ => ?_)
    fun _ _ hs => (by cases hs.left)
  exact ⟨rfl, h₂.right⟩

theorem wp_removeStatus_served {g : GatewayConfiguration} (hC : Steady C) :
    wp world C (updateGatewayNodeStatus g false) (fun r s' => r = .ok () ∧ s'.activeGateways = s.activeGateways) s := by
  have hu : (updateGatewayNodeStatus g false).Uses fun c : Call => c.writes .gateways = false :=
    uses_removeStatus rfl fun _ => rfl
  refine wp_and ?_ (wp_of_uses (R := fun s s' : Node => s'.activeGateways = s.activeGateways) (fun _ => rfl)
    (fun h h' => h'.trans h) (fun _ _ => Node.serve_gateways) hu fun c s _ => hC.owe c s)
  refine wp_bind.mpr (wp_attempt.mpr (wp_served hC rfl ?_))
  cases hs : s.api.status
  case none =>
    simp only [Node.serve, hs]
    exact rfl
  case some st =>
    simp only [Node.serve, hs]
    change wp world C (writeStatus (removeGatewayConfiguration g.interfaceName st)) _ _
    cases removeGatewayConfiguration g.interfaceName st
    case none => exact rfl
    case some st' =>
      refine wp_servedWrapped hC rfl ?_
      simp only [Node.serve, Node.reply, hs]
      rfl

theorem wp_forgetLink {l : Link} {k : Int} {A : List String} (hC : Steady C) (h : Beneath P A s)
    (hl : l.name = linkNameOf k) (hm : getPacketMark l.name = .ok k) :
    wp world C (forgetLink l) (fun r s' => r = .ok () ∧ s'.activeGateways = A.filter (· ≠ l.alias_)) s := by
  refine wp_seq (P := fun r s' => r = .ok k ∧ s' = s) (wp_ofExcept.mpr ⟨hm, rfl⟩) ?_ fun _ _ hs => (by cases hs.left)
  rintro _ _ ⟨hk, rfl⟩
  obtain rfl := Except.ok.inj hk
  rw [hl]
  refine wp_seq (P := fun r s' => r = .ok () ∧ Beneath P A s') ?_ (fun _ s₁ h₁ => ?_) fun _ _ hs => (by cases hs.left)
  · refine wp_wrapped (h.removeLinkRules hC) (fun _ _ hs => ⟨rfl, hs.right⟩) fun _ _ hs => (by cases hs.left)
  refine wp_seq (wp_removeStatus_served hC) (fun _ s₂ h₂ => ?_) fun _ _ hs => (by cases hs.left)
  refine wp_served hC rfl ⟨rfl, ?_⟩
  change s₂.activeGateways.filter _ = _
  rw [h₂.right, h₁.right.active]

theorem serve_linkDel (s : Node) (name : String) :
    (Node.serve (.linkDel .gateway name) s).1 = .ok () ∧ (s.link .gateway name).isSome = true ∨
    (∃ e, (Node.serve (.linkDel .gateway name) s).1 = .error e) ∧ (Node.serve (.linkDel .gateway name) s).2 = s ∧
      (s.link .gateway name).isSome = false := by
  simp only [Node.serve, Node.deleteLink]
  cases hn : s.netns .gateway
  case none => exact .inr ⟨⟨_, rfl⟩, rfl, by rw [Node.link_of_netns_none hn]; rfl⟩
  case some n =>
    rw [Node.link_of_netns hn]
    dsimp only
    cases hl : n.findLink name
    case none => exact .inr ⟨⟨_, rfl⟩, rfl, rfl⟩
    case some l =>
      refine .inl ⟨?_, rfl⟩
      dsimp only
      split <;> rfl

-- Which gateway links there are and which gateways are known, after a link has been deleted.
def forgetting (x : (String → Bool) × List String) (l : Link) : (String → Bool) × List String :=
  (fun n => x.1 n && n ≠ l.name,
    if x.1 l.name && (getPacketMark l.name).isOk then x.2.filter (· ≠ l.alias_) else x.2)

def Node.known (s : Node) : (String → Bool) × List String :=
  (fun n => (s.link .gateway n).isSome, s.activeGateways)

theorem wp_ensureDeleteLink_known {l : Link} {k : Int} (hC : Steady C) (h : Beneath P s.activeGateways s)
    (hl : l.name = linkNameOf k) :
    wp world C (ensureDeleteLink l) (fun _ s' => (Sound P s' ∧ (s'.netns .gateway).isSome = true) ∧
      s'.known = forgetting s.known l) s := by
  have hinv : wp world C (ensureDeleteLink l) (fun _ s' => Sound P s' ∧ (s'.netns .gateway).isSome = true) s := by
    have hproper : (ensureDeleteLink l).Uses (Proper P) := by
      refine uses_bind (uses_wrapError (uses_request ⟨trivial, trivial, trivial⟩)) fun _ => uses_forgetLink.mono fun c hc => ?_
      cases c
      all_goals first | exact ⟨trivial, trivial, trivial⟩ | cases hc
    exact wp_invariant (J := fun s => Sound P s ∧ (s.netns .gateway).isSome = true)
      (fun c s hc hs => ⟨sound_serve hc hs.left, Node.serve_isSome.trans hs.right⟩) hproper (fun c s _ => hC.owe c s)
      ⟨h.sound, h.present⟩
  have hlinks : wp world C (ensureDeleteLink l) (fun _ s' => s'.link = withoutLink s.link l) s :=
    wp_ensureDeleteLink_links hC (hl ▸ Chains.hasPrefix_linkNameOf k)
  have hactive : wp world C (ensureDeleteLink l)
      (fun _ s' => s'.activeGateways = (forgetting s.known l).2) s := by
    refine wp_bind.mpr (wp_servedWrapped hC rfl ?_)
    rcases serve_linkDel s l.name with ⟨ho, hs⟩ | ⟨⟨e, he⟩, hst, hs⟩
    · rw [ho]
      change wp world C (forgetLink l) _ _
      have hb : Beneath P s.activeGateways (Node.serve (.linkDel .gateway l.name) s).2 :=
        ⟨sound_serve ⟨trivial, trivial, trivial⟩ h.sound, Node.serve_isSome.trans h.present, Node.serve_gateways rfl⟩
      cases hm : getPacketMark l.name
      case ok j =>
        obtain rfl : j = k := getPacketMark_linkNameOf (hl ▸ hm)
        refine wp_mono (wp_forgetLink hC hb hl hm) fun _ s' h' => h'.right.trans ?_
        simp [forgetting, Node.known, hs, hm, Except.isOk, Except.toBool]
      case error e =>
        refine wp_seq (P := fun r s' => r = .error e ∧ s' = _) (wp_ofExcept.mpr ⟨hm, rfl⟩)
          (fun _ _ h' => by cases h'.left) fun _ s' h' => ?_
        rw [h'.right, hb.active]
        simp [forgetting, Node.known, hs, hm, Except.isOk, Except.toBool]
    · rw [he]
      change (Node.serve (.linkDel .gateway l.name) s).2.activeGateways = _
      rw [hst]
      simp [forgetting, Node.known, hs]
  refine wp_mono (wp_and hinv (wp_and hlinks hactive)) fun _ s' ⟨hi, hk, ha⟩ => ⟨hi, Prod.ext (funext fun n => ?_) ha⟩
  simp only [Node.known, forgetting, hk, withoutLink]
  by_cases hn : n = l.name <;> simp [hn]

theorem known_forgetting {ls : List Link} {x : (String → Bool) × List String} {n : String} :
    (ls.foldl forgetting x).1 n = true ↔ x.1 n = true ∧ ∀ l ∈ ls, n ≠ l.name := by
  induction ls generalizing x
  case nil => simp
  case cons l ls hi => simp [hi, forgetting, and_assoc]

-- A UID is forgotten along with any link that carries it. The links of one name carry the same UID.
theorem mem_forgetting {ls : List Link} {x : (String → Bool) × List String} {u : String}
    (hn : ∀ l ∈ ls, ∀ l' ∈ ls, l.name = l'.name → l.alias_ = l'.alias_) :
    u ∈ (ls.foldl forgetting x).2 ↔
      u ∈ x.2 ∧ ∀ l ∈ ls, x.1 l.name = true → (getPacketMark l.name).isOk = true → l.alias_ ≠ u := by
  induction ls generalizing x
  case nil => simp
  case cons l ls hi =>
    rw [List.foldl_cons, hi fun a ha b hb => hn a (List.mem_cons_of_mem _ ha) b (List.mem_cons_of_mem _ hb)]
    have hhead : u ∈ (forgetting x l).2 ↔
        u ∈ x.2 ∧ (x.1 l.name = true → (getPacketMark l.name).isOk = true → l.alias_ ≠ u) := by
      unfold forgetting
      split
      case isTrue h =>
        rw [Bool.and_eq_true] at h
        have hne : decide (u ≠ l.alias_) = true ↔ l.alias_ ≠ u := decide_eq_true_iff.trans ne_comm
        rw [List.mem_filter, hne]
        simp only [h.left, h.right, forall_const]
      case isFalse h =>
        rw [Bool.and_eq_true, not_and] at h
        exact ⟨fun hu => ⟨hu, fun h₁ h₂ => absurd h₂ (h h₁)⟩, And.left⟩
    rw [hhead, List.forall_mem_cons, and_assoc]
    refine and_congr_right fun _ => and_congr_right fun hl => forall₂_congr fun l' hl' => ?_
    by_cases he : l'.name = l.name
    case neg => simp [forgetting, he]
    case pos =>
      have ha := hn l' (List.mem_cons_of_mem _ hl') l List.mem_cons_self he
      refine ⟨fun _ => ?_, fun _ hx => ?_⟩
      · rw [ha, he]
        exact hl
      · simp [forgetting, he] at hx

end Forget

section CleanUp

variable [CaseFold] {P : Ports} {S : Set String} {m : Metadata} {unread : NamespacedName → Bool} {C : Contract Sig Node}
  {s : Node}

variable (m unread s) in
-- The gateways that a clean-up finds to be in use.
def published : Set String :=
  { u | ∃ c ∈ live m s, readable m unread s c = true ∧ port c ≠ 0 ∧ c.meta_.uid = u }

theorem linkNameOf_mem_wgLinks {k : Int} : linkNameOf k ∈ (existingOf m unread s).wgLinks ↔
    ∃ c ∈ live m s, readable m unread s c = true ∧ port c = k := by
  simp only [existingOf, List.mem_map, mem_kept, and_assoc]
  have hp (c : StaticGatewayConfiguration) : getWireguardInterfaceName c = linkNameOf k ↔ port c = k :=
    ⟨fun h => Chains.linkNameOf_inj h, congrArg linkNameOf⟩
  simp only [hp]

-- Of the known gateways, those that are not in use carry their UID on an orphaned link.
theorem mem_published_iff {k : Int} {u : String} (h : Sound P s) (h₀ : k ≠ 0) (hk : P.owner k = some u) :
    u ∈ published m unread s ↔ linkNameOf k ∈ (existingOf m unread s).wgLinks := by
  have hport {c : StaticGatewayConfiguration} (hc : c ∈ live m s) (hp : port c ≠ 0) :
      P.owner (port c) = some c.meta_.uid := h.ports c (mem_live.mp hc).left hp
  rw [linkNameOf_mem_wgLinks]
  constructor
  case mp =>
    rintro ⟨c, hc, hr, hp, rfl⟩
    exact ⟨c, hc, hr, P.inj (hport hc hp) hk⟩
  case mpr =>
    rintro ⟨c, hc, hr, rfl⟩
    exact ⟨c, hc, hr, h₀, Option.some.inj ((hport hc h₀).symm.trans hk)⟩

omit [CaseFold] in
theorem uses_ensureDeleteIP_plain {addr : Addr} : (ensureDeleteIP addr).Uses fun c : Call => c.plain = true := by
  refine uses_plain rfl fun _ => uses_plain rfl fun _ => uses_forgetIP.mono fun c hc => ?_
  cases c
  all_goals first | rfl | cases hc

omit [CaseFold] in
theorem uses_removeLeftovers_plain : (removeLeftovers m).Uses fun c : Call => c.plain = true := by
  refine uses_removeLeftovers.mono fun c hc => ?_
  cases c
  all_goals first | rfl | cases hc

theorem mem_orphans {l : Link} : l ∈ (s.links .gateway).filter (isOrphanedLink (existingOf m unread s)) ↔
    l ∈ s.links .gateway ∧ hasPrefix l.name wireguardLinkNamePrefix = true ∧
    l.name ∉ (existingOf m unread s).wgLinks := by
  simp [List.mem_filter, isOrphanedLink]

-- All orphans of `s` have been deleted in `s₂`. In between there were other things to do.
theorem Tracked.forget {s₁ s₂ : Node} (h : Tracked P S s) (h₁ : Tracked P S s₁) (h₂ : Sound P s₂)
    (hk : s₂.known =
      ((s.links .gateway).filter (isOrphanedLink (existingOf m unread s))).foldl forgetting s₁.known) :
    Tracked P (S ∩ published m unread s) s₂ := by
  have halias {l : Link} (hl : l ∈ (s.links .gateway).filter (isOrphanedLink (existingOf m unread s))) :
      ∃ j, l.name = linkNameOf j ∧ P.owner j = some l.alias_ := by
    obtain ⟨hl, hp, -⟩ := mem_orphans.mp hl
    obtain ⟨j, hj⟩ := h.sound.named l hl hp
    exact ⟨j, hj, h.sound.label .gateway l hl j hj⟩
  have hport {u : String} (hu : u ∈ S) : ∃ k ≠ 0, P.owner k = some u ∧ Linked k s ∧ Linked k s₁ ∧
      getPacketMark (linkNameOf k) = .ok k := by
    obtain ⟨k, h₀, hk, hl, hm⟩ := h.linked u hu
    obtain ⟨k₁, -, hk₁, hl₁, -⟩ := h₁.linked u hu
    obtain rfl := P.inj hk hk₁
    exact ⟨k, h₀, hk, hl, hl₁, hm⟩
  constructor
  case sound => exact h₂
  case active =>
    intro u
    have ha : s₂.activeGateways = s₂.known.2 := rfl
    rw [ha, hk, mem_forgetting fun l hl l' hl' he => ?names]
    case names =>
      obtain ⟨j, hj, ho⟩ := halias hl
      obtain ⟨j', hj', ho'⟩ := halias hl'
      obtain rfl := Chains.linkNameOf_inj (hj.symm.trans (he.trans hj'))
      exact Option.some.inj (ho.symm.trans ho')
    change u ∈ s₁.activeGateways ∧ _ ↔ _
    rw [h₁.active]
    refine and_congr_right fun hu => ?_
    obtain ⟨k, h₀, hk, ⟨l, hl, hn⟩, hl₁, hm⟩ := hport hu
    rw [mem_published_iff h.sound h₀ hk]
    constructor
    case mp =>
      intro hkept
      by_contra hnot
      have ho := mem_orphans.mpr ⟨hl, hn ▸ Chains.hasPrefix_linkNameOf k, hn ▸ hnot⟩
      refine hkept l ho (hn ▸ linked_iff.mp hl₁) (by rw [hn, hm]; rfl) ?_
      exact Option.some.inj ((h.sound.label .gateway l hl k hn).symm.trans hk)
    case mpr =>
      rintro hmem l' hl' - - rfl
      obtain ⟨j, hj, ho⟩ := halias hl'
      obtain rfl := P.inj ho hk
      exact (mem_orphans.mp hl').right.right (hj ▸ hmem)
  case linked =>
    rintro u ⟨hu, hp⟩
    obtain ⟨k, h₀, hk', -, hl₁, hm⟩ := hport hu
    refine ⟨k, h₀, hk', linked_iff.mpr ?_, hm⟩
    change s₂.known.1 (linkNameOf k) = true
    rw [hk, known_forgetting]
    refine ⟨linked_iff.mp hl₁, fun l hl he => ?_⟩
    exact (mem_orphans.mp hl).right.right (he ▸ (mem_published_iff h.sound h₀ hk').mp hp)

-- A clean-up leaves nothing but the gateways that are in use.
theorem wp_cleanUp_tracked {l : Link} (hC : Reading unread C) (h : Tracked P S s)
    (hl : s.link .gateway hostLinkName = some l) :
    wp world C (cleanUp m) (fun _ s' => Tracked P (S ∩ published m unread s) s') s := by
  have hS := hC.steady
  have hpresent : (s.netns .gateway).isSome = true := by
    cases hn : s.netns .gateway
    case some => rfl
    case none => rw [Node.link_of_netns_none hn] at hl; cases hl
  refine wp_cleanUp_of_present hC hl ?_
  have hips : wp world C (removeOrphans (isOrphanedIP (existingOf m unread s)) ensureDeleteIP l.addrs)
      (fun r s' => r = .ok () ∧ Tracked P S s' ∧ (s'.netns .gateway).isSome = true) s := by
    refine wp_and (wp_mono (wp_removeOrphanedIPs hS) fun _ _ h => h.left) ?_
    refine wp_invariant (J := fun s => Tracked P S s ∧ (s.netns .gateway).isSome = true)
      (fun c s hc hs => ⟨hs.left.serve (tame_of_plain hc), Node.serve_isSome.trans hs.right⟩)
      (uses_removeOrphans fun _ _ _ => uses_ensureDeleteIP_plain) (fun c s _ => hC.owe c s) ⟨h, hpresent⟩
  refine wp_seq hips (fun _ s₁ h₁ => ?_) fun _ _ hs => (by cases hs.left)
  obtain ⟨-, h₁, hp₁⟩ := h₁
  have hlinks : wp world C (removeOrphans (isOrphanedLink (existingOf m unread s)) ensureDeleteLink (s.links .gateway))
      (fun r s' => r = .ok () ∧ (Sound P s' ∧ (s'.netns .gateway).isSome = true) ∧
        s'.known = ((s.links .gateway).filter (isOrphanedLink (existingOf m unread s))).foldl forgetting s₁.known) s₁ := by
    refine wp_removeOrphans Node.known forgetting (J := fun s => Sound P s ∧ (s.netns .gateway).isSome = true)
      ⟨h₁.sound, hp₁⟩ fun l hm ho s hs => ?_
    obtain ⟨k, hk⟩ := h.sound.named l hm (Bool.and_eq_true_iff.mp ho).left
    exact wp_ensureDeleteLink_known hS ⟨hs.left, hs.right, rfl⟩ hk
  refine wp_seq hlinks (fun _ s₂ h₂ => ?_) fun _ _ hs => (by cases hs.left)
  obtain ⟨-, ⟨hs₂, -⟩, hk₂⟩ := h₂
  have htracked := h.forget h₁ hs₂ hk₂
  split
  case isFalse => exact htracked
  case isTrue  => exact htracked.of_uses (uses_removeLeftovers_plain.mono fun _ => tame_of_plain) hC.owe

-- What a request comes down to.
inductive Task
  | skip
  | cleanUp
  | reconcile (gwConfig : StaticGatewayConfiguration)

def taskOf (m : Metadata) (s : Node) (key : NamespacedName) : Task :=
  if key.namespace_ = "" ∧ key.name = "" then .cleanUp
  else
    match s.api.gwConfigs.find? (·.meta_.key = key) with
    | none          => .skip
    | some gwConfig =>
      if !isReady gwConfig || !applyToNode m gwConfig then .skip
      else if gwConfig.meta_.deleting then .cleanUp
      else .reconcile gwConfig

-- The gateways that are to be served afterwards. `done` tells whether the request has succeeded.
def serving (m : Metadata) (unread : NamespacedName → Bool) (s : Node) (done : Bool) (S : Set String) : Task → Set String
  | .skip               => S
  | .cleanUp            => if (s.link .gateway hostLinkName).isSome then S ∩ published m unread s else S
  | .reconcile gwConfig => if done then insert gwConfig.meta_.uid S else S

theorem wp_cleanUp_serving (done : Bool) (hC : Reading unread C) (h : Tracked P S s) :
    wp world C (cleanUp m) (fun _ s' => Tracked P (serving m unread s done S .cleanUp) s') s := by
  unfold serving
  cases hl : s.link .gateway hostLinkName
  case none   => exact wp_mono (wp_cleanUp_of_absent hC hl) fun _ _ hs => hs ▸ h
  case some l => exact wp_cleanUp_tracked hC h hl

omit [CaseFold] in
theorem port_of_isReady {gwConfig : StaticGatewayConfiguration} (h : isReady gwConfig = true) : port gwConfig ≠ 0 := by
  simp only [isReady, Bool.decide_and, Bool.and_eq_true, decide_eq_true_eq] at h
  exact h.2.2.1

theorem wp_reconcileRequest_serving {key : NamespacedName} (hC : Reading unread C) (h : Tracked P S s) :
    wp world C (reconcileRequest m key)
      (fun r s' => Tracked P (serving m unread s r.isOk S (taskOf m s key)) s') s := by
  have hclean (context : String) : wp world C (wrapError context (cleanUp m))
      (fun r s' => Tracked P (serving m unread s r.isOk S .cleanUp) s') s :=
    wp_wrapped (wp_cleanUp_serving true hC h) (fun _ _ hs => hs) fun _ _ hs => hs
  unfold reconcileRequest taskOf
  split
  case isTrue => exact hclean _
  case isFalse =>
    refine wp_bind.mpr (wp_attempt.mpr (wp_served hC.steady rfl ?_))
    cases hf : s.api.gwConfigs.find? (·.meta_.key = key)
    case none =>
      simp only [Node.serve, Node.reply, hf]
      exact h
    case some gwConfig =>
      simp only [Node.serve, Node.reply, hf, andThen]
      split
      case isTrue => exact h
      case isFalse hr =>
        split
        case isTrue => exact hclean _
        case isFalse =>
          simp only [Bool.or_eq_true, Bool.not_eq_true', not_or, Bool.not_eq_false] at hr
          have h₀ := port_of_isReady hr.left
          exact wp_reconcile_tracked hC.steady h h₀ (h.sound.ports gwConfig (List.mem_of_find?_eq_some hf) h₀)

-- Runs of a node on which nothing fails but reading the objects that are `missed`. The other reconciler may fail in
-- any way, and the objects of the API server may change at any time, as long as the ports stay with their owners.
-- The set says which gateways ought to be served.
inductive Watched (P : Ports) (m : Metadata) : Set String → Node → Prop
  | init {t : Node} (hs : Sound P t) (h : t.activeGateways = []) : Watched P m ∅ t
  | outside {T : Set String} {t : Node} (api : Api) (h : Watched P m T t) (ha : P.Assigned api) :
      Watched P m T { t with api := api }
  | gateway {T : Set String} {t : Node} (key : NamespacedName) (missed : NamespacedName → Bool)
      {o : Outcome Sig Node Unit} (h : Watched P m T t)
      (ho : run world (fun _ => reading missed) 0 (reconcileRequest m key) t = o) :
      Watched P m (serving m missed t o.result.isOk T (taskOf m t key)) o.state
  | peer {T : Set String} {t : Node} (key : NamespacedName) (φ : Oracle Sig) {o : Outcome Sig Node Unit}
      (h : Watched P m T t) (ho : run world φ 0 (PodEndpoints.reconcileRequest m key) t = o) :
      Watched P m T o.state

theorem Watched.tracked (h : Watched P m S s) : Tracked P S s := by
  induction h
  case init s hs h => exact ⟨hs, fun u => by simp [h], by simp⟩
  case outside S s api _ ha hi =>
    exact ⟨⟨ha, hi.sound.label, hi.sound.named, hi.sound.marks, hi.sound.snats⟩, hi.active, hi.linked⟩
  case gateway S s key unread o _ ho hi =>
    subst ho
    exact (run_of_wp (wp_reconcileRequest_serving reading_fixed hi) _ 0 fun e he => fault_fixed (reading unread) _ 0 s e he).left
  case peer S s key φ o _ ho hi =>
    exact outcome_of_wp (hi.of_uses (uses_peers.mono fun _ => tame_of_plain) fun _ _ => trivial) ho

omit [CaseFold] in
theorem splitChars_of_notMem {sep : Char} {cs : List Char} (h : sep ∉ cs) : splitChars sep cs = [cs] := by
  induction cs
  case nil => rfl
  case cons c cs hi =>
    obtain ⟨hc, hcs⟩ := List.ne_and_not_mem_of_not_mem_cons h
    rw [splitChars, if_neg hc.symm, hi hcs]

omit [CaseFold] in
theorem serveHTTP_probe {uid : String} (h : '/' ∉ uid.toList) :
    s.serveHTTP (Manager.gatewayHealthProbeEndpoint ++ uid) =
      if uid ∈ s.activeGateways then .ok else .serviceUnavailable := by
  have hs : split '/' (Manager.gatewayHealthProbeEndpoint ++ uid) = ["", "gw", uid] := by
    have hl : (Manager.gatewayHealthProbeEndpoint ++ uid).toList = '/' :: 'g' :: 'w' :: '/' :: uid.toList := by
      rw [String.toList_append]
      rfl
    simp [split, hl, splitChars, splitChars_of_notMem h]
  rw [Node.serveHTTP, hs]

-- The probe that is set up for the load balancer of a gateway is answered by whether the gateway is served.
theorem probe_answers (probeName : String) (lbProbePort : Int) {lbConfig : GatewayLBConfiguration}
    {owner : OwnerReference} {path : String} (h : Watched P m S s)
    (ho : lbConfig.meta_.ownerReferences.find? (·.name = lbConfig.meta_.key.name) = some owner)
    (hu : '/' ∉ owner.uid.toList)
    (hp : (Manager.getExpectedLBProbe probeName lbProbePort lbConfig).properties.bind (·.requestPath) = some path) :
    (owner.uid ∈ S → s.serveHTTP path = .ok) ∧ (owner.uid ∉ S → s.serveHTTP path = .serviceUnavailable) := by
  have hpath : Manager.gatewayHealthProbeEndpoint ++ owner.uid = path := by
    simpa [Manager.getExpectedLBProbe, Manager.getExpectedLBProbe.gatewayUID, ho] using hp
  rw [← hpath, serveHTTP_probe hu]
  have hactive := h.tracked.active owner.uid
  exact ⟨fun hm => if_pos (hactive.mpr hm), fun hm => if_neg (mt hactive.mp hm)⟩

end CleanUp

theorem sole_empty {K : Type} {D : Dispatch K} : D.Sole Table.empty := by
  have hnil {c : String} {rs : List Rule} (h : Table.empty.find c = some rs) : rs = [] := by
    have hm := Table.mem_of_find h
    simp only [Table.empty, List.mem_cons, Chain.mk.injEq, List.not_mem_nil, or_false] at hm
    rcases hm with hm | hm | hm | hm <;> exact hm.right
  constructor
  case jumps =>
    intro c rs h r hr
    rw [hnil h] at hr
    cases hr
  case once =>
    intro rs h k
    rw [hnil h]
    exact Nat.zero_le 1

namespace Sample

-- A single gateway, from its first reconcile to the next clean-up.

def ports : Ports where
  owner k := if k = 6000 then some "a" else none
  inj {j k u} hj hk := by
    have hport {i : Int} (h : (if i = 6000 then some "a" else none) = some u) : i = 6000 := by
      by_contra hne
      rw [if_neg hne] at h
      cases h
    exact (hport hj).trans (hport hk).symm

def healthyNode : Node :=
  node {
    gwConfigs := [gwConfig "a" "a" 6000]
    vmConfigs := [vmConfig "a" "10.0.0.6"]
    secrets   := [secret "a"] }

def lbConfig : GatewayLBConfiguration where
  meta_ := { key := ⟨"default", "a"⟩, uid := "lb", ownerReferences := [{ name := "a", uid := "a" }] }
  spec  := { gatewayNodepoolName := "gateway" }

def reconciled : Outcome Sig Node Unit :=
  run world (fun _ => reading fun _ => false) 0 (reconcileRequest metadata ⟨"default", "a"⟩) healthyNode

def cleaned : Outcome Sig Node Unit :=
  run world (fun _ => reading fun _ => false) 0 (reconcileRequest metadata ⟨"", ""⟩) reconciled.state

theorem sound_healthyNode : Sound ports healthyNode := by
  constructor
  case ports =>
    intro c hc _
    rw [List.mem_singleton.mp hc]
    rfl
  case label =>
    intro ns l hl k hk
    cases ns
    all_goals
      rw [List.mem_singleton.mp hl] at hk
      exact absurd hk.symm (ne_literal_of_diverge (by decide +kernel) _)
  case named =>
    intro l hl hp
    rw [List.mem_singleton.mp hl] at hp
    exact absurd hp (by decide +kernel)
  case marks => exact sole_empty
  case snats => exact sole_empty

end Sample

open Sample in
theorem probe_answers_sample : cleaned.state.serveHTTP "/gw/a" = .ok := by
  have h₀ : Watched ports metadata ∅ healthyNode := .init sound_healthyNode rfl
  have h := (h₀.gateway ⟨"default", "a"⟩ (fun _ => false) rfl).gateway ⟨"", ""⟩ (fun _ => false) rfl
  refine (probe_answers "probe" 6000 h
    (show lbConfig.meta_.ownerReferences.find? _ = some { name := "a", uid := "a" } from rfl) (by decide +kernel) rfl).left ?_
  have hdone : reconciled.result.isOk = true := by decide +kernel
  have hlink : (reconciled.state.link .gateway hostLinkName).isSome = true := by decide +kernel
  have hserved : "a" ∈ serving metadata (fun _ => false) healthyNode reconciled.result.isOk ∅
      (taskOf metadata healthyNode ⟨"default", "a"⟩) := by
    rw [hdone]
    exact Set.mem_insert "a" ∅
  have hpublished : "a" ∈ published metadata (fun _ => false) reconciled.state :=
    ⟨gwConfig "a" "a" 6000, by decide +kernel, by decide +kernel, by decide +kernel, rfl⟩
  have hkept {T : Set String} (done : Bool) (h : "a" ∈ T) :
      "a" ∈ serving metadata (fun _ => false) reconciled.state done T .cleanUp := by
    rw [serving, if_pos hlink]
    exact ⟨h, hpublished⟩
  exact hkept _ hserved

end Daemon
