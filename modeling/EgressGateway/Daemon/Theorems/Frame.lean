import EgressGateway.Daemon.StaticGateway
import EgressGateway.Daemon.Theorems.Effects

-- What the functions of the daemon are able to touch at all.

open Kubernetes Text Net Program

namespace Daemon

-- The rules of the error-handling idioms.

section Idioms

variable {α : Type} {ok : Call → Prop} {C : Contract Sig Node} {s : Node}
  {Q : Except Err α → Node → Prop} {p : M α}

theorem uses_wrapError {context : String} (hp : p.Uses ok) : (wrapError context p).Uses ok := by
  refine uses_bind (uses_attempt hp) fun r => ?_
  cases r <;> trivial

theorem uses_onFailure {deferred : M Unit} (hp : p.Uses ok) (hd : deferred.Uses ok) :
    (onFailure p deferred).Uses ok := by
  refine uses_bind (uses_attempt hp) fun r => ?_
  cases r
  case ok    => trivial
  case error => exact uses_bind (uses_attempt hd) fun _ => uses_throw _

theorem uses_orError {e : Err} {a : Option α} : (orError e a).Uses ok := by
  cases a <;> trivial

theorem uses_request {c : Call} (h : ok c) : (request c).Uses ok :=
  uses_perform h

theorem wp_wrapError {context : String} :
    wp world C (wrapError context p) Q s ↔
    wp world C p (fun r s => Q (r.mapError (·.wrap context)) s) s := by
  have he : wp world C (wrapError context p) Q s ↔
      wp world C p.attempt (andThen (W := world) C _ Q) s := wp_bind
  rw [he, wp_attempt]
  refine iff_of_eq <| congrArg (fun Q => wp world C p Q s) (funext₂ fun r s => ?_)
  cases r <;> rfl

-- The two ways in which a wrapped call can end.
theorem wp_wrapped {context : String} {P : Except Err α → Node → Prop} (h : wp world C p P s)
    (ok : ∀ a s, P (.ok a) s → Q (.ok a) s)
    (error : ∀ e s, P (.error e) s → Q (.error (e.wrap context)) s) :
    wp world C (wrapError context p) Q s := by
  refine wp_wrapError.mpr <| wp_mono h fun r s hs => ?_
  cases r
  case ok a    => exact ok a s hs
  case error e => exact error e s hs

@[simp]
theorem wp_orError {e : Err} {a : Option α} :
    wp world C (orError e a) Q s ↔ Q (a.elim (.error e) .ok) s := by
  cases a <;> rfl

variable {P : α → Node → Prop}

theorem returns_wrapError {context : String} (h : Returns world p s P) :
    Returns world (wrapError context p) s P :=
  wp_wrapped h (fun _ _ hs => hs) fun _ _ _ => nofun

-- What is deferred does not matter to a function that returns.
theorem returns_onFailure {deferred : M Unit} (h : Returns world p s P) :
    Returns world (onFailure p deferred) s P := by
  refine wp_bind.mpr (wp_attempt.mpr (wp_mono h fun r s hs => ?_))
  cases r
  case ok    => exact hs
  case error => exact returns_skip fun _ _ => returns_throw

theorem returns_orError {β : Type} {e : Err} {o : Option β} {f : β → M α}
    (h : ∀ b, o = some b → Returns world (f b) s P) : Returns world ((orError e o).bind f) s P := by
  cases o
  case none   => exact returns_throw
  case some b => exact h b rfl

end Idioms

-- What becomes of the node when an edit has been answered by `r`.
def Altered (c : Call) (ns : Space) (r : Except Err (Reply c)) (s s' : Node) : Prop :=
  ((∃ e, r = .error e) ∧ s' = s) ∨
  ∃ n t, s.netns ns = some n ∧ c.edit n.nat = some t ∧ s' = s.setNetns ns { n with nat := t }

section Calls

variable {A : Fault → Prop} {s : Node}

-- A call that only reads, and what its answer is if there is one.
theorem wp_reads {c : Call} (context : String) (h : c.reads = true) :
    wp world (.faults A) (wrapError context (request c))
      (fun r s' => s' = s ∧ ∀ a, r = .ok a → (Node.serve c s).1 = .ok a) s := by
  have hw : wp world (.faults A) (request c)
      (fun r s' => s' = s ∧ ∀ a, r = .ok a → (Node.serve c s).1 = .ok a) s :=
    wp_read (Node.serve_reads h) ⟨rfl, fun _ he => he⟩ fun _ => ⟨rfl, nofun⟩
  exact wp_wrapped hw (fun _ _ hs => hs) fun _ _ hs => ⟨hs.left, nofun⟩

theorem nat_of_uses {α : Type} {p : M α} {ns : Space} (h : p.Uses fun c : Call => c.writes (.nat ns) = false) :
    wp world (.faults A) p (fun _ s' => s'.nat ns = s.nat ns) s :=
  wp_of_uses (R := fun s s' : Node => s'.nat ns = s.nat ns) (fun _ => rfl) (fun h h' => h'.trans h)
    (fun _ _ => Node.serve_nat) h fun _ _ _ => trivial

end Calls

section Altered

variable {A : Fault → Prop} {c : Call} {ns : Space} {s : Node}

theorem wp_edit (ns : Space) (context : String) (h : c.writes (.nat ns) = true) :
    wp world (.faults A) (wrapError context (request c)) (fun r s' => Altered c ns r s s') s := by
  have hw : wp world (.faults A) (request c) (fun r s' => Altered c ns r s s') s := by
    refine wp_perform_faults (Node.serve_edits h) (fun _ => .inl ⟨⟨_, rfl⟩, rfl⟩) fun _ => ?_
    exact (Node.serve_edits h).imp_left fun hs => ⟨⟨_, rfl⟩, hs.right⟩
  refine wp_wrapped hw (fun _ _ hs => hs) fun e s' hs => ?_
  exact hs.imp_left fun hs => ⟨⟨_, rfl⟩, hs.right⟩

theorem Altered.ok {a : Reply c} {s' : Node} (h : Altered c ns (.ok a) s s') :
    ∃ n t, s.netns ns = some n ∧ c.edit n.nat = some t ∧ s' = s.setNetns ns { n with nat := t } :=
  h.resolve_left fun ⟨⟨_, he⟩, _⟩ => nomatch he

-- Only the table matters to the table.
theorem Altered.nat {r : Except Err (Reply c)} {s' : Node} (h : Altered c ns r s s') :
    ((∃ e, r = .error e) ∧ s'.nat ns = s.nat ns) ∨ c.edit (s.nat ns) = some (s'.nat ns) := by
  rcases h with ⟨he, rfl⟩ | ⟨n, t, hn, ht, rfl⟩
  · exact .inl ⟨he, rfl⟩
  · refine .inr ?_
    rw [Node.nat_setNetns, if_pos rfl, Node.nat_of_netns hn]
    exact ht

end Altered

-- The calls of the functions that set up links, apart from those that only read.

def wireguardCalls (linkName linkAlias : String) : Call → Prop
  | .linkAdd l           => l = { name := linkName, alias_ := linkAlias, device := some {} }
  | .linkDel ns n        => ns = .host ∧ n = linkName
  | .linkSetNs n         => n = linkName
  | .addrAdd ns n a      => ns = .gateway ∧ n = linkName ∧ a = gwLinkAddr
  | .configureDevice n c => n = linkName ∧ c.peers = []
  | c                    => c.reads = true

def hostNetOf (ip : String) : Option IPNet :=
  (parseCIDR (ip ++ "/32")).map (·.2)

def snatRoute (net : IPNet) : Route where
  link  := hostVethLinkName
  scope := .universe
  dst   := some net

-- Those that are made once the pair of links exists.
def connectCalls (snatIP : String) : Call → Prop
  | .linkSetNs n       => n = hostLinkName
  | .routeReplace ns r => ns = .host ∧ ∃ net, hostNetOf snatIP = some net ∧ r = snatRoute net
  | .routeDel ns r     => ns = .host ∧ ∃ net, hostNetOf snatIP = some net ∧ r = snatRoute net
  | c                  => c.reads = true

def vethCalls (snatIP : String) : Call → Prop
  | .vethAdd           => True
  | .linkDel ns n      => ns = .host ∧ n = hostVethLinkName
  | .linkSetNs n       => n = hostLinkName
  | .addrAdd ns n a    => ns = .gateway ∧ n = hostLinkName ∧ a.label = "" ∧ hostNetOf snatIP = some a.net
  | .routeReplace ns r =>
    (ns = .host ∧ ∃ net, hostNetOf snatIP = some net ∧ r = snatRoute net) ∨
    ns = .gateway ∧ r.link = hostLinkName
  | .routeDel ns r     => ns = .host ∧ ∃ net, hostNetOf snatIP = some net ∧ r = snatRoute net
  | c                  => c.reads = true

-- The calls of the functions that remove what is orphaned.

def forgetIPCalls (ip : IP) : Call → Prop
  | .routeDel ns r      => ns = .host ∧ r.dst.any (·.ip = ip) = true
  | .deleteRule ns c r  => ns = .host ∧ c = Chains.snat ∧
      r = Chains.jumpRule (Chains.noSNATComment ip.text) (Chains.noSNAT ip.text)
  | .removeChain ns c   => ns = .host ∧ c = Chains.noSNAT ip.text
  | c                   => c.reads = true

def forgetLinkCalls (link : Link) : Call → Prop
  | .deleteRule ns c r  => ns = .gateway ∧ ∃ k, getPacketMark link.name = .ok k ∧
      (c = Iptables.prerouting ∧ r = Chains.jumpRule (Chains.markComment link.name) (Chains.mark k) ∨
       c = Iptables.postrouting ∧ r = Chains.jumpRule (Chains.snatComment link.name) (Chains.snatOf k))
  | .removeChain ns c   => ns = .gateway ∧ ∃ k, c = Chains.mark k ∨ c = Chains.snatOf k
  | .updateStatus _     => True
  | .removeGateway uid  => uid = link.alias_
  | c                   => c.reads = true

def leftoverCalls : Call → Prop
  | .addrDel ns n a     => ns = .host ∧ n = "eth0" ∧ a.label = ilbIPLabel
  | .deleteRule ns c r  => ns = .host ∧ c = Iptables.postrouting ∧
      r = Chains.jumpRule Chains.noMasqueradeComment Chains.snat
  | .removeChain ns c   => ns = .host ∧ c = Chains.snat
  | c                   => c.reads = true

section Footprint

variable {gwConfig : StaticGatewayConfiguration} {privateKey : Key} {ok : Call → Prop}

theorem uses_ensureAddr {linkName listContext addContext : String} {addr : Addr}
    (hl : ok (.addrList .gateway linkName)) (ha : ok (.addrAdd .gateway linkName addr)) :
    (ensureAddr linkName addr listContext addContext).Uses ok := by
  refine uses_bind (uses_wrapError (uses_request hl)) fun addrs => ?_
  split
  · trivial
  · exact uses_wrapError (uses_request ha)

theorem uses_createWireguardLink {linkName linkAlias : String} :
    (createWireguardLink linkName linkAlias).Uses (wireguardCalls linkName linkAlias) := by
  refine uses_bind (uses_wrapError (uses_request rfl)) fun _ => uses_onFailure ?_ (uses_request ⟨rfl, rfl⟩)
  exact uses_bind (uses_wrapError (uses_request rfl)) fun _ => uses_wrapError (uses_request rfl)

theorem uses_configureWireguardLink {linkName linkAlias : String} {port : Int} :
    (configureWireguardLink linkName port privateKey).Uses (wireguardCalls linkName linkAlias) := by
  refine uses_bind (uses_wrapError (uses_request rfl)) fun _ => ?_
  refine uses_bind (uses_ensureAddr rfl ⟨rfl, rfl, rfl⟩) fun _ => ?_
  refine uses_bind (uses_wrapError (uses_request rfl)) fun _ => ?_
  refine uses_bind (uses_wrapError (uses_request rfl)) fun _ => ?_
  refine uses_bind (uses_wrapError (uses_request rfl)) fun device => ?_
  split
  · exact uses_wrapError (uses_request ⟨rfl, rfl⟩)
  · trivial

theorem uses_reconcileWireguardLink :
    (reconcileWireguardLink gwConfig privateKey).Uses
      (wireguardCalls (getWireguardInterfaceName gwConfig) gwConfig.meta_.uid) := by
  refine uses_bind (uses_attempt (uses_request rfl)) fun r => ?_
  cases r
  case ok => exact uses_configureWireguardLink
  case error e =>
    dsimp only
    split
    · exact uses_bind (uses_wrapError uses_createWireguardLink) fun _ => uses_configureWireguardLink
    · trivial

theorem uses_addOrReplaceRoute {ns : Space} {route : Route} (hl : ok (.routeList ns none))
    (hr : ok (.routeReplace ns route)) : (addOrReplaceRoute ns route).Uses ok := by
  refine uses_bind (uses_request hl) fun routes => ?_
  split
  · trivial
  · exact uses_request hr

theorem uses_orError_bind {α β : Type} {e : Err} {o : Option α} {f : α → M β}
    (h : ∀ a, o = some a → (f a).Uses ok) : ((orError e o).bind f).Uses ok := by
  cases o
  case none   => trivial
  case some a => exact h a rfl

-- The network is in the hands of the continuation only if the address parses.
theorem uses_hostNet {α : Type} {context ip : String} {f : IPNet → M α}
    (h : ∀ net, hostNetOf ip = some net → (f net).Uses ok) : ((hostNet context ip).bind f).Uses ok :=
  uses_orError_bind h

theorem veth_of_connectCalls {snatIP : String} {c : Call} (h : connectCalls snatIP c) :
    vethCalls snatIP c := by
  cases c
  case routeReplace => exact .inl h
  all_goals first | exact h | nomatch h

theorem uses_connectVethPair {snatIP : String} :
    (connectVethPair snatIP).Uses (connectCalls snatIP) := by
  refine uses_bind (uses_wrapError (uses_request rfl)) fun _ => uses_hostNet fun net hn => ?_
  refine uses_bind (uses_wrapError (uses_addOrReplaceRoute rfl ⟨rfl, net, hn, rfl⟩)) fun _ => ?_
  refine uses_onFailure ?_ (uses_request ⟨rfl, net, hn, rfl⟩)
  refine uses_bind (uses_attempt (uses_request rfl)) fun r => ?_
  cases r
  case ok => exact uses_wrapError (uses_request rfl)
  case error e =>
    dsimp only
    split <;> trivial

theorem uses_reconcileVethPairInHost {snatIP : String} :
    (reconcileVethPairInHost snatIP).Uses (vethCalls snatIP) := by
  refine uses_bind (uses_attempt (uses_request rfl)) fun r => ?_
  cases r
  case ok => exact uses_connectVethPair.mono fun _ => veth_of_connectCalls
  case error e =>
    dsimp only
    split
    case isFalse => trivial
    case isTrue =>
      refine uses_bind (uses_wrapError (uses_request trivial)) fun _ => ?_
      refine uses_onFailure ?_ (uses_request ⟨rfl, rfl⟩)
      refine uses_bind (uses_wrapError (uses_request rfl)) fun _ => ?_
      exact uses_connectVethPair.mono fun _ => veth_of_connectCalls

theorem uses_reconcileVethPair {vmPrimaryIP vmSecondaryIP : String} :
    (reconcileVethPair vmPrimaryIP vmSecondaryIP).Uses (vethCalls vmSecondaryIP) := by
  refine uses_bind (uses_wrapError uses_reconcileVethPairInHost) fun _ => ?_
  refine uses_bind (uses_wrapError (uses_request rfl)) fun _ => uses_hostNet fun net hn => ?_
  refine uses_bind (uses_ensureAddr rfl ⟨rfl, rfl, rfl, hn⟩) fun _ => ?_
  refine uses_bind (uses_wrapError (uses_request rfl)) fun _ => uses_hostNet fun _ _ => ?_
  refine uses_bind (uses_wrapError (uses_addOrReplaceRoute rfl (.inr ⟨rfl, rfl⟩))) fun _ => ?_
  exact uses_wrapError (uses_addOrReplaceRoute rfl (.inr ⟨rfl, rfl⟩))

theorem uses_removeIPTablesChains {ns : Space} {chains : List ChainRef} (hs : ok (.saveInto ns))
    (hc : ∀ c ∈ chains, ok (.deleteRule ns c.source (Chains.jumpRule c.comment c.target)) ∧
      ok (.removeChain ns c.target)) : (removeIPTablesChains ns chains).Uses ok := by
  refine uses_bind (uses_wrapError (uses_request hs)) fun names => uses_forEach fun c hm => ?_
  unfold removeIPTablesChain
  split
  case isFalse => trivial
  case isTrue =>
    refine uses_bind (uses_wrapError (uses_request (hc c hm).left)) fun _ => ?_
    exact uses_wrapError (uses_request (hc c hm).right)

theorem uses_writeStatus {st : Option GatewayStatus} (h : ∀ st, ok (.updateStatus st)) :
    (writeStatus st).Uses ok := by
  cases st
  case none    => trivial
  case some st => exact uses_wrapError (uses_request (h st))

theorem uses_removeStatus {g : GatewayConfiguration} (hr : ok .getStatus)
    (hu : ∀ st, ok (.updateStatus st)) : (updateGatewayNodeStatus g false).Uses ok := by
  refine uses_bind (uses_attempt (uses_request hr)) fun r => ?_
  cases r
  case ok => exact uses_writeStatus hu
  case error e =>
    dsimp only
    split <;> trivial

theorem uses_forgetIP {ipNet : IPNet} : (forgetIP ipNet).Uses (forgetIPCalls ipNet.ip) := by
  refine uses_bind (uses_wrapError (uses_request rfl)) fun routes => ?_
  refine uses_bind (uses_forEach fun route _ => ?_) fun _ => uses_wrapError ?_
  · split
    case isTrue h => exact uses_wrapError (uses_request ⟨rfl, h⟩)
    case isFalse  => trivial
  · refine uses_removeIPTablesChains rfl fun c hc => ?_
    obtain rfl := List.mem_singleton.mp hc
    exact ⟨⟨rfl, rfl, rfl⟩, rfl, rfl⟩

theorem uses_forgetLink {link : Link} : (forgetLink link).Uses (forgetLinkCalls link) := by
  refine uses_ofExcept fun k hk => ?_
  refine uses_bind (uses_wrapError (uses_removeIPTablesChains rfl fun c hc => ?_)) fun _ => ?_
  · simp only [List.mem_cons, List.not_mem_nil, or_false] at hc
    rcases hc with rfl | rfl
    · exact ⟨⟨rfl, k, hk, .inl ⟨rfl, rfl⟩⟩, rfl, k, .inl rfl⟩
    · exact ⟨⟨rfl, k, hk, .inr ⟨rfl, rfl⟩⟩, rfl, k, .inr rfl⟩
  · exact uses_bind (uses_removeStatus rfl fun _ => trivial) fun _ => uses_request rfl

theorem uses_removeIlbIP {m : Metadata} : (reconcileIlbIPOnHost m "").Uses leftoverCalls := by
  refine uses_bind (uses_wrapError (uses_request rfl)) fun _ => ?_
  refine uses_orError_bind fun _ _ => uses_orError_bind fun _ _ => ?_
  refine uses_bind (uses_wrapError (uses_request rfl)) fun addresses => ?_
  rw [if_pos rfl]
  refine uses_forEach fun a _ => ?_
  split
  case isTrue h => exact uses_wrapError (uses_request ⟨rfl, rfl, h⟩)
  case isFalse  => trivial

theorem uses_removeEntry {context : String} :
    (wrapError context <| removeIPTablesChains .host
      [⟨Chains.snat, Iptables.postrouting, Chains.noMasqueradeComment⟩]).Uses leftoverCalls := by
  refine uses_wrapError (uses_removeIPTablesChains rfl fun c hc => ?_)
  obtain rfl := List.mem_singleton.mp hc
  exact ⟨⟨rfl, rfl, rfl⟩, rfl, rfl⟩

theorem uses_removeLeftovers {m : Metadata} : (removeLeftovers m).Uses leftoverCalls :=
  uses_bind (uses_wrapError uses_removeIlbIP) fun _ => uses_removeEntry

theorem uses_removeOrphans {α : Type} {isOrphaned : α → Bool} {remove : α → M Unit} {xs : List α}
    (h : ∀ x ∈ xs, isOrphaned x = true → (remove x).Uses ok) :
    (removeOrphans isOrphaned remove xs).Uses ok := by
  refine uses_forEach fun x hx => ?_
  split
  case isTrue ho => exact uses_bind (uses_attempt (h x hx ho)) fun _ => uses_ret _
  case isFalse   => trivial

theorem links_of_forgetIPCalls {ns : Space} {ip : IP} {c : Call} (h : forgetIPCalls ip c) :
    c.writes (.links ns) = false := by
  cases c <;> first | rfl | nomatch h

theorem links_of_forgetLinkCalls {ns : Space} {link : Link} {c : Call} (h : forgetLinkCalls link c) :
    c.writes (.links ns) = false := by
  cases c <;> first | rfl | nomatch h

theorem nat_of_wireguardCalls {ns : Space} {linkName linkAlias : String} {c : Call}
    (h : wireguardCalls linkName linkAlias c) : c.writes (.nat ns) = false := by
  cases c <;> first | rfl | nomatch h

theorem nat_of_vethCalls {ns : Space} {snatIP : String} {c : Call} (h : vethCalls snatIP c) :
    c.writes (.nat ns) = false := by
  cases c <;> first | rfl | nomatch h

end Footprint

end Daemon
