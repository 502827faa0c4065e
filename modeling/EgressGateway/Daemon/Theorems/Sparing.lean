import Mathlib.Data.List.Count
import EgressGateway.Daemon.Theorems.CleanUp

-- Under which circumstances the orphan cleaner spares what belongs to live gateways.

open Kubernetes Text Net Program Iptables

namespace Daemon

-- Chains stay in place as long as the rules that jump to them are not deleted.

section Placed

variable {K : Type} {D : Dispatch K} {k : K} {n : Nat} {ns : Space} {c : Call} {s : Node}

def Harmless (D : Dispatch K) (k : K) (ns : Space) : Call → Prop
  | .deleteRule ns' d r => ns' = ns → d ≠ D.source ∨ r ≠ D.jump k
  | .removeChain ns' d  => ns' = ns → d ≠ D.source
  | c                   => c.writes (.nat ns) = false

theorem placed_serve (h : Harmless D k ns c) (hn : 0 < n) (hp : D.Placed k n (s.nat ns)) :
    D.Placed k n ((Node.serve c s).2.nat ns) := by
  by_cases hw : c.writes (.nat ns) = true
  case neg => exact (Node.serve_nat (Bool.eq_false_of_not_eq_true hw)).symm ▸ hp
  case pos =>
    rcases Node.serve_edits (s := s) hw with ⟨_, hs⟩ | ⟨g, t, hg, ht, hs⟩
    case inl => exact hs.symm ▸ hp
    case inr =>
      rw [Node.nat_of_netns hg] at hp
      rw [hs, Node.nat_setNetns, if_pos rfl]
      cases c
      case deleteRule ns' d r =>
        exact Option.some.inj ht ▸ hp.deleteRule (h (of_decide_eq_true hw).symm)
      case removeChain ns' d => exact hp.removeChain hn (h (of_decide_eq_true hw).symm) ht
      case ensureChain | ensureRule | restoreAll => exact absurd (h.symm.trans hw) Bool.false_ne_true
      all_goals nomatch hw

theorem placed_of_uses {α : Type} {p : M α} {C : Contract Sig Node} (h : p.Uses (Harmless D k ns))
    (owe : ∀ c s, C.owe c s) (hn : 0 < n) (hp : D.Placed k n (s.nat ns)) :
    wp world C p (fun _ s' => D.Placed k n (s'.nat ns)) s :=
  wp_invariant (J := fun s => D.Placed k n (s.nat ns)) (fun _ _ hc => placed_serve hc hn) h
    (fun c s _ => owe c s) hp

-- The chains of the gateway namespace are only removed together with their link.

theorem harmless_forgetIP {ip : IP} (h : forgetIPCalls ip c) : Harmless D k .gateway c := by
  cases c
  case deleteRule | removeChain => exact fun hns => nomatch h.left.symm.trans hns
  all_goals first | rfl | nomatch h

theorem harmless_leftover (h : leftoverCalls c) : Harmless D k .gateway c := by
  cases c
  case deleteRule | removeChain => exact fun hns => nomatch h.left.symm.trans hns
  all_goals first | rfl | nomatch h

theorem harmless_forgetLink_marks {link : Link} {j : Int} (h : forgetLinkCalls link c)
    (hl : link.name ≠ linkNameOf j) : Harmless Chains.marks j .gateway c := by
  cases c
  case deleteRule =>
    obtain ⟨_, _, _, ⟨rfl, rfl⟩ | ⟨rfl, rfl⟩⟩ := h
    · exact fun _ => .inr (Chains.jumpRule_ne hl)
    · exact fun _ => .inl Chains.prerouting_ne_postrouting.symm
  case removeChain =>
    obtain ⟨_, i, rfl | rfl⟩ := h
    · exact fun _ => Chains.marks.chain_ne i
    · exact fun _ => Chains.snatOf_ne_prerouting i
  all_goals first | rfl | nomatch h

theorem harmless_forgetLink_snats {link : Link} {j : Int} (h : forgetLinkCalls link c)
    (hl : link.name ≠ linkNameOf j) : Harmless Chains.snats j .gateway c := by
  cases c
  case deleteRule =>
    obtain ⟨_, _, _, ⟨rfl, rfl⟩ | ⟨rfl, rfl⟩⟩ := h
    · exact fun _ => .inl Chains.prerouting_ne_postrouting
    · exact fun _ => .inr (Chains.jumpRule_ne hl)
  case removeChain =>
    obtain ⟨_, i, rfl | rfl⟩ := h
    · exact fun _ => Chains.mark_ne_postrouting i
    · exact fun _ => Chains.snats.chain_ne i
  all_goals first | rfl | nomatch h

-- The entry in the table of the host is only removed together with the addresses of the load balancer.

theorem harmless_forgetIP_entry {ip : IP} (h : forgetIPCalls ip c) : Harmless Chains.entry () .host c := by
  cases c
  case deleteRule =>
    obtain ⟨_, rfl, _⟩ := h
    exact fun _ => .inl (Chains.entry.chain_ne ())
  case removeChain =>
    obtain ⟨_, rfl⟩ := h
    exact fun _ => Chains.noSNAT_ne_postrouting _
  all_goals first | rfl | nomatch h

theorem harmless_forgetLink_entry {link : Link} (h : forgetLinkCalls link c) :
    Harmless Chains.entry () .host c := by
  cases c
  case deleteRule | removeChain => exact fun hns => nomatch h.left.symm.trans hns
  all_goals first | rfl | nomatch h

theorem uses_ensureDeleteIP_harmless {addr : Addr}
    (hw : ∀ a, Harmless D k ns (.addrDel .gateway hostLinkName a))
    (hr : ∀ n, Harmless D k ns (.linkByName .gateway n))
    (h : ∀ c, forgetIPCalls addr.net.ip c → Harmless D k ns c) :
    (ensureDeleteIP addr).Uses (Harmless D k ns) := by
  refine uses_bind (uses_wrapError (uses_request (hr _))) fun _ => ?_
  exact uses_bind (uses_wrapError (uses_request (hw _))) fun _ => uses_forgetIP.mono h

theorem uses_ensureDeleteLink_harmless {link : Link} (hd : Harmless D k ns (.linkDel .gateway link.name))
    (h : ∀ c, forgetLinkCalls link c → Harmless D k ns c) :
    (ensureDeleteLink link).Uses (Harmless D k ns) :=
  uses_bind (uses_wrapError (uses_request hd)) fun _ => uses_forgetLink.mono h

end Placed

section Leftovers

variable {C : Contract Sig Node} {s : Node}

theorem ilbAddrs_addrDel {a : Addr} :
    (Node.serve (.addrDel .host "eth0" a) s).2.ilbAddrs = s.ilbAddrs.erase a := by
  unfold Node.ilbAddrs
  rw [Node.link_addrDel, if_pos ⟨rfl, rfl⟩]
  cases s.link .host "eth0"
  case none   => rfl
  case some l => exact List.erase_filter.symm

-- Nothing but the addresses of the load balancer is removed from the host.
theorem ilbAddrs_serve {c : Call} (h : leftoverCalls c) :
    (Node.serve c s).2.ilbAddrs.length ≤ s.ilbAddrs.length := by
  cases c
  case addrDel =>
    obtain ⟨rfl, rfl, _⟩ := h
    rw [ilbAddrs_addrDel]
    exact List.erase_sublist.length_le
  all_goals first | (rw [Node.ilbAddrs, Node.serve_link rfl]; exact Nat.le_refl _) | nomatch h

theorem ilb_of_uses {α : Type} {p : M α} (hC : Steady C) (h : p.Uses leftoverCalls) :
    wp world C p (fun _ s' => s'.ilbAddrs.length ≤ s.ilbAddrs.length) s :=
  wp_of_uses (R := fun s s' : Node => s'.ilbAddrs.length ≤ s.ilbAddrs.length) (fun _ => Nat.le_refl _)
    (fun h h' => Nat.le_trans h' h) (fun _ _ => ilbAddrs_serve) h fun c s _ => hC.owe c s

theorem wp_removeIlbIP_none {xs : List Addr} (h : ∀ a ∈ xs, a.label ≠ ilbIPLabel) :
    wp world C (removeIlbIP xs) (fun r s' => r = .ok () ∧ s' = s) s := by
  induction xs
  case nil => exact ⟨rfl, rfl⟩
  case cons x xs hi =>
    refine wp_seq (P := fun r s' => r = .ok () ∧ s' = s) ?_ (fun _ s' ⟨_, hs⟩ => ?_) nofun
    · dsimp only
      rw [if_neg (h x List.mem_cons_self)]
      exact ⟨rfl, rfl⟩
    · subst hs
      exact hi fun a ha => h a (List.mem_cons_of_mem _ ha)

theorem wp_removeIlbIP_some {xs : List Addr} {l : Link} (hC : Steady C)
    (hl : s.link .host "eth0" = some l) (hsub : ∀ a ∈ xs, a ∈ l.addrs)
    (hx : ∃ a ∈ xs, a.label = ilbIPLabel) :
    wp world C (removeIlbIP xs) (fun _ s' => s'.ilbAddrs.length < s.ilbAddrs.length) s := by
  induction xs
  case nil => have ⟨_, ha, _⟩ := hx; nomatch ha
  case cons x xs hi =>
    have hsub' := fun a ha => hsub a (List.mem_cons_of_mem _ ha)
    by_cases hlab : x.label = ilbIPLabel
    case neg =>
      refine wp_seq (P := fun r s' => r = .ok () ∧ s' = s) ?_ (fun _ s' ⟨_, hs⟩ => ?_) nofun
      · dsimp only
        rw [if_neg hlab]
        exact ⟨rfl, rfl⟩
      · subst hs
        refine hi hsub' ?_
        have ⟨a, ha, hal⟩ := hx
        exact ⟨a, (List.mem_cons.mp ha).resolve_left fun he => hlab (he ▸ hal), hal⟩
    case pos =>
      have hmem : x ∈ s.ilbAddrs := by
        rw [Node.ilbAddrs, hl]
        exact List.mem_filter.mpr ⟨hsub x List.mem_cons_self, decide_eq_true hlab⟩
      have hlt : (s.ilbAddrs.erase x).length < s.ilbAddrs.length := by
        rw [List.length_erase_of_mem hmem]
        have := List.length_pos_of_mem hmem
        omega
      refine wp_seq (P := fun _ s' => s'.ilbAddrs.length < s.ilbAddrs.length) ?_ (fun _ s' hs => ?_)
        fun _ _ h => h
      · dsimp only
        rw [if_pos hlab]
        refine wp_servedWrapped hC rfl ?_
        rw [ilbAddrs_addrDel]
        exact hlt
      · have hu : (removeIlbIP xs).Uses leftoverCalls := by
          refine uses_forEach fun a _ => ?_
          split
          case isTrue h => exact uses_wrapError (uses_request ⟨rfl, rfl, h⟩)
          case isFalse  => trivial
        exact wp_mono (ilb_of_uses hC hu) fun _ _ h => Nat.lt_of_le_of_lt h hs

variable {m : Metadata}

theorem wp_reconcileIlb_unusable (hC : Steady C)
    (h : s.link .host "eth0" = none ∨ m.subnetPrefix.bind atoi = none) :
    wp world C (reconcileIlbIPOnHost m "") (fun r s' => s' = s ∧ ∃ e, r = .error e) s := by
  refine wp_bind.mpr (wp_servedWrapped hC rfl ?_)
  have hl := Node.serve_linkByName s .host "eth0"
  rw [Node.serve_reads rfl]
  cases hr : (Node.serve (.linkByName .host "eth0") s).1
  case error e => exact ⟨rfl, _, rfl⟩
  case ok l =>
    rw [hr] at hl
    have hp := h.resolve_left fun hn => nomatch hl.trans hn
    cases hs : m.subnetPrefix
    case none => exact ⟨rfl, _, rfl⟩
    case some p =>
      have ha : atoi p = none := by simpa [hs] using hp
      change wp world _ ((orError _ (atoi p)).bind _) _ s
      rw [ha]
      exact ⟨rfl, _, rfl⟩

theorem wp_reconcileIlb_usable {Q : Except Err Unit → Node → Prop} {l : Link} {k : Int} (hC : Steady C)
    (hl : s.link .host "eth0" = some l) (hp : m.subnetPrefix.bind atoi = some k)
    (h : wp world C (removeIlbIP l.addrs) Q s) :
    wp world C (reconcileIlbIPOnHost m "") Q s := by
  refine wp_known (c := .linkByName .host "eth0") hC rfl rfl (Node.lookLink_ok.mpr ⟨l, hl, rfl⟩) ?_
  have ⟨p, hs, ha⟩ := Option.bind_eq_some_iff.mp hp
  rw [hs]
  change wp world _ ((orError _ (atoi p)).bind _) _ s
  rw [ha]
  exact wp_known (c := .addrList .host "eth0") hC rfl rfl (Node.lookLink_ok.mpr ⟨l, hl, rfl⟩) h

theorem wp_removeLeftovers_unusable (hC : Steady C)
    (h : s.link .host "eth0" = none ∨ m.subnetPrefix.bind atoi = none) :
    wp world C (removeLeftovers m) (fun _ s' => s' = s) s := by
  refine wp_seq (P := fun r s' => s' = s ∧ ∃ e, r = .error e) ?_ (fun _ _ ⟨_, _, he⟩ => nomatch he)
    fun _ _ h => h.left
  refine wp_wrapped (wp_reconcileIlb_unusable hC h) (fun _ _ h => h) fun _ _ h => ⟨h.left, _, rfl⟩

-- The rule that leads to the chain is deleted, whether or not the chain itself can be removed.
theorem wp_removeEntry {n : Nat} (hC : Steady C) (hn : 0 < n)
    (hp : Chains.entry.Placed () n (s.nat .host)) :
    wp world C (removeIPTablesChains .host [⟨Chains.snat, postrouting, Chains.noMasqueradeComment⟩])
      (fun _ s' => ¬Chains.entry.Placed () n (s'.nat .host)) s := by
  refine wp_known (a := s.host.nat.map (·.name)) hC rfl rfl rfl ?_
  have hm : Chains.snat ∈ s.host.nat.map (·.name) := Table.find_isSome_iff.mp hp.chain
  let jumps (s : Node) := (((s.nat .host).find postrouting).getD []).count (Chains.entry.jump ())
  refine wp_mono (Q := fun _ s' => jumps s' = n - 1) ?_ fun _ s' hs hp' => ?_
  case refine_2 =>
    have := hp'.jumps.symm.trans hs
    omega
  refine wp_seq (P := fun _ s' => jumps s' = n - 1) ?_ (fun _ _ h => h) fun _ _ h => h
  unfold removeIPTablesChain
  rw [if_pos hm]
  refine wp_seq (P := fun _ s' => jumps s' = n - 1) (wp_servedWrapped hC rfl ?_)
    (fun _ s' h => wp_servedWrapped hC rfl ?_) fun _ _ h => h
  case refine_1 => exact (Dispatch.count_deleteRule s.host.nat).trans (hp.jumps ▸ rfl)
  case refine_2 =>
    have hw : (Call.removeChain .host Chains.snat).writes (.nat .host) = true := rfl
    rcases Node.serve_edits (s := s') hw with ⟨_, hs⟩ | ⟨g, t, hg, ht, hs⟩
    case inl => exact (congrArg jumps hs).trans h
    case inr =>
      refine (congrArg jumps hs).trans (Eq.trans ?_ h)
      simp only [jumps, Node.nat_setNetns, if_pos, Node.nat_of_netns hg]
      have hne : postrouting ≠ Chains.snat := (Chains.entry.chain_ne ()).symm
      rw [Table.find_removeChain ht, if_neg hne]

theorem ilbAddrs_of_eth0 {l : Link} (h : s.link .host "eth0" = some l) :
    s.ilbAddrs = l.addrs.filter (·.label = ilbIPLabel) := by
  rw [Node.ilbAddrs, h]
  rfl

theorem wp_removeLeftovers_ilb {l : Link} {k : Int} (hC : Steady C) (hl : s.link .host "eth0" = some l)
    (hp : m.subnetPrefix.bind atoi = some k) (h : s.ilbAddrs ≠ []) :
    wp world C (removeLeftovers m) (fun _ s' => s'.ilbAddrs.length < s.ilbAddrs.length) s := by
  have ⟨a, ha⟩ := List.exists_mem_of_ne_nil _ h
  have ⟨hmem, hlab⟩ := List.mem_filter.mp (ilbAddrs_of_eth0 hl ▸ ha)
  have hsome := wp_removeIlbIP_some hC hl (fun _ h => h) ⟨a, hmem, of_decide_eq_true hlab⟩
  refine wp_seq (P := fun _ s' => s'.ilbAddrs.length < s.ilbAddrs.length) ?_ (fun _ s' hs => ?_)
    fun _ _ h => h
  · exact wp_wrapped (wp_reconcileIlb_usable hC hl hp hsome) (fun _ _ h => h) fun _ _ h => h
  · exact wp_mono (ilb_of_uses hC uses_removeEntry) fun _ _ hle => Nat.lt_of_le_of_lt hle hs

theorem wp_removeLeftovers_entry {l : Link} {k : Int} {n : Nat} (hC : Steady C)
    (hl : s.link .host "eth0" = some l) (hp : m.subnetPrefix.bind atoi = some k) (h : s.ilbAddrs = [])
    (hn : 0 < n) (he : Chains.entry.Placed () n (s.nat .host)) :
    wp world C (removeLeftovers m) (fun _ s' => ¬Chains.entry.Placed () n (s'.nat .host)) s := by
  have hnone : ∀ a ∈ l.addrs, a.label ≠ ilbIPLabel := by
    intro a ha hlab
    have hm : a ∈ s.ilbAddrs := ilbAddrs_of_eth0 hl ▸ List.mem_filter.mpr ⟨ha, decide_eq_true hlab⟩
    exact List.not_mem_nil (h ▸ hm)
  refine wp_seq (P := fun r s' => r = .ok () ∧ s' = s) ?_ (fun _ s' hs => ?_) fun _ _ h => nomatch h.left
  · exact wp_wrapped (wp_reconcileIlb_usable hC hl hp (wp_removeIlbIP_none hnone)) (fun _ _ h => h)
      fun _ _ h => nomatch h.left
  · obtain rfl := hs.right
    exact wp_wrapped (wp_removeEntry hC hn he) (fun _ _ h => h) fun _ _ h => h

end Leftovers

section Spared

variable [CaseFold] (m : Metadata)

-- Nothing of what belongs to live gateways is missing in `s'`: their links, their addresses, their chains
-- and, as long as there are any live gateways, what they have in common.
structure Spared (s s' : Node) : Prop where
  link  : ∀ c ∈ live m s, ∀ l, s.link .gateway (getWireguardInterfaceName c) = some l →
    s'.link .gateway (getWireguardInterfaceName c) = some l
  addr  : ∀ c ∈ live m s, ∀ ip, secondaryIP? m s.api c = some ip →
    ∀ a ∈ s.hostAddrs, a.net.ip.text = ip → a ∈ s'.hostAddrs
  marks : ∀ c ∈ live m s, ∀ n > 0, Chains.marks.Placed (port c) n (s.nat .gateway) →
    Chains.marks.Placed (port c) n (s'.nat .gateway)
  snats : ∀ c ∈ live m s, ∀ n > 0, Chains.snats.Placed (port c) n (s.nat .gateway) →
    Chains.snats.Placed (port c) n (s'.nat .gateway)
  ilb   : live m s ≠ [] → s'.ilbAddrs = s.ilbAddrs
  entry : live m s ≠ [] → ∀ n > 0, Chains.entry.Placed () n (s.nat .host) →
    Chains.entry.Placed () n (s'.nat .host)

-- What the node has for a live gateway is vouched for by a live gateway whose addresses can be read.
structure Vouched (unread : NamespacedName → Bool) (s : Node) : Prop where
  link : ∀ c ∈ live m s, (s.link .gateway (getWireguardInterfaceName c)).isSome = true →
    ∃ c' ∈ live m s, readable m unread s c' = true ∧ port c' = port c
  addr : ∀ c ∈ live m s, ∀ ip, secondaryIP? m s.api c = some ip →
    ip ∈ s.hostAddrs.map (·.net.ip.text) →
    ∃ c' ∈ live m s, readable m unread s c' = true ∧ secondaryIP? m s.api c' = some ip
  node : live m s ≠ [] → (∃ c' ∈ live m s, readable m unread s c' = true) ∨
    s.link .host "eth0" = none ∨ m.subnetPrefix.bind atoi = none ∨
    s.ilbAddrs = [] ∧ ∀ n > 0, ¬Chains.entry.Placed () n (s.nat .host)

variable {m} {unread : NamespacedName → Bool} {C : Contract Sig Node} {s : Node}

theorem Spared.refl : Spared m s s where
  link _ _ _ h      := h
  addr _ _ _ _ _ h _ := h
  marks _ _ _ _ h   := h
  snats _ _ _ _ h   := h
  ilb _             := rfl
  entry _ _ _ h     := h

-- No link of a live gateway is orphaned if the gateway is vouched for.
theorem Vouched.not_orphaned (h : Vouched m unread s) {c : StaticGatewayConfiguration} (hc : c ∈ live m s)
    {l : Link} (hl : l ∈ s.links .gateway) (ho : isOrphanedLink (existingOf m unread s) l = true) :
    l.name ≠ getWireguardInterfaceName c := by
  intro he
  have hm := mem_orphanedNames.mp (List.mem_map.mpr ⟨l, List.mem_filter.mpr ⟨hl, ho⟩, he⟩)
  exact hm.right (mem_wgLinks.mpr (h.link c hc hm.left))

-- The chains of a port stay in place if no link of that port is removed.
theorem wp_cleanUp_placed {D : Dispatch Int} {j : Int} {n : Nat} {l : Link} (hC : Reading unread C)
    (hl : s.link .gateway hostLinkName = some l)
    (hD : ∀ {link : Link} {c : Call}, forgetLinkCalls link c → link.name ≠ linkNameOf j → Harmless D j .gateway c)
    (hj : ∀ l ∈ s.links .gateway, isOrphanedLink (existingOf m unread s) l = true → l.name ≠ linkNameOf j)
    (hn : 0 < n) (hp : D.Placed j n (s.nat .gateway)) :
    wp world C (cleanUp m) (fun _ s' => D.Placed j n (s'.nat .gateway)) s := by
  refine wp_cleanUp_of_present hC hl (placed_of_uses ?_ hC.owe hn hp)
  refine uses_bind (uses_removeOrphans fun _ _ _ => ?_) fun _ =>
    uses_bind (uses_removeOrphans fun l hl ho => ?_) fun _ => ?_
  · exact uses_ensureDeleteIP_harmless (fun _ => rfl) (fun _ => rfl) fun _ => harmless_forgetIP
  · exact uses_ensureDeleteLink_harmless rfl fun _ hc => hD hc (hj l hl ho)
  · split
    case isTrue  => exact uses_removeLeftovers.mono fun _ => harmless_leftover
    case isFalse => trivial

-- Until the leftovers are removed, nothing happens to the host's link and to the entry of its table.
theorem wp_cleanUp_leftovers {Q : Except Err Unit → Node → Prop} {l : Link} (hC : Reading unread C)
    (hl : s.link .gateway hostLinkName = some l)
    (h : ∀ s', s'.link .host = s.link .host →
      (∀ n > 0, Chains.entry.Placed () n (s.nat .host) → Chains.entry.Placed () n (s'.nat .host)) →
      wp world C
        (if (existingOf m unread s).wgLinks = [] then removeLeftovers m else ret ()) Q s') :
    wp world C (cleanUp m) Q s := by
  let Kept (s s' : Node) : Prop :=
    ∀ n > 0, Chains.entry.Placed () n (s.nat .host) → Chains.entry.Placed () n (s'.nat .host)
  have kept {s : Node} {p : M Unit} (hu : p.Uses (Harmless Chains.entry () .host)) :
      wp world C p (fun _ s' => Kept s s') s :=
    wp_of_uses (R := Kept) (fun _ _ _ h => h) (fun h h' n hn hp => h' n hn (h n hn hp))
      (fun _ _ hc n hn => placed_serve hc hn) hu fun c s _ => hC.owe c s
  refine wp_cleanUp_of_present hC hl ?_
  refine wp_seq (wp_and (wp_removeOrphanedIPs hC.steady) (kept (uses_removeOrphans fun a _ _ => ?_)))
    (fun _ s₁ ⟨⟨_, h₁⟩, hk₁⟩ => ?_) fun _ _ ⟨⟨he, _⟩, _⟩ => nomatch he
  · exact uses_ensureDeleteIP_harmless (fun _ => rfl) (fun _ => rfl) fun _ => harmless_forgetIP_entry
  refine wp_seq (wp_and (wp_removeOrphanedLinks hC.steady) (kept (uses_removeOrphans fun a _ _ => ?_)))
    (fun _ s₂ ⟨⟨_, h₂⟩, hk₂⟩ => ?_) fun _ _ ⟨⟨he, _⟩, _⟩ => nomatch he
  · exact uses_ensureDeleteLink_harmless rfl fun _ => harmless_forgetLink_entry
  refine h s₂ (funext fun name => ?_) fun n hn hp => hk₂ n hn (hk₁ n hn hp)
  rw [h₂, withoutLinks_eq, if_neg nofun, h₁, withoutAddrs_eq, if_neg nofun]

-- What the node has in common for all gateways is kept if there is someone to vouch for it.
theorem Vouched.wp_cleanUp (h : Vouched m unread s) {l : Link} (hC : Reading unread C)
    (hl : s.link .gateway hostLinkName = some l) (hs : live m s ≠ []) :
    wp world C (cleanUp m) (fun _ s' => s'.ilbAddrs = s.ilbAddrs ∧
      ∀ n > 0, Chains.entry.Placed () n (s.nat .host) → Chains.entry.Placed () n (s'.nat .host)) s := by
  refine wp_cleanUp_leftovers hC hl fun s' hlink hentry => ?_
  have hilb : s'.ilbAddrs = s.ilbAddrs := by rw [Node.ilbAddrs, hlink, Node.ilbAddrs]
  split
  case isFalse => exact ⟨hilb, hentry⟩
  case isTrue hnil =>
    have unusable (hu : s'.link .host "eth0" = none ∨ m.subnetPrefix.bind atoi = none) :
        wp world C (removeLeftovers m) (fun _ s'' => s''.ilbAddrs = s.ilbAddrs ∧
          ∀ n > 0, Chains.entry.Placed () n (s.nat .host) → Chains.entry.Placed () n (s''.nat .host)) s' :=
      wp_mono (wp_removeLeftovers_unusable hC.steady hu) fun _ s'' he => he ▸ ⟨hilb, hentry⟩
    rcases h.node hs with ⟨c, hc, hr⟩ | heth | hpre | ⟨hnone, hunplaced⟩
    · exact absurd hr (wgLinks_eq_nil.mp hnil c hc)
    · exact unusable (.inl (hlink ▸ heth))
    · exact unusable (.inr hpre)
    · refine wp_mono (ilb_of_uses hC.steady uses_removeLeftovers) fun _ s'' hle => ⟨?_, fun n hn hp => ?_⟩
      · rw [hilb, hnone, List.length_nil] at hle
        rw [hnone]
        exact List.eq_nil_of_length_eq_zero (Nat.le_zero.mp hle)
      · exact absurd hp (hunplaced n hn)

theorem Vouched.spared (h : Vouched m unread s) {l : Link} (hl : s.link .gateway hostLinkName = some l) :
    Spared m s (run world (fun _ => reading unread) 0 (cleanUp m) s).state := by
  have hC : Reading unread _ := reading_fixed
  have final {Q : Node → Prop} (hq : wp world (.fixed (reading unread)) (cleanUp m) (fun _ s' => Q s') s) :=
    (wp_fixed_iff (Q := fun _ s' => Q s') 0).mp hq
  have ⟨hlinks, haddrs⟩ := final (wp_cleanUp_links hC hl)
  constructor
  case link =>
    intro c hc l' hl'
    have hm := mem_wgLinks.mpr (h.link c hc (by rw [hl']; rfl))
    rw [hlinks, if_pos hm]
    exact hl'
  case addr =>
    intro c hc ip hip a ha hat
    have hm : ip ∈ (existingOf m unread s).ips :=
      mem_ips.mpr (h.addr c hc ip hip (List.mem_map.mpr ⟨a, ha, hat⟩))
    rw [Node.hostAddrs, hl] at ha
    rw [haddrs]
    refine List.mem_diff_of_mem ha fun ho => ?_
    exact of_decide_eq_true (List.mem_filter.mp ho).right (hat.symm ▸ hm)
  case marks =>
    intro c hc n hn hp
    exact final (wp_cleanUp_placed hC hl harmless_forgetLink_marks (fun _ => h.not_orphaned hc) hn hp)
  case snats =>
    intro c hc n hn hp
    exact final (wp_cleanUp_placed hC hl harmless_forgetLink_snats (fun _ => h.not_orphaned hc) hn hp)
  case ilb   => exact fun hs => (final (h.wp_cleanUp hC hl hs)).left
  case entry => exact fun hs => (final (h.wp_cleanUp hC hl hs)).right

theorem vouched_of_spared {l : Link} (hl : s.link .gateway hostLinkName = some l)
    (h : Spared m s (run world (fun _ => reading unread) 0 (cleanUp m) s).state) : Vouched m unread s := by
  have hC : Reading unread _ := reading_fixed
  have final {Q : Node → Prop} (hq : wp world (.fixed (reading unread)) (cleanUp m) (fun _ s' => Q s') s) :=
    (wp_fixed_iff (Q := fun _ s' => Q s') 0).mp hq
  have ⟨hlinks, haddrs⟩ := final (wp_cleanUp_links hC hl)
  constructor
  case link =>
    intro c hc hs
    by_contra hn
    have ⟨l', hl'⟩ := Option.isSome_iff_exists.mp hs
    have hlost := hlinks c
    rw [if_neg fun hm => hn (mem_wgLinks.mp hm), h.link c hc l' hl'] at hlost
    nomatch hlost
  case addr =>
    intro c hc ip hip hm
    by_contra hn
    have ⟨a, ha, hat⟩ := List.mem_map.mp hm
    have ho : isOrphanedIP (existingOf m unread s) a = true :=
      decide_eq_true fun hm => hn (mem_ips.mp (hat ▸ hm))
    have hkept := h.addr c hc ip hip a ha hat
    rw [haddrs] at hkept
    have hpos := List.count_pos_iff.mpr hkept
    rw [List.count_diff, List.count_filter ho] at hpos
    omega
  case node =>
    intro hs
    by_contra hn
    simp only [not_or, not_and, not_forall, not_exists] at hn
    obtain ⟨hnil, heth, hpre, hlost⟩ := hn
    have ⟨l₀, hl₀⟩ := Option.ne_none_iff_exists'.mp heth
    have ⟨k, hk⟩ := Option.ne_none_iff_exists'.mp hpre
    have hnil := wgLinks_eq_nil.mpr hnil
    by_cases hilb : s.ilbAddrs = []
    case neg =>
      have hlt := final (wp_cleanUp_leftovers (Q := fun _ s' => s'.ilbAddrs.length < s.ilbAddrs.length)
        hC hl fun s' hlink _ => ?_)
      · rw [h.ilb hs] at hlt
        exact Nat.lt_irrefl _ hlt
      · have he : s'.ilbAddrs = s.ilbAddrs := by rw [Node.ilbAddrs, hlink, Node.ilbAddrs]
        rw [if_pos hnil, ← he]
        exact wp_removeLeftovers_ilb hC.steady (hlink ▸ hl₀) hk (he ▸ hilb)
    case pos =>
      obtain ⟨n, hn, hp⟩ := hlost hilb
      refine final (wp_cleanUp_leftovers (Q := fun _ s' => ¬Chains.entry.Placed () n (s'.nat .host))
        hC hl fun s' hlink hentry => ?_) (h.entry hs n hn (not_not.mp hp))
      have he : s'.ilbAddrs = s.ilbAddrs := by rw [Node.ilbAddrs, hlink, Node.ilbAddrs]
      rw [if_pos hnil]
      exact wp_removeLeftovers_entry hC.steady (hlink ▸ hl₀) hk (he ▸ hilb) hn (hentry n hn (not_not.mp hp))

end Spared

namespace Sample

def sparing : Node :=
  (run world .calm 0 (reconcile metadata (gwConfig "a" "1" 6000)) (node {
    gwConfigs := [gwConfig "a" "1" 6000]
    vmConfigs := [vmConfig "a" "10.0.0.5"]
    secrets   := [secret "a"] })).state

-- The same node after a clean-up that failed to read the virtual machine's configuration once.
def unspared : Node :=
  (run world (fun _ => reading fun _ => true) 0 (cleanUp metadata) sparing).state

end Sample

end Daemon
