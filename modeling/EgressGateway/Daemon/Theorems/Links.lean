import EgressGateway.Daemon.Theorems.Effects

-- Which links there are, and what they are called: how the calls change the names and the aliases of the
-- links.

open Net

namespace Daemon

namespace Node

variable {s : Node} {ns ns' : Space} {name : String} {c : Call} {l : Link}

-- The same link, apart from its addresses and its device.
def Alike (l l' : Link) : Prop :=
  l'.name = l.name ∧ l'.alias_ = l.alias_

-- Where the links of a namespace come from.
inductive Origin (s : Node) (c : Call) (l : Link) : Space → Prop
  | kept  {ns : Space} {l' : Link} (h : l' ∈ s.links ns) (ha : Alike l' l) : Origin s c l ns
  | moved {l' : Link} (h : l' ∈ s.links .host) (hc : c = .linkSetNs l.name) (ha : Alike l' l) : Origin s c l .gateway
  | added (hc : c = .linkAdd l) : Origin s c l .host
  | veth  (hc : c = .vethAdd) (hl : l = .hostVeth ∨ l = .host0) : Origin s c l .host

theorem links_setNetns {n : Netns} : (s.setNetns ns' n).links ns = if ns = ns' then n.links else s.links ns := by
  unfold links
  rw [netns_setNetns]
  split <;> rfl

theorem mem_dropLink {n : Netns} {m : String} : l ∈ (n.dropLink m).links ↔ l ∈ n.links ∧ l.name ≠ m := by
  simp [Netns.dropLink, List.mem_filter]

theorem mem_of_dropPeer {n : Netns} (h : l ∈ (dropPeer n name).links) : l ∈ n.links := by
  unfold dropPeer at h
  split at h
  · exact h
  · exact (mem_dropLink.mp h).left

-- The names of WireGuard links are reserved, so that the other end of a pair does not have one.
theorem mem_dropPeer {n : Netns} (h : l ∈ n.links) (hp : Text.hasPrefix l.name wireguardLinkNamePrefix = true) :
    l ∈ (dropPeer n name).links := by
  unfold dropPeer
  split
  · exact h
  case h_2 l' hf =>
    refine mem_dropLink.mpr ⟨h, fun he => ?_⟩
    have hpeer : l'.peer = some name := by simpa using List.find?_some hf
    rw [he] at hp
    cases (l'.unpaired hp).symm.trans hpeer

-- Both namespaces lose the other end of a pair.
theorem links_dropPeers : ({ s with host := dropPeer s.host name, gateway := s.gateway.map (dropPeer · name) } : Node).links ns =
    ((s.netns ns).map fun n => (dropPeer n name).links).getD [] := by
  cases ns
  case host    => rfl
  case gateway => cases hg : s.gateway <;> simp [links, netns, hg]

theorem mem_deleteLink (h : l ∈ (s.deleteLink ns' name).2.links ns) : l ∈ s.links ns := by
  unfold deleteLink at h
  cases hn : s.netns ns'
  case none => rwa [hn] at h
  case some n =>
    simp only [hn] at h
    have hsub {l : Link} (h : l ∈ (s.setNetns ns' (n.dropLink name)).links ns) : l ∈ s.links ns := by
      rw [links_setNetns] at h
      split at h
      case isTrue he  => rw [he, links_of_netns hn]; exact (mem_dropLink.mp h).left
      case isFalse he => exact h
    split at h
    · exact h
    · split at h
      · rw [links_dropPeers] at h
        cases hs : (s.setNetns ns' (n.dropLink name)).netns ns
        case none => simp [hs] at h
        case some n' =>
          rw [hs] at h
          exact hsub (links_of_netns hs ▸ mem_of_dropPeer h)
      · exact hsub h

theorem mem_deleteLink_of_ne (h : l ∈ s.links ns) (hp : Text.hasPrefix l.name wireguardLinkNamePrefix = true)
    (hne : ns = ns' → l.name ≠ name) : l ∈ (s.deleteLink ns' name).2.links ns := by
  unfold deleteLink
  cases hn : s.netns ns'
  case none => exact h
  case some n =>
    dsimp only
    have hsub : l ∈ (s.setNetns ns' (n.dropLink name)).links ns := by
      rw [links_setNetns]
      split
      case isTrue he  => exact mem_dropLink.mpr ⟨links_of_netns hn ▸ he ▸ h, hne he⟩
      case isFalse he => exact h
    split
    · exact h
    · split
      · rw [links_dropPeers]
        cases hs : (s.setNetns ns' (n.dropLink name)).netns ns
        case none => rw [links, hs] at hsub; cases hsub
        case some n' => exact mem_dropPeer (links_of_netns hs ▸ hsub) hp
      · exact hsub

theorem mem_onLink {f : Link → Except Err Link} (hf : ∀ l l', f l = .ok l' → Alike l l')
    (h : l ∈ (s.onLink ns' name f).2.links ns) : ∃ l' ∈ s.links ns, Alike l' l := by
  cases hl : s.link ns' name
  case none =>
    rw [(onLink_none hl).right] at h
    exact ⟨l, h, rfl, rfl⟩
  case some l₀ =>
    obtain ⟨n, hn, hfind, he⟩ := onLink_some (f := f) hl
    rw [he] at h
    cases hfl : f l₀
    case error =>
      rw [hfl] at h
      exact ⟨l, h, rfl, rfl⟩
    case ok l₁ =>
      rw [hfl] at h
      dsimp only at h
      rw [links_setNetns] at h
      split at h
      case isFalse => exact ⟨l, h, rfl, rfl⟩
      case isTrue hns =>
        obtain ⟨l', hm, he⟩ := List.mem_map.mp h
        rw [hns, links_of_netns hn]
        split at he
        · exact ⟨l₀, List.mem_of_find?_eq_some hfind, he ▸ hf l₀ l₁ hfl⟩
        · exact ⟨l', hm, by rw [he]; exact ⟨rfl, rfl⟩⟩

theorem name_onLink {f : Link → Except Err Link} (hf : ∀ l l', f l = .ok l' → l'.name = l.name)
    (h : l ∈ s.links ns) : ∃ l' ∈ (s.onLink ns' name f).2.links ns, l'.name = l.name := by
  cases hl : s.link ns' name
  case none => exact ⟨l, by rwa [(onLink_none hl).right], rfl⟩
  case some l₀ =>
    obtain ⟨n, hn, hfind, he⟩ := onLink_some (f := f) hl
    rw [he]
    cases hfl : f l₀
    case error => exact ⟨l, h, rfl⟩
    case ok l₁ =>
      dsimp only
      rw [links_setNetns]
      split
      case isFalse => exact ⟨l, h, rfl⟩
      case isTrue hns =>
        rw [hns, links_of_netns hn] at h
        refine ⟨_, List.mem_map_of_mem h, ?_⟩
        split
        case isTrue hname => exact (hf l₀ l₁ hfl).trans ((findLink_name hfind).trans hname.symm)
        case isFalse      => rfl

-- The calls that change a link do not change what it is called.

theorem alike_addrAdd {a : Addr} {l l' : Link}
    (h : (if l.addrs.any (·.same a) then .error (failure "file exists")
      else .ok { l with addrs := l.addrs ++ [a] }) = Except.ok l') : Alike l l' := by
  split at h
  · cases h
  · cases h; exact ⟨rfl, rfl⟩

theorem alike_addrDel {a : Addr} {l l' : Link}
    (h : (if a ∈ l.addrs then .ok { l with addrs := l.addrs.erase a }
      else .error (failure "cannot assign requested address")) = Except.ok l') : Alike l l' := by
  split at h
  · cases h; exact ⟨rfl, rfl⟩
  · cases h

theorem alike_configure {d : DeviceConfig} {l l' : Link}
    (h : (match l.device with
      | none    => .error (missing "device")
      | some d' => .ok { l with device := some (d'.configure d) }) = Except.ok l') : Alike l l' := by
  split at h
  · cases h
  · cases h; exact ⟨rfl, rfl⟩

theorem origin_serve (h : l ∈ (serve c s).2.links ns) : Origin s c l ns := by
  by_cases hw : c.writes (.links ns) = true
  case neg =>
    rw [serve_links (Bool.eq_false_of_not_eq_true hw)] at h
    exact .kept h ⟨rfl, rfl⟩
  case pos =>
    cases c
    case linkDel => exact .kept (mem_deleteLink h) ⟨rfl, rfl⟩
    case addrAdd =>
      obtain ⟨l', hl, ha⟩ := mem_onLink (fun _ _ => alike_addrAdd) h
      exact .kept hl ha
    case addrDel =>
      obtain ⟨l', hl, ha⟩ := mem_onLink (fun _ _ => alike_addrDel) h
      exact .kept hl ha
    case configureDevice =>
      obtain ⟨l', hl, ha⟩ := mem_onLink (fun _ _ => alike_configure) h
      exact .kept hl ha
    case linkAdd a =>
      obtain rfl : ns = .host := of_decide_eq_true hw
      rcases onNetns_cases s .host _ with ⟨_, hs⟩ | ⟨n, n', hn, hf, _, hs⟩
      · rw [serve, hs] at h
        exact .kept h ⟨rfl, rfl⟩
      · rw [serve, hs, links_setNetns, if_pos rfl] at h
        split at hf
        · cases hf
        · rw [← Except.ok.inj hf] at h
          rcases List.mem_append.mp h with h | h
          · exact .kept (links_of_netns hn ▸ h) ⟨rfl, rfl⟩
          · exact .added (by rw [List.mem_singleton.mp h])
    case vethAdd =>
      obtain rfl : ns = .host := of_decide_eq_true hw
      rcases onNetns_cases s .host _ with ⟨_, hs⟩ | ⟨n, n', hn, hf, _, hs⟩
      · rw [serve, hs] at h
        exact .kept h ⟨rfl, rfl⟩
      · rw [serve, hs, links_setNetns, if_pos rfl] at h
        split at hf
        · cases hf
        · rw [← Except.ok.inj hf] at h
          rcases List.mem_append.mp h with h | h
          · rcases List.mem_append.mp h with h | h
            · exact .kept (links_of_netns hn ▸ h) ⟨rfl, rfl⟩
            · exact .veth rfl (.inl (List.mem_singleton.mp h))
          · exact .veth rfl (.inr (List.mem_singleton.mp h))
    case linkSetNs m =>
      simp only [serve, moveLink] at h
      split at h
      · exact .kept h ⟨rfl, rfl⟩
      · exact .kept h ⟨rfl, rfl⟩
      case h_3 l₀ g hl hg =>
        split at h
        · exact .kept h ⟨rfl, rfl⟩
        · cases ns
          case host => exact .kept (mem_dropLink.mp h).left ⟨rfl, rfl⟩
          case gateway =>
            rcases List.mem_append.mp h with h | h
            · exact .kept (links_of_netns (show s.netns .gateway = some g from hg) ▸ h) ⟨rfl, rfl⟩
            · have he := List.mem_singleton.mp h
              refine .moved (List.mem_of_find?_eq_some hl) ?_ (he ▸ ⟨rfl, rfl⟩)
              rw [he, ← findLink_name hl]
    all_goals cases hw

-- A gateway link stays until it is deleted.
theorem name_serve (h : l ∈ s.links .gateway) (hp : Text.hasPrefix l.name wireguardLinkNamePrefix = true)
    (hc : c ≠ .linkDel .gateway l.name) : ∃ l' ∈ (serve c s).2.links .gateway, l'.name = l.name := by
  by_cases hw : c.writes (.links .gateway) = true
  case neg => exact ⟨l, by rwa [serve_links (Bool.eq_false_of_not_eq_true hw)], rfl⟩
  case pos =>
    cases c
    case linkDel ns m =>
      refine ⟨l, mem_deleteLink_of_ne h hp fun he hm => hc ?_, rfl⟩
      rw [← he, hm]
    case addrAdd => exact name_onLink (fun _ _ hf => (alike_addrAdd hf).left) h
    case addrDel => exact name_onLink (fun _ _ hf => (alike_addrDel hf).left) h
    case configureDevice => exact name_onLink (fun _ _ hf => (alike_configure hf).left) h
    case linkSetNs m =>
      simp only [serve, moveLink]
      split
      · exact ⟨l, h, rfl⟩
      · exact ⟨l, h, rfl⟩
      case h_3 l₀ g hl hg =>
        split
        · exact ⟨l, h, rfl⟩
        · refine ⟨l, List.mem_append_left _ ?_, rfl⟩
          exact links_of_netns (show s.netns .gateway = some g from hg) ▸ h
    all_goals cases hw

end Node

end Daemon
