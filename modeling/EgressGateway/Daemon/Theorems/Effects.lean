import EgressGateway.Daemon.Node

-- What each call is able to change.

open Net

namespace Daemon

-- The parts of a node that calls change independently of each other.
inductive Part
  | links (ns : Space)
  | routes (ns : Space)
  | nat (ns : Space)
  | status
  | gateways

-- Both ends of a pair of links disappear together, so the deletion of a link concerns all namespaces.
def Call.writes : Call → Part → Bool
  | .linkAdd _,             .links ns  => ns = .host
  | .vethAdd,               .links ns  => ns = .host
  | .linkDel ..,            .links _   => true
  | .linkDel ..,            .routes _  => true
  | .linkSetNs _,           .links _   => true
  | .linkSetNs _,           .routes ns => ns = .host
  | .addrAdd ns ..,         .links ns' => ns' = ns
  | .addrDel ns ..,         .links ns' => ns' = ns
  | .configureDevice ..,    .links ns  => ns = .gateway
  | .routeReplace ns _,     .routes ns' => ns' = ns
  | .routeDel ns _,         .routes ns' => ns' = ns
  | .ensureChain ns _,      .nat ns'   => ns' = ns
  | .ensureRule ns ..,      .nat ns'   => ns' = ns
  | .restoreAll ns ..,      .nat ns'   => ns' = ns
  | .deleteRule ns ..,      .nat ns'   => ns' = ns
  | .removeChain ns _,      .nat ns'   => ns' = ns
  | .createStatus _,        .status    => true
  | .updateStatus _,        .status    => true
  | .addGateway _,          .gateways  => true
  | .removeGateway _,       .gateways  => true
  | _,                      _          => false

-- Calls that change nothing at all.
def Call.reads : Call → Bool
  | .listGwConfigs | .getGwConfig _ | .getVMConfig _ | .getSecret _ | .listPodEndpoints
  | .getPodEndpoint _ | .getStatus | .getNode | .getNS | .linkList _ | .linkByName .. | .linkSetUp ..
  | .addrList .. | .routeList .. | .saveInto _ | .wgNew | .device _ => true
  | _ => false

namespace Node

-- A namespace that does not exist yet is going to be created without links and routes, and with an
-- empty table.

def links (s : Node) (ns : Space) : List Link :=
  ((s.netns ns).map (·.links)).getD []

def routes (s : Node) (ns : Space) : List Route :=
  ((s.netns ns).map (·.routes)).getD []

def nat (s : Node) (ns : Space) : Iptables.Table :=
  ((s.netns ns).map (·.nat)).getD .empty

def link (s : Node) (ns : Space) (name : String) : Option Link :=
  (s.links ns).find? (·.name = name)

variable {s : Node} {ns ns' : Space} {name : String} {c : Call}

theorem reply_state {α : Type} {text : String} {a : Option α} : (s.reply text a).2 = s := by
  cases a <;> rfl

theorem look_state {α : Type} {f : Netns → Except Err α} : (s.look ns f).2 = s := by
  unfold look
  split <;> rfl

theorem serve_reads (h : c.reads = true) : (serve c s).2 = s := by
  cases c
  case listGwConfigs | listPodEndpoints | wgNew => rfl
  case getNode => cases h : s.api.hasNode <;> simp [serve, h]
  case getNS => cases h : s.gateway <;> simp [serve, h]
  case getGwConfig | getVMConfig | getSecret | getPodEndpoint | getStatus => exact reply_state
  case linkList | linkByName | linkSetUp | addrList | routeList | saveInto | device => exact look_state
  all_goals nomatch h

-- A change of a namespace either fails or replaces it.
theorem onNetns_cases (s : Node) (ns : Space) (f : Netns → Except Err Netns) :
    ((∃ e, (s.onNetns ns f).1 = .error e) ∧ (s.onNetns ns f).2 = s) ∨
    ∃ n n', s.netns ns = some n ∧ f n = .ok n' ∧
      (s.onNetns ns f).1 = .ok () ∧ (s.onNetns ns f).2 = s.setNetns ns n' := by
  unfold onNetns
  cases hn : s.netns ns
  case none => exact .inl ⟨⟨_, rfl⟩, rfl⟩
  case some n =>
    dsimp only
    cases hf : f n
    case error e => exact .inl ⟨⟨e, rfl⟩, rfl⟩
    case ok n'   => exact .inr ⟨n, n', rfl, hf, rfl, rfl⟩

theorem netns_setNetns {n : Netns} :
    (s.setNetns ns' n).netns ns = if ns = ns' then some n else s.netns ns := by
  cases ns <;> cases ns' <;> rfl

-- Any aspect of a namespace, provided that the changes that the call makes do not matter to it.

section Aspect

variable {α : Type} {π : Netns → α}

theorem map_setNetns {n n' : Netns} (hn : s.netns ns' = some n) (h : ns = ns' → π n' = π n) :
    ((s.setNetns ns' n').netns ns).map π = (s.netns ns).map π := by
  rw [netns_setNetns]
  split
  case isFalse   => rfl
  case isTrue he => rw [he, hn, Option.map_some, Option.map_some, h he]

theorem map_onNetns {f : Netns → Except Err Netns}
    (h : ns = ns' → ∀ n n', f n = .ok n' → π n' = π n) :
    ((s.onNetns ns' f).2.netns ns).map π = (s.netns ns).map π := by
  rcases onNetns_cases s ns' f with ⟨_, hs⟩ | ⟨n, n', hn, hf, _, hs⟩
  · rw [hs]
  · rw [hs]
    exact map_setNetns hn fun he => h he n n' hf

theorem map_onLink {f : Link → Except Err Link}
    (h : ns = ns' → ∀ n ls, π { n with links := ls } = π n) :
    ((s.onLink ns' name f).2.netns ns).map π = (s.netns ns).map π := by
  refine map_onNetns fun he n n' hf => ?_
  split at hf
  case h_1 => nomatch hf
  case h_2 l _ =>
    cases hl : f l
    case error => rw [hl] at hf; nomatch hf
    case ok    => rw [hl] at hf; exact Except.ok.inj hf ▸ h he n _

theorem map_onNat {text : String} {f : Iptables.Table → Option Iptables.Table}
    (h : ns = ns' → ∀ n t, π { n with nat := t } = π n) :
    ((s.onNat ns' text f).2.netns ns).map π = (s.netns ns).map π := by
  refine map_onNetns fun he n n' hf => ?_
  split at hf
  case h_1     => nomatch hf
  case h_2 t _ => exact Except.ok.inj hf ▸ h he n t

theorem dropPeer_aspect {n : Netns} (h : ∀ n ls rs, π { n with links := ls, routes := rs } = π n) :
    π (dropPeer n name) = π n := by
  unfold dropPeer
  split
  case h_1 => rfl
  case h_2 => exact h n _ _

theorem map_deleteLink (h : ∀ n ls rs, π { n with links := ls, routes := rs } = π n) :
    ((s.deleteLink ns' name).2.netns ns).map π = (s.netns ns).map π := by
  unfold deleteLink
  cases hn : s.netns ns'
  case none => rfl
  case some n =>
    dsimp only
    split
    case h_1 => rfl
    case h_2 =>
      have hd : ((s.setNetns ns' (n.dropLink name)).netns ns).map π = (s.netns ns).map π :=
        map_setNetns hn fun _ => h n _ _
      split
      case isFalse => exact hd
      case isTrue =>
        rw [← hd]
        cases ns
        case host => exact congrArg some (dropPeer_aspect h)
        case gateway =>
          simp only [netns, Option.map_map]
          exact congrArg (Option.map · _) (funext fun _ => dropPeer_aspect h)

theorem map_moveLink (hl : ∀ n ls, π { n with links := ls } = π n)
    (hr : ns = .host → ∀ n rs, π { n with routes := rs } = π n) :
    ((s.moveLink name).2.netns ns).map π = (s.netns ns).map π := by
  unfold moveLink
  split
  case h_1 | h_2 => rfl
  case h_3 l g _ hg =>
    split
    case isTrue  => rfl
    case isFalse =>
      cases ns
      case host => exact congrArg some ((hr rfl _ _).trans (hl _ _))
      case gateway =>
        simp only [netns, hg, Option.map_some]
        exact congrArg some (hl _ _)

-- A call that does not write a part of a namespace does not change any aspect that depends on the other
-- parts only.
theorem map_serve (links : c.writes (.links ns) = true → ∀ n ls, π { n with links := ls } = π n)
    (routes : c.writes (.routes ns) = true → ∀ n rs, π { n with routes := rs } = π n)
    (nat : c.writes (.nat ns) = true → ∀ n t, π { n with nat := t } = π n) :
    ((serve c s).2.netns ns).map π = (s.netns ns).map π := by
  by_cases hr : c.reads = true
  · rw [serve_reads hr]
  cases c
  case linkDel   => exact map_deleteLink fun n ls rs => (links rfl _ _).trans (routes rfl n rs)
  case linkSetNs => exact map_moveLink (links rfl) fun he => routes (decide_eq_true he)
  case addrAdd | addrDel | configureDevice => exact map_onLink fun he => links (decide_eq_true he)
  case addGateway | removeGateway => cases ns <;> rfl
  case createStatus | updateStatus =>
    cases hs : s.api.status <;> cases ns <;> simp only [serve, hs] <;> rfl
  case linkAdd | vethAdd =>
    refine map_onNetns fun he n n' hf => ?_
    split at hf
    · nomatch hf
    · exact Except.ok.inj hf ▸ links (decide_eq_true he) n _
  case routeReplace | routeDel =>
    refine map_onNetns fun he n n' hf => ?_
    split at hf
    · exact Except.ok.inj hf ▸ routes (decide_eq_true he) n _
    · nomatch hf
  case ensureChain | ensureRule | restoreAll | deleteRule | removeChain =>
    exact map_onNat fun he => nat (decide_eq_true he)
  all_goals exact absurd rfl hr

end Aspect

theorem serve_links (h : c.writes (.links ns) = false) : (serve c s).2.links ns = s.links ns :=
  congrArg (Option.getD · _) <|
    map_serve (fun hw => absurd hw (by simp [h])) (fun _ _ _ => rfl) fun _ _ _ => rfl

theorem serve_routes (h : c.writes (.routes ns) = false) : (serve c s).2.routes ns = s.routes ns :=
  congrArg (Option.getD · _) <|
    map_serve (fun _ _ _ => rfl) (fun hw => absurd hw (by simp [h])) fun _ _ _ => rfl

theorem serve_nat (h : c.writes (.nat ns) = false) : (serve c s).2.nat ns = s.nat ns :=
  congrArg (Option.getD · _) <|
    map_serve (fun _ _ _ => rfl) (fun _ _ _ => rfl) fun hw => absurd hw (by simp [h])

-- Namespaces are neither created nor destroyed by the daemon.
theorem serve_isSome : ((serve c s).2.netns ns).isSome = (s.netns ns).isSome := by
  have h : ((serve c s).2.netns ns).map (fun _ => ()) = (s.netns ns).map fun _ => () :=
    map_serve (fun _ _ _ => rfl) (fun _ _ _ => rfl) fun _ _ _ => rfl
  simpa using congrArg Option.isSome h

theorem serve_link (h : c.writes (.links ns) = false) : (serve c s).2.link ns name = s.link ns name := by
  rw [link, serve_links h, link]

-- What is outside of the namespaces.

theorem setNetns_api {n : Netns} : (s.setNetns ns n).api = s.api := by
  cases ns <;> rfl

theorem setNetns_gateways {n : Netns} : (s.setNetns ns n).activeGateways = s.activeGateways := by
  cases ns <;> rfl

theorem onNetns_outside {f : Netns → Except Err Netns} :
    (s.onNetns ns f).2.api = s.api ∧ (s.onNetns ns f).2.activeGateways = s.activeGateways := by
  rcases onNetns_cases s ns f with ⟨_, hs⟩ | ⟨n, n', _, _, _, hs⟩
  · rw [hs]; exact ⟨rfl, rfl⟩
  · rw [hs]; exact ⟨setNetns_api, setNetns_gateways⟩

theorem deleteLink_outside :
    (s.deleteLink ns name).2.api = s.api ∧ (s.deleteLink ns name).2.activeGateways = s.activeGateways := by
  unfold deleteLink
  split
  case h_1 => exact ⟨rfl, rfl⟩
  case h_2 =>
    split
    case h_1 => exact ⟨rfl, rfl⟩
    case h_2 => dsimp only; split <;> exact ⟨setNetns_api, setNetns_gateways⟩

theorem moveLink_outside :
    (s.moveLink name).2.api = s.api ∧ (s.moveLink name).2.activeGateways = s.activeGateways := by
  unfold moveLink
  split
  case h_1 | h_2 => exact ⟨rfl, rfl⟩
  case h_3 => split <;> exact ⟨rfl, rfl⟩

theorem serve_api (h : c.writes .status = false) : (serve c s).2.api = s.api := by
  by_cases hr : c.reads = true
  · rw [serve_reads hr]
  cases c
  case linkDel   => exact deleteLink_outside.left
  case linkSetNs => exact moveLink_outside.left
  case addGateway | removeGateway => rfl
  case addrAdd | addrDel | configureDevice | linkAdd | vethAdd | routeReplace | routeDel | ensureChain
      | ensureRule | restoreAll | deleteRule | removeChain => exact onNetns_outside.left
  case createStatus | updateStatus => nomatch h
  all_goals exact absurd rfl hr

theorem serve_gateways (h : c.writes .gateways = false) :
    (serve c s).2.activeGateways = s.activeGateways := by
  by_cases hr : c.reads = true
  · rw [serve_reads hr]
  cases c
  case linkDel   => exact deleteLink_outside.right
  case linkSetNs => exact moveLink_outside.right
  case addGateway | removeGateway => nomatch h
  case addrAdd | addrDel | configureDevice | linkAdd | vethAdd | routeReplace | routeDel | ensureChain
      | ensureRule | restoreAll | deleteRule | removeChain => exact onNetns_outside.right
  case createStatus | updateStatus => cases hs : s.api.status <;> simp only [serve, hs]
  all_goals exact absurd rfl hr

-- Of the API objects the daemon only writes the status of its node.
theorem serve_objects : { (serve c s).2.api with status := none } = { s.api with status := none } := by
  by_cases h : c.writes .status = true
  case neg => rw [serve_api (Bool.eq_false_of_not_eq_true h)]
  case pos =>
    cases c
    case createStatus | updateStatus => cases hs : s.api.status <;> simp only [serve, hs]
    all_goals nomatch h

-- How single links change.

section Links

variable {n n' : Netns} {l : Link} {f : Link → Link}

theorem links_of_netns (h : s.netns ns = some n) : s.links ns = n.links := by
  rw [links, h]
  rfl

theorem link_of_netns (h : s.netns ns = some n) : s.link ns name = n.findLink name := by
  rw [link, links_of_netns h]
  rfl

theorem link_of_netns_none (h : s.netns ns = none) : s.link ns name = none := by
  rw [link, links, h]
  rfl

theorem link_setNetns :
    (s.setNetns ns' n).link ns name = if ns = ns' then n.findLink name else s.link ns name := by
  unfold link links
  rw [netns_setNetns]
  split <;> rfl

theorem findLink_modifyLink {m : String} (hf : ∀ l, l.name = m → (f l).name = m) :
    (n.modifyLink m f).findLink name =
      if name = m then (n.findLink name).map f else n.findLink name := by
  simp only [Netns.findLink, Netns.modifyLink]
  induction n.links
  case nil => split <;> rfl
  case cons l ls hi =>
    rw [List.map_cons, List.find?_cons, List.find?_cons, hi]
    by_cases hl : l.name = m
    case pos =>
      rw [if_pos hl, hf l hl, hl]
      by_cases hm : m = name
      · simp [hm]
      · simp [hm, Ne.symm hm]
    case neg =>
      rw [if_neg hl]
      by_cases hn : l.name = name
      · simp [hn, show ¬name = m from fun he => hl (hn.trans he)]
      · simp [hn]

theorem findLink_dropLink {m : String} :
    (n.dropLink m).findLink name = if name = m then none else n.findLink name := by
  simp only [Netns.findLink, Netns.dropLink]
  induction n.links
  case nil => split <;> rfl
  case cons l ls hi =>
    by_cases hl : l.name = m
    case pos =>
      rw [List.filter_cons_of_neg (by simpa using hl), hi, List.find?_cons]
      by_cases hm : name = m
      · simp [hm]
      · simp [hm, show ¬l.name = name from fun he => hm (he.symm.trans hl)]
    case neg =>
      rw [List.filter_cons_of_pos (by simpa using hl), List.find?_cons, hi, List.find?_cons]
      by_cases hn : l.name = name
      · simp [hn, show ¬name = m from fun he => hl (hn.trans he)]
      · simp [hn]

theorem findLink_name (h : n.findLink name = some l) : l.name = name := by
  have hs := List.find?_some h
  exact of_decide_eq_true hs

theorem link_name (h : s.link ns name = some l) : l.name = name := by
  have hs := List.find?_some h
  exact of_decide_eq_true hs

theorem lookLink_ok {α : Type} {f : Link → Except Err α} {a : α} :
    (s.lookLink ns name f).1 = .ok a ↔ ∃ l, s.link ns name = some l ∧ f l = .ok a := by
  unfold lookLink look
  cases hn : s.netns ns
  case none => simp [link_of_netns_none hn]
  case some n =>
    rw [link_of_netns hn]
    cases hl : n.findLink name <;> simp [hl]

theorem serve_linkByName (s : Node) (ns : Space) (name : String) :
    (serve (.linkByName ns name) s).1.toOption = s.link ns name := by
  cases hl : s.link ns name
  case some l =>
    have h : (serve (.linkByName ns name) s).1 = .ok l := lookLink_ok.mpr ⟨l, hl, rfl⟩
    rw [h]
    rfl
  case none =>
    cases h : (serve (.linkByName ns name) s).1
    case error => rfl
    case ok l =>
      have ⟨l', hl', _⟩ := lookLink_ok.mp h
      nomatch hl.symm.trans hl'

-- A change of a link that does not exist, and of one that does.

theorem onLink_none {f : Link → Except Err Link} (h : s.link ns name = none) :
    (∃ e, (s.onLink ns name f).1 = .error e) ∧ (s.onLink ns name f).2 = s := by
  unfold onLink onNetns
  cases hn : s.netns ns
  case none => exact ⟨⟨_, rfl⟩, rfl⟩
  case some n =>
    rw [link_of_netns hn] at h
    simp [h]

theorem onLink_some {f : Link → Except Err Link} (h : s.link ns name = some l) :
    ∃ n, s.netns ns = some n ∧ n.findLink name = some l ∧
      s.onLink ns name f = match f l with
        | .error e => (.error e, s)
        | .ok l'   => (.ok (), s.setNetns ns (n.modifyLink name fun _ => l')) := by
  cases hn : s.netns ns
  case none => rw [link_of_netns_none hn] at h; nomatch h
  case some n =>
    rw [link_of_netns hn] at h
    refine ⟨n, rfl, h, ?_⟩
    simp only [onLink, onNetns, hn, h]
    cases f l <;> rfl

theorem onLink_ok {f : Link → Except Err Link} :
    (s.onLink ns name f).1 = .ok () ↔ ∃ l l', s.link ns name = some l ∧ f l = .ok l' := by
  cases hl : s.link ns name
  case none =>
    have ⟨⟨e, he⟩, _⟩ := onLink_none (f := f) hl
    simp [he]
  case some l =>
    have ⟨n, _, _, he⟩ := onLink_some (f := f) hl
    rw [he]
    cases hf : f l <;> simp [hf]

theorem link_onLink {m : String} {f : Link → Except Err Link}
    (hf : ∀ l l', f l = .ok l' → l'.name = l.name) :
    (s.onLink ns' m f).2.link ns name =
      if ns = ns' ∧ name = m then (s.link ns name).map fun l => (f l).toOption.getD l
      else s.link ns name := by
  by_cases h : ns = ns' ∧ name = m
  case pos =>
    obtain ⟨rfl, rfl⟩ := h
    rw [if_pos ⟨rfl, rfl⟩]
    cases hl : s.link ns name
    case none => rw [(onLink_none hl).right, hl]; rfl
    case some l =>
      have ⟨n, _, hn, he⟩ := onLink_some (f := f) hl
      rw [he]
      cases hfl : f l
      case error => rw [Option.map_some, hfl]; exact hl
      case ok l' =>
        have hm : l'.name = name := (hf l l' hfl).trans (findLink_name hn)
        dsimp only
        rw [link_setNetns, if_pos rfl, findLink_modifyLink fun _ _ => hm, if_pos rfl, hn, Option.map_some,
          Option.map_some, hfl]
        rfl
  case neg =>
    rw [if_neg h]
    cases hl : s.link ns' m
    case none => rw [(onLink_none hl).right]
    case some l =>
      have ⟨n, hs, hn, he⟩ := onLink_some (f := f) hl
      rw [he]
      cases hfl : f l
      case error => rfl
      case ok l' =>
        have hm : l'.name = m := (hf l l' hfl).trans (findLink_name hn)
        dsimp only
        rw [link_setNetns, findLink_modifyLink fun _ _ => hm]
        split
        case isFalse => rfl
        case isTrue hns => rw [if_neg fun hname => h ⟨hns, hname⟩, hns, link_of_netns hs]

theorem link_addrDel {m : String} {a : Addr} :
    (serve (.addrDel ns' m a) s).2.link ns name =
      if ns = ns' ∧ name = m then (s.link ns name).map fun l => { l with addrs := l.addrs.erase a }
      else s.link ns name := by
  refine (link_onLink fun l l' h => ?_).trans ?_
  · split at h
    · exact Except.ok.inj h ▸ rfl
    · nomatch h
  · congr 2
    funext l
    split
    case isTrue       => rfl
    case isFalse hmem => simp [Except.toOption, List.erase_of_not_mem hmem]

theorem link_addrAdd {m : String} {a : Addr} :
    (serve (.addrAdd ns' m a) s).2.link ns name =
      if ns = ns' ∧ name = m then
        (s.link ns name).map fun l =>
          if l.addrs.any (·.same a) then l else { l with addrs := l.addrs ++ [a] }
      else s.link ns name := by
  refine (link_onLink fun l l' h => ?_).trans ?_
  · split at h
    · nomatch h
    · exact Except.ok.inj h ▸ rfl
  · congr 2
    funext l
    split <;> rfl

theorem link_configureDevice {m : String} {d : DeviceConfig} :
    (serve (.configureDevice m d) s).2.link ns name =
      if ns = .gateway ∧ name = m then
        (s.link ns name).map fun l => { l with device := l.device.map (·.configure d) }
      else s.link ns name := by
  refine (link_onLink fun l l' h => ?_).trans ?_
  · split at h
    · nomatch h
    · exact Except.ok.inj h ▸ rfl
  · congr 2
    funext l
    split
    case h_1 hd => simp [Except.toOption, hd]; cases l; simp_all
    case h_2 hd => simp [Except.toOption, hd]

-- A link that is not part of a pair takes nothing with it.
theorem link_linkDel {m : String} (h : ∀ l, s.link ns' m = some l → l.peer = none) :
    (serve (.linkDel ns' m) s).2.link ns name =
      if ns = ns' ∧ name = m then none else s.link ns name := by
  cases hn : s.netns ns'
  case none =>
    have he : serve (.linkDel ns' m) s = (.error (failure "no such namespace"), s) := by
      simp only [serve, deleteLink, hn]
    rw [he]
    split
    case isTrue he => rw [he.left, link_of_netns_none hn]
    case isFalse   => rfl
  case some n =>
    cases hl : n.findLink m
    case none =>
      have he : serve (.linkDel ns' m) s = (.error (linkNotFound m), s) := by
        simp only [serve, deleteLink, hn, hl]
      rw [he]
      split
      case isTrue he => rw [he.left, he.right, link_of_netns hn, hl]
      case isFalse   => rfl
    case some l =>
      have hp := h l ((link_of_netns hn).trans hl)
      have he : serve (.linkDel ns' m) s = (.ok (), s.setNetns ns' (n.dropLink m)) := by
        simp [serve, deleteLink, hn, hl, hp]
      rw [he, link_setNetns, findLink_dropLink]
      by_cases hns : ns = ns'
      case neg => simp [hns]
      case pos => subst hns; simp [link_of_netns hn]

end Links

end Node

-- How the calls that write a table change it.
def Call.edit : Call → Iptables.Table → Option Iptables.Table
  | .ensureChain _ c,   t => some (t.ensureChain c)
  | .ensureRule _ c r,  t => t.ensureRule c r
  | .restoreAll _ c rs, t => some (t.restoreAll c rs)
  | .deleteRule _ c r,  t => some (t.deleteRule c r)
  | .removeChain _ c,   t => t.removeChain c
  | _,                  t => some t

namespace Node

variable {s : Node} {ns ns' : Space} {c : Call} {n : Netns}

theorem nat_setNetns : (s.setNetns ns' n).nat ns = if ns = ns' then n.nat else s.nat ns := by
  unfold nat
  rw [netns_setNetns]
  split <;> rfl

theorem nat_of_netns (h : s.netns ns = some n) : s.nat ns = n.nat := by
  rw [nat, h]
  rfl

theorem onNat_cases (s : Node) (ns : Space) (text : String)
    (f : Iptables.Table → Option Iptables.Table) :
    ((∃ e, (s.onNat ns text f).1 = .error e) ∧ (s.onNat ns text f).2 = s) ∨
    ∃ n t, s.netns ns = some n ∧ f n.nat = some t ∧
      (s.onNat ns text f).2 = s.setNetns ns { n with nat := t } := by
  rcases onNetns_cases s ns _ with hs | ⟨n, n', hn, hf, _, hs⟩
  · exact .inl hs
  · split at hf
    case h_1 => nomatch hf
    case h_2 t ht => exact .inr ⟨n, t, hn, ht, Except.ok.inj hf ▸ hs⟩

-- An edit either fails or replaces the table.
theorem serve_edits (h : c.writes (.nat ns) = true) :
    ((∃ e, (serve c s).1 = .error e) ∧ (serve c s).2 = s) ∨
    ∃ n t, s.netns ns = some n ∧ c.edit n.nat = some t ∧
      (serve c s).2 = s.setNetns ns { n with nat := t } := by
  cases c
  case ensureChain ns' _ | ensureRule ns' _ _ | restoreAll ns' _ _ | deleteRule ns' _ _
      | removeChain ns' _ =>
    have he : ns = ns' := of_decide_eq_true h
    exact he ▸ onNat_cases s ns _ _
  all_goals nomatch h

end Node

end Daemon
