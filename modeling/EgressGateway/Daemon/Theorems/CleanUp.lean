import EgressGateway.Daemon.Theorems.Nat

-- What `cleanUp` keeps and what it removes, when every call is served except for some of those that read
-- a `GatewayVMConfiguration`.

open Kubernetes Text Net Program Iptables

namespace Daemon

def Call.readsVM : Call → Bool
  | .getVMConfig _ => true
  | _              => false

structure Steady (C : Contract Sig Node) : Prop where
  owe    : ∀ c s, C.owe c s
  served : ∀ c s f, C.allow c s f → c.readsVM = false → f = .none

namespace Node

-- The addresses of the host's link in the gateway namespace, and those of the load balancer on the host.

def hostAddrs (s : Node) : List Addr :=
  ((s.link .gateway hostLinkName).map (·.addrs)).getD []

def ilbAddrs (s : Node) : List Addr :=
  ((s.link .host "eth0").map fun l => l.addrs.filter (·.label = ilbIPLabel)).getD []

end Node

section Served

variable {C : Contract Sig Node} {c : Call} {s : Node}

theorem wp_served {Q : Except Err (Reply c) → Node → Prop} (hC : Steady C) (hc : c.readsVM = false)
    (h : Q (Node.serve c s).1 (Node.serve c s).2) : wp world C (request c) Q s := by
  refine wp_perform.mpr ⟨hC.owe c s, fun f hf => ?_⟩
  rw [hC.served c s f hf hc]
  exact h

theorem wp_servedWrapped {Q : Except Err (Reply c) → Node → Prop} {context : String}
    (hC : Steady C) (hc : c.readsVM = false)
    (h : Q ((Node.serve c s).1.mapError (·.wrap context)) (Node.serve c s).2) :
    wp world C (wrapError context (request c)) Q s :=
  wp_wrapError.mpr (wp_served hC hc h)

-- A read whose answer is known.
theorem wp_known {α : Type} {Q : Except Err α → Node → Prop} {context : String} {a : Reply c}
    {f : Reply c → M α} (hC : Steady C) (hc : c.readsVM = false) (hr : c.reads = true)
    (ha : (Node.serve c s).1 = .ok a) (h : wp world C (f a) Q s) :
    wp world C ((wrapError context (request c)).bind f) Q s := by
  refine wp_bind.mpr (wp_servedWrapped hC hc ?_)
  rw [ha, Node.serve_reads hr]
  exact h

end Served

section Kept

variable [CaseFold] (m : Metadata)

def live (s : Node) : List StaticGatewayConfiguration :=
  s.api.gwConfigs.filter (isActive m)

-- The secondary address that the API server has for a configuration on this node.
def secondaryIP? (api : Api) (gwConfig : StaticGatewayConfiguration) : Option String :=
  ((api.vmConfigs.find? (·.meta_.key = gwConfig.meta_.key)).bind fun vmConfig =>
    (vmIPOf m vmConfig).toOption).map (·.2)

-- The reads that fail for a transient reason are those of the objects in `unread`.
def reading (unread : NamespacedName → Bool) : Call → Fault
  | .getVMConfig k => if unread k then .lost else .none
  | _              => .none

structure Reading (unread : NamespacedName → Bool) (C : Contract Sig Node) : Prop where
  owe   : ∀ c s, C.owe c s
  fates : ∀ c s f, C.allow c s f → f = reading unread c

omit [CaseFold] in
theorem reading_fixed {unread : NamespacedName → Bool} : Reading unread (.fixed (reading unread)) where
  owe _ _       := trivial
  fates _ _ _ h := h

omit [CaseFold] in
theorem Reading.steady {unread : NamespacedName → Bool} {C : Contract Sig Node} (h : Reading unread C) :
    Steady C where
  owe := h.owe
  served c s f hf hc := by
    rw [h.fates c s f hf]
    cases c
    case getVMConfig => nomatch hc
    all_goals rfl

def readable (unread : NamespacedName → Bool) (s : Node) (gwConfig : StaticGatewayConfiguration) : Bool :=
  !unread gwConfig.meta_.key && (secondaryIP? m s.api gwConfig).isSome

def keeps (unread : NamespacedName → Bool) (s : Node) (gwConfig : StaticGatewayConfiguration) : Bool :=
  isActive m gwConfig && readable m unread s gwConfig

def existingOf (unread : NamespacedName → Bool) (s : Node) : Existing where
  wgLinks := (s.api.gwConfigs.filter (keeps m unread s)).map getWireguardInterfaceName
  ips     := (s.api.gwConfigs.filter (keeps m unread s)).filterMap (secondaryIP? m s.api)

variable {m} {unread : NamespacedName → Bool} {C : Contract Sig Node} {s : Node}

omit [CaseFold] in
theorem wp_getVMIP {gwConfig : StaticGatewayConfiguration} (hC : Reading unread C) :
    wp world C (getVMIP m gwConfig) (fun r s' => s' = s ∧
      r.toOption.map (·.2) = if unread gwConfig.meta_.key then none else secondaryIP? m s.api gwConfig) s := by
  refine wp_bind.mpr (wp_perform.mpr ⟨hC.owe _ _, fun f hf => ?_⟩)
  rw [hC.fates _ _ f hf]
  cases hu : unread gwConfig.meta_.key
  case true =>
    simp only [reading, hu, if_true]
    exact ⟨rfl, rfl⟩
  case false =>
    simp only [reading, hu, secondaryIP?, Bool.false_eq_true, if_false]
    cases hv : s.api.vmConfigs.find? (·.meta_.key = gwConfig.meta_.key)
    case none =>
      simp only [World.answer_none, world, Node.serve, Node.reply, hv]
      exact ⟨rfl, rfl⟩
    case some v =>
      simp only [World.answer_none, world, Node.serve, Node.reply, hv]
      exact wp_ofExcept.mpr ⟨rfl, rfl⟩

theorem wp_collectExisting {acc : Existing} {gwConfig : StaticGatewayConfiguration} (hC : Reading unread C) :
    wp world C (collectExisting m acc gwConfig) (fun r s' => s' = s ∧
      r = .ok (if keeps m unread s gwConfig then {
        wgLinks := acc.wgLinks ++ [getWireguardInterfaceName gwConfig]
        ips     := acc.ips ++ (secondaryIP? m s.api gwConfig).toList } else acc)) s := by
  unfold collectExisting
  cases ha : isActive m gwConfig
  case false => exact ⟨rfl, by simp [keeps, ha]⟩
  case true =>
    refine wp_bind.mpr (wp_attempt.mpr (wp_mono (wp_getVMIP hC) fun r s' ⟨hs, hr⟩ => ?_))
    subst hs
    cases hu : unread gwConfig.meta_.key
    case true =>
      rw [hu, if_pos rfl] at hr
      cases r
      case ok    => nomatch hr
      case error => exact ⟨rfl, by simp [keeps, readable, hu]⟩
    case false =>
      rw [hu, if_neg Bool.false_ne_true] at hr
      cases r
      case ok ips  => exact ⟨rfl, by simp [keeps, readable, ha, hu, ← hr, Except.toOption]⟩
      case error e => exact ⟨rfl, by simp [keeps, readable, ha, hu, ← hr, Except.toOption]⟩

theorem wp_collect {gwConfigs : List StaticGatewayConfiguration} {acc : Existing} (hC : Reading unread C) :
    wp world C (forFold gwConfigs acc (collectExisting m)) (fun r s' => s' = s ∧
      r = .ok {
        wgLinks := acc.wgLinks ++ (gwConfigs.filter (keeps m unread s)).map getWireguardInterfaceName
        ips     := acc.ips ++ (gwConfigs.filter (keeps m unread s)).filterMap (secondaryIP? m s.api) }) s := by
  induction gwConfigs generalizing acc
  case nil => exact ⟨rfl, by simp⟩
  case cons c cs hi =>
    refine wp_seq (wp_collectExisting hC) (fun acc' s' ⟨hs, ha⟩ => ?_) fun _ _ ⟨_, he⟩ => nomatch he
    subst hs
    refine wp_mono hi fun r s'' ⟨hs, hr⟩ => ⟨hs, ?_⟩
    rw [hr, Except.ok.inj ha]
    cases hk : keeps m unread s' c
    case true => cases hip : secondaryIP? m s'.api c <;> simp [hk, hip]
    case false => simp [hk]

end Kept

-- The loop over the orphans, by what the removal of each of them does to an aspect of the node.
theorem wp_removeOrphans {α β : Type} {isOrphaned : α → Bool} {remove : α → M Unit} {xs : List α}
    {C : Contract Sig Node} {s : Node} (π : Node → β) (effect : β → α → β) {J : Node → Prop} (hi : J s)
    (step : ∀ x ∈ xs, isOrphaned x = true → ∀ s, J s →
      wp world C (remove x) (fun _ s' => J s' ∧ π s' = effect (π s) x) s) :
    wp world C (removeOrphans isOrphaned remove xs) (fun r s' => r = .ok () ∧ J s' ∧
      π s' = (xs.filter isOrphaned).foldl effect (π s)) s := by
  induction xs generalizing s
  case nil => exact ⟨rfl, hi, rfl⟩
  case cons x xs ih =>
    have step' : ∀ y ∈ xs, isOrphaned y = true → _ := fun y hy => step y (List.mem_cons_of_mem _ hy)
    by_cases hx : isOrphaned x = true
    case neg =>
      rw [List.filter_cons_of_neg hx]
      refine wp_seq (P := fun r s' => r = .ok () ∧ s' = s) ?_ ?_ nofun
      · dsimp only
        rw [if_neg hx]
        exact ⟨rfl, rfl⟩
      · rintro _ _ ⟨_, rfl⟩
        exact ih hi step'
    case pos =>
      rw [List.filter_cons_of_pos hx, List.foldl_cons]
      refine wp_seq (P := fun r s' => r = .ok () ∧ J s' ∧ π s' = effect (π s) x) ?_ ?_ nofun
      · dsimp only
        rw [if_pos hx]
        refine wp_bind.mpr (wp_attempt.mpr (wp_mono (step x List.mem_cons_self hx s hi) fun r s' h => ?_))
        exact ⟨rfl, h⟩
      · rintro _ s' ⟨_, hi', he⟩
        rw [← he]
        exact ih hi' step'

section Links

variable {C : Contract Sig Node} {s : Node} (L : Space → String → Option Link)

-- The links after an address of the host's link, or another link of the gateways, has been removed.

def withoutAddr (a : Addr) (ns : Space) (name : String) : Option Link :=
  if ns = .gateway ∧ name = hostLinkName then
    (L ns name).map fun l => { l with addrs := l.addrs.erase a }
  else L ns name

def withoutLink (l : Link) (ns : Space) (name : String) : Option Link :=
  if ns = .gateway ∧ name = l.name then none else L ns name

theorem link_of_uses {α : Type} {p : M α}
    (h : p.Uses fun c : Call => ∀ ns, c.writes (.links ns) = false) (owe : ∀ c s, C.owe c s) :
    wp world C p (fun _ s' => s'.link = s.link) s :=
  wp_of_uses (R := fun s s' : Node => s'.link = s.link) (fun _ => rfl) (fun h h' => h'.trans h)
    (fun _ _ hc => funext₂ fun ns _ => Node.serve_link (hc ns)) h fun c s _ => owe c s

theorem wp_ensureDeleteIP_links {addr : Addr} (hC : Steady C) :
    wp world C (ensureDeleteIP addr) (fun _ s' => s'.link = withoutAddr s.link addr) s := by
  refine wp_bind.mpr (wp_servedWrapped hC rfl ?_)
  have hl := Node.serve_linkByName s .gateway hostLinkName
  rw [Node.serve_reads rfl]
  cases hr : (Node.serve (.linkByName .gateway hostLinkName) s).1
  case error e =>
    rw [hr] at hl
    refine funext₂ fun ns name => ?_
    unfold withoutAddr
    split
    case isTrue h => rw [h.left, h.right, ← hl]; rfl
    case isFalse  => rfl
  case ok l =>
    refine wp_seq (P := fun _ s' => s'.link = withoutAddr s.link addr) (wp_servedWrapped hC rfl ?_)
      (fun _ s' h => ?_) fun _ _ h => h
    · exact funext₂ fun ns name => Node.link_addrDel
    · refine wp_mono (link_of_uses (uses_forgetIP.mono fun c hc ns => links_of_forgetIPCalls hc) ?_) ?_
      · exact hC.owe
      · exact fun _ _ hs => hs.trans h

theorem wp_ensureDeleteLink_links {link : Link} (hC : Steady C)
    (hp : hasPrefix link.name wireguardLinkNamePrefix = true) :
    wp world C (ensureDeleteLink link) (fun _ s' => s'.link = withoutLink s.link link) s := by
  refine wp_seq (P := fun _ s' => s'.link = withoutLink s.link link)
    (wp_servedWrapped hC rfl ?_) (fun _ s' h => ?_) fun _ _ h => h
  · refine funext₂ fun ns name => Node.link_linkDel fun l hl => l.unpaired ?_
    rwa [Node.link_name hl]
  · refine wp_mono (link_of_uses (uses_forgetLink.mono fun c hc ns => links_of_forgetLinkCalls hc) ?_) ?_
    · exact hC.owe
    · exact fun _ _ hs => hs.trans h

-- Both loops together.

theorem withoutAddrs_eq (as : List Addr) (ns : Space) (name : String) :
    as.foldl withoutAddr L ns name =
      if ns = .gateway ∧ name = hostLinkName then
        (L ns name).map fun l => { l with addrs := l.addrs.diff as }
      else L ns name := by
  induction as generalizing L
  case nil => split <;> simp
  case cons a as hi =>
    rw [List.foldl_cons, hi]
    unfold withoutAddr
    split
    case isTrue => simp [Function.comp_def, List.diff_cons]
    case isFalse => rfl

theorem withoutLinks_eq (ls : List Link) (ns : Space) (name : String) :
    ls.foldl withoutLink L ns name =
      if ns = .gateway ∧ name ∈ ls.map (·.name) then none else L ns name := by
  induction ls generalizing L
  case nil => simp
  case cons l ls hi =>
    rw [List.foldl_cons, hi]
    unfold withoutLink
    by_cases hns : ns = .gateway
    case neg => simp [hns]
    case pos =>
      by_cases hl : name = l.name
      · simp [hns, hl]
      · simp [hns, hl]

theorem wp_removeOrphanedIPs {existing : Existing} {ips : List Addr}
    (hC : Steady C) :
    wp world C (removeOrphans (isOrphanedIP existing) ensureDeleteIP ips)
      (fun r s' => r = .ok () ∧ s'.link = (ips.filter (isOrphanedIP existing)).foldl withoutAddr s.link) s := by
  refine wp_mono (wp_removeOrphans Node.link withoutAddr (J := fun _ => True) trivial fun a _ _ s _ => ?_)
    fun _ _ h => ⟨h.1, h.2.2⟩
  exact wp_mono (wp_ensureDeleteIP_links hC) fun _ _ h => ⟨trivial, h⟩

theorem wp_removeOrphanedLinks {existing : Existing} {links : List Link}
    (hC : Steady C) :
    wp world C (removeOrphans (isOrphanedLink existing) ensureDeleteLink links)
      (fun r s' => r = .ok () ∧
        s'.link = (links.filter (isOrphanedLink existing)).foldl withoutLink s.link) s := by
  refine wp_mono (wp_removeOrphans Node.link withoutLink (J := fun _ => True) trivial fun l _ ho s _ => ?_)
    fun _ _ h => ⟨h.1, h.2.2⟩
  have hp := (Bool.and_eq_true_iff.mp ho).left
  exact wp_mono (wp_ensureDeleteLink_links hC hp) fun _ _ h => ⟨trivial, h⟩

end Links

section Passes

variable [CaseFold] {m : Metadata} {unread : NamespacedName → Bool} {s : Node}
  {C : Contract Sig Node} {Q : Except Err Unit → Node → Prop}

-- The clean-up gets to remove something only if there is a host link in the gateway namespace.
theorem wp_cleanUp_of_absent (hC : Reading unread C) (h : s.link .gateway hostLinkName = none) :
    wp world C (cleanUp m) (fun _ s' => s' = s) s := by
  have hS := hC.steady
  refine wp_known hS rfl rfl rfl ?_
  refine wp_seq (wp_collect hC) (fun existing s' ⟨hs, _⟩ => ?_) fun _ _ ⟨hs, _⟩ => hs
  subst hs
  have read {c : Call} {context : String} (hc : c.readsVM = false) (hr : c.reads = true) :
      wp world C (wrapError context (request c)) (fun _ s'' => s'' = s') s' :=
    wp_servedWrapped hS hc (Node.serve_reads hr)
  refine wp_seq (read rfl rfl) (fun _ s₁ h₁ => ?_) fun _ _ hs => hs
  obtain rfl := h₁
  refine wp_seq (read rfl rfl) (fun _ s₂ h₂ => ?_) fun _ _ hs => hs
  obtain rfl := h₂
  refine wp_bind.mpr (wp_servedWrapped hS rfl ?_)
  have hl := Node.serve_linkByName s₂ .gateway hostLinkName
  rw [Node.serve_reads rfl]
  cases hr : (Node.serve (.linkByName .gateway hostLinkName) s₂).1
  case error => rfl
  case ok    => rw [hr, h] at hl; nomatch hl

theorem wp_cleanUp_of_present {l : Link} (hC : Reading unread C) (hl : s.link .gateway hostLinkName = some l)
    (h : wp world C
      (removeOrphaned m (existingOf m unread s) (s.links .gateway) l.addrs) Q s) :
    wp world C (cleanUp m) Q s := by
  have hS := hC.steady
  cases hg : s.gateway
  case none =>
    have hn : s.link .gateway hostLinkName = none := Node.link_of_netns_none hg
    nomatch hl.symm.trans hn
  case some g =>
    have hlinks : s.links .gateway = g.links := Node.links_of_netns hg
    refine wp_known hS rfl rfl rfl ?_
    refine wp_seq (wp_collect hC) (fun existing s' ⟨hs, he⟩ => ?_) fun _ _ ⟨_, he⟩ => nomatch he
    subst hs
    rw [Except.ok.inj he]
    refine wp_known (a := ()) hS rfl rfl (by simp [Node.serve, hg]) ?_
    refine wp_known (a := g.links) hS rfl rfl (by simp [Node.serve, Node.look, Node.netns, hg]) ?_
    refine wp_known (a := l) hS rfl rfl (Node.lookLink_ok.mpr ⟨l, hl, rfl⟩) ?_
    refine wp_known (a := l.addrs) hS rfl rfl (Node.lookLink_ok.mpr ⟨l, hl, rfl⟩) ?_
    rw [hlinks] at h
    exact h

omit [CaseFold] in
theorem wp_removeOrphaned_links {existing : Existing} {links : List Link} {ips : List Addr} (hC : Steady C) :
    wp world C (removeOrphaned m existing links ips) (fun _ s' => s'.link .gateway =
      (links.filter (isOrphanedLink existing)).foldl withoutLink
        ((ips.filter (isOrphanedIP existing)).foldl withoutAddr s.link) .gateway) s := by
  refine wp_seq (wp_removeOrphanedIPs hC) (fun _ s₁ ⟨_, h₁⟩ => ?_) fun _ _ ⟨he, _⟩ => nomatch he
  refine wp_seq (wp_removeOrphanedLinks hC) (fun _ s₂ ⟨_, h₂⟩ => ?_) fun _ _ ⟨he, _⟩ => nomatch he
  rw [← h₁, ← h₂]
  split
  case isFalse => exact rfl
  case isTrue =>
    refine wp_of_uses (R := fun s s' : Node => s'.link .gateway = s.link .gateway) (fun _ => rfl)
      (fun h h' => h'.trans h) (fun c s hc => funext fun name => Node.serve_link ?_) uses_removeLeftovers
      fun c s _ => hC.owe c s
    cases c
    case addrDel => exact decide_eq_false fun he => nomatch he.trans hc.left
    all_goals first | rfl | nomatch hc

theorem mem_live {c : StaticGatewayConfiguration} :
    c ∈ live m s ↔ c ∈ s.api.gwConfigs ∧ isActive m c = true :=
  List.mem_filter

theorem mem_kept {c : StaticGatewayConfiguration} :
    c ∈ s.api.gwConfigs.filter (keeps m unread s) ↔ c ∈ live m s ∧ readable m unread s c = true := by
  rw [List.mem_filter, mem_live, keeps, Bool.and_eq_true, and_assoc]

theorem mem_wgLinks {c : StaticGatewayConfiguration} :
    getWireguardInterfaceName c ∈ (existingOf m unread s).wgLinks ↔
    ∃ c' ∈ live m s, readable m unread s c' = true ∧ port c' = port c := by
  simp only [existingOf, List.mem_map, mem_kept, and_assoc]
  have hp (c' : StaticGatewayConfiguration) :
      getWireguardInterfaceName c' = getWireguardInterfaceName c ↔ port c' = port c :=
    ⟨fun h => Chains.linkNameOf_inj h, congrArg linkNameOf⟩
  simp only [hp]

theorem mem_ips {ip : String} : ip ∈ (existingOf m unread s).ips ↔
    ∃ c ∈ live m s, readable m unread s c = true ∧ secondaryIP? m s.api c = some ip := by
  simp only [existingOf, List.mem_filterMap, mem_kept, and_assoc]

theorem wgLinks_eq_nil : (existingOf m unread s).wgLinks = [] ↔
    ∀ c ∈ live m s, ¬readable m unread s c = true := by
  unfold existingOf
  rw [List.map_eq_nil_iff, List.eq_nil_iff_forall_not_mem]
  simp only [mem_kept, not_and]

-- Whether the link of a gateway is removed depends on its name only.
theorem mem_orphanedNames {c : StaticGatewayConfiguration} :
    getWireguardInterfaceName c ∈
      ((s.links .gateway).filter (isOrphanedLink (existingOf m unread s))).map (·.name) ↔
    (s.link .gateway (getWireguardInterfaceName c)).isSome = true ∧
    getWireguardInterfaceName c ∉ (existingOf m unread s).wgLinks := by
  simp only [List.mem_map, List.mem_filter, isOrphanedLink, Bool.and_eq_true, decide_eq_true_eq,
    Node.link, List.find?_isSome]
  constructor
  case mp =>
    rintro ⟨l, ⟨hl, _, hn⟩, he⟩
    exact ⟨⟨l, hl, he⟩, he ▸ hn⟩
  case mpr =>
    rintro ⟨⟨l, hl, he⟩, hn⟩
    exact ⟨l, ⟨hl, he ▸ Chains.hasPrefix_linkNameOf _, he ▸ hn⟩, he⟩

theorem wp_cleanUp_links {l : Link} (hC : Reading unread C) (hl : s.link .gateway hostLinkName = some l) :
    wp world C (cleanUp m) (fun _ s' =>
      (∀ c, s'.link .gateway (getWireguardInterfaceName c) =
        if getWireguardInterfaceName c ∈ (existingOf m unread s).wgLinks then
          s.link .gateway (getWireguardInterfaceName c)
        else none) ∧
      s'.hostAddrs = l.addrs.diff (l.addrs.filter (isOrphanedIP (existingOf m unread s)))) s := by
  refine wp_cleanUp_of_present hC hl (wp_mono (wp_removeOrphaned_links hC.steady)
    fun _ s' h => ⟨fun c => ?_, ?_⟩)
  case refine_1 =>
    have hne : ¬(Space.gateway = .gateway ∧ getWireguardInterfaceName c = hostLinkName) :=
      fun he => Chains.linkNameOf_ne_hostLinkName _ he.right
    rw [h, withoutLinks_eq, withoutAddrs_eq, if_neg hne]
    by_cases hk : getWireguardInterfaceName c ∈ (existingOf m unread s).wgLinks
    case pos => rw [if_pos hk, if_neg fun he => (mem_orphanedNames.mp he.right).right hk]
    case neg =>
      rw [if_neg hk]
      split
      case isTrue => rfl
      case isFalse hn =>
        cases hs : s.link .gateway (getWireguardInterfaceName c)
        case none   => rfl
        case some l => exact absurd ⟨rfl, mem_orphanedNames.mpr ⟨by simp [hs], hk⟩⟩ hn
  case refine_2 =>
    have hn : hostLinkName ∉
        ((s.links .gateway).filter (isOrphanedLink (existingOf m unread s))).map (·.name) := by
      intro hm
      have ⟨l', hl', he⟩ := List.mem_map.mp hm
      have hp := (Bool.and_eq_true_iff.mp (List.mem_filter.mp hl').right).left
      rw [he] at hp
      exact absurd hp (by decide +kernel)
    rw [Node.hostAddrs, h, withoutLinks_eq, if_neg fun he => hn he.right, withoutAddrs_eq,
      if_pos ⟨rfl, rfl⟩, hl]
    rfl

end Passes

end Daemon
