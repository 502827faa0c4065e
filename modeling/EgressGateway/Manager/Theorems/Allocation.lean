import EgressGateway.Manager.Theorems.LoadBalancer

-- Runs of `reconcileLBRule` for many configurations on one load balancer.

open Kubernetes Azure Text Program

namespace Manager

variable [CaseFold]

namespace State

def lbRules (s : State) : List LoadBalancingRule :=
  ((s.cloud.loadBalancer.bind (·.properties)).getD {}).loadBalancingRules

def lbProbes (s : State) : List Probe :=
  ((s.cloud.loadBalancer.bind (·.properties)).getD {}).probes

def lbFrontends (s : State) : List FrontendIPConfiguration :=
  ((s.cloud.loadBalancer.bind (·.properties)).getD {}).frontendIPConfigurations

def lbBackends (s : State) : List BackendAddressPool :=
  ((s.cloud.loadBalancer.bind (·.properties)).getD {}).backendAddressPools

end State

def backendPoolID (rule : LoadBalancingRule) : String :=
  val ((rule.properties.bind (·.backendAddressPool)).bind (·.id))

def frontendPort (rule : LoadBalancingRule) : Option Int :=
  rule.properties.bind (·.frontendPort)

def backendPort (rule : LoadBalancingRule) : Option Int :=
  rule.properties.bind (·.backendPort)

variable (P : Platform) (S : Settings)

-- One call, with the faults of `φ`.
def callLBRule (cfg : GatewayLBConfiguration) (needLB : Bool) (φ : Oracle Sig) (s : State) :
    Outcome Sig State (String × Int) :=
  (reconcileLBRule S cfg needLB).run (world P S.az) φ 0 s

-- Any number of calls for configurations that satisfy `may`. Between two calls everything may
-- change but the load balancer.
inductive LBSteps (may : GatewayLBConfiguration → Prop) : State → State → Prop
  | refl (s : State) : LBSteps may s s
  | change {s₁ s₂ s₃ : State} (e : LBSteps may s₁ s₂)
      (h : s₃.cloud.loadBalancer = s₂.cloud.loadBalancer) : LBSteps may s₁ s₃
  | call {s₁ s₂ : State} (e : LBSteps may s₁ s₂) (cfg : GatewayLBConfiguration) (h : may cfg)
      (needLB : Bool) (φ : Oracle Sig) : LBSteps may s₁ (callLBRule P S cfg needLB φ s₂).state

-- UIDs that are distinct ignoring case.
def FoldDistinct (U : Set String) : Prop :=
  ∀ u ∈ U, ∀ v ∈ U, foldKey u = foldKey v → u = v

-- The load balancer refines a consistent registry.
def Allocated (s : State) (r : Registry FoldKey FoldKey) : Prop :=
  Refines S s.cloud.loadBalancer r ∧ r.Consistent portCount

variable {P S} {s s₀ s' : State} {cfg : GatewayLBConfiguration} {r : Registry FoldKey FoldKey}
  {may : GatewayLBConfiguration → Prop} {rule : LoadBalancingRule}

theorem Allocated.init (h : s.cloud.loadBalancer = none) : Allocated S s {} :=
  ⟨by rw [h]; rfl, .init⟩

theorem Allocated.call (h : Allocated S s r) (cfg : GatewayLBConfiguration) (needLB : Bool) (φ : Oracle Sig) :
    Reconciled S (fun _ => True) cfg needLB s r
      (callLBRule P S cfg needLB φ s).result (callLBRule P S cfg needLB φ s).state :=
  (run_of_wp (wp_reconcileLBRule h.left h.right needLB) φ 0 fun _ _ => trivial).left

-- What a call does to the registry, whether or not it returns an error.
theorem Allocated.call_cases (h : Allocated S s r) (cfg : GatewayLBConfiguration) (needLB : Bool)
    (φ : Oracle Sig) :
    ∃ r', Allocated S (callLBRule P S cfg needLB φ s).state r' ∧
      (r' = r ∨ ∃ out, Moved S cfg s.cloud r needLB r' out) := by
  have ⟨_, r', hr, hm⟩ := h.call (P := P) cfg needLB φ
  have hm : r' = r ∨ ∃ out, Moved S cfg s.cloud r needLB r' out := by
    cases hres : (callLBRule P S cfg needLB φ s).result
    case ok out  => rw [hres] at hm; exact .inr ⟨out, hm⟩
    case error e => rw [hres] at hm; exact hm.left
  refine ⟨r', ⟨hr, ?_⟩, hm⟩
  rcases hm with rfl | ⟨out, hm⟩
  · exact h.right
  · exact hm.consistent h.right

-- A property of registries that all calls keep holds after any run.
theorem LBSteps.preserves {Q : Registry FoldKey FoldKey → Prop} (e : LBSteps P S may s s')
    (step : ∀ cfg c needLB r r' out, may cfg → r.Consistent portCount → Q r →
      Moved S cfg c r needLB r' out → Q r')
    (h : Allocated S s r) (hi : Q r) : ∃ r', Allocated S s' r' ∧ Q r' := by
  induction e
  case refl => exact ⟨r, h, hi⟩
  case change hs ih =>
    have ⟨r', ha, hi'⟩ := ih
    exact ⟨r', ⟨hs ▸ ha.left, ha.right⟩, hi'⟩
  case call cfg hm needLB φ ih =>
    have ⟨r', ha, hi'⟩ := ih
    have ⟨r'', ha', hc⟩ := ha.call_cases (P := P) cfg needLB φ
    rcases hc with rfl | ⟨out, hmoved⟩
    · exact ⟨r'', ha', hi'⟩
    · exact ⟨r'', ha', step cfg _ needLB r' r'' out hm ha.right hi' hmoved⟩

theorem LBSteps.allocated (e : LBSteps P S may s₀ s) (h : s₀.cloud.loadBalancer = none) :
    ∃ r, Allocated S s r := by
  have ⟨r, ha, _⟩ := e.preserves (Q := fun _ => True) (fun _ _ _ _ _ _ _ _ _ _ => trivial)
    (.init h) trivial
  exact ⟨r, ha⟩

theorem Allocated.entries (h : Allocated S s r) :
    ∃ es : List Entry, s.lbRules = es.map (·.rule S) ∧ r.leases = es.map (·.lease) := by
  have ⟨hr, _⟩ := h
  unfold State.lbRules
  cases hlb : s.cloud.loadBalancer
  case none =>
    rw [hlb] at hr
    exact ⟨[], rfl, by rw [hr]; rfl⟩
  case some lb =>
    rw [hlb] at hr
    have ⟨p, hp, hd, _⟩ := hr
    have ⟨es, hes, hls⟩ := hd.rules
    exact ⟨es, by simp [hp, hes], hls⟩

-- The rules of a load balancer are leases.
structure IsLease (S : Settings) (rule : LoadBalancingRule) (l : Lease FoldKey FoldKey) : Prop where
  owner    : foldKey rule.name = l.owner
  group    : ∀ pool, equalFold (backendPoolID rule) (S.az.getLBBackendAddressPoolID pool) = true ↔
    l.group = foldKey pool
  frontend : frontendPort rule = some (l.slot + wireguardPortStart)
  backend  : backendPort rule = some (l.slot + wireguardPortStart)

theorem Entry.isLease (e : Entry) : IsLease S (e.rule S) e.lease where
  owner    := rfl
  group _  := by
    simp only [backendPoolID, rule_properties, Option.bind_some, val_some, equalFold_backendID,
      equalFold_iff]
    rfl
  frontend := rfl
  backend  := rfl

theorem Allocated.lease_of_rule (h : Allocated S s r) (hm : rule ∈ s.lbRules) :
    ∃ l ∈ r.leases, IsLease S rule l := by
  have ⟨es, hes, hls⟩ := h.entries
  rw [hes] at hm
  have ⟨e, he, hr⟩ := List.mem_map.mp hm
  exact ⟨e.lease, hls ▸ List.mem_map_of_mem he, hr ▸ e.isLease⟩

theorem Allocated.rule_of_lease (h : Allocated S s r) {l : Lease FoldKey FoldKey}
    (hm : l ∈ r.leases) : ∃ rule ∈ s.lbRules, IsLease S rule l := by
  have ⟨es, hes, hls⟩ := h.entries
  rw [hls] at hm
  have ⟨e, he, hr⟩ := List.mem_map.mp hm
  exact ⟨e.rule S, hes ▸ List.mem_map_of_mem he, hr ▸ e.isLease⟩

-- Ports are taken from the range and are never handed out twice within a backend pool.
theorem Allocated.ports_in_range (h : Allocated S s r) (hm : rule ∈ s.lbRules) :
    ∃ port, frontendPort rule = some port ∧ backendPort rule = some port ∧
      wireguardPortStart ≤ port ∧ port < wireguardPortEnd := by
  have ⟨l, hl, hr⟩ := h.lease_of_rule hm
  have hb := h.right.leases.bound l hl
  refine ⟨_, hr.frontend, hr.backend, ?_⟩
  simp only [portCount, wireguardPortStart, wireguardPortEnd] at hb ⊢
  omega

theorem Allocated.ports_disjoint (h : Allocated S s r) :
    s.lbRules.Pairwise fun a b =>
      equalFold (backendPoolID a) (backendPoolID b) = true → backendPort a ≠ backendPort b := by
  have ⟨es, hes, hls⟩ := h.entries
  have hd := h.right.leases.disjoint
  rw [hls, List.pairwise_map] at hd
  rw [hes, List.pairwise_map]
  refine hd.imp fun {a b} hab hid hp => hab ?_ ?_
  case refine_1 => exact (a.isLease.group b.pool).mp hid
  case refine_2 =>
    rw [a.isLease.backend, b.isLease.backend, Option.some.injEq] at hp
    omega

-- A lease is kept by every call for another configuration.
theorem Moved.keeps_lease {c : Cloud} {needLB : Bool} {r' : Registry FoldKey FoldKey}
    {out : String × Int} {l : Lease FoldKey FoldKey} (h : Moved S cfg c r needLB r' out)
    (hl : l ∈ r.leases) (hne : l.owner ≠ foldKey cfg.meta_.uid) : l ∈ r'.leases := by
  cases h
  case require h => exact (Lease.mem_acquire_of_ne (Registry.require_eq h).left hne).mpr hl
  case dismiss   =>
    rw [Registry.dismiss_leases]
    exact Lease.mem_release.mpr ⟨hl, hne⟩
  case absent    => exact hl

-- A call that returns renews the lease in its pool.
theorem Allocated.port_stable (h : Allocated S s r) {l : Lease FoldKey FoldKey} (hl : l ∈ r.leases)
    (ho : l.owner = foldKey cfg.meta_.uid) {pool : String}
    (hp : poolID S s.cloud cfg.spec = some pool) (hg : l.group = foldKey pool) {φ : Oracle Sig}
    {ip : String} {port : Int} (hres : (callLBRule P S cfg true φ s).result = .ok (ip, port)) :
    port = l.slot + wireguardPortStart := by
  have ⟨_, r', _, hm⟩ := h.call (P := P) cfg true φ
  rw [hres] at hm
  generalize hout : (ip, port) = out at hm
  cases hm
  case require hp' hip hreq =>
    have ⟨_, hport⟩ := Prod.mk.inj hout
    rw [hp] at hp'
    obtain rfl := Option.some.inj hp'
    have := h.right.leases.acquire_stable (Registry.require_eq hreq).left hl ho hg
    omega

theorem lb_ports_allocated {U : Set String} (hU : FoldDistinct U)
    (h₀ : s₀.cloud.loadBalancer = none) (e : LBSteps P S (·.meta_.uid ∈ U) s₀ s) :
    (∀ rule ∈ s.lbRules, ∃ port, frontendPort rule = some port ∧ backendPort rule = some port ∧
      wireguardPortStart ≤ port ∧ port < wireguardPortEnd) ∧
    (s.lbRules.Pairwise fun a b =>
      equalFold (backendPoolID a) (backendPoolID b) = true → backendPort a ≠ backendPort b) ∧
    (∀ rule ∈ s.lbRules, ∀ (cfg : GatewayLBConfiguration) (φ : Oracle Sig) pool ip port,
      equalFold rule.name cfg.meta_.uid = true →
      poolID S s.cloud cfg.spec = some pool →
      equalFold (backendPoolID rule) (S.az.getLBBackendAddressPoolID pool) = true →
      (callLBRule P S cfg true φ s).result = .ok (ip, port) →
      backendPort rule = some port) ∧
    (∀ rule ∈ s.lbRules, ∀ u ∈ U, equalFold rule.name u = true →
      ∀ s', LBSteps P S (fun cfg => cfg.meta_.uid ∈ U ∧ cfg.meta_.uid ≠ u) s s' →
      ∃ rule' ∈ s'.lbRules, equalFold rule'.name u = true ∧
        (∀ pool, equalFold (backendPoolID rule') (S.az.getLBBackendAddressPoolID pool) =
          equalFold (backendPoolID rule) (S.az.getLBBackendAddressPoolID pool)) ∧
        frontendPort rule' = frontendPort rule ∧ backendPort rule' = backendPort rule) := by
  have ⟨r, h⟩ := e.allocated h₀
  refine ⟨fun rule hm => h.ports_in_range hm, h.ports_disjoint, ?stable, ?kept⟩
  case stable =>
    intro rule hm cfg φ pool ip port hn hp hb hres
    have ⟨l, hl, hr⟩ := h.lease_of_rule hm
    have ho : l.owner = foldKey cfg.meta_.uid := hr.owner ▸ equalFold_iff.mp hn
    rw [hr.backend, h.port_stable hl ho hp ((hr.group pool).mp hb) hres]
  case kept =>
    intro rule hm u hu hn s' e'
    have ⟨l, hl, hr⟩ := h.lease_of_rule hm
    have ho : l.owner = foldKey u := hr.owner ▸ equalFold_iff.mp hn
    have step : ∀ cfg c needLB r r' out, cfg.meta_.uid ∈ U ∧ cfg.meta_.uid ≠ u →
        r.Consistent portCount → l ∈ r.leases → Moved S cfg c r needLB r' out → l ∈ r'.leases := by
      intro cfg c needLB r r' out ⟨hc, hne⟩ _ hl hmoved
      refine hmoved.keeps_lease hl fun he => hne ?_
      exact hU _ hc _ hu (he.symm.trans ho)
    have ⟨r', h', hl'⟩ := e'.preserves step h hl
    have ⟨rule', hm', hr'⟩ := h'.rule_of_lease hl'
    refine ⟨rule', hm', ?_, ?_, ?_, ?_⟩
    · exact equalFold_iff.mpr (hr'.owner.trans ho)
    · intro pool
      rw [Bool.eq_iff_iff, hr'.group, hr.group]
    · rw [hr'.frontend, hr.frontend]
    · rw [hr'.backend, hr.backend]

end Manager

namespace Manager

namespace Sample

-- One pool of two nodes that two configurations share.

def inventory : State where
  cloud := { scaleSets := [scaleSet "vmss-1" "gw"], subnet := some ⟨some "subnet"⟩ }

def lbConfig (uid nodepool : String) : GatewayLBConfiguration where
  meta_ := { key := ⟨"default", uid⟩, uid := uid }
  spec  := { gatewayNodepoolName := nodepool }

def call (uid : String) (s : State) : Outcome Sig State (String × Int) :=
  callLBRule .simple settings (lbConfig uid "gw") true .calm s

theorem foldDistinct : FoldDistinct {"a", "b"} := by
  rintro u (rfl | rfl) v (rfl | rfl) h
  all_goals first | rfl | exact absurd h (by decide)

theorem call_rules : ∃ rule ∈ (call "a" inventory).state.lbRules,
    equalFold rule.name "a" = true ∧ backendPort rule = some 6000 := by
  decide +kernel

theorem steps {may : GatewayLBConfiguration → Prop} (uid : String) (s : State)
    (h : may (lbConfig uid "gw")) : LBSteps .simple settings may s (call uid s).state :=
  .call (.refl _) (lbConfig uid "gw") h true .calm

end Sample

open Sample in
-- The port of `a` is still the same after a call for `b`.
theorem lb_ports_allocated_sample : ∃ rule ∈ (call "b" (call "a" inventory).state).state.lbRules,
    equalFold rule.name "a" = true ∧ backendPort rule = some 6000 := by
  have ⟨rule, hm, hn, hp⟩ := call_rules
  have h := lb_ports_allocated foldDistinct rfl (steps "a" inventory (.inl rfl))
  have ⟨rule', hm', hn', _, _, hp'⟩ := h.right.right.right rule hm "a" (.inl rfl) hn _
    (steps "b" _ ⟨.inr rfl, by decide⟩)
  exact ⟨rule', hm', hn', hp'.trans hp⟩

end Manager
