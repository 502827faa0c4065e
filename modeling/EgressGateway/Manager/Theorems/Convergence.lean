import EgressGateway.Manager.Theorems.Repair

-- Once `reconcileLBRule` has succeeded there is nothing left to do for it.

open Kubernetes Azure Text Program Keyed

namespace Manager

variable [CaseFold] {S : Settings} {P : Platform} {A : Fault → Prop} {s s' : State}
  {cfg : GatewayLBConfiguration} {names : LBPropertyNames} {pool ip : String} {port : Int}
  {lb : LoadBalancer} {p : LoadBalancerProperties} {d d' : Draft} {needLB updateLB : Bool}

section Converge

-- What is read back is what was stored, with IDs that Azure may spell in another case.

def SameReference : Option SubResource → Option SubResource → Prop :=
  Option.Rel fun t t' => equalFold (val t'.id) (val t.id) = true

structure SameProperties (p p' : LoadBalancingRuleProperties) : Prop where
  protocol     : p'.protocol = p.protocol
  floatingIP   : p'.enableFloatingIP = p.enableFloatingIP
  frontend     : SameReference p.frontendIPConfiguration p'.frontendIPConfiguration
  backend      : SameReference p.backendAddressPool p'.backendAddressPool
  probe        : SameReference p.probe p'.probe
  frontendPort : p'.frontendPort = p.frontendPort
  backendPort  : p'.backendPort = p.backendPort

structure SameRule (rule rule' : LoadBalancingRule) : Prop where
  name       : rule'.name = rule.name
  properties : Option.Rel SameProperties rule.properties rule'.properties

structure ReadBack (S : Settings) (p p' : LoadBalancerProperties) : Prop where
  frontends : List.Forall₂ (fun f f' => f'.name = f.name ∧ f'.properties = f.properties ∧
    equalFold (val f'.id) (S.az.getLBFrontendIPConfigurationID f.name) = true)
    p.frontendIPConfigurations p'.frontendIPConfigurations
  backends  : List.Forall₂ (fun b b' => b'.name = b.name ∧ ∃ id, b'.id = some id ∧
    equalFold id (S.az.getLBBackendAddressPoolID b.name) = true)
    p.backendAddressPools p'.backendAddressPools
  rules     : List.Forall₂ SameRule p.loadBalancingRules p'.loadBalancingRules
  probes    : p'.probes = p.probes

variable {rules rules' rules'' : List LoadBalancingRule} {probes probes' : List Probe} {new : Bool}

theorem equalFold_trans {a b c : String} (h : equalFold a b = true) (h' : equalFold b c = true) :
    equalFold a c = true :=
  equalFold_iff.mpr ((equalFold_iff.mp h).trans (equalFold_iff.mp h'))

theorem SameReference.refers {r r' : Option SubResource} {id : String} (h : SameReference r r')
    (hr : Refers r id) : Refers r' id := by
  obtain ⟨t, rfl, ht⟩ := hr
  cases h
  case some t' he => exact ⟨t', rfl, equalFold_trans he ht⟩

theorem SameProperties.wired {q q' : LoadBalancingRuleProperties} (h : SameProperties q q')
    (hw : Wired S names q) : Wired S names q' where
  protocol   := h.protocol.trans hw.protocol
  floatingIP := h.floatingIP.trans hw.floatingIP
  frontend   := h.frontend.refers hw.frontend
  backend    := h.backend.refers hw.backend
  probe      := h.probe.refers hw.probe

-- The rule that is there after a call.
theorem Ensured.found (h : Ensured S names rules rules' port new) (hu : (rules.map (foldKey ·.name)).Nodup) :
    ∃ rule q, rules'.find? (equalFold ·.name names.lbRuleName) = some rule ∧ rule.properties = some q ∧
      Wired S names q ∧ val q.frontendPort = port := by
  cases h
  case kept rule q hf hq hw => exact ⟨rule, q, hf, hq, hw, rfl⟩
  case created =>
    refine ⟨_, _, find?_replace (pairwise_named hu names.lbRuleName) withPort_named, rfl, ?_, rfl⟩
    exact ⟨rfl, rfl, ⟨_, rfl, equalFold_refl _⟩, ⟨_, rfl, equalFold_refl _⟩, ⟨_, rfl, equalFold_refl _⟩⟩

theorem Ensured.again (h : Ensured S names rules rules' port new) (hu : (rules.map (foldKey ·.name)).Nodup)
    (hs : List.Forall₂ SameRule rules' rules'') :
    ensureRule (expectedLBRule S names) rules'' = .ok (rules'', port, false) := by
  have ⟨rule, q, hf, hq, hw, hport⟩ := h.found hu
  have hrel := find?_forall₂ (f := (equalFold ·.name names.lbRuleName))
    (g := (equalFold ·.name names.lbRuleName)) hs fun _ _ h => by rw [h.name]
  rw [hf] at hrel
  generalize hfind : rules''.find? (equalFold ·.name names.lbRuleName) = found at hrel
  cases hrel
  case some rule'' hr =>
    have hprop := hr.properties
    rw [hq] at hprop
    generalize hq'' : rule''.properties = q'' at hprop
    cases hprop
    case some q'' hsame =>
      rw [ensureRule_kept hfind hq'' (hsame.wired hw), hsame.frontendPort, hport]

theorem EnsuredProbe.found (h : EnsuredProbe S names cfg probes (.ok (probes', new)))
    (hu : (probes.map (foldKey ·.name)).Nodup) :
    ∃ probe q, probes'.find? (equalFold ·.name names.probeName) = some probe ∧
      probe.properties = some q ∧ Probed S cfg q := by
  cases h
  case kept probe q hf hq hprobed => exact ⟨probe, q, hf, hq, hprobed⟩
  case created =>
    exact ⟨_, _, find?_replace (pairwise_named hu names.probeName) (equalFold_refl _), rfl, rfl, rfl, rfl⟩

theorem EnsuredProbe.again (h : EnsuredProbe S names cfg probes (.ok (probes', new)))
    (hu : (probes.map (foldKey ·.name)).Nodup) :
    ensureProbe (expectedLBProbe S names cfg) probes' = .ok (probes', false) := by
  have ⟨probe, q, hf, hq, hprobed⟩ := h.found hu
  have he : EnsuredProbe S names cfg probes' _ := ensureProbe_ensured probes'
  generalize hr : ensureProbe _ _ = r at he
  cases he
  case kept => rfl
  case created hfind =>
    have ⟨_, q', hq', hn⟩ := hfind probe hf
    obtain rfl := Option.some.inj (hq.symm.trans hq')
    exact absurd hprobed hn
  case crashed probe' hf' hd =>
    obtain rfl := Option.some.inj (hf.symm.trans hf')
    rcases hd with hn | ⟨q', hq', _, _, hn⟩
    · exact absurd (hq.symm.trans hn) nofun
    · obtain rfl := Option.some.inj (hq.symm.trans hq')
      exact absurd (hprobed.protocol.symm.trans hn) nofun

theorem findBackend_of_templated {bs : List BackendAddressPool}
    (h : ∀ b ∈ bs, ∃ id, b.id = some id ∧ equalFold id (S.az.getLBBackendAddressPoolID b.name) = true)
    (hb : ∃ b ∈ bs, equalFold b.name pool = true) :
    findBackend pool (S.az.getLBBackendAddressPoolID pool) bs = .ok true := by
  fun_induction findBackend pool (S.az.getLBBackendAddressPoolID pool) bs
  case case1 => exact absurd hb (by simp)
  case case2 b _ _ hn =>
    obtain ⟨_, hid, _⟩ := h b List.mem_cons_self
    exact absurd (hn.symm.trans hid) (by simp)
  case case3 => rfl
  case case4 b bs hn id hid he hi =>
    -- The ID of a backend with this name cannot be another one.
    obtain ⟨id', hid', he'⟩ := h b List.mem_cons_self
    obtain rfl := Option.some.inj (hid.symm.trans hid')
    exact absurd (equalFold_trans he' (by rwa [equalFold_backendID])) he
  case case5 b bs hn hi =>
    obtain ⟨b', hm, hn'⟩ := hb
    refine hi (fun b hb => h b (List.mem_cons_of_mem _ hb)) ⟨b', ?_, hn'⟩
    rcases List.mem_cons.mp hm with rfl | hm
    · exact absurd hn' hn
    · exact hm

-- Everything is in place already.
structure Steady (S : Settings) (s : State) (cfg : GatewayLBConfiguration) (lb : LoadBalancer)
    (p : LoadBalancerProperties) (pool ip : String) (port : Int) : Prop where
  found      : s.cloud.loadBalancer = some lb
  properties : lb.properties = some p
  resolved   : poolID S s.cloud cfg.spec = some pool
  address    : findFrontendIP p.frontendIPConfigurations pool = .ok ip
  known      : ip ≠ ""
  backend    : findBackend pool (S.az.getLBBackendAddressPoolID pool) p.backendAddressPools = .ok true
  rule       : ensureRule (expectedLBRule S (namesOf cfg.meta_.uid pool)) p.loadBalancingRules =
    .ok (p.loadBalancingRules, port, false)
  probe      : ensureProbe (expectedLBProbe S (namesOf cfg.meta_.uid pool) cfg) p.probes = .ok (p.probes, false)

theorem Placed.steady {now : Nat} {before after : LoadBalancerProperties}
    (h : Placed P S now cfg pool ip port before after) (hu : UniqueNames before) (hr : ReadBack S after p)
    (hlb : s.cloud.loadBalancer = some lb) (hp : lb.properties = some p)
    (hpool : poolID S s.cloud cfg.spec = some pool) : Steady S s cfg lb p pool ip port where
  found      := hlb
  properties := hp
  resolved   := hpool
  address    := by
    obtain ⟨f, method, subnet, hf, hprop⟩ := findFrontendIP_eq_ok h.address h.known
    have hrel := find?_forall₂ (f := (equalFold ·.name pool)) (g := (equalFold ·.name pool)) hr.frontends
      fun _ _ h => by rw [h.left]
    rw [hf] at hrel
    generalize hfind : p.frontendIPConfigurations.find? (equalFold ·.name pool) = found at hrel
    cases hrel
    case some f' hf' =>
      rw [findFrontendIP, hfind]
      simp only [hf'.right.left, hprop]
  known      := h.known
  backend    := by
    obtain ⟨b, hb, hn, _⟩ := mem_of_findBackend h.backend
    refine findBackend_of_templated ?_ ?_
    · intro b' hb'
      obtain ⟨b, _, hbn, id, hid, he⟩ := forall₂_right hr.backends hb'
      exact ⟨id, hid, hbn ▸ he⟩
    · obtain ⟨b', hb', hbn, _⟩ := forall₂_left hr.backends hb
      exact ⟨b', hb', hbn ▸ hn⟩
  rule       := by
    obtain ⟨_, hrule⟩ := h.rules
    exact hrule.again hu.rules hr.rules
  probe      := by
    obtain ⟨_, hprobe⟩ := h.probes
    exact hr.probes ▸ hprobe.again hu.probes

-- The calls that a contract of reads allows.
abbrev readOnly (A : Fault → Prop) : Contract Sig State where
  allow _ _ f := A f
  owe c _     := c.reads = true

theorem Steady.passes (h : Steady S s cfg lb p pool ip port) : Passes S s.cloud true cfg lb pool p ip where
  resolved   := h.resolved
  properties := h.properties
  address    := h.address
  subnet he  := absurd he h.known
  backend    := ⟨true, h.backend⟩

theorem wp_steady (h : Steady S s cfg lb p pool ip port) :
    wp (world P S.az) (readOnly A) (reconcileLBRule S cfg true)
      (fun r s' => s' = s ∧ (r = .ok (ip, port) ∨ (∃ e, r = .error e) ∧ Disturbed A)) s := by
  apply wp_seq (wp_owing wp_getGatewayLB readsOnly_getGatewayLB)
  case error => exact fun e s' ⟨hs, hd⟩ => ⟨hs, .inr ⟨⟨e, rfl⟩, hd⟩⟩
  rintro _ s ⟨rfl, rfl⟩
  rw [h.found]
  apply wp_seq (wp_owing wp_openDraft_begun readsOnly_openDraft)
  case error =>
    rintro e s ⟨rfl, hd, _⟩
    exact ⟨rfl, .inr ⟨⟨e, rfl⟩, hd.resolve_right fun hn => hn pool p ip h.passes⟩⟩
  rintro ⟨names, d⟩ s ⟨rfl, pool', p', rfl, hb⟩
  obtain rfl := Option.some.inj (h.resolved.symm.trans hb.resolved)
  obtain rfl := Option.some.inj (h.properties.symm.trans hb.properties)
  have ho := hb.opens
  have hip : d.frontendIP = ip := Except.ok.inj (ho.address.symm.trans h.address)
  have ⟨hu, hprop⟩ := ho.idle (.inr ⟨hip ▸ h.known, h.backend⟩)
  dsimp only
  rw [if_pos rfl, addRule, hprop, h.rule]
  dsimp only
  rw [h.probe, hu]
  exact ⟨rfl, .inl (by rw [hip])⟩

-- A load balancer without anything that belongs to the configuration, or to its pool if no other rule
-- needs it.
structure Cleared (S : Settings) (cfg : GatewayLBConfiguration) (pool : String) (p : LoadBalancerProperties) :
    Prop where
  rules  : ∀ rule ∈ p.loadBalancingRules, equalFold rule.name cfg.meta_.uid = false
  probes : ∀ probe ∈ p.probes, equalFold probe.name cfg.meta_.uid = false
  unused : p.loadBalancingRules.countP (onFrontend (S.az.getLBFrontendIPConfigurationID pool)) = 0 →
    p.frontendIPConfigurations ≠ [] ∧
    (∀ f ∈ p.frontendIPConfigurations, equalFold f.name pool = false) ∧
    ∀ b ∈ p.backendAddressPools, equalFold b.name pool = false

-- The IDs in the load balancer are those that its names give rise to.
structure Templated (S : Settings) (p : LoadBalancerProperties) : Prop where
  frontends : ∀ f ∈ p.frontendIPConfigurations,
    equalFold (val f.id) (S.az.getLBFrontendIPConfigurationID f.name) = true
  backends  : ∀ b ∈ p.backendAddressPools,
    equalFold (val b.id) (S.az.getLBBackendAddressPoolID b.name) = true

theorem frontendID_iff {f : FrontendIPConfiguration}
    (h : equalFold (val f.id) (S.az.getLBFrontendIPConfigurationID f.name) = true) :
    equalFold (val f.id) (S.az.getLBFrontendIPConfigurationID pool) = equalFold f.name pool := by
  rw [← equalFold_frontendID S.az f.name, Bool.eq_iff_iff, equalFold_iff, equalFold_iff, equalFold_iff.mp h]

theorem backendID_iff {b : BackendAddressPool}
    (h : equalFold (val b.id) (S.az.getLBBackendAddressPoolID b.name) = true) :
    equalFold (val b.id) (S.az.getLBBackendAddressPoolID pool) = equalFold b.name pool := by
  rw [← equalFold_backendID S.az b.name, Bool.eq_iff_iff, equalFold_iff, equalFold_iff, equalFold_iff.mp h]

theorem wp_cleared (hc : Cleared S cfg pool p) (ht : Templated S p) (hlb : s.cloud.loadBalancer = some lb)
    (hp : lb.properties = some p) (hpool : poolID S s.cloud cfg.spec = some pool) :
    wp (world P S.az) (readOnly A) (reconcileLBRule S cfg false) (fun _ s' => s' = s) s := by
  apply wp_seq (wp_owing wp_getGatewayLB readsOnly_getGatewayLB)
  case error => exact fun e s' ⟨hs, _⟩ => hs
  rintro _ s ⟨rfl, rfl⟩
  rw [hlb]
  apply wp_seq (wp_owing wp_openDraft_begun readsOnly_openDraft)
  case error => exact fun e s' ⟨hs, _⟩ => hs
  rintro ⟨names, d⟩ s ⟨rfl, pool', p', rfl, hb⟩
  obtain rfl := Option.some.inj (hpool.symm.trans hb.resolved)
  obtain rfl := Option.some.inj (hp.symm.trans hb.properties)
  obtain ⟨hu, hprop⟩ := hb.opens.idle (.inl rfl)
  dsimp only
  rw [if_neg (by simp)]
  cases hr : removeRule S (namesOf cfg.meta_.uid pool) d
  case error => exact rfl
  case ok r =>
    obtain ⟨d', unused⟩ := r
    obtain ⟨hd', hunused⟩ := removeRule_ok hr
    have hrules : d.properties.loadBalancingRules.filter (!equalFold ·.name cfg.meta_.uid) =
        d.properties.loadBalancingRules :=
      List.filter_eq_self.mpr fun rule hm => by simp [hc.rules rule (hprop ▸ hm)]
    have hanyRule : d.properties.loadBalancingRules.any (equalFold ·.name cfg.meta_.uid) = false :=
      List.any_eq_false.mpr fun rule hm => by simp [hc.rules rule (hprop ▸ hm)]
    have hanyProbe : d.properties.probes.any (equalFold ·.name cfg.meta_.uid) = false :=
      List.any_eq_false.mpr fun probe hm => by simp [hc.probes probe (hprop ▸ hm)]
    have hidle : d'.updateLB = false := by
      rw [hd']
      simp only [hu, namesOf, hanyRule, hanyProbe, Bool.or_false]
    have hwrite {d'' : Draft} (h : d''.updateLB = false) :
        wp (world P S.az) (readOnly A) (writeRemoval d'') (fun _ s' => s' = s) s := by
      unfold writeRemoval
      rw [h]
      exact rfl
    change wp _ _ (if unused = true then _ else _) _ _
    split
    case isFalse => exact hwrite hidle
    case isTrue hz =>
      rw [hunused, beq_iff_eq] at hz
      obtain ⟨hne, hfs, hbs⟩ := hc.unused (by rw [← hprop, ← hrules]; exact hz)
      have hprop' : d'.properties.frontendIPConfigurations = p.frontendIPConfigurations ∧
          d'.properties.backendAddressPools = p.backendAddressPools := by
        rw [hd', ← hprop]
        exact ⟨rfl, rfl⟩
      have hsame : removeFrontend S (namesOf cfg.meta_.uid pool) d' = d' := by
        apply removeFrontend_idle
        · intro f hf
          rw [hprop'.left] at hf
          exact (frontendID_iff (ht.frontends f hf)).trans (hfs f hf)
        · intro b hb
          rw [hprop'.right] at hb
          exact (backendID_iff (ht.backends b hb)).trans (hbs b hb)
      rw [hsame, if_neg fun hz => hne (List.length_eq_zero_iff.mp (hprop'.left ▸ hz))]
      exact hwrite hidle

theorem Cleared.provision {now : Nat} (h : Cleared S cfg pool p) :
    Cleared S cfg pool (provisionProperties P S.az now p) where
  rules    := h.rules
  probes   := h.probes
  unused hz := by
    have ⟨hne, hf, hb⟩ := h.unused hz
    refine ⟨fun he => hne (List.map_eq_nil_iff.mp he), ?_, ?_⟩
    · intro f' hm
      have ⟨f, hm, he⟩ := List.mem_map.mp hm
      exact he ▸ hf f hm
    · intro b' hm
      have ⟨b, hm, he⟩ := List.mem_map.mp hm
      exact he ▸ hb b hm

-- With unique names, what is removed was there only once.
theorem cleared_of_removed {unused : Bool} (hr : removeRule S (namesOf cfg.meta_.uid pool) d = .ok (d', unused))
    (hserves : unused = true →
      (removeFrontend S (namesOf cfg.meta_.uid pool) d').properties.frontendIPConfigurations ≠ [])
    (hu : UniqueNames d.properties) (ht : Templated S d.properties) :
    Cleared S cfg pool (removed S (namesOf cfg.meta_.uid pool) unused d').properties := by
  have ⟨hd', hunused⟩ := removeRule_ok hr
  have hrules := removed_rules hr
  have hprobes := removed_probes hr
  constructor
  case rules =>
    intro rule hm
    rw [hrules] at hm
    simpa [namesOf] using (List.mem_filter.mp hm).right
  case probes =>
    intro probe hm
    rw [hprobes] at hm
    rw [show (namesOf cfg.meta_.uid pool).probeName = cfg.meta_.uid from rfl,
      eraseP_eq_filter_not (pairwise_named hu.probes cfg.meta_.uid)] at hm
    simpa using (List.mem_filter.mp hm).right
  case unused =>
    intro hz
    rw [hrules] at hz
    obtain rfl : unused = true := by rw [hunused, beq_iff_eq]; exact hz
    refine ⟨hserves rfl, ?_, ?_⟩
    · intro f hm
      have hf : (removed S (namesOf cfg.meta_.uid pool) true d').properties.frontendIPConfigurations =
          d.properties.frontendIPConfigurations.filter (!equalFold ·.name pool) := by
        rw [← eraseP_eq_filter_not (pairwise_named hu.frontends pool), hd']
        exact eraseP_congr fun f hm => frontendID_iff (ht.frontends f hm)
      rw [hf] at hm
      simpa using (List.mem_filter.mp hm).right
    · intro b hm
      have hb : (removed S (namesOf cfg.meta_.uid pool) true d').properties.backendAddressPools =
          d.properties.backendAddressPools.filter (!equalFold ·.name pool) := by
        rw [← eraseP_eq_filter_not (pairwise_named hu.backends pool), hd']
        exact eraseP_congr fun b hm => backendID_iff (ht.backends b hm)
      rw [hb] at hm
      simpa using (List.mem_filter.mp hm).right

theorem cleared_of_run {φ : Oracle Sig} {out : String × Int} (hu : UniqueNames s.lbProperties)
    (ht : Templated S s.lbProperties) (h : (callLBRule P S cfg false φ s).result = .ok out)
    (hlb : (callLBRule P S cfg false φ s).state.cloud.loadBalancer ≠ none) :
    ∃ pool lb, poolID S s.cloud cfg.spec = some pool ∧
      (callLBRule P S cfg false φ s).state.cloud.loadBalancer = some lb ∧
      lb.properties = some (callLBRule P S cfg false φ s).state.lbProperties ∧
      Cleared S cfg pool (callLBRule P S cfg false φ s).state.lbProperties := by
  have hend := outcome_of_wp wp_reconcileLBRule_ended (Eq.refl (callLBRule P S cfg false φ s))
  rw [h] at hend
  generalize (callLBRule P S cfg false φ s).state = s' at hend hlb
  rcases hend with ⟨_, _, _, hn⟩ | ⟨hn, _⟩ | ⟨_, ⟨hnone, rfl, _⟩ | ⟨lb, hs, hdrop⟩⟩
  case inl => exact absurd rfl (hn _)
  case inr.inl => nomatch hn
  case inr.inr.inl => exact absurd hnone hlb
  cases hdrop
  case deleted _ _ hgone => exact absurd hgone hlb
  case done pool p d d' unused hb hr hserves hst =>
    have ⟨hud, hprop⟩ := hb.opens.idle (.inl rfl)
    have hbefore : s.lbProperties = p := Starts.lbProperties (S := S) (.inl ⟨hs, rfl⟩) hb.properties
    rw [hbefore] at hu ht
    have hc := cleared_of_removed hr hserves (hprop ▸ hu) (hprop ▸ ht)
    rcases hst with ⟨hu', rfl⟩ | ⟨_, rfl⟩
    case inr => exact ⟨pool, _, hb.resolved, rfl, rfl, hc.provision⟩
    case inl =>
      refine ⟨pool, lb, hb.resolved, hs, by rw [hb.properties, hbefore], ?_⟩
      have hsame := (removed_same hr hu').trans hprop
      rw [hbefore, ← hsame]
      exact hc

-- The cloud when the next call starts: what was stored is read back, and the pool is still the same.
structure Resumed (S : Settings) (cfg : GatewayLBConfiguration) (s stored s' : State) : Prop where
  pool     : poolID S s'.cloud cfg.spec = poolID S s.cloud cfg.spec
  readBack : ∃ lb p, s'.cloud.loadBalancer = some lb ∧ lb.properties = some p ∧ ReadBack S stored.lbProperties p

theorem SameRule.onFrontend {rule rule' : LoadBalancingRule} (h : SameRule rule rule') (id : String) :
    onFrontend id rule' = onFrontend id rule := by
  have hp := h.properties
  unfold Manager.onFrontend
  generalize rule.properties = q, rule'.properties = q' at hp
  cases hp
  case none => rfl
  case some q q' hs =>
    have hf := hs.frontend
    simp only [Option.bind_some]
    generalize q.frontendIPConfiguration = t, q'.frontendIPConfiguration = t' at hf
    cases hf
    case none => rfl
    case some t t' he =>
      have hk := equalFold_iff.mp he
      simp only [Option.any_some, equalFold, hk]

section ReadBack

variable {p' : LoadBalancerProperties} (h : ReadBack S p p')

include h

theorem ReadBack.templated : Templated S p' where
  frontends f' hm := by
    have ⟨f, _, hn, _, hid⟩ := forall₂_right h.frontends hm
    rwa [hn]
  backends b' hm := by
    have ⟨b, _, hn, id, hid, he⟩ := forall₂_right h.backends hm
    rw [hn, hid]
    exact he

theorem ReadBack.cleared (hc : Cleared S cfg pool p) : Cleared S cfg pool p' where
  rules rule' hm := by
    have ⟨rule, hm, hs⟩ := forall₂_right h.rules hm
    exact hs.name ▸ hc.rules rule hm
  probes := h.probes ▸ hc.probes
  unused hz := by
    have hcount := countP_forall₂ h.rules fun _ _ hs =>
      hs.onFrontend (S.az.getLBFrontendIPConfigurationID pool)
    rw [hcount] at hz
    have ⟨hne, hf, hb⟩ := hc.unused hz
    refine ⟨?_, ?_, ?_⟩
    · intro he
      have hl := h.frontends.length_eq
      rw [he] at hl
      exact hne (List.length_eq_zero_iff.mp hl)
    · intro f' hm
      have ⟨f, hm, hn, _⟩ := forall₂_right h.frontends hm
      exact hn ▸ hf f hm
    · intro b' hm
      have ⟨b, hm, hn, _⟩ := forall₂_right h.backends hm
      exact hn ▸ hb b hm

end ReadBack

-- Any number of further calls.
def callAgain (P : Platform) (S : Settings) (cfg : GatewayLBConfiguration) (n : Nat) (ψ : Oracle Sig)
    (s : State) : Outcome Sig State (List (String × Int)) :=
  ((reconcileLBRule S cfg true).times n).run (world P S.az) ψ 0 s

end Converge

end Manager

namespace Manager

def identified (S : Settings) (p : LoadBalancerProperties) : Bool :=
  p.frontendIPConfigurations.all (fun f => f.id = some (S.az.getLBFrontendIPConfigurationID f.name)) &&
  p.backendAddressPools.all fun b => b.id = some (S.az.getLBBackendAddressPoolID b.name)

-- What was stored has the IDs already that it is read back with.
theorem readBack_self [CaseFold] {S : Settings} {p : LoadBalancerProperties} (h : identified S p = true) :
    ReadBack S p p := by
  have hsame (r : Option SubResource) : SameReference r r := by
    cases r
    case none => exact .none
    case some => exact .some (equalFold_refl _)
  simp only [identified, Bool.and_eq_true, List.all_eq_true, decide_eq_true_eq] at h
  constructor
  case frontends =>
    exact List.forall₂_same.mpr fun f hm => ⟨rfl, rfl, by rw [h.left f hm]; exact equalFold_refl _⟩
  case backends  => exact List.forall₂_same.mpr fun b hm => ⟨rfl, _, h.right b hm, equalFold_refl _⟩
  case rules     =>
    refine List.forall₂_same.mpr fun rule _ => ⟨rfl, ?_⟩
    cases rule.properties
    case none => exact .none
    case some => exact .some ⟨rfl, rfl, hsame _, hsame _, hsame _, rfl, rfl⟩
  case probes    => rfl

theorem resumed_self [CaseFold] {S : Settings} {cfg : GatewayLBConfiguration} {s s' : State}
    (hp : poolID S s'.cloud cfg.spec = poolID S s.cloud cfg.spec)
    (hl : (s'.cloud.loadBalancer.bind (·.properties)).isSome = true)
    (h : identified S s'.lbProperties = true) : Resumed S cfg s s' s' := by
  have ⟨p, hsome⟩ := Option.isSome_iff_exists.mp hl
  have ⟨lb, hlb, hprop⟩ := Option.bind_eq_some_iff.mp hsome
  have hself : s'.lbProperties = p := by simp [State.lbProperties, hsome]
  exact ⟨hp, lb, s'.lbProperties, hlb, hself ▸ hprop, readBack_self h⟩

namespace Sample

def both : State :=
  ruled [ruleOf "a" .udp (some 6000) (some 6000), ruleOf "b" .udp (some 6001) (some 6001)]

end Sample

end Manager
