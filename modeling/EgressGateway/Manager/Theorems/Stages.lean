import EgressGateway.Manager.Theorems.Allocation

-- What each stage of `reconcileLBRule` does to a load balancer that anybody may have edited.

open Kubernetes Azure Text Program Keyed

namespace Manager

def State.lbProperties (s : State) : LoadBalancerProperties :=
  (s.cloud.loadBalancer.bind (·.properties)).getD {}

variable [CaseFold] {S : Settings} {P : Platform} {A : Fault → Prop} {s s' : State}
  {cfg : GatewayLBConfiguration} {names : LBPropertyNames} {pool ip : String} {port : Int}
  {lb : LoadBalancer} {p : LoadBalancerProperties} {d d' : Draft} {needLB updateLB : Bool}

section Probes

-- The probe asks for the health of this gateway.
structure Probed (S : Settings) (cfg : GatewayLBConfiguration) (p : ProbeProperties) : Prop where
  path     : val p.requestPath = gatewayHealthProbeEndpoint ++ getExpectedLBProbe.gatewayUID cfg
  port     : val p.port = S.lbProbePort
  protocol : p.protocol = some .http

-- The pointers of a probe that are followed without being checked.
def Dangling (S : Settings) (cfg : GatewayLBConfiguration) (probe : Probe) : Prop :=
  probe.properties = none ∨
  ∃ p, probe.properties = some p ∧
    val p.requestPath = gatewayHealthProbeEndpoint ++ getExpectedLBProbe.gatewayUID cfg ∧
    val p.port = S.lbProbePort ∧ p.protocol = none

inductive EnsuredProbe (S : Settings) (names : LBPropertyNames) (cfg : GatewayLBConfiguration)
    (probes : List Probe) : Except Err (List Probe × Bool) → Prop
  | kept {probe : Probe} {p : ProbeProperties}
      (find : probes.find? (equalFold ·.name names.probeName) = some probe)
      (properties : probe.properties = some p) (probed : Probed S cfg p) :
      EnsuredProbe S names cfg probes (.ok (probes, false))
  | created
      (find : ∀ probe, probes.find? (equalFold ·.name names.probeName) = some probe →
        ¬Dangling S cfg probe ∧ ∃ p, probe.properties = some p ∧ ¬Probed S cfg p) :
      EnsuredProbe S names cfg probes
        (.ok (probes.eraseP (equalFold ·.name names.probeName) ++ [expectedLBProbe S names cfg], true))
  | crashed {probe : Probe}
      (find : probes.find? (equalFold ·.name names.probeName) = some probe)
      (dangling : Dangling S cfg probe) :
      EnsuredProbe S names cfg probes (.error Err.nilDereference)

theorem ensureProbe_ensured (probes : List Probe) :
    EnsuredProbe S names cfg probes (ensureProbe (expectedLBProbe S names cfg) probes) := by
  have hn : (expectedLBProbe S names cfg).name = names.probeName := rfl
  unfold ensureProbe ensureProbe.replaced
  rw [hn]
  cases hf : probes.find? (equalFold ·.name names.probeName)
  case none =>
    have he : probes.eraseP (equalFold ·.name names.probeName) = probes :=
      List.eraseP_of_forall_not (by simpa using hf)
    have hc : EnsuredProbe S names cfg probes
        (.ok (probes.eraseP (equalFold ·.name names.probeName) ++ [expectedLBProbe S names cfg], true)) :=
      .created (by simp [hf])
    rwa [he] at hc
  case some probe =>
    have created {p : ProbeProperties} (hp : probe.properties = some p) (hd : ¬Dangling S cfg probe)
        (hn : ¬Probed S cfg p) : EnsuredProbe S names cfg probes
          (.ok (probes.eraseP (equalFold ·.name names.probeName) ++ [expectedLBProbe S names cfg], true)) := by
      refine .created fun probe' hf' => ?_
      obtain rfl := Option.some.inj (hf.symm.trans hf')
      exact ⟨hd, p, hp, hn⟩
    cases hp : probe.properties
    case none =>
      simp only [hp]
      exact .crashed hf (.inl hp)
    case some p =>
      simp only [hp, show (expectedLBProbe S names cfg).properties =
        some ⟨some (gatewayHealthProbeEndpoint ++ getExpectedLBProbe.gatewayUID cfg), some .http,
          some S.lbProbePort⟩ from rfl]
      split
      case isTrue hne =>
        refine created hp ?_ fun h => hne.elim (· h.path) (· h.port)
        rintro (h | ⟨q, hq, hpath, hport, _⟩)
        · exact nomatch hp.symm.trans h
        · obtain rfl := Option.some.inj (hp.symm.trans hq)
          exact hne.elim (· hpath) (· hport)
      case isFalse heq =>
        have ⟨hpath, hport⟩ := not_or.mp heq
        rw [not_not] at hpath hport
        cases hproto : p.protocol
        case none => exact .crashed hf (.inr ⟨p, hp, hpath, hport, hproto⟩)
        case some q =>
          dsimp only
          split
          case isTrue hq =>
            refine created hp ?_ fun h => hq (Option.some.inj (hproto.symm.trans h.protocol))
            rintro (h | ⟨p', hp', _, _, hnone⟩)
            · exact nomatch hp.symm.trans h
            · obtain rfl := Option.some.inj (hp.symm.trans hp')
              exact nomatch hproto.symm.trans hnone
          case isFalse hq => exact .kept hf hp ⟨hpath, hport, by rw [hproto, not_not.mp hq]⟩

end Probes

section Lists

def onFrontend (frontendID : String) (rule : LoadBalancingRule) : Bool :=
  (rule.properties.bind (·.frontendIPConfiguration)).any fun f => equalFold (val f.id) frontendID

variable {name id : String} {rules : List LoadBalancingRule} {fs : List FrontendIPConfiguration}
  {bs : List BackendAddressPool}

theorem dropRules_eq (h : ∀ rule ∈ rules, equalFold rule.name name = false →
      rule.properties.bind (·.frontendIPConfiguration) ≠ none) :
    dropRules name id rules = .ok (rules.filter (!equalFold ·.name name),
      (rules.filter (!equalFold ·.name name)).countP (onFrontend id), rules.any (equalFold ·.name name)) := by
  induction rules
  case nil => rfl
  case cons rule rules hi =>
    rw [dropRules, hi fun rule hm => h rule (List.mem_cons_of_mem _ hm)]
    cases hn : equalFold rule.name name
    case true => simp [hn]
    case false =>
      obtain ⟨f, hf⟩ := Option.ne_none_iff_exists'.mp (h rule List.mem_cons_self hn)
      have hon : onFrontend id rule = equalFold (val f.id) id := by simp [onFrontend, hf]
      cases he : equalFold (val f.id) id <;> simp [hn, hf, hon, he]

theorem dropRules_error {e : Err} (h : dropRules name id rules = .error e) : e = Err.nilDereference := by
  fun_induction dropRules name id rules
  case case2 he hi =>
    cases h
    exact hi he
  case case4 => exact (Except.error.inj h).symm
  all_goals nomatch h

-- Every rule of somebody else is followed to its frontend.
theorem dropRules_ok {out : List LoadBalancingRule × Nat × Bool} (h : dropRules name id rules = .ok out) :
    ∀ rule ∈ rules, equalFold rule.name name = false →
      rule.properties.bind (·.frontendIPConfiguration) ≠ none := by
  fun_induction dropRules name id rules generalizing out
  case case1 => nofun
  case case2 | case4 => nomatch h
  case case3 rule rules _ _ _ he hn hi =>
    intro rule' hm hn'
    rcases List.mem_cons.mp hm with rfl | hm
    · exact absurd (hn.symm.trans hn') nofun
    · exact hi he rule' hm hn'
  case case5 rule rules _ _ _ he hn f hf _ hi =>
    intro rule' hm hn'
    rcases List.mem_cons.mp hm with rfl | hm
    · simp [hf]
    · exact hi he rule' hm hn'
  case case6 rule rules _ _ _ he hn f hf _ hi =>
    intro rule' hm hn'
    rcases List.mem_cons.mp hm with rfl | hm
    · simp [hf]
    · exact hi he rule' hm hn'

theorem findBackend_ok (h : ∀ b ∈ bs, b.id ≠ none) : ∃ found, findBackend name id bs = .ok found := by
  fun_induction findBackend name id bs
  case case1 => exact ⟨_, rfl⟩
  case case2 b _ _ hb => exact absurd hb (h b List.mem_cons_self)
  case case3 => exact ⟨_, rfl⟩
  case case4 hi | case5 hi => exact hi fun b hb => h b (List.mem_cons_of_mem _ hb)

theorem mem_of_findBackend (h : findBackend name id bs = .ok true) :
    ∃ b ∈ bs, equalFold b.name name = true ∧ equalFold (val b.id) id = true := by
  fun_induction findBackend name id bs
  case case1 | case2 => nomatch h
  case case3 b _ hn _ hb he => exact ⟨b, List.mem_cons_self, hn, by rwa [hb]⟩
  case case4 hi | case5 hi =>
    have ⟨b, hm, hb⟩ := hi h
    exact ⟨b, List.mem_cons_of_mem _ hm, hb⟩

theorem findFrontendIP_eq_ok (h : findFrontendIP fs name = .ok ip) (hip : ip ≠ "") :
    ∃ f method subnet, fs.find? (equalFold ·.name name) = some f ∧
      f.properties = some ⟨some .ipv4, method, subnet, some ip⟩ := by
  unfold findFrontendIP at h
  split at h
  case h_1 => exact absurd (Except.ok.inj h).symm hip
  case h_2 f hf =>
    split at h
    case h_1 method subnet ip' hp =>
      cases h
      exact ⟨f, method, subnet, hf, hp⟩
    case h_2 => nomatch h

theorem findFrontendIP_error {e : Err} (h : findFrontendIP fs name = .error e) : e.code ≠ .panic := by
  unfold findFrontendIP at h
  split at h
  case h_1 => nomatch h
  case h_2 =>
    split at h
    case h_1 => nomatch h
    case h_2 => exact Except.error.inj h ▸ nofun

-- Azure does not take an address away.
theorem findFrontendIP_of_find {f : FrontendIPConfiguration} {method : Option IPAllocationMethod}
    {subnet : Option SubResource} (hf : fs.find? (equalFold ·.name name) = some f)
    (hp : f.properties = some ⟨some .ipv4, method, subnet, some ip⟩) (now : Nat)
    (new : List FrontendIPConfiguration) :
    findFrontendIP ((fs ++ new).map (P.provisionFrontend S.az now)) name = .ok ip := by
  have hfind : ((fs ++ new).map (P.provisionFrontend S.az now)).find? (equalFold ·.name name) =
      some (P.provisionFrontend S.az now f) := by
    have hf : (fs ++ new).find? (equalFold ·.name name) = some f := by
      rw [List.find?_append, hf]
      rfl
    rw [List.find?_map]
    exact congrArg (Option.map _) hf
  rw [findFrontendIP, hfind]
  simp [Platform.provisionFrontend, hp]

theorem findFrontendIP_provision (h : findFrontendIP fs name = .ok ip) (hip : ip ≠ "") (now : Nat)
    (new : List FrontendIPConfiguration) :
    findFrontendIP ((fs ++ new).map (P.provisionFrontend S.az now)) name = .ok ip := by
  have ⟨f, method, subnet, hf, hp⟩ := findFrontendIP_eq_ok h hip
  exact findFrontendIP_of_find hf hp now new

-- Not even if it is empty.
theorem findFrontendIP_empty (h : findFrontendIP fs name = .ok "") (now : Nat)
    (new : List FrontendIPConfiguration) :
    (∀ f ∈ fs, equalFold f.name name = false) ∨
    findFrontendIP ((fs ++ new).map (P.provisionFrontend S.az now)) name = .ok "" := by
  unfold findFrontendIP at h
  split at h
  case h_1 hf => exact .inl fun f hm => by simpa using List.find?_eq_none.mp hf f hm
  case h_2 f hf =>
    split at h
    case h_1 method subnet ip hp =>
      cases h
      exact .inr (findFrontendIP_of_find hf hp now new)
    case h_2 => nomatch h

-- A frontend that was missing gets an address.
theorem findFrontendIP_new (h : ∀ f ∈ fs, equalFold f.name name = false) (now : Nat) (subnet : Option String) :
    findFrontendIP ((fs ++ [getExpectedFrontendConfig name subnet]).map (P.provisionFrontend S.az now)) name =
      .ok (P.frontendIP now name) := by
  have hfind : ((fs ++ [getExpectedFrontendConfig name subnet]).map (P.provisionFrontend S.az now)).find?
      (equalFold ·.name name) =
      some (P.provisionFrontend S.az now (getExpectedFrontendConfig name subnet)) := by
    have hnone : fs.find? (equalFold ·.name name) = none := List.find?_eq_none.mpr fun f hm => by simp [h f hm]
    have hf : (fs ++ [getExpectedFrontendConfig name subnet]).find? (equalFold ·.name name) =
        some (getExpectedFrontendConfig name subnet) := by
      rw [List.find?_append, hnone]
      simp [getExpectedFrontendConfig, equalFold_refl]
    rw [List.find?_map]
    exact congrArg (Option.map _) hf
  rw [findFrontendIP, hfind]
  rfl

end Lists

-- A call that does not end in a panic.
section Sane

def Sane {α : Type} (res : Except Err α) (_ : State) : Prop :=
  ∀ e, res = .error e → e.code ≠ .panic

variable {α β : Type} {c : Call}

omit [CaseFold] in
theorem sane_ok {a : α} : Sane (.ok a) s :=
  nofun

omit [CaseFold] in
theorem sane_errorf {text : String} : Sane (α := α) (.error (Err.errorf text)) s := by
  rintro _ ⟨⟩
  nofun

theorem sane_bind {q : M α} {f : α → M β} (h : wp (world P S.az) (.faults A) q Sane s)
    (hf : ∀ a s, wp (world P S.az) (.faults A) (f a) Sane s) :
    wp (world P S.az) (.faults A) (q.bind f) Sane s := by
  refine wp_seq h (fun a s _ => hf a s) fun e s he e' h' => ?_
  cases h'
  exact he e rfl

omit [CaseFold] in
theorem sane_refused {r : Store.Refusal} : Sane (α := α) (.error (Call.refused r)) s := by
  rintro _ ⟨⟩
  cases r <;> nofun

theorem sane_serve : Sane (State.serve P S.az c s).1 s := by
  have hmissing {α : Type} {what : String} : Sane (α := α) (.error (Call.missing what)) s := by
    rintro _ ⟨⟩
    nofun
  have hcommit {k : Kind} (w : Store.Write (Obj k)) : Sane (s.commit k w).1 s := by
    cases w
    case error => exact sane_refused
    case ok    => exact sane_ok
  cases c
  case update | updateStatus | create | patch | patchStatus => exact hcommit _
  case get | delete | getNode =>
    simp only [State.serve]
    split
    all_goals first | exact sane_refused | exact sane_ok
  all_goals
    simp only [State.serve]
    repeat' split
    all_goals first | exact sane_ok | exact hmissing

theorem sane_request : wp (world P S.az) (.faults A) (request c) Sane s :=
  wp_perform_faults sane_serve (fun _ => sane_errorf) fun _ => sane_errorf

end Sane

-- What the stages of a call do, whatever they find.
section Stages

-- Nothing stops a call before it has seen the rules.
structure Passes (S : Settings) (c : Cloud) (needLB : Bool) (cfg : GatewayLBConfiguration)
    (lb : LoadBalancer) (pool : String) (p : LoadBalancerProperties) (ip : String) : Prop where
  resolved   : poolID S c cfg.spec = some pool
  properties : lb.properties = some p
  address    : findFrontendIP p.frontendIPConfigurations pool = .ok ip
  subnet     : ip = "" → needLB = true → c.subnet ≠ none
  backend    : ∃ found,
    findBackend pool (S.az.getLBBackendAddressPoolID pool) p.backendAddressPools = .ok found

structure Opens (S : Settings) (needLB : Bool) (pool : String) (lb : LoadBalancer)
    (p : LoadBalancerProperties) (updateLB : Bool) (d : Draft) : Prop where
  lb       : d.lb = lb
  rules    : d.properties.loadBalancingRules = p.loadBalancingRules
  probes   : d.properties.probes = p.probes
  address  : findFrontendIP p.frontendIPConfigurations pool = .ok d.frontendIP
  frontend : d.properties.frontendIPConfigurations = p.frontendIPConfigurations ∧
      ¬(d.frontendIP = "" ∧ needLB = true) ∨
    d.updateLB = true ∧ d.frontendIP = "" ∧ ∃ subnet, d.properties.frontendIPConfigurations =
      p.frontendIPConfigurations ++ [getExpectedFrontendConfig pool subnet]
  backend  : d.properties.backendAddressPools = p.backendAddressPools ∧ (needLB = true →
      findBackend pool (S.az.getLBBackendAddressPoolID pool) p.backendAddressPools = .ok true) ∨
    d.updateLB = true ∧
      d.properties.backendAddressPools = p.backendAddressPools ++ [getExpectedBackendPool pool]
  same     : d.updateLB = false → updateLB = false ∧ d.properties = p
  idle     : needLB = false ∨ d.frontendIP ≠ "" ∧
    findBackend pool (S.az.getLBBackendAddressPoolID pool) p.backendAddressPools = .ok true →
    d.updateLB = updateLB ∧ d.properties = p

theorem wp_reconcileFrontend_of :
    wp (world P S.az) (.faults A) (reconcileFrontend names needLB p) (fun res s' => s' = s ∧
      match res with
      | .ok (ip, fs, new) => findFrontendIP p.frontendIPConfigurations names.frontendName = .ok ip ∧
        (new = false ∧ fs = p.frontendIPConfigurations ∧ ¬(ip = "" ∧ needLB = true) ∨
          new = true ∧ ip = "" ∧ needLB = true ∧ s.cloud.subnet ≠ none ∧ ∃ subnet, fs =
            p.frontendIPConfigurations ++ [getExpectedFrontendConfig names.frontendName subnet])
      | .error _ => Disturbed A ∨ ∀ ip,
        findFrontendIP p.frontendIPConfigurations names.frontendName = .ok ip →
        ip = "" ∧ needLB = true ∧ s.cloud.subnet = none) s := by
  unfold reconcileFrontend
  cases hf : findFrontendIP p.frontendIPConfigurations names.frontendName
  case error => exact ⟨rfl, .inr nofun⟩
  case ok ip =>
    change wp _ _ (if ip = "" ∧ needLB = true then _ else _) _ _
    split
    case isFalse hc => exact ⟨rfl, rfl, .inl ⟨rfl, rfl, hc⟩⟩
    case isTrue hc =>
      refine wp_bind_read wp_getSubnet (fun subnet hs => ?_) fun e he => ⟨rfl, he.imp_right fun hs => ?_⟩
      · exact ⟨rfl, rfl, .inr ⟨rfl, hc.left, hc.right, by simp [hs], subnet.id, rfl⟩⟩
      · intro ip' hip'
        exact ⟨Except.ok.inj hip' ▸ hc.left, hc.right, hs⟩

theorem reconcileBackend_ok {bs : List BackendAddressPool} {new : Bool}
    (h : reconcileBackend S names needLB p = .ok (bs, new)) :
    new = false ∧ bs = p.backendAddressPools ∧ (needLB = true → findBackend names.backendName
      (S.az.getLBBackendAddressPoolID names.backendName) p.backendAddressPools = .ok true) ∨
    new = true ∧ needLB = true ∧ findBackend names.backendName
      (S.az.getLBBackendAddressPoolID names.backendName) p.backendAddressPools = .ok false ∧
      bs = p.backendAddressPools ++ [getExpectedBackendPool names.backendName] := by
  unfold reconcileBackend at h
  split at h
  case h_1 => nomatch h
  case h_2 found hf =>
    split at h
    case isTrue hc =>
      cases h
      exact .inr ⟨rfl, by simp_all, by simp_all, rfl⟩
    case isFalse hc =>
      cases h
      exact .inl ⟨rfl, rfl, fun hn => by simp_all⟩

theorem reconcileBackend_found {out : List BackendAddressPool × Bool}
    (h : reconcileBackend S names needLB p = .ok out) : ∃ found, findBackend names.backendName
      (S.az.getLBBackendAddressPoolID names.backendName) p.backendAddressPools = .ok found := by
  unfold reconcileBackend at h
  split at h
  case h_1 => nomatch h
  case h_2 found hf => exact ⟨found, hf⟩

theorem reconcileBackend_error {e : Err} (h : reconcileBackend S names needLB p = .error e) :
    findBackend names.backendName (S.az.getLBBackendAddressPoolID names.backendName) p.backendAddressPools =
      .error e := by
  unfold reconcileBackend at h
  split at h
  case h_1 e' he => exact (Except.error.inj h) ▸ he
  case h_2 => split at h <;> nomatch h

theorem wp_openDraft_of :
    wp (world P S.az) (.faults A) (openDraft S cfg needLB lb updateLB) (fun res s' => s' = s ∧
      match res with
      | .ok (names, d) => ∃ pool p, names = namesOf cfg.meta_.uid pool ∧
        Passes S s.cloud needLB cfg lb pool p d.frontendIP ∧ Opens S needLB pool lb p updateLB d
      | .error _ => Disturbed A ∨ ∀ pool p ip, ¬Passes S s.cloud needLB cfg lb pool p ip) s := by
  refine wp_bind_read wp_loadLBPool (fun ap hap => ?_) fun e he => ⟨rfl, he.imp_right fun hn pool p ip h => ?_⟩
  case refine_2 => simpa [poolID, hn] using h.resolved
  rcases getLBPropertyName_eq hap with ⟨pool, hpool, hn⟩ | ⟨hpool, e, hn⟩
  case inr =>
    rw [hn]
    exact ⟨rfl, .inr fun pool p ip h => absurd (hpool.symm.trans h.resolved) (by simp)⟩
  rw [hn]
  cases hl : lb.properties
  case none => exact ⟨rfl, .inr fun pool p ip h => absurd (hl.symm.trans h.properties) (by simp)⟩
  case some p =>
    apply wp_seq wp_reconcileFrontend_of
    case error =>
      rintro e s ⟨rfl, he⟩
      refine ⟨rfl, he.imp_right fun hs pool' p' ip h => ?_⟩
      obtain rfl := Option.some.inj (hpool.symm.trans h.resolved)
      obtain rfl := Option.some.inj (hl.symm.trans h.properties)
      obtain ⟨hip, hneed, hsub⟩ := hs ip h.address
      exact h.subnet hip hneed hsub
    rintro ⟨ip, fs, newFrontend⟩ s ⟨rfl, hip, hfs⟩
    dsimp only
    cases hb : reconcileBackend S (namesOf cfg.meta_.uid pool) needLB p
    case error e =>
      refine ⟨rfl, .inr fun pool' p' ip h => ?_⟩
      obtain rfl := Option.some.inj (hpool.symm.trans h.resolved)
      obtain rfl := Option.some.inj (hl.symm.trans h.properties)
      obtain ⟨_, hb'⟩ := h.backend
      exact absurd ((reconcileBackend_error hb).symm.trans hb') (by simp)
    case ok r =>
      obtain ⟨bs, newBackend⟩ := r
      have hbs := reconcileBackend_ok hb
      have hpass : Passes S s.cloud needLB cfg lb pool p ip := by
        refine ⟨hpool, hl, hip, fun he hneed => ?_, reconcileBackend_found hb⟩
        rcases hfs with ⟨_, _, hn⟩ | ⟨_, _, _, hs, _⟩
        · exact absurd ⟨he, hneed⟩ hn
        · exact hs
      refine ⟨rfl, pool, p, rfl, hpass, ?_⟩
      constructor
      case lb | rules | probes => rfl
      case address => exact hip
      case frontend =>
        rcases hfs with ⟨rfl, rfl, hn⟩ | ⟨rfl, rfl, _, _, subnet, rfl⟩
        · exact .inl ⟨rfl, hn⟩
        · exact .inr ⟨by simp, rfl, subnet, rfl⟩
      case backend =>
        rcases hbs with ⟨rfl, rfl, hn⟩ | ⟨rfl, _, _, rfl⟩
        · exact .inl ⟨rfl, hn⟩
        · exact .inr ⟨by simp, rfl⟩
      case same =>
        intro hu
        simp only [Bool.or_eq_false_iff] at hu
        obtain ⟨⟨hu, hnf⟩, hnb⟩ := hu
        rcases hfs with ⟨_, rfl, _⟩ | ⟨hn, _⟩
        · rcases hbs with ⟨_, rfl, _⟩ | ⟨hn, _⟩
          · exact ⟨hu, rfl⟩
          · exact absurd (hnb.symm.trans hn) (by simp)
        · exact absurd (hnf.symm.trans hn) (by simp)
      case idle =>
        intro hc
        rcases hfs with ⟨rfl, rfl, _⟩ | ⟨_, hip, hneed, _⟩
        case inr => exact hc.elim (fun hn => absurd (hn.symm.trans hneed) (by simp)) fun hn => absurd hip hn.left
        rcases hbs with ⟨rfl, rfl, _⟩ | ⟨_, hneed, hb, _⟩
        case inr =>
          exact hc.elim (fun hn => absurd (hn.symm.trans hneed) (by simp)) fun hn =>
            absurd (hb.symm.trans hn.right) (by simp)
        exact ⟨by simp, rfl⟩

-- What Azure makes of the lists that it is sent.
def provisionProperties (P : Platform) (az : CloudConfig) (now : Nat) (p : LoadBalancerProperties) :
    LoadBalancerProperties :=
  { p with
    frontendIPConfigurations := p.frontendIPConfigurations.map (P.provisionFrontend az now)
    backendAddressPools      := p.backendAddressPools.map (Platform.provisionBackend az) }

-- A draft is only sent if it differs from what was read.
def Stored (P : Platform) (S : Settings) (d : Draft) (s s' : State) : Prop :=
  d.updateLB = false ∧ s' = s ∨
  d.updateLB = true ∧ s' = (State.serve P S.az (.createOrUpdateLB d.toLB) s).2

theorem Stored.lbProperties (h : Stored P S d s s') :
    d.updateLB = false ∧ s' = s ∨
    s'.lbProperties = provisionProperties P S.az s.cloud.writes d.properties := by
  rcases h with h | ⟨_, rfl⟩
  · exact .inl h
  · exact .inr rfl

theorem wp_send {Q : Except Err LoadBalancer → State → Prop}
    (ok : Q (.ok (P.provisionLB S.az s.cloud.writes d.toLB))
      (State.serve P S.az (.createOrUpdateLB d.toLB) s).2)
    (error : Disturbed A → ∀ s', Q (.error (world P S.az).outage) s') :
    wp (world P S.az) (.faults A) (request (.createOrUpdateLB d.toLB)) Q s :=
  wp_perform_faults ok (fun hd => error hd _) fun hd => error hd _

-- The address of the frontend, which may only be known once it is stored.
def Addressed (P : Platform) (S : Settings) (pool : String) (d : Draft) (s : State) (ip : String) : Prop :=
  (d.updateLB = false ∨ d.frontendIP ≠ "") ∧ ip = d.frontendIP ∨
  d.frontendIP = "" ∧ ip ≠ "" ∧ findFrontendIP
    (provisionProperties P S.az s.cloud.writes d.properties).frontendIPConfigurations pool = .ok ip

theorem wp_writeRule_of {uid : String} :
    wp (world P S.az) (.faults A) (writeRule (namesOf uid pool) d port) (fun res s' =>
      match res with
      | .ok (ip, q) => q = port ∧ Stored P S d s s' ∧ Addressed P S pool d s ip
      | .error e => e.code ≠ .panic ∧ (Disturbed A ∨ ∀ ip, ¬Addressed P S pool d s ip)) s := by
  unfold writeRule
  split
  case isFalse hu =>
    have hu := Bool.eq_false_iff.mpr hu
    exact ⟨rfl, .inl ⟨hu, rfl⟩, .inl ⟨.inl hu, rfl⟩⟩
  case isTrue hu =>
    refine wp_bind.mpr (wp_send ?_ fun hd s' => ⟨nofun, .inl hd⟩)
    have hstored : Stored P S d s _ := .inr ⟨hu, rfl⟩
    change wp _ _ (if d.frontendIP = "" then _ else _) _ _
    split
    case isFalse hip => exact ⟨rfl, hstored, .inl ⟨.inr hip, rfl⟩⟩
    case isTrue hip =>
      have hnot {ip : String} (h : ∀ ip', ip' ≠ "" → findFrontendIP
          (provisionProperties P S.az s.cloud.writes d.properties).frontendIPConfigurations pool ≠ .ok ip') :
          ¬Addressed P S pool d s ip := by
        rintro (⟨hu' | hne, _⟩ | ⟨_, hne, hf⟩)
        · exact absurd (hu.symm.trans hu') nofun
        · exact hne hip
        · exact h ip hne hf
      change wp _ _ (Program.bind (ofExcept (I := Sig) (findFrontendIP
        (provisionProperties P S.az s.cloud.writes d.properties).frontendIPConfigurations pool)) _) _ _
      cases hf : findFrontendIP
        (provisionProperties P S.az s.cloud.writes d.properties).frontendIPConfigurations pool
      case error e =>
        refine ⟨findFrontendIP_error hf, .inr fun ip => hnot fun ip' _ hf' => ?_⟩
        exact absurd (hf.symm.trans hf') nofun
      case ok ip =>
        change wp _ _ (if ip = "" then _ else _) _ _
        split
        case isTrue he =>
          refine ⟨nofun, .inr fun ip => hnot fun ip' hne hf' => ?_⟩
          exact hne ((Except.ok.inj (hf.symm.trans hf')).symm.trans he)
        case isFalse hne => exact ⟨rfl, hstored, .inr ⟨hip, hne, hf⟩⟩

-- The load balancer that a call starts from.
def Starts (S : Settings) (s : State) (lb : LoadBalancer) (updateLB : Bool) : Prop :=
  s.cloud.loadBalancer = some lb ∧ updateLB = false ∨
  s.cloud.loadBalancer = none ∧ lb = newLB S ∧ updateLB = true

omit [CaseFold] in
theorem Starts.lbProperties (h : Starts S s lb updateLB) (hp : lb.properties = some p) : s.lbProperties = p := by
  rcases h with ⟨hl, _⟩ | ⟨hl, rfl, _⟩
  · simp [State.lbProperties, hl, hp]
  · simp [State.lbProperties, hl, ← Option.some.inj hp]

structure Begun (S : Settings) (s : State) (cfg : GatewayLBConfiguration) (needLB : Bool) (lb : LoadBalancer)
    (updateLB : Bool) (pool : String) (p : LoadBalancerProperties) (d : Draft) : Prop where
  passes : Passes S s.cloud needLB cfg lb pool p d.frontendIP
  opens  : Opens S needLB pool lb p updateLB d

theorem Begun.resolved (h : Begun S s cfg needLB lb updateLB pool p d) : poolID S s.cloud cfg.spec = some pool :=
  h.passes.resolved

theorem Begun.properties (h : Begun S s cfg needLB lb updateLB pool p d) : lb.properties = some p :=
  h.passes.properties

def Identified (lb : LoadBalancer) : Prop :=
  ∀ p, lb.properties = some p → ∀ b ∈ p.backendAddressPools, b.id ≠ none

theorem sane_openDraft (h : Identified lb) :
    wp (world P S.az) (.faults A) (openDraft S cfg needLB lb updateLB) Sane s := by
  have hpool {s : State} : wp (world P S.az) (.faults A) (loadLBPool cfg.spec) Sane s := by
    unfold loadLBPool
    split
    · refine sane_bind sane_request fun vmss s => ?_
      split
      · exact sane_ok
      · refine sane_bind sane_request fun vms s => ?_
        split
        · exact sane_ok
        · exact sane_errorf
    · refine sane_bind ?_ fun vmss s => sane_ok
      unfold getVMSS
      split
      · exact sane_errorf
      · exact sane_request
  refine sane_bind hpool fun ap s => sane_bind ?_ fun names s => ?_
  · unfold getLBPropertyName
    split
    · exact sane_errorf
    · exact sane_ok
  · split
    case h_1 => exact sane_errorf
    case h_2 p hp =>
      refine sane_bind ?_ fun out s => sane_bind ?_ fun out s => sane_ok
      · refine sane_bind ?_ fun ip s => ?_
        · rw [wp_ofExcept]
          exact fun e he => findFrontendIP_error he
        · split
          · exact sane_bind sane_request fun _ _ => sane_ok
          · exact sane_ok
      · rw [wp_ofExcept]
        intro e he
        have ⟨_, hok⟩ : ∃ found, findBackend names.backendName
          (S.az.getLBBackendAddressPoolID names.backendName) p.backendAddressPools = .ok found :=
          findBackend_ok (h p hp)
        exact absurd ((reconcileBackend_error he).symm.trans hok) nofun

-- The draft that is sent, from which the frontend is gone as well if no other rule needs it.
def removed (S : Settings) (names : LBPropertyNames) (unused : Bool) (d : Draft) : Draft :=
  if unused then removeFrontend S names d else d

-- How a call ends if the configuration needs a rule.
inductive Added (P : Platform) (S : Settings) (A : Fault → Prop) (s : State) (cfg : GatewayLBConfiguration)
    (lb : LoadBalancer) (updateLB : Bool) : Except Err (String × Int) → State → Prop
  | stopped {e : Err} (h : Disturbed A ∨ ∀ pool p ip, ¬Passes S s.cloud true cfg lb pool p ip)
      (sane : Identified lb → e.code ≠ .panic) : Added P S A s cfg lb updateLB (.error e) s
  | refused {pool : String} {p : LoadBalancerProperties} {d : Draft} {e : Err}
      (begun : Begun S s cfg true lb updateLB pool p d)
      (h : addRule S cfg (namesOf cfg.meta_.uid pool) d = .error e) : Added P S A s cfg lb updateLB (.error e) s
  | unanswered {pool : String} {p : LoadBalancerProperties} {d d' : Draft} {port : Int} {e : Err} {s' : State}
      (begun : Begun S s cfg true lb updateLB pool p d)
      (add : addRule S cfg (namesOf cfg.meta_.uid pool) d = .ok (d', port))
      (h : Disturbed A ∨ ∀ ip, ¬Addressed P S pool d' s ip) (sane : e.code ≠ .panic) :
      Added P S A s cfg lb updateLB (.error e) s'
  | done {pool ip : String} {p : LoadBalancerProperties} {d d' : Draft} {port : Int} {s' : State}
      (begun : Begun S s cfg true lb updateLB pool p d)
      (add : addRule S cfg (namesOf cfg.meta_.uid pool) d = .ok (d', port))
      (stored : Stored P S d' s s') (addressed : Addressed P S pool d' s ip) :
      Added P S A s cfg lb updateLB (.ok (ip, port)) s'

-- How it ends if the configuration does not need one.
inductive Dropped (P : Platform) (S : Settings) (A : Fault → Prop) (s : State) (cfg : GatewayLBConfiguration)
    (lb : LoadBalancer) : Except Err (String × Int) → State → Prop
  | stopped {e : Err} (h : Disturbed A ∨ ∀ pool p ip, ¬Passes S s.cloud false cfg lb pool p ip)
      (sane : Identified lb → e.code ≠ .panic) : Dropped P S A s cfg lb (.error e) s
  | refused {pool : String} {p : LoadBalancerProperties} {d : Draft} {e : Err}
      (begun : Begun S s cfg false lb false pool p d)
      (h : removeRule S (namesOf cfg.meta_.uid pool) d = .error e) : Dropped P S A s cfg lb (.error e) s
  | unanswered {pool : String} {p : LoadBalancerProperties} {d d' : Draft} {unused : Bool} {e : Err} {s' : State}
      (begun : Begun S s cfg false lb false pool p d)
      (remove : removeRule S (namesOf cfg.meta_.uid pool) d = .ok (d', unused))
      (h : Disturbed A) (sane : e.code ≠ .panic) : Dropped P S A s cfg lb (.error e) s'
  | deleted {pool : String} {p : LoadBalancerProperties} {d d' : Draft} {out : String × Int} {s' : State}
      (begun : Begun S s cfg false lb false pool p d)
      (remove : removeRule S (namesOf cfg.meta_.uid pool) d = .ok (d', true))
      (gone : s'.cloud.loadBalancer = none) : Dropped P S A s cfg lb (.ok out) s'
  | done {pool : String} {p : LoadBalancerProperties} {d d' : Draft} {unused : Bool} {out : String × Int}
      {s' : State} (begun : Begun S s cfg false lb false pool p d)
      (remove : removeRule S (namesOf cfg.meta_.uid pool) d = .ok (d', unused))
      (serves : unused = true →
        (removeFrontend S (namesOf cfg.meta_.uid pool) d').properties.frontendIPConfigurations ≠ [])
      (stored : Stored P S (removed S (namesOf cfg.meta_.uid pool) unused d') s s') :
      Dropped P S A s cfg lb (.ok out) s'

theorem wp_openDraft_begun :
    wp (world P S.az) (.faults A) (openDraft S cfg needLB lb updateLB) (fun res s' => s' = s ∧
      match res with
      | .ok (names, d) => ∃ pool p, names = namesOf cfg.meta_.uid pool ∧
        Begun S s cfg needLB lb updateLB pool p d
      | .error e => (Disturbed A ∨ ∀ pool p ip, ¬Passes S s.cloud needLB cfg lb pool p ip) ∧
        (Identified lb → e.code ≠ .panic)) s := by
  have hsane : wp (world P S.az) (.faults A) (openDraft S cfg needLB lb updateLB)
      (fun res s' => Identified lb → Sane res s') s := by
    by_cases hi : Identified lb
    · exact wp_mono (sane_openDraft hi) fun _ _ h _ => h
    · exact wp_mono wp_openDraft_of fun _ _ _ h => absurd h hi
  refine wp_mono (wp_and wp_openDraft_of hsane) fun res s' h => ⟨h.left.left, ?_⟩
  cases res
  case ok out =>
    have ⟨pool, p, hn, hp, ho⟩ := h.left.right
    exact ⟨pool, p, hn, hp, ho⟩
  case error e => exact ⟨h.left.right, fun hi => h.right hi e rfl⟩

theorem wp_reconcileLBRuleOn_added :
    wp (world P S.az) (.faults A) (reconcileLBRuleOn S cfg true lb updateLB) (Added P S A s cfg lb updateLB) s := by
  apply wp_seq wp_openDraft_begun
  case error =>
    rintro e s ⟨rfl, h, hn⟩
    exact .stopped h hn
  rintro ⟨names, d⟩ s ⟨rfl, pool, p, rfl, hb⟩
  dsimp only
  rw [if_pos rfl]
  cases ha : addRule S cfg (namesOf cfg.meta_.uid pool) d
  case error e => exact .refused hb ha
  case ok r =>
    obtain ⟨d', port⟩ := r
    refine wp_mono wp_writeRule_of fun res s' h => ?_
    cases res
    case error e => exact .unanswered hb ha h.right h.left
    case ok out =>
      obtain ⟨rfl, hs, hip⟩ := h
      exact .done hb ha hs hip

theorem wp_reconcileLBRuleOn_dropped :
    wp (world P S.az) (.faults A) (reconcileLBRuleOn S cfg false lb false) (Dropped P S A s cfg lb) s := by
  have hwrite {pool : String} {p : LoadBalancerProperties} {d d' : Draft} {unused : Bool}
      (hb : Begun S s cfg false lb false pool p d)
      (hr : removeRule S (namesOf cfg.meta_.uid pool) d = .ok (d', unused))
      (hserves : unused = true →
        (removeFrontend S (namesOf cfg.meta_.uid pool) d').properties.frontendIPConfigurations ≠ []) :
      wp (world P S.az) (.faults A)
        (writeRemoval (removed S (namesOf cfg.meta_.uid pool) unused d')) (Dropped P S A s cfg lb) s := by
    generalize hd : removed S (namesOf cfg.meta_.uid pool) unused d' = d''
    unfold writeRemoval
    split
    case isTrue hu =>
      refine wp_bind.mpr (wp_send ?_ fun hd s' => .unanswered hb hr hd nofun)
      have hs : Stored P S d'' s _ := .inr ⟨hu, rfl⟩
      exact .done hb hr hserves (hd ▸ hs)
    case isFalse hu =>
      have hs : Stored P S d'' s s := .inl ⟨Bool.eq_false_iff.mpr hu, rfl⟩
      exact .done hb hr hserves (hd ▸ hs)
  apply wp_seq wp_openDraft_begun
  case error =>
    rintro e s ⟨rfl, h, hn⟩
    exact .stopped h hn
  rintro ⟨names, d⟩ s ⟨rfl, pool, p, rfl, hb⟩
  dsimp only
  rw [if_neg nofun]
  cases hr : removeRule S (namesOf cfg.meta_.uid pool) d
  case error e => exact .refused hb hr
  case ok r =>
    obtain ⟨d', unused⟩ := r
    change wp _ _ (if unused = true then _ else _) _ _
    cases unused
    case false => exact hwrite hb hr nofun
    case true =>
      rw [if_pos rfl]
      split
      case isTrue hz =>
        refine wp_bind.mpr (wp_perform_faults (.deleted hb hr rfl) ?_ ?_)
        · exact fun hd => .unanswered hb hr hd nofun
        · exact fun hd => .unanswered hb hr hd nofun
      case isFalse hz => exact hwrite hb hr fun _ hn => hz (by rw [hn]; rfl)

-- What was found in place of the load balancer, and how the call ended.
def Ended (P : Platform) (S : Settings) (A : Fault → Prop) (s : State) (cfg : GatewayLBConfiguration)
    (needLB : Bool) (res : Except Err (String × Int)) (s' : State) : Prop :=
  s' = s ∧ Disturbed A ∧ Sane res s ∧ (∀ out, res ≠ .ok out) ∨
  needLB = true ∧ (∃ lb updateLB, Starts S s lb updateLB ∧ Added P S A s cfg lb updateLB res s') ∨
  needLB = false ∧ (s.cloud.loadBalancer = none ∧ s' = s ∧ res = .ok ("", 0) ∨
    ∃ lb, s.cloud.loadBalancer = some lb ∧ Dropped P S A s cfg lb res s')

theorem wp_reconcileLBRule_ended :
    wp (world P S.az) (.faults A) (reconcileLBRule S cfg needLB) (Ended P S A s cfg needLB) s := by
  have hget : wp (world P S.az) (.faults A) getGatewayLB Sane s := by
    refine wp_bind.mpr (wp_attempt.mpr (wp_mono sane_request fun r s h => ?_))
    cases r
    case ok => exact sane_ok (s := s)
    case error e =>
      change wp _ _ (if e.isNotFound then _ else _) _ _
      split
      · exact sane_ok
      · exact fun e' he => h e' (by cases he; rfl)
  apply wp_seq (wp_and wp_getGatewayLB hget)
  case error =>
    rintro e s ⟨⟨rfl, hd⟩, hn⟩
    exact .inl ⟨rfl, hd, fun e' he => by cases he; exact hn e rfl, nofun⟩
  rintro lb s ⟨⟨rfl, rfl⟩, _⟩
  cases hlb : s.cloud.loadBalancer
  case some lb =>
    cases needLB
    case true  => exact wp_mono wp_reconcileLBRuleOn_added fun _ _ h => .inr (.inl ⟨rfl, lb, false, .inl ⟨hlb, rfl⟩, h⟩)
    case false => exact wp_mono wp_reconcileLBRuleOn_dropped fun _ _ h => .inr (.inr ⟨rfl, .inr ⟨lb, hlb, h⟩⟩)
  case none =>
    cases needLB
    case true  =>
      exact wp_mono wp_reconcileLBRuleOn_added fun _ _ h =>
        .inr (.inl ⟨rfl, newLB S, true, .inr ⟨hlb, rfl, rfl⟩, h⟩)
    case false => exact .inr (.inr ⟨rfl, .inl ⟨hlb, rfl, rfl⟩⟩)

end Stages

-- A call that returns an address and a port, by what it makes of the four lists.
section Placed

structure Placed (P : Platform) (S : Settings) (now : Nat) (cfg : GatewayLBConfiguration) (pool ip : String)
    (port : Int) (before after : LoadBalancerProperties) : Prop where
  rules     : ∃ new, Ensured S (namesOf cfg.meta_.uid pool) before.loadBalancingRules
    after.loadBalancingRules port new
  probes    : ∃ new, EnsuredProbe S (namesOf cfg.meta_.uid pool) cfg before.probes (.ok (after.probes, new))
  address   : findFrontendIP after.frontendIPConfigurations pool = .ok ip
  known     : ip ≠ ""
  backend   : findBackend pool (S.az.getLBBackendAddressPoolID pool) after.backendAddressPools = .ok true
  frontends : after.frontendIPConfigurations = before.frontendIPConfigurations ∨
    ∃ new, (∀ f ∈ new, f.name = pool) ∧ after.frontendIPConfigurations =
      (before.frontendIPConfigurations ++ new).map (P.provisionFrontend S.az now)
  backends  : after.backendAddressPools = before.backendAddressPools ∨
    ∃ new, (∀ b ∈ new, b.name = pool) ∧ after.backendAddressPools =
      (before.backendAddressPools ++ new).map (Platform.provisionBackend S.az)

theorem addRule_ok (h : addRule S cfg names d = .ok (d', port)) :
    ∃ rules newRule probes newProbe,
      Ensured S names d.properties.loadBalancingRules rules port newRule ∧
      EnsuredProbe S names cfg d.properties.probes (.ok (probes, newProbe)) ∧
      d' = { d with
        properties := { d.properties with loadBalancingRules := rules, probes := probes }
        updateLB   := d.updateLB || newRule || newProbe } := by
  unfold addRule at h
  split at h
  case h_1 => nomatch h
  case h_2 rules lbPort newRule hr =>
    split at h
    case h_1 => nomatch h
    case h_2 probes newProbe hp =>
      cases h
      exact ⟨rules, newRule, probes, newProbe, ensureRule_ensured hr, hp ▸ ensureProbe_ensured _, rfl⟩

theorem addRule_error {e : Err} (h : addRule S cfg names d = .error e) :
    ensureRule (expectedLBRule S names) d.properties.loadBalancingRules = .error e ∨
    ∃ out, ensureRule (expectedLBRule S names) d.properties.loadBalancingRules = .ok out ∧
      EnsuredProbe S names cfg d.properties.probes (.error e) := by
  unfold addRule at h
  split at h
  case h_1 he =>
    cases h
    exact .inl he
  case h_2 rules lbPort newRule hr =>
    split at h
    case h_1 hp =>
      cases h
      exact .inr ⟨_, hr, hp ▸ ensureProbe_ensured _⟩
    case h_2 => nomatch h

-- The frontend is found in what is stored, with the address that the call returns.
theorem Opens.address_stored (ho : Opens S true pool lb p updateLB d) (ha : d'.frontendIP = d.frontendIP)
    (hu : d.updateLB = true → d'.updateLB = true)
    (hf : d'.properties.frontendIPConfigurations = d.properties.frontendIPConfigurations)
    (h : Addressed P S pool d' s ip) :
    ip ≠ "" ∧ (d'.updateLB = false → findFrontendIP p.frontendIPConfigurations pool = .ok ip) ∧
    findFrontendIP (provisionProperties P S.az s.cloud.writes d'.properties).frontendIPConfigurations pool =
      .ok ip := by
  have missing (hip : d.frontendIP = "") : d'.updateLB = true := by
    rcases ho.frontend with ⟨_, hn⟩ | ⟨hu', _⟩
    · exact absurd ⟨hip, rfl⟩ hn
    · exact hu hu'
  rcases h with ⟨hk, rfl⟩ | ⟨hip, hne, hfind⟩
  case inr =>
    refine ⟨hne, fun hu' => ?_, hfind⟩
    exact absurd (hu'.symm.trans (missing (ha ▸ hip))) nofun
  case inl =>
    rw [ha] at hk ⊢
    have hne : d.frontendIP ≠ "" := hk.elim (fun hu' hip => by simp [missing hip] at hu') id
    refine ⟨hne, fun _ => ho.address, ?_⟩
    have ⟨new, hnew⟩ : ∃ new, d.properties.frontendIPConfigurations = p.frontendIPConfigurations ++ new := by
      rcases ho.frontend with ⟨he, _⟩ | ⟨_, _, subnet, he⟩
      · exact ⟨[], by simp [he]⟩
      · exact ⟨_, he⟩
    simp only [provisionProperties, hf, hnew]
    exact findFrontendIP_provision ho.address hne _ new

theorem Opens.backend_stored (ho : Opens S true pool lb p updateLB d)
    (hb : d'.properties.backendAddressPools = d.properties.backendAddressPools) (now : Nat) :
    findBackend pool (S.az.getLBBackendAddressPoolID pool)
      (provisionProperties P S.az now d'.properties).backendAddressPools = .ok true := by
  have hm : ∃ b ∈ d.properties.backendAddressPools, foldKey b.name = foldKey pool := by
    rcases ho.backend with ⟨he, hfind⟩ | ⟨_, he⟩
    · have ⟨b, hb, hn, _⟩ := mem_of_findBackend (hfind rfl)
      exact ⟨b, he ▸ hb, equalFold_iff.mp hn⟩
    · exact ⟨getExpectedBackendPool pool, by simp [he], rfl⟩
  have ⟨b, hbm, hn⟩ := hm
  have hid : ∀ b ∈ (provisionProperties P S.az now d'.properties).backendAddressPools,
      b.id = some (S.az.getLBBackendAddressPoolID b.name) := by
    intro b hb
    have ⟨b', _, he⟩ := List.mem_map.mp hb
    exact he ▸ rfl
  rw [findBackend_of_settled hid]
  refine congrArg _ (decide_eq_true (List.mem_map.mpr ⟨Platform.provisionBackend S.az b, ?_, hn⟩))
  exact List.mem_map_of_mem (hb ▸ hbm)

theorem placed_of_done (hs : Starts S s lb updateLB) (hb : Begun S s cfg true lb updateLB pool p d)
    (hadd : addRule S cfg (namesOf cfg.meta_.uid pool) d = .ok (d', port)) (hst : Stored P S d' s s')
    (ha : Addressed P S pool d' s ip) :
    Placed P S s.cloud.writes cfg pool ip port s.lbProperties s'.lbProperties := by
  have ho := hb.opens
  have ⟨rules, newRule, probes, newProbe, hr, hp, hd'⟩ := addRule_ok hadd
  rw [ho.rules] at hr
  rw [ho.probes] at hp
  have ⟨hne, hkept, hfound⟩ :=
    ho.address_stored (by rw [hd']) (fun hu => by simp [hd', hu]) (by rw [hd']) ha
  rw [hs.lbProperties hb.properties]
  rcases hst with ⟨hu, rfl⟩ | ⟨hu, rfl⟩
  case inl =>
    -- Nothing was found wrong.
    have hip := hkept hu
    simp only [hd', Bool.or_eq_false_iff] at hu
    obtain ⟨⟨hud, rfl⟩, rfl⟩ := hu
    have ⟨_, hprop⟩ := ho.same hud
    rw [hs.lbProperties hb.properties]
    constructor
    case rules   => cases hr; exact ⟨false, .kept ‹_› ‹_› ‹_›⟩
    case probes  => cases hp; exact ⟨false, .kept ‹_› ‹_› ‹_›⟩
    case address => exact hip
    case known   => exact hne
    case backend =>
      rcases ho.backend with ⟨_, hfind⟩ | ⟨hu, _⟩
      · exact hfind rfl
      · exact absurd (hud.symm.trans hu) nofun
    case frontends | backends => exact .inl rfl
  case inr =>
    have hafter : (State.serve P S.az (.createOrUpdateLB d'.toLB) s).2.lbProperties =
      provisionProperties P S.az s.cloud.writes d'.properties := rfl
    rw [hafter]
    constructor
    case rules   => exact ⟨newRule, by rw [hd']; exact hr⟩
    case probes  => exact ⟨newProbe, by rw [hd']; exact hp⟩
    case address => exact hfound
    case known   => exact hne
    case backend => exact ho.backend_stored (by rw [hd']) _
    case frontends =>
      right
      simp only [provisionProperties, hd']
      rcases ho.frontend with ⟨he, _⟩ | ⟨_, _, subnet, he⟩
      · exact ⟨[], nofun, by rw [he, List.append_nil]⟩
      · exact ⟨[getExpectedFrontendConfig pool subnet], by simp [getExpectedFrontendConfig], by rw [he]⟩
    case backends =>
      right
      simp only [provisionProperties, hd']
      rcases ho.backend with ⟨he, _⟩ | ⟨_, he⟩
      · exact ⟨[], nofun, by rw [he, List.append_nil]⟩
      · exact ⟨[getExpectedBackendPool pool], by simp [getExpectedBackendPool], by rw [he]⟩

end Placed

-- What a call takes out of the lists if no rule is needed.
section Removed

theorem removeRule_ok {unused : Bool} (h : removeRule S names d = .ok (d', unused)) :
    d' = { d with
      properties := { d.properties with
        loadBalancingRules := d.properties.loadBalancingRules.filter (!equalFold ·.name names.lbRuleName)
        probes             := d.properties.probes.eraseP (equalFold ·.name names.probeName) }
      updateLB := d.updateLB || d.properties.loadBalancingRules.any (equalFold ·.name names.lbRuleName) ||
        d.properties.probes.any (equalFold ·.name names.probeName) } ∧
    unused = ((d.properties.loadBalancingRules.filter (!equalFold ·.name names.lbRuleName)).countP
      (onFrontend (S.az.getLBFrontendIPConfigurationID names.frontendName)) == 0) := by
  unfold removeRule at h
  split at h
  case h_1 => nomatch h
  case h_2 rules n dropped hd =>
    rw [dropRules_eq (dropRules_ok hd)] at hd
    cases hd
    cases h
    exact ⟨rfl, rfl⟩

omit [CaseFold] in
theorem dropFirst_idle {α : Type} {f : α → Bool} {xs : List α} (h : ∀ x ∈ xs, f x = false) :
    dropFirst f xs = (xs, false) := by
  unfold dropFirst
  rw [List.eraseP_of_forall_not fun x hx => by simp [h x hx], List.any_eq_false.mpr fun x hx => by simp [h x hx]]

theorem removeFrontend_idle
    (hf : ∀ f ∈ d.properties.frontendIPConfigurations,
      equalFold (val f.id) (S.az.getLBFrontendIPConfigurationID names.frontendName) = false)
    (hb : ∀ b ∈ d.properties.backendAddressPools,
      equalFold (val b.id) (S.az.getLBBackendAddressPoolID names.backendName) = false) :
    removeFrontend S names d = d := by
  unfold removeFrontend dropFrontend dropBackend
  rw [dropFirst_idle hf, dropFirst_idle hb]
  simp only [Bool.or_false]

omit [CaseFold] in
theorem dropFirst_same {α : Type} {f : α → Bool} {xs : List α} (h : (dropFirst f xs).2 = false) :
    (dropFirst f xs).1 = xs :=
  List.eraseP_of_forall_not fun x hx => List.any_eq_false.mp h x hx

theorem removeRule_same {unused : Bool} (h : removeRule S names d = .ok (d', unused)) (hu : d'.updateLB = false) :
    d'.properties = d.properties := by
  have ⟨hd', _⟩ := removeRule_ok h
  simp only [hd', Bool.or_eq_false_iff] at hu
  have hrules : d.properties.loadBalancingRules.filter (!equalFold ·.name names.lbRuleName) =
      d.properties.loadBalancingRules :=
    List.filter_eq_self.mpr fun rule hm => by simpa using List.any_eq_false.mp hu.left.right rule hm
  have hprobes := dropFirst_same hu.right
  rw [hd', hrules]
  simp only [dropFirst] at hprobes
  rw [hprobes]

theorem removeFrontend_same (hu : (removeFrontend S names d).updateLB = false) :
    d.updateLB = false ∧ (removeFrontend S names d).properties = d.properties := by
  simp only [removeFrontend, dropFrontend, dropBackend, Bool.or_eq_false_iff] at hu ⊢
  rw [dropFirst_same hu.left.right, dropFirst_same hu.right]
  exact ⟨hu.left.left, rfl⟩

variable {unused : Bool}

theorem removed_same (hr : removeRule S names d = .ok (d', unused)) (hu : (removed S names unused d').updateLB = false) :
    (removed S names unused d').properties = d.properties := by
  cases unused
  case false => exact removeRule_same hr hu
  case true =>
    have ⟨hu', hf⟩ := removeFrontend_same hu
    exact hf.trans (removeRule_same hr hu')

theorem removed_rules (hr : removeRule S names d = .ok (d', unused)) :
    (removed S names unused d').properties.loadBalancingRules =
      d.properties.loadBalancingRules.filter (!equalFold ·.name names.lbRuleName) := by
  have ⟨hd', _⟩ := removeRule_ok hr
  cases unused <;> rw [hd'] <;> rfl

theorem removed_probes (hr : removeRule S names d = .ok (d', unused)) :
    (removed S names unused d').properties.probes =
      d.properties.probes.eraseP (equalFold ·.name names.probeName) := by
  have ⟨hd', _⟩ := removeRule_ok hr
  cases unused <;> rw [hd'] <;> rfl

theorem removeRule_foreign {out : Draft × Bool} (h : removeRule S names d = .ok out) :
    ∀ rule ∈ d.properties.loadBalancingRules, equalFold rule.name names.lbRuleName = false →
      rule.properties.bind (·.frontendIPConfiguration) ≠ none := by
  unfold removeRule at h
  split at h
  case h_1 => nomatch h
  case h_2 hd => exact dropRules_ok hd

theorem removeRule_error {e : Err} (h : removeRule S names d = .error e) :
    e = Err.nilDereference ∧ ¬∀ rule ∈ d.properties.loadBalancingRules,
      equalFold rule.name names.lbRuleName = false → rule.properties.bind (·.frontendIPConfiguration) ≠ none := by
  unfold removeRule at h
  split at h
  case h_1 e' hd =>
    cases h
    refine ⟨dropRules_error hd, fun hn => ?_⟩
    exact absurd (hd.symm.trans (dropRules_eq hn)) nofun
  case h_2 => nomatch h

end Removed

-- The part of a call that does not change anything.
section ReadsOnly

def ReadsOnly {α : Type} (q : M α) : Prop :=
  q.Uses fun c => State → Call.reads c = true

omit [CaseFold] in
theorem readsOnly_request {c : Call} (h : c.reads = true) : ReadsOnly (request c) :=
  uses_perform fun _ => h

theorem readsOnly_loadLBPool {spec : GatewaySpec} : ReadsOnly (loadLBPool spec) := by
  unfold loadLBPool
  split
  · refine uses_bind (readsOnly_request rfl) fun vmss => ?_
    split
    · trivial
    · refine uses_bind (readsOnly_request rfl) fun vms => ?_
      split <;> trivial
  · refine uses_bind ?_ fun _ => trivial
    unfold getVMSS
    split
    · trivial
    · exact readsOnly_request rfl

theorem readsOnly_openDraft : ReadsOnly (openDraft S cfg needLB lb updateLB) := by
  refine uses_bind readsOnly_loadLBPool fun ap => uses_ofExcept fun names _ => ?_
  split
  · trivial
  · refine uses_bind (uses_ofExcept fun ip _ => ?_) fun _ => uses_ofExcept fun _ _ => trivial
    split
    · exact uses_bind (readsOnly_request rfl) fun _ => trivial
    · trivial

omit [CaseFold] in
theorem readsOnly_getGatewayLB : ReadsOnly getGatewayLB := by
  refine uses_bind (uses_attempt (readsOnly_request rfl)) fun r => ?_
  cases r
  case ok => trivial
  case error e =>
    change (if e.isNotFound then _ else _ : M (Option LoadBalancer)).Uses _
    split <;> trivial

end ReadsOnly

end Manager
