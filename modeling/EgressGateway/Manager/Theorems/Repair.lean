import EgressGateway.Manager.Theorems.Stages

-- `reconcileLBRule` on a load balancer that anybody may have edited.

open Kubernetes Azure Text Program Keyed

namespace Manager

variable [CaseFold] {S : Settings} {P : Platform} {A : Fault → Prop} {s s' : State}
  {cfg : GatewayLBConfiguration} {names : LBPropertyNames} {pool ip : String} {port : Int}
  {lb : LoadBalancer} {p : LoadBalancerProperties} {d d' : Draft} {needLB updateLB : Bool}

section Repair

structure UniqueNames (p : LoadBalancerProperties) : Prop where
  frontends : (p.frontendIPConfigurations.map (foldKey ·.name)).Nodup
  backends  : (p.backendAddressPools.map (foldKey ·.name)).Nodup
  rules     : (p.loadBalancingRules.map (foldKey ·.name)).Nodup
  probes    : (p.probes.map (foldKey ·.name)).Nodup

theorem pairwise_named {α : Type} {name : α → String} {xs : List α} (h : (xs.map (foldKey <| name ·)).Nodup)
    (n : String) : xs.Pairwise fun x y => ¬(equalFold (name x) n = true ∧ equalFold (name y) n = true) :=
  pairwise_of_nodup h fun _ hx => equalFold_iff.mp hx

-- The rule of a configuration, with a port that no other rule of its backend pool has.
structure Fit (S : Settings) (names : LBPropertyNames) (port : Int) (others : List LoadBalancingRule)
    (rule : LoadBalancingRule) : Prop where
  wired  : ∃ p, rule.properties = some p ∧ Wired S names p ∧
    p.frontendPort = some port ∧ p.backendPort = some port
  range  : Listening port
  unique : ∀ other ∈ others, ¬Takes (S.az.getLBBackendAddressPoolID names.backendName) port other

-- The load balancer as a call should leave it behind. Azure completes the frontends and backends
-- that it is sent.
structure Repaired (P : Platform) (S : Settings) (now : Nat) (cfg : GatewayLBConfiguration) (pool ip : String)
    (port : Int) (before after : LoadBalancerProperties) : Prop where
  rule      : ∃ rule, after.loadBalancingRules.filter (equalFold ·.name cfg.meta_.uid) = [rule] ∧
    Fit S (namesOf cfg.meta_.uid pool) port
      (after.loadBalancingRules.filter (!equalFold ·.name cfg.meta_.uid)) rule
  rules     : after.loadBalancingRules.filter (!equalFold ·.name cfg.meta_.uid) =
    before.loadBalancingRules.filter (!equalFold ·.name cfg.meta_.uid)
  probe     : ∃ probe p, after.probes.filter (equalFold ·.name cfg.meta_.uid) = [probe] ∧
    probe.properties = some p ∧ Probed S cfg p
  probes    : after.probes.filter (!equalFold ·.name cfg.meta_.uid) =
    before.probes.filter (!equalFold ·.name cfg.meta_.uid)
  frontend  : ∃ f p, f ∈ after.frontendIPConfigurations ∧ equalFold f.name pool = true ∧
    f.properties = some p ∧ p.privateIPAddress = some ip
  frontends : List.Forall₂ (fun f f' => f' = f ∨ f' = P.provisionFrontend S.az now f)
    (before.frontendIPConfigurations.filter (!equalFold ·.name pool))
    (after.frontendIPConfigurations.filter (!equalFold ·.name pool))
  backend   : ∃ b ∈ after.backendAddressPools, equalFold b.name pool = true ∧
    equalFold (val b.id) (S.az.getLBBackendAddressPoolID pool) = true
  backends  : List.Forall₂ (fun b b' => b' = b ∨ b' = Platform.provisionBackend S.az b)
    (before.backendAddressPools.filter (!equalFold ·.name pool))
    (after.backendAddressPools.filter (!equalFold ·.name pool))

-- The one thing that is not compared: a rule that is wired correctly is kept with whatever ports it has.
def PortsFit (S : Settings) (names : LBPropertyNames) (rules : List LoadBalancingRule) : Prop :=
  ∀ rule ∈ rules, equalFold rule.name names.lbRuleName = true →
    sameLBRuleConfig rule (expectedLBRule S names) = true →
    ∃ port, Fit S names port (rules.filter (!equalFold ·.name names.lbRuleName)) rule

variable {now : Nat} {before after : LoadBalancerProperties} {rules rules' : List LoadBalancingRule} {new : Bool}

theorem withPort_named : equalFold (withPort (expectedLBRule S names) port).name names.lbRuleName = true :=
  equalFold_refl _

theorem Ensured.others (h : Ensured S names rules rules' port new) :
    rules'.filter (!equalFold ·.name names.lbRuleName) = rules.filter (!equalFold ·.name names.lbRuleName) := by
  cases h
  case kept    => rfl
  case created => exact filter_not_replace withPort_named

theorem Ensured.fit_iff (h : Ensured S names rules rules' port new) (hu : (rules.map (foldKey ·.name)).Nodup) :
    (∃ rule, rules'.filter (equalFold ·.name names.lbRuleName) = [rule] ∧
      Fit S names port (rules'.filter (!equalFold ·.name names.lbRuleName)) rule) ↔ PortsFit S names rules := by
  have hone := pairwise_named hu names.lbRuleName
  cases h
  case kept rule p hf hp hw =>
    have hown := filter_of_find? hone hf
    constructor
    case mp =>
      rintro ⟨rule', hrule', hfit⟩ other hm hn _
      obtain rfl : rule = rule' := by simpa using hown.symm.trans hrule'
      obtain rfl : other = rule := by
        have hmem : other ∈ rules.filter (equalFold ·.name names.lbRuleName) := List.mem_filter.mpr ⟨hm, hn⟩
        rw [hown] at hmem
        exact List.mem_singleton.mp hmem
      exact ⟨_, hfit⟩
    case mpr =>
      intro hports
      have hn : equalFold rule.name names.lbRuleName = true := by simpa using List.find?_some hf
      have ⟨port, hfit⟩ := hports rule (List.mem_of_find?_eq_some hf) hn (sameLBRuleConfig_iff.mpr ⟨p, hp, hw⟩)
      have ⟨p', hp', _, hport, _⟩ := hfit.wired
      obtain rfl := Option.some.inj (hp.symm.trans hp')
      refine ⟨rule, hown, ?_⟩
      rwa [hport]
  case created hf hsel =>
    constructor
    case mp =>
      intro _ rule hm hn hsame
      have hfind : rules.find? (equalFold ·.name names.lbRuleName) = some rule := by
        cases hfind : rules.find? (equalFold ·.name names.lbRuleName)
        case none => exact absurd hn (by simpa using List.find?_eq_none.mp hfind rule hm)
        case some rule' =>
          have hmem : rule ∈ rules.filter (equalFold ·.name names.lbRuleName) := List.mem_filter.mpr ⟨hm, hn⟩
          rw [filter_of_find? hone hfind] at hmem
          exact congrArg some (List.mem_singleton.mp hmem).symm
      exact absurd (hsame.symm.trans (hf rule hfind)) nofun
    case mpr =>
      intro _
      refine ⟨_, filter_replace hone withPort_named, ?_, listening_selectPort hsel, ?_⟩
      · refine ⟨_, rfl, ?_, rfl, rfl⟩
        exact ⟨rfl, rfl, ⟨_, rfl, equalFold_refl _⟩, ⟨_, rfl, equalFold_refl _⟩, ⟨_, rfl, equalFold_refl _⟩⟩
      · intro other hm
        have hothers : (rules.eraseP (equalFold ·.name names.lbRuleName) ++
            [withPort (expectedLBRule S names) port]).filter (!equalFold ·.name names.lbRuleName) =
            rules.filter (!equalFold ·.name names.lbRuleName) := filter_not_replace withPort_named
        rw [hothers, ← eraseP_eq_filter_not hone] at hm
        exact not_takes_of_selectPort backend_expected hsel other hm

section Probes

variable {probes probes' : List Probe}

theorem EnsuredProbe.others (h : EnsuredProbe S names cfg probes (.ok (probes', new))) :
    probes'.filter (!equalFold ·.name names.probeName) = probes.filter (!equalFold ·.name names.probeName) := by
  cases h
  case kept    => rfl
  case created => exact filter_not_replace (equalFold_refl _)

theorem EnsuredProbe.probed (h : EnsuredProbe S names cfg probes (.ok (probes', new)))
    (hu : (probes.map (foldKey ·.name)).Nodup) :
    ∃ probe p, probes'.filter (equalFold ·.name names.probeName) = [probe] ∧
      probe.properties = some p ∧ Probed S cfg p := by
  have hone := pairwise_named hu names.probeName
  cases h
  case kept probe p hf hp hprobed => exact ⟨probe, p, filter_of_find? hone hf, hp, hprobed⟩
  case created => exact ⟨_, _, filter_replace hone (equalFold_refl _), rfl, rfl, rfl, rfl⟩

end Probes

omit [CaseFold] in
theorem forall₂_filter_map {α : Type} {xs new : List α} {keep : α → Bool} {f : α → α}
    (hnew : ∀ x ∈ new, keep x = false) (hf : ∀ x, keep (f x) = keep x) :
    List.Forall₂ (fun x y => y = x ∨ y = f x) (xs.filter keep) (((xs ++ new).map f).filter keep) := by
  have hkeep : keep ∘ f = keep := funext hf
  have hnil : new.filter keep = [] := List.filter_eq_nil_iff.mpr fun x hx => by simp [hnew x hx]
  rw [List.filter_map, hkeep, List.filter_append, hnil, List.append_nil, List.forall₂_map_right_iff]
  exact List.forall₂_same.mpr fun x _ => .inr rfl

theorem Placed.repaired_iff (h : Placed P S now cfg pool ip port before after) (hu : UniqueNames before) :
    Repaired P S now cfg pool ip port before after ↔
    PortsFit S (namesOf cfg.meta_.uid pool) before.loadBalancingRules := by
  have ⟨_, hr⟩ := h.rules
  have ⟨_, hp⟩ := h.probes
  have hfit := hr.fit_iff hu.rules
  refine ⟨fun hrep => hfit.mp hrep.rule, fun hports => ?_⟩
  constructor
  case rule  => exact hfit.mpr hports
  case rules => exact hr.others
  case probe  => exact hp.probed hu.probes
  case probes => exact hp.others
  case frontend =>
    have ⟨f, method, subnet, hf, hprop⟩ := findFrontendIP_eq_ok h.address h.known
    exact ⟨f, _, List.mem_of_find?_eq_some hf, by simpa using List.find?_some hf, hprop, rfl⟩
  case frontends =>
    rcases h.frontends with he | ⟨new, hnew, he⟩
    · rw [he]
      exact List.forall₂_same.mpr fun f _ => .inl rfl
    · rw [he]
      exact forall₂_filter_map (fun f hf => by simp [hnew f hf, equalFold_refl]) fun f => rfl
  case backend =>
    have ⟨b, hb, hn, hid⟩ := mem_of_findBackend h.backend
    exact ⟨b, hb, hn, hid⟩
  case backends =>
    rcases h.backends with he | ⟨new, hnew, he⟩
    · rw [he]
      exact List.forall₂_same.mpr fun b _ => .inl rfl
    · rw [he]
      exact forall₂_filter_map (fun b hb => by simp [hnew b hb, equalFold_refl]) fun b => rfl

theorem placed_of_run {φ : Oracle Sig} (h : (callLBRule P S cfg true φ s).result = .ok (ip, port)) :
    ∃ pool lb, poolID S s.cloud cfg.spec = some pool ∧
      (callLBRule P S cfg true φ s).state.cloud.loadBalancer = some lb ∧
      lb.properties = some (callLBRule P S cfg true φ s).state.lbProperties ∧
      Placed P S s.cloud.writes cfg pool ip port s.lbProperties
        (callLBRule P S cfg true φ s).state.lbProperties := by
  have hend := outcome_of_wp wp_reconcileLBRule_ended (Eq.refl (callLBRule P S cfg true φ s))
  rw [h] at hend
  generalize (callLBRule P S cfg true φ s).state = s' at hend
  rcases hend with ⟨_, _, _, hn⟩ | ⟨_, lb, updateLB, hs, hadd⟩ | ⟨hn, _⟩
  case inl => exact absurd rfl (hn _)
  case inr.inr => nomatch hn
  cases hadd
  case done pool p d d' hb ha hadd hst =>
    have hp := placed_of_done hs hb hadd hst ha
    have hbefore := hs.lbProperties hb.properties
    rcases hst with ⟨hu, rfl⟩ | ⟨_, rfl⟩
    case inr => exact ⟨pool, _, hb.resolved, rfl, rfl, hp⟩
    case inl =>
      have ⟨_, _, _, _, _, _, hd'⟩ := addRule_ok hadd
      simp only [hd', Bool.or_eq_false_iff] at hu
      have ⟨hu', _⟩ := hb.opens.same hu.left.left
      rcases hs with ⟨hlb, _⟩ | ⟨_, _, hn⟩
      · refine ⟨pool, lb, hb.resolved, hlb, ?_, hp⟩
        rw [hb.properties, hbefore]
      · exact absurd (hu'.symm.trans hn) nofun

-- A call that succeeds repairs whatever it finds, except for the ports of a rule that looks right.
theorem lbRule_repaired_iff {φ : Oracle Sig} (hu : UniqueNames s.lbProperties)
    (h : (callLBRule P S cfg true φ s).result = .ok (ip, port)) :
    ∃ pool, poolID S s.cloud cfg.spec = some pool ∧
      (Repaired P S s.cloud.writes cfg pool ip port s.lbProperties
        (callLBRule P S cfg true φ s).state.lbProperties ↔
      PortsFit S (namesOf cfg.meta_.uid pool) s.lbProperties.loadBalancingRules) := by
  have ⟨pool, _, hpool, _, _, hp⟩ := placed_of_run h
  exact ⟨pool, hpool, hp.repaired_iff hu⟩

end Repair

end Manager

namespace Manager

namespace Sample

def ruleOf (uid : String) (protocol : TransportProtocol) (frontendPort backendPort : Option Int) :
    LoadBalancingRule where
  name       := uid
  properties := some {
    protocol                := some protocol
    enableFloatingIP        := some true
    frontendIPConfiguration := some ⟨some (settings.az.getLBFrontendIPConfigurationID "vmss-1")⟩
    backendAddressPool      := some ⟨some (settings.az.getLBBackendAddressPoolID "vmss-1")⟩
    probe                   := some ⟨some (settings.az.getLBProbeID uid)⟩
    frontendPort            := frontendPort
    backendPort             := backendPort }

def ruled (rules : List LoadBalancingRule) : State :=
  { inventory with
    cloud.loadBalancer := some {
      name       := settings.az.lbName
      location   := settings.az.location
      properties := some {
        frontendIPConfigurations := [{
          name       := "vmss-1"
          id         := some (settings.az.getLBFrontendIPConfigurationID "vmss-1")
          properties := some ⟨some .ipv4, some .dynamic, some ⟨some "subnet"⟩, some "10.0.0.4"⟩ }]
        backendAddressPools := [⟨"vmss-1", some (settings.az.getLBBackendAddressPoolID "vmss-1")⟩]
        loadBalancingRules  := rules } } }

-- The rule of `a` as it was edited by hand.
def edited (protocol : TransportProtocol) (frontendPort backendPort : Option Int) : State :=
  ruled [ruleOf "a" protocol frontendPort backendPort]

end Sample

open Sample in
theorem lbRule_repaired_sample :
    Repaired .simple settings 0 (lbConfig "a" "gw") "vmss-1" "10.0.0.4" 6000
      (edited .tcp (some 80) none).lbProperties (call "a" (edited .tcp (some 80) none)).state.lbProperties := by
  have hu : UniqueNames (edited .tcp (some 80) none).lbProperties :=
    ⟨by decide +kernel, by decide +kernel, by decide +kernel, by decide +kernel⟩
  have h : (call "a" (edited .tcp (some 80) none)).result = .ok ("10.0.0.4", 6000) := by decide +kernel
  have ⟨pool, hpool, hiff⟩ := lbRule_repaired_iff hu h
  have hid : poolID settings (edited .tcp (some 80) none).cloud (lbConfig "a" "gw").spec = some "vmss-1" := by
    decide +kernel
  obtain rfl := Option.some.inj (hid.symm.trans hpool)
  refine hiff.mpr fun rule hm _ hs => ?_
  have hnot : ∀ rule ∈ (edited .tcp (some 80) none).lbProperties.loadBalancingRules,
      sameLBRuleConfig rule (expectedLBRule settings (namesOf "a" "vmss-1")) = false := by decide +kernel
  exact absurd (hs.symm.trans (hnot rule hm)) nofun

open Sample in
-- The rule is right but for its ports, which stay what they are.
theorem lbRule_not_repaired :
    (call "a" (edited .udp (some 80) (some 81))).result = .ok ("10.0.0.4", 80) ∧
    (call "a" (edited .udp (some 80) (some 81))).state.lbRules =
      (edited .udp (some 80) (some 81)).lbRules ∧ ¬Listening 80 := by
  refine ⟨by decide +kernel, by decide +kernel, ?_⟩
  unfold Listening
  decide

end Manager
