import EgressGateway.Manager.Theorems.Repair

-- `reconcileLBRule` on a load balancer with nil pointers.

open Kubernetes Azure Text Program Keyed

namespace Manager

variable [CaseFold] {S : Settings} {P : Platform} {A : Fault → Prop} {s s' : State}
  {cfg : GatewayLBConfiguration} {names : LBPropertyNames} {pool ip : String} {port : Int}
  {lb : LoadBalancer} {p : LoadBalancerProperties} {d d' : Draft} {needLB updateLB : Bool}

section Crash

-- Some pointer of a rule or a probe is nil.

def Incomplete (rule : LoadBalancingRule) : Prop :=
  ∀ p, rule.properties = some p → p.protocol = none ∨ p.enableFloatingIP = none ∨
    p.frontendIPConfiguration = none ∨ p.backendAddressPool = none ∨ p.probe = none ∨
    p.frontendPort = none ∨ p.backendPort = none

def IncompleteProbe (probe : Probe) : Prop :=
  ∀ p, probe.properties = some p → p.requestPath = none ∨ p.protocol = none

-- What becomes of the rule and the probe of the configuration.
def Mended (S : Settings) (cfg : GatewayLBConfiguration) (needLB : Bool) (port : Int) (s s' : State) : Prop :=
  if needLB then
    ∃ pool, poolID S s.cloud cfg.spec = some pool ∧
    (∀ rule, s.lbProperties.loadBalancingRules.find? (equalFold ·.name cfg.meta_.uid) = some rule →
      Incomplete rule → s'.lbProperties.loadBalancingRules =
        s.lbProperties.loadBalancingRules.eraseP (equalFold ·.name cfg.meta_.uid) ++
          [withPort (expectedLBRule S (namesOf cfg.meta_.uid pool)) port]) ∧
    (∀ probe, s.lbProperties.probes.find? (equalFold ·.name cfg.meta_.uid) = some probe →
      IncompleteProbe probe → s'.lbProperties.probes =
        s.lbProperties.probes.eraseP (equalFold ·.name cfg.meta_.uid) ++
          [expectedLBProbe S (namesOf cfg.meta_.uid pool) cfg])
  else
    s'.cloud.loadBalancer = none ∨
    s'.lbProperties.loadBalancingRules =
      s.lbProperties.loadBalancingRules.filter (!equalFold ·.name cfg.meta_.uid) ∧
    s'.lbProperties.probes = s.lbProperties.probes.eraseP (equalFold ·.name cfg.meta_.uid)

def Survives (P : Platform) (S : Settings) (cfg : GatewayLBConfiguration) (needLB : Bool) (s : State) : Prop :=
  ∀ φ, Sane (callLBRule P S cfg needLB φ s).result s ∧
    ∀ ip port, (callLBRule P S cfg needLB φ s).result = .ok (ip, port) →
      Mended S cfg needLB port s (callLBRule P S cfg needLB φ s).state

-- The pool has an address, or is going to get one.
def Servable (pool ip : String) (p : LoadBalancerProperties) : Prop :=
  ip ≠ "" ∨ ∀ f ∈ p.frontendIPConfigurations, equalFold f.name pool = false

-- Nothing that is dereferenced is nil, and no rule is taken for complete without having ports.
def Tolerable (S : Settings) (s : State) (cfg : GatewayLBConfiguration) (needLB : Bool) : Prop :=
  ∀ lb p pool ip, s.cloud.loadBalancer = some lb → Passes S s.cloud needLB cfg lb pool p ip →
    if needLB then
      (∃ out, ensureRule (expectedLBRule S (namesOf cfg.meta_.uid pool)) p.loadBalancingRules = .ok out) →
      (∀ probe, p.probes.find? (equalFold ·.name cfg.meta_.uid) = some probe → ¬Dangling S cfg probe) ∧
      (Servable pool ip p → ∀ rule q,
        p.loadBalancingRules.find? (equalFold ·.name cfg.meta_.uid) = some rule → rule.properties = some q →
        Wired S (namesOf cfg.meta_.uid pool) q → q.frontendPort ≠ none ∧ q.backendPort ≠ none)
    else
      ∀ rule ∈ p.loadBalancingRules, equalFold rule.name cfg.meta_.uid = false →
        rule.properties.bind (·.frontendIPConfiguration) ≠ none

theorem Wired.complete {rule : LoadBalancingRule} {q : LoadBalancingRuleProperties}
    (h : Wired S names q) (hq : rule.properties = some q) (hp : q.frontendPort ≠ none ∧ q.backendPort ≠ none) :
    ¬Incomplete rule := by
  intro hi
  have ⟨_, hf, _⟩ := h.frontend
  have ⟨_, hb, _⟩ := h.backend
  have ⟨_, hpr, _⟩ := h.probe
  rcases hi q hq with hn | hn | hn | hn | hn | hn | hn
  · exact absurd (h.protocol.symm.trans hn) nofun
  · exact absurd (h.floatingIP.symm.trans hn) nofun
  · exact absurd (hf.symm.trans hn) nofun
  · exact absurd (hb.symm.trans hn) nofun
  · exact absurd (hpr.symm.trans hn) nofun
  · exact hp.left hn
  · exact hp.right hn

omit [CaseFold] in
theorem Probed.complete {probe : Probe} {q : ProbeProperties} (h : Probed S cfg q)
    (hq : probe.properties = some q) : ¬IncompleteProbe probe := by
  intro hi
  rcases hi q hq with hn | hn
  · have hpath := h.path
    rw [hn] at hpath
    have hl := congrArg String.length hpath
    rw [String.length_append] at hl
    have hlen : gatewayHealthProbeEndpoint.length = 4 := by decide
    have hnone : (val (none : Option String)).length = 0 := rfl
    omega
  · exact absurd (h.protocol.symm.trans hn) nofun

omit [CaseFold] in
theorem Probed.not_dangling {probe : Probe} {q : ProbeProperties} (h : Probed S cfg q)
    (hq : probe.properties = some q) : ¬Dangling S cfg probe := by
  rintro (hn | ⟨q', hq', _, _, hn⟩)
  · exact absurd (hq.symm.trans hn) nofun
  · obtain rfl := Option.some.inj (hq.symm.trans hq')
    exact absurd (h.protocol.symm.trans hn) nofun

theorem servable_of_addressed (ho : Opens S true pool lb p updateLB d) (ha : d'.frontendIP = d.frontendIP)
    (hu : d.updateLB = true → d'.updateLB = true)
    (hf : d'.properties.frontendIPConfigurations = d.properties.frontendIPConfigurations)
    (h : Addressed P S pool d' s ip) : Servable pool d.frontendIP p := by
  have ⟨hne, _, hfound⟩ := ho.address_stored ha hu hf h
  by_cases hip : d.frontendIP = ""
  case neg => exact .inl hip
  case pos =>
    have ⟨new, hnew⟩ : ∃ new, d.properties.frontendIPConfigurations = p.frontendIPConfigurations ++ new := by
      rcases ho.frontend with ⟨he, _⟩ | ⟨_, _, subnet, he⟩
      · exact ⟨[], by simp [he]⟩
      · exact ⟨_, he⟩
    have haddr := ho.address
    rw [hip] at haddr
    simp only [provisionProperties, hf, hnew] at hfound
    rcases findFrontendIP_empty (P := P) (S := S) haddr s.cloud.writes new with hn | he
    · exact .inr hn
    · exact absurd (Except.ok.inj (he.symm.trans hfound)).symm hne

theorem addressed_of_servable (ho : Opens S true pool lb p updateLB d) (ha : d'.frontendIP = d.frontendIP)
    (hf : d'.properties.frontendIPConfigurations = d.properties.frontendIPConfigurations)
    (h : Servable pool d.frontendIP p) : ∃ ip, Addressed P S pool d' s ip := by
  by_cases hip : d.frontendIP = ""
  case neg => exact ⟨_, .inl ⟨.inr (ha ▸ hip), rfl⟩⟩
  case pos =>
    have hn := h.resolve_left fun hne => hne hip
    rcases ho.frontend with ⟨_, hc⟩ | ⟨_, _, subnet, he⟩
    · exact absurd ⟨hip, rfl⟩ hc
    · refine ⟨_, .inr ⟨ha ▸ hip, P.frontendIP_ne s.cloud.writes pool, ?_⟩⟩
      simp only [provisionProperties, hf, he]
      exact findFrontendIP_new hn _ subnet

omit [CaseFold] in
theorem identified_newLB : Identified (newLB S) := by
  intro p hp b hb
  cases hp
  nomatch hb

section Replaced

variable {rules rules' : List LoadBalancingRule} {probes probes' : List Probe} {new : Bool}

theorem Ensured.replaced (h : Ensured S names rules rules' port new) {rule : LoadBalancingRule}
    (hf : rules.find? (equalFold ·.name names.lbRuleName) = some rule)
    (hn : ∀ q, rule.properties = some q → ¬Wired S names q) :
    rules' = rules.eraseP (equalFold ·.name names.lbRuleName) ++ [withPort (expectedLBRule S names) port] := by
  cases h
  case kept rule' q hf' hq hw =>
    obtain rfl := Option.some.inj (hf.symm.trans hf')
    exact absurd hw (hn q hq)
  case created => rfl

theorem EnsuredProbe.replaced (h : EnsuredProbe S names cfg probes (.ok (probes', new))) {probe : Probe}
    (hf : probes.find? (equalFold ·.name names.probeName) = some probe)
    (hn : ∀ q, probe.properties = some q → ¬Probed S cfg q) :
    probes' = probes.eraseP (equalFold ·.name names.probeName) ++ [expectedLBProbe S names cfg] := by
  cases h
  case kept probe' q hf' hq hprobed =>
    obtain rfl := Option.some.inj (hf.symm.trans hf')
    exact absurd hprobed (hn q hq)
  case created => rfl

theorem EnsuredProbe.not_dangling (h : EnsuredProbe S names cfg probes (.ok (probes', new))) {probe : Probe}
    (hf : probes.find? (equalFold ·.name names.probeName) = some probe) : ¬Dangling S cfg probe := by
  cases h
  case kept probe' q hf' hq hprobed =>
    obtain rfl := Option.some.inj (hf.symm.trans hf')
    exact hprobed.not_dangling hq
  case created hfind => exact (hfind probe hf).left

end Replaced

theorem mended_of_placed {now : Nat} (hp : Placed P S now cfg pool ip port s.lbProperties s'.lbProperties)
    (hpool : poolID S s.cloud cfg.spec = some pool)
    (hports : ∀ rule q, s.lbProperties.loadBalancingRules.find? (equalFold ·.name cfg.meta_.uid) = some rule →
      rule.properties = some q → Wired S (namesOf cfg.meta_.uid pool) q →
      q.frontendPort ≠ none ∧ q.backendPort ≠ none) : Mended S cfg true port s s' := by
  have ⟨_, hr⟩ := hp.rules
  have ⟨_, hpr⟩ := hp.probes
  refine ⟨pool, hpool, fun rule hf hi => ?_, fun probe hf hi => ?_⟩
  · exact hr.replaced hf fun q hq hw => hw.complete hq (hports rule q hf hq hw) hi
  · exact hpr.replaced hf fun q hq hprobed => hprobed.complete hq hi

theorem sane_added (hs : Starts S s lb updateLB) (hi : Identified lb) (ht : Tolerable S s cfg true)
    {res : Except Err (String × Int)} (h : Added P S A s cfg lb updateLB res s') : Sane res s := by
  intro e he
  cases he
  cases h
  case stopped _ sane => exact sane hi
  case unanswered sane => exact sane
  case refused pool p d hb h =>
    rcases addRule_error h with hr | ⟨out, hr, hp⟩
    · exact ensureRule_sane hr
    · rw [hb.opens.probes] at hp
      rw [hb.opens.rules] at hr
      rcases hs with ⟨hlb, _⟩ | ⟨_, rfl, _⟩
      · have ⟨hprobe, _⟩ := ht lb p pool _ hlb hb.passes ⟨out, hr⟩
        cases hp
        case crashed probe hf hd => exact absurd hd (hprobe probe hf)
      · cases hb.properties
        cases hp
        case crashed hf _ => nomatch hf

theorem mended_added (hs : Starts S s lb updateLB) (ht : Tolerable S s cfg true)
    (h : Added P S A s cfg lb updateLB (.ok (ip, port)) s') : Mended S cfg true port s s' := by
  cases h
  case done pool p d d' hb ha hadd hst =>
    have hp := placed_of_done hs hb hadd hst ha
    have ⟨rules, _, _, _, hr, _, hd'⟩ := addRule_ok hadd
    refine mended_of_placed hp hb.resolved fun rule q hf hq hw => ?_
    have hserv := servable_of_addressed hb.opens (by rw [hd']) (fun hu => by simp [hd', hu]) (by rw [hd']) ha
    rw [hs.lbProperties hb.properties] at hf
    rcases hs with ⟨hlb, _⟩ | ⟨_, rfl, _⟩
    · exact (ht lb p pool _ hlb hb.passes ⟨_, ensureRule_kept hf hq hw⟩).right hserv rule q hf hq hw
    · cases hb.properties
      nomatch hf

theorem sane_dropped (hi : Identified lb) (hlb : s.cloud.loadBalancer = some lb) (ht : Tolerable S s cfg false)
    {res : Except Err (String × Int)} (h : Dropped P S A s cfg lb res s') : Sane res s := by
  intro e he
  cases he
  cases h
  case stopped _ sane => exact sane hi
  case unanswered sane => exact sane
  case refused pool p d hb h =>
    have hprop := (hb.opens.idle (.inl rfl)).right
    have ⟨_, hn⟩ := removeRule_error h
    rw [hprop] at hn
    exact absurd (ht lb p pool _ hlb hb.passes) hn

theorem mended_dropped (hlb : s.cloud.loadBalancer = some lb) {out : String × Int}
    (h : Dropped P S A s cfg lb (.ok out) s') : Mended S cfg false port s s' := by
  cases h
  case deleted hgone => exact .inl hgone
  case done pool p d d' unused hb hr _ hst =>
    right
    have hprop := (hb.opens.idle (.inl rfl)).right
    have hbefore : s.lbProperties = p := Starts.lbProperties (S := S) (.inl ⟨hlb, rfl⟩) hb.properties
    have hrules := removed_rules hr
    have hprobes := removed_probes hr
    rw [hprop] at hrules hprobes
    rcases hst with ⟨hu, rfl⟩ | ⟨_, rfl⟩
    · rw [removed_same hr hu, hprop] at hrules hprobes
      rw [hbefore]
      exact ⟨hrules, hprobes⟩
    · rw [hbefore]
      exact ⟨hrules, hprobes⟩

theorem ended_of_run (P : Platform) (S : Settings) (s : State) (cfg : GatewayLBConfiguration) (needLB : Bool)
    (φ : Oracle Sig) : Ended P S (fun _ => True) s cfg needLB (callLBRule P S cfg needLB φ s).result
      (callLBRule P S cfg needLB φ s).state :=
  outcome_of_wp wp_reconcileLBRule_ended rfl

theorem ended_of_calm (P : Platform) (S : Settings) (s : State) (cfg : GatewayLBConfiguration) (needLB : Bool) :
    Ended P S (· = Fault.none) s cfg needLB (callLBRule P S cfg needLB .calm s).result
      (callLBRule P S cfg needLB .calm s).state :=
  (run_of_wp wp_reconcileLBRule_ended .calm 0 (fault_calm _ 0 s)).left

theorem survives_of_tolerable (hi : ∀ lb, s.cloud.loadBalancer = some lb → Identified lb)
    (ht : Tolerable S s cfg needLB) : Survives P S cfg needLB s := by
  intro φ
  have hend := ended_of_run P S s cfg needLB φ
  generalize (callLBRule P S cfg needLB φ s).result = res, (callLBRule P S cfg needLB φ s).state = s' at hend
  rcases hend with ⟨_, _, hs, hn⟩ | ⟨rfl, lb, updateLB, hs, hadd⟩ | ⟨rfl, ⟨hnone, rfl, rfl⟩ | ⟨lb, hlb, hdrop⟩⟩
  case inl => exact ⟨hs, fun ip port he => absurd he (hn _)⟩
  case inr.inl =>
    have hid : Identified lb := hs.elim (fun h => hi lb h.left) fun h => h.right.left ▸ identified_newLB
    refine ⟨sane_added hs hid ht hadd, ?_⟩
    rintro ip port rfl
    exact mended_added hs ht hadd
  case inr.inr.inl => exact ⟨sane_ok, fun ip port _ => .inl hnone⟩
  case inr.inr.inr =>
    refine ⟨sane_dropped (hi lb hlb) hlb ht hdrop, ?_⟩
    rintro ip port rfl
    exact mended_dropped hlb hdrop

-- A rule without ports that looks right is still there after the call.
theorem ports_of_mended {now : Nat} (hp : Placed P S now cfg pool ip port s.lbProperties s'.lbProperties)
    (hpool : poolID S s.cloud cfg.spec = some pool) (hm : Mended S cfg true port s s') {rule : LoadBalancingRule}
    {q : LoadBalancingRuleProperties}
    (hf : s.lbProperties.loadBalancingRules.find? (equalFold ·.name cfg.meta_.uid) = some rule)
    (hq : rule.properties = some q) (hw : Wired S (namesOf cfg.meta_.uid pool) q) :
    q.frontendPort ≠ none ∧ q.backendPort ≠ none := by
  have ⟨pool', hpool', hrule, _⟩ := hm
  obtain rfl := Option.some.inj (hpool.symm.trans hpool')
  have ⟨_, hr⟩ := hp.rules
  have hkept : s'.lbProperties.loadBalancingRules = s.lbProperties.loadBalancingRules := by
    generalize s'.lbProperties.loadBalancingRules = rules' at hr
    cases hr
    case kept => rfl
    case created hn _ =>
      exact absurd ((sameLBRuleConfig_iff.mpr ⟨q, hq, hw⟩).symm.trans (hn rule hf)) nofun
  have hcomplete : ¬Incomplete rule := by
    intro hi
    have hsame := hrule rule hf hi
    rw [hkept] at hsame
    have he := eq_of_eq_replace hf hsame
    rw [he] at hi
    exact absurd (hi _ rfl) (by simp)
  constructor
  · exact fun hn => hcomplete fun q' hq' => by simp [← Option.some.inj (hq.symm.trans hq'), hn]
  · exact fun hn => hcomplete fun q' hq' => by simp [← Option.some.inj (hq.symm.trans hq'), hn]

theorem tolerable_added (hs : Starts S s lb updateLB) (hpass : Passes S s.cloud true cfg lb pool p ip)
    {res : Except Err (String × Int)} (hsane : Sane res s)
    (hmend : ∀ ip port, res = .ok (ip, port) → Mended S cfg true port s s')
    (h : Added P S (· = Fault.none) s cfg lb updateLB res s')
    (hr : ∃ out, ensureRule (expectedLBRule S (namesOf cfg.meta_.uid pool)) p.loadBalancingRules = .ok out) :
    (∀ probe, p.probes.find? (equalFold ·.name cfg.meta_.uid) = some probe → ¬Dangling S cfg probe) ∧
    (Servable pool ip p → ∀ rule q,
      p.loadBalancingRules.find? (equalFold ·.name cfg.meta_.uid) = some rule → rule.properties = some q →
      Wired S (namesOf cfg.meta_.uid pool) q → q.frontendPort ≠ none ∧ q.backendPort ≠ none) := by
  have same {pool' : String} {p' : LoadBalancerProperties} {d : Draft}
      (hb : Begun S s cfg true lb updateLB pool' p' d) : pool' = pool ∧ p' = p ∧ d.frontendIP = ip := by
    obtain rfl := Option.some.inj (hb.resolved.symm.trans hpass.resolved)
    obtain rfl := Option.some.inj (hb.properties.symm.trans hpass.properties)
    exact ⟨rfl, rfl, Except.ok.inj (hb.opens.address.symm.trans hpass.address)⟩
  cases h
  case stopped hn _ => exact absurd hpass (hn.resolve_left not_disturbed_calm pool p ip)
  case refused hb h =>
    obtain ⟨rfl, rfl, rfl⟩ := same hb
    rcases addRule_error h with he | ⟨_, _, hp⟩
    · have ⟨_, hok⟩ := hr
      rw [hb.opens.rules] at he
      exact absurd (he.symm.trans hok) nofun
    · cases hp
      exact absurd rfl (hsane _ rfl)
  case unanswered d d' _ _ hb hadd hn _ =>
    obtain ⟨rfl, rfl, rfl⟩ := same hb
    have ⟨_, _, _, _, _, hp, hd'⟩ := addRule_ok hadd
    rw [hb.opens.probes] at hp
    refine ⟨fun probe hf => hp.not_dangling hf, fun hserv => ?_⟩
    have hip : d'.frontendIP = d.frontendIP := by rw [hd']
    have hfs : d'.properties.frontendIPConfigurations = d.properties.frontendIPConfigurations := by rw [hd']
    have ⟨ip, ha⟩ := addressed_of_servable (P := P) (s := s) hb.opens hip hfs hserv
    exact absurd ha (hn.resolve_left not_disturbed_calm ip)
  case done hb hadd ha hst =>
    obtain ⟨rfl, rfl, rfl⟩ := same hb
    have ⟨_, _, _, _, _, hp, _⟩ := addRule_ok hadd
    rw [hb.opens.probes] at hp
    refine ⟨fun probe hf => hp.not_dangling hf, fun _ rule q hf hq hw => ?_⟩
    rw [← hs.lbProperties hb.properties] at hf
    exact ports_of_mended (placed_of_done hs hb hadd hst ha) hb.resolved (hmend _ _ rfl) hf hq hw

theorem tolerable_of_survives (h : Survives P S cfg needLB s) : Tolerable S s cfg needLB := by
  have ⟨hsane, hmend⟩ := h .calm
  have hend := ended_of_calm P S s cfg needLB
  generalize (callLBRule P S cfg needLB .calm s).result = res,
    (callLBRule P S cfg needLB .calm s).state = s' at hend hsane hmend
  intro lb p pool ip hlb hpass
  rcases hend with ⟨_, hd, _⟩ | ⟨rfl, lb', updateLB, hs, hadd⟩ | ⟨rfl, ⟨hnone, _⟩ | ⟨lb', hlb', hdrop⟩⟩
  case inl => exact absurd hd not_disturbed_calm
  case inr.inr.inl => exact absurd (hlb.symm.trans hnone) nofun
  case inr.inl =>
    obtain rfl : lb = lb' := by
      rcases hs with ⟨h, _⟩ | ⟨h, _⟩
      · exact Option.some.inj (hlb.symm.trans h)
      · exact absurd (hlb.symm.trans h) nofun
    exact fun hr => tolerable_added hs hpass hsane hmend hadd hr
  case inr.inr.inr =>
    obtain rfl := Option.some.inj (hlb.symm.trans hlb')
    have hfound {pool' : String} {p' : LoadBalancerProperties} {d : Draft} {out : Draft × Bool}
        (hb : Begun S s cfg false lb false pool' p' d)
        (hr : removeRule S (namesOf cfg.meta_.uid pool') d = .ok out) :
        ∀ rule ∈ p.loadBalancingRules, equalFold rule.name cfg.meta_.uid = false →
          rule.properties.bind (·.frontendIPConfiguration) ≠ none := by
      obtain rfl := Option.some.inj (hpass.properties.symm.trans hb.properties)
      have hrules := removeRule_foreign hr
      rw [(hb.opens.idle (.inl rfl)).right] at hrules
      exact hrules
    cases hdrop
    case stopped hn _ => exact absurd hpass (hn.resolve_left not_disturbed_calm pool p ip)
    case refused h =>
      have ⟨he, _⟩ := removeRule_error h
      exact absurd (congrArg Err.code he) (hsane _ rfl)
    case unanswered hd _ => exact absurd hd not_disturbed_calm
    case deleted hb hr _ => exact hfound hb hr
    case done hb hr _ _ => exact hfound hb hr

end Crash

end Manager

namespace Manager

namespace Sample

-- A load balancer with a rule of somebody else, and a probe of `a`.
def foreign (frontend : Option SubResource) (probe : Probe) : State :=
  let s := ruled [{ ruleOf "b" .udp (some 6000) (some 6000) with
    properties := (ruleOf "b" .udp (some 6000) (some 6000)).properties.map fun p =>
      { p with frontendIPConfiguration := frontend } }]
  { s with
    cloud.loadBalancer := s.cloud.loadBalancer.map fun lb =>
      { lb with properties := lb.properties.map fun p => { p with probes := [probe] } } }

theorem identified_ruled (rules : List LoadBalancingRule) :
    ∀ lb, (ruled rules).cloud.loadBalancer = some lb → Identified lb := by
  rintro lb ⟨⟩ p ⟨⟩ b hb
  obtain rfl := List.mem_singleton.mp hb
  exact nofun

end Sample

end Manager
