import EgressGateway.Manager.Theorems.Pool
import EgressGateway.Manager.Theorems.Rules

-- The load balancer refines the registry.

open Kubernetes Azure Text Keyed Program

namespace Manager

variable [CaseFold] (S : Settings)

-- A frontend as it is sent to Azure: unless it has an IP already, Azure assigns one.
def Pending (f : FrontendIPConfiguration) : Prop :=
  ∃ method subnet ip, f.properties = some ⟨some .ipv4, method, subnet, ip⟩ ∧ ip ≠ some ""

-- A frontend as Azure returns it.
def Ready (f : FrontendIPConfiguration) : Prop :=
  f.id = some (S.az.getLBFrontendIPConfigurationID f.name) ∧
  ∃ method subnet ip, f.properties = some ⟨some .ipv4, method, subnet, some ip⟩ ∧ ip ≠ ""

def Probing (q : Probe) : Prop :=
  ∃ path protocol port, q.properties = some ⟨path, some protocol, port⟩

structure Drafted (p : LoadBalancerProperties) (r : Registry FoldKey FoldKey) : Prop where
  rules     : ∃ es : List Entry, p.loadBalancingRules = es.map (·.rule S) ∧ r.leases = es.map (·.lease)
  frontends : p.frontendIPConfigurations.map (foldKey ·.name) = r.frontends
  pending   : ∀ f ∈ p.frontendIPConfigurations, Pending f
  backends  : p.backendAddressPools.map (foldKey ·.name) = r.backends
  probes    : (p.probes.map (foldKey ·.name)).Perm r.probes
  probing   : ∀ q ∈ p.probes, Probing q

-- What only holds once Azure has processed a draft.
structure Settled (p : LoadBalancerProperties) : Prop where
  frontends : ∀ f ∈ p.frontendIPConfigurations, Ready S f
  backends  : ∀ b ∈ p.backendAddressPools, b.id = some (S.az.getLBBackendAddressPoolID b.name)

def Refines : Option LoadBalancer → Registry FoldKey FoldKey → Prop
  | none,    r => r = {}
  | some lb, r => ∃ p, lb.properties = some p ∧ Drafted S p r ∧ Settled S p ∧ r.frontends ≠ []

variable {S} {P : Platform} {A : Fault → Prop} {s : State} {cfg : GatewayLBConfiguration}
  {r r' : Registry FoldKey FoldKey} {p : LoadBalancerProperties} {lb : LoadBalancer}
  {uid pool : String}

theorem Pending.provision {f : FrontendIPConfiguration} {now : Nat} (h : Pending f) :
    Ready S (P.provisionFrontend S.az now f) := by
  have ⟨method, subnet, ip, hp, hip⟩ := h
  refine ⟨rfl, method, subnet, ip.getD (P.frontendIP now f.name), ?_, ?_⟩
  case refine_1 => simp [Platform.provisionFrontend, hp]
  case refine_2 =>
    cases ip
    case none   => exact P.frontendIP_ne now f.name
    case some a => exact fun he => hip (congrArg some he)

omit [CaseFold] in
theorem Ready.pending {f : FrontendIPConfiguration} (h : Ready S f) : Pending f := by
  have ⟨_, method, subnet, ip, hp, hip⟩ := h
  exact ⟨method, subnet, some ip, hp, by simpa using hip⟩

theorem Drafted.provision (h : Drafted S p r) (now : Nat) {lb : LoadBalancer}
    (hl : lb.properties = some p) :
    ∃ p', (P.provisionLB S.az now lb).properties = some p' ∧ Drafted S p' r ∧ Settled S p' := by
  refine ⟨_, rfl, ?_, ?_⟩
  all_goals simp only [hl, Option.getD_some]
  case refine_1 =>
    exact { h with
      frontends := by rw [← h.frontends, List.map_map]; rfl
      pending f hf := by
        have ⟨f', hf', he⟩ := List.mem_map.mp hf
        exact he ▸ (h.pending f' hf').provision.pending
      backends := by rw [← h.backends, List.map_map]; rfl }
  case refine_2 =>
    constructor
    case frontends =>
      intro f hf
      have ⟨f', hf', he⟩ := List.mem_map.mp hf
      exact he ▸ (h.pending f' hf').provision
    case backends =>
      intro b hb
      have ⟨b', _, he⟩ := List.mem_map.mp hb
      exact he ▸ rfl

theorem find?_equalFold {α : Type} (name : α → String) (xs : List α) (n : String) :
    xs.find? (fun x => equalFold (name x) n) =
    xs.find? (fun x => foldKey (name x) = foldKey n) := by
  simp only [equalFold_eq_decide]

-- In a settled load balancer a frontend is either missing or has an address.
theorem findFrontendIP_of_settled (h : Settled S p) (name : String) :
    ∃ ip, findFrontendIP p.frontendIPConfigurations name = .ok ip ∧
      (ip = "" ↔ foldKey name ∉ p.frontendIPConfigurations.map (foldKey ·.name)) := by
  unfold findFrontendIP
  rw [find?_equalFold]
  cases hf : p.frontendIPConfigurations.find? (foldKey ·.name = foldKey name)
  case none => exact ⟨"", rfl, by simpa using find?_none_iff.mp hf⟩
  case some f =>
    have ⟨_, method, subnet, ip, hp, hip⟩ := h.frontends f (List.mem_of_find?_eq_some hf)
    have hm := find?_isSome_iff.mp (Option.isSome_of_eq_some hf)
    exact ⟨ip, by simp [hp], by simpa [hip] using hm⟩

theorem findBackend_of_settled {bs : List BackendAddressPool}
    (h : ∀ b ∈ bs, b.id = some (S.az.getLBBackendAddressPoolID b.name)) (name : String) :
    findBackend name (S.az.getLBBackendAddressPoolID name) bs =
    .ok (decide (foldKey name ∈ bs.map (foldKey ·.name))) := by
  induction bs
  case nil => rfl
  case cons b bs hi =>
    have hb := h b List.mem_cons_self
    have hbs : ∀ b ∈ bs, b.id = some (S.az.getLBBackendAddressPoolID b.name) :=
      fun b hb => h b (List.mem_cons_of_mem _ hb)
    by_cases hn : foldKey b.name = foldKey name
    · simp [findBackend, hb, equalFold_iff.mpr hn, hn]
    · simp [findBackend, equalFold_false_iff.mpr hn, hi hbs, Ne.symm hn]

-- The frontends after the call, and whether one was added to them.
structure FrontendReady (needLB : Bool) (pool : String) (fs : List FrontendIPConfiguration)
    (ip : String) (fs' : List FrontendIPConfiguration) (new : Bool) : Prop where
  names   : fs'.map (foldKey ·.name) =
    if needLB then enroll (foldKey pool) (fs.map (foldKey ·.name)) else fs.map (foldKey ·.name)
  pending : ∀ f ∈ fs', Pending f
  same    : new = false → fs' = fs
  needed  : new = true → needLB = true
  address : ip = "" → needLB = true → new = true

theorem wp_reconcileFrontend (h : Settled S p) {names : LBPropertyNames} {needLB : Bool} :
    wp (world P S.az) (.faults A) (reconcileFrontend names needLB p) (fun res s' => s' = s ∧
      match res with
      | .ok (ip, fs, new) =>
        FrontendReady needLB names.frontendName p.frontendIPConfigurations ip fs new
      | .error _ => Disturbed A ∨ needLB = true ∧ s.cloud.subnet = none) s := by
  have ⟨ip, hip, hn⟩ := findFrontendIP_of_settled h names.frontendName
  have hp : ∀ f ∈ p.frontendIPConfigurations, Pending f := fun f hf => (h.frontends f hf).pending
  unfold reconcileFrontend
  rw [hip]
  change wp _ _ (if ip = "" ∧ needLB = true then _ else _) _ _
  split
  case isTrue hc =>
    apply wp_seq wp_getSubnet
    case ok =>
      rintro subnet s ⟨rfl, _⟩
      refine ⟨rfl, ?_⟩
      constructor
      case names =>
        rw [if_pos hc.right, enroll_of_not_mem (hn.mp hc.left), List.map_append]
        rfl
      case pending =>
        intro f hf
        rcases List.mem_append.mp hf with hf | hf
        · exact hp f hf
        · rw [List.mem_singleton.mp hf]
          exact ⟨_, _, none, rfl, by simp⟩
      case same => exact nofun
      case needed => exact fun _ => hc.right
      case address => exact fun _ _ => rfl
    case error =>
      rintro e s ⟨rfl, hd | hd⟩
      · exact ⟨rfl, .inl hd⟩
      · exact ⟨rfl, .inr ⟨hc.right, hd⟩⟩
  case isFalse hc =>
    refine ⟨rfl, ?_⟩
    constructor
    case names =>
      split
      case isTrue hl =>
        have hm : foldKey names.frontendName ∈ p.frontendIPConfigurations.map (foldKey ·.name) := by
          by_contra hm
          exact hc ⟨hn.mpr hm, hl⟩
        exact (enroll_of_mem hm).symm
      case isFalse => rfl
    case pending => exact hp
    case same => exact fun _ => rfl
    case needed => exact nofun
    case address => exact fun he hl => absurd ⟨he, hl⟩ hc

theorem reconcileBackend_of_settled (h : Settled S p) (names : LBPropertyNames) (needLB : Bool) :
    ∃ bs new, reconcileBackend S names needLB p = .ok (bs, new) ∧
      bs.map (foldKey ·.name) =
        (if needLB then enroll (foldKey names.backendName) (p.backendAddressPools.map (foldKey ·.name))
          else p.backendAddressPools.map (foldKey ·.name)) ∧
      (new = false → bs = p.backendAddressPools) ∧ (new = true → needLB = true) := by
  unfold reconcileBackend
  rw [findBackend_of_settled h.backends]
  by_cases hm : foldKey names.backendName ∈ p.backendAddressPools.map (foldKey ·.name)
  case pos => exact ⟨_, false, by simp [hm], by simp [enroll_of_mem hm], fun _ => rfl, nofun⟩
  case neg =>
    cases needLB
    case false => exact ⟨_, false, by simp [hm], rfl, fun _ => rfl, nofun⟩
    case true =>
      refine ⟨_, true, by simp [hm]; rfl, ?_, nofun, fun _ => rfl⟩
      rw [if_pos rfl, enroll_of_not_mem hm, List.map_append]
      rfl

-- The registry with everything in place that a rule for the pool `g` refers to.
def serving (needLB : Bool) (g : FoldKey) (r : Registry FoldKey FoldKey) : Registry FoldKey FoldKey :=
  { r with
    frontends := if needLB then enroll g r.frontends else r.frontends
    backends  := if needLB then enroll g r.backends else r.backends }

structure Opened (S : Settings) (needLB : Bool) (pool : String) (lb : LoadBalancer)
    (p : LoadBalancerProperties) (r : Registry FoldKey FoldKey) (updateLB : Bool) (d : Draft) : Prop
  where
  lb      : d.lb = lb
  drafted : Drafted S d.properties (serving needLB (foldKey pool) r)
  same    : d.updateLB = false → updateLB = false ∧ d.properties = p
  kept    : needLB = false → d.updateLB = updateLB ∧ d.properties = p
  address : d.frontendIP = "" → needLB = true → d.updateLB = true

-- Why a call may fail before it has written anything.
def Excused (S : Settings) (A : Fault → Prop) (needLB : Bool) (cfg : GatewayLBConfiguration)
    (s : State) : Prop :=
  Disturbed A ∨ poolID S s.cloud cfg.spec = none ∨ needLB = true ∧ s.cloud.subnet = none

theorem getLBPropertyName_eq {ap : GatewayPool} (h : resolvePool S s.cloud cfg.spec = some ap) :
    (∃ pool, poolID S s.cloud cfg.spec = some pool ∧
      getLBPropertyName S cfg ap = .ok (namesOf cfg.meta_.uid pool)) ∨
    (poolID S s.cloud cfg.spec = none ∧ ∃ e, getLBPropertyName S cfg ap = .error e) := by
  unfold getLBPropertyName poolID
  rw [h]
  by_cases hu : ap.getUniqueID S = ""
  · exact .inr ⟨by simp [hu], _, if_pos hu⟩
  · exact .inl ⟨ap.getUniqueID S, by simp [hu], if_neg hu⟩

theorem wp_openDraft (hl : lb.properties = some p) (hd : Drafted S p r) (hs : Settled S p)
    {needLB updateLB : Bool} :
    wp (world P S.az) (.faults A) (openDraft S cfg needLB lb updateLB) (fun res s' => s' = s ∧
      match res with
      | .ok (names, d) => ∃ pool, poolID S s.cloud cfg.spec = some pool ∧
        names = namesOf cfg.meta_.uid pool ∧ Opened S needLB pool lb p r updateLB d
      | .error _ => Excused S A needLB cfg s) s := by
  apply wp_seq wp_loadLBPool
  case error =>
    rintro e s ⟨rfl, hd | hd⟩
    · exact ⟨rfl, .inl hd⟩
    · exact ⟨rfl, .inr (.inl (by simp [poolID, hd]))⟩
  rintro ap s ⟨rfl, hap⟩
  rcases getLBPropertyName_eq hap with ⟨pool, hp, hn⟩ | ⟨hp, e, hn⟩
  case inr =>
    rw [hn]
    exact ⟨rfl, .inr (.inl hp)⟩
  rw [hn, hl]
  apply wp_seq (wp_reconcileFrontend hs)
  case error =>
    rintro e s ⟨rfl, hd | hd⟩
    · exact ⟨rfl, .inl hd⟩
    · exact ⟨rfl, .inr (.inr hd)⟩
  rintro ⟨ip, fs, newFrontend⟩ s ⟨rfl, hf⟩
  have ⟨bs, newBackend, hb, hbs, hsame, hneed⟩ :=
    reconcileBackend_of_settled hs (namesOf cfg.meta_.uid pool) needLB
  dsimp only
  rw [hb]
  refine ⟨rfl, pool, hp, rfl, ?_⟩
  constructor
  case lb => rfl
  case drafted =>
    exact { hd with
      frontends := by rw [hf.names, hd.frontends]; rfl
      pending   := hf.pending
      backends  := by rw [hbs, hd.backends]; rfl }
  case same =>
    intro hu
    simp only [Bool.or_eq_false_iff] at hu
    have ⟨⟨hu, hnf⟩, hnb⟩ := hu
    refine ⟨hu, ?_⟩
    rw [hf.same hnf, hsame hnb]
  case kept =>
    intro hneedLB
    have hnf : newFrontend = false := Bool.eq_false_iff.mpr fun h => by simp [hf.needed h] at hneedLB
    have hnb : newBackend = false := Bool.eq_false_iff.mpr fun h => by simp [hneed h] at hneedLB
    simp [hnf, hnb, hf.same hnf, hsame hnb]
  case address =>
    intro he hneedLB
    simp [hf.address he hneedLB]

omit [CaseFold] in
-- Removing the first match by a key that the elements carry.
theorem dropFirst_eq {α κ : Type} [DecidableEq κ] {key : α → κ} {k : κ} {f : α → Bool} {xs : List α}
    (h : ∀ x ∈ xs, f x = decide (key x = k)) :
    (dropFirst f xs).1.map key = (xs.map key).erase k ∧
    ((dropFirst f xs).2 = false → (dropFirst f xs).1 = xs) ∧
    ∀ x ∈ (dropFirst f xs).1, x ∈ xs := by
  unfold dropFirst
  refine ⟨?_, ?_, fun x hx => List.mem_of_mem_eraseP hx⟩
  case refine_1 => rw [eraseP_congr h, map_eraseP]
  case refine_2 =>
    intro hn
    refine List.eraseP_of_forall_not fun x hx hf => ?_
    have := List.any_eq_false.mp hn x hx
    exact this hf

section Probes

variable {ps : List Probe} {ks : List FoldKey}

theorem ensureProbe_eq {expected : Probe} (he : Probing expected)
    (hp : (ps.map (foldKey ·.name)).Perm ks) (hq : ∀ q ∈ ps, Probing q) :
    ∃ ps' new, ensureProbe expected ps = .ok (ps', new) ∧
      (ps'.map (foldKey ·.name)).Perm (enroll (foldKey expected.name) ks) ∧
      (∀ q ∈ ps', Probing q) ∧ (new = false → ps' = ps) := by
  unfold ensureProbe
  rw [find?_equalFold]
  cases hf : ps.find? (foldKey ·.name = foldKey expected.name)
  case none =>
    have hm : foldKey expected.name ∉ ks := mt hp.mem_iff.mpr (find?_none_iff.mp hf)
    refine ⟨_, true, rfl, ?_, ?_, nofun⟩
    · rw [enroll_of_not_mem hm, List.map_append]
      exact hp.append_right _
    · intro q h
      rcases List.mem_append.mp h with h | h
      · exact hq q h
      · exact List.mem_singleton.mp h ▸ he
  case some probe =>
    have hm := find?_isSome_iff.mp (Option.isSome_of_eq_some hf)
    have hks : enroll (foldKey expected.name) ks = ks := enroll_of_mem (hp.mem_iff.mp hm)
    have replaced : ((ensureProbe.replaced expected ps).map (foldKey ·.name)).Perm ks ∧
        ∀ q ∈ ensureProbe.replaced expected ps, Probing q := by
      have heq : ps.eraseP (fun q => equalFold q.name expected.name) =
          ps.eraseP (foldKey ·.name = foldKey expected.name) :=
        eraseP_congr fun q _ => equalFold_eq_decide ..
      unfold ensureProbe.replaced
      constructor
      · rw [heq]
        exact (perm_replace hm).trans hp
      · intro q h
        rcases List.mem_append.mp h with h | h
        · exact hq q (List.mem_of_mem_eraseP h)
        · exact List.mem_singleton.mp h ▸ he
    have ⟨_, _, _, hpp⟩ := hq probe (List.mem_of_find?_eq_some hf)
    have ⟨_, _, _, hep⟩ := he
    simp only [hpp, hep]
    rw [hks]
    split
    · exact ⟨_, true, rfl, replaced.left, replaced.right, nofun⟩
    · split
      · exact ⟨_, true, rfl, replaced.left, replaced.right, nofun⟩
      · exact ⟨ps, false, rfl, hp, hq, fun _ => rfl⟩

end Probes

-- A later stage of the same draft.
structure Draft.Follows (d d' : Draft) : Prop where
  lb       : d'.lb = d.lb
  address  : d'.frontendIP = d.frontendIP
  same     : d'.updateLB = false → d.updateLB = false ∧ d'.properties = d.properties
  updateLB : d.updateLB = true → d'.updateLB = true

omit [CaseFold] in
theorem Draft.Follows.trans {d d' d'' : Draft} (h : d.Follows d') (h' : d'.Follows d'') :
    d.Follows d'' where
  lb       := h'.lb.trans h.lb
  address  := h'.address.trans h.address
  same hu  := by
    have ⟨hu, hp⟩ := h'.same hu
    exact ⟨(h.same hu).left, hp.trans (h.same hu).right⟩
  updateLB hu := h'.updateLB (h.updateLB hu)

theorem addRule_eq {d : Draft}
    (hd : Drafted S d.properties (serving true (foldKey pool) r))
    (v : Lease.Valid portCount r.leases) :
    (∃ r' i d', r.require portCount (foldKey cfg.meta_.uid) (foldKey pool) = some (r', i) ∧
      addRule S cfg (namesOf cfg.meta_.uid pool) d = .ok (d', i + wireguardPortStart) ∧
      Drafted S d'.properties r' ∧ d.Follows d') ∨
    (r.require portCount (foldKey cfg.meta_.uid) (foldKey pool) = none ∧
      ∃ e, addRule S cfg (namesOf cfg.meta_.uid pool) d = .error e) := by
  have ⟨es, hes, hls⟩ := hd.rules
  change r.leases = es.map (·.lease) at hls
  have he : Acquired S cfg.meta_.uid pool es _ := ensureRule_acquired (hls ▸ v)
  have hexpected : Probing (expectedLBProbe S (namesOf cfg.meta_.uid pool) cfg) := ⟨_, _, _, rfl⟩
  have ⟨ps, new, hps, hperm, hprobing, hsame⟩ := ensureProbe_eq hexpected hd.probes hd.probing
  unfold addRule
  rw [hes, hps]
  generalize hr : ensureRule _ _ = res at he
  cases he
  case done es' i changed hl hc =>
    have hreq : r.require portCount (foldKey cfg.meta_.uid) (foldKey pool) =
        some ({ serving true (foldKey pool) r with
          leases := es'.map (·.lease), probes := enroll (foldKey cfg.meta_.uid) r.probes }, i) := by
      simp [Registry.require, hls, hl, serving]
    refine .inl ⟨_, i, _, hreq, rfl, ?_, ?_⟩
    · exact { hd with
        rules   := ⟨es', rfl, rfl⟩
        probes  := hperm
        probing := hprobing }
    · constructor
      case lb | address => rfl
      case same =>
        intro hu
        simp only [Bool.or_eq_false_iff] at hu
        have ⟨⟨hu, hnr⟩, hnp⟩ := hu
        simp [hu, hc hnr, hsame hnp, ← hes]
      case updateLB => simp_all
  case full e hl => exact .inr ⟨by simp [Registry.require, hls, hl], e, rfl⟩

theorem removeRule_eq (uid pool : String) {d : Draft} (hd : Drafted S d.properties r) :
    ∃ d', removeRule S (namesOf uid pool) d =
        .ok (d', decide (foldKey pool ∉ (Lease.release (foldKey uid) r.leases).map (·.group))) ∧
      Drafted S d'.properties (r.vacate (foldKey uid)) ∧
      d'.properties.frontendIPConfigurations = d.properties.frontendIPConfigurations ∧
      d'.properties.backendAddressPools = d.properties.backendAddressPools ∧
      d.Follows d' := by
  have ⟨es, hes, hls⟩ := hd.rules
  have hprobe : ∀ q ∈ d.properties.probes, equalFold q.name uid = decide (foldKey q.name = foldKey uid) :=
    fun q _ => equalFold_eq_decide ..
  have ⟨hk, hsame, hsub⟩ := dropFirst_eq hprobe
  let d' : Draft := { d with
    properties := { d.properties with
      loadBalancingRules := (Entry.others uid es).map (·.rule S)
      probes             := (dropProbe uid d.properties.probes).1 }
    updateLB :=
      d.updateLB || decide (foldKey uid ∈ es.map (foldKey ·.uid)) ||
      (dropProbe uid d.properties.probes).2 }
  refine ⟨d', ?eq, ?drafted, rfl, rfl, ?follows⟩
  case eq =>
    have hz : ((Entry.others uid es).countP (foldKey ·.pool = foldKey pool) == 0) =
        decide (foldKey pool ∉ (Lease.release (foldKey uid) r.leases).map (·.group)) := by
      rw [hls, Bool.eq_iff_iff, beq_iff_eq, countP_others_eq_zero_iff, decide_eq_true_iff]
    unfold removeRule
    rw [hes, show (namesOf uid pool).lbRuleName = uid from rfl, dropRules_rules, ← hz]
    rfl
  case drafted =>
    exact { hd with
      rules   := ⟨Entry.others uid es, rfl, by rw [Entry.lease_others, ← hls]; rfl⟩
      probes  := by
        rw [show d'.properties.probes = (dropProbe uid d.properties.probes).1 from rfl, dropProbe, hk]
        exact hd.probes.erase _
      probing q h := hd.probing q (hsub q h) }
  case follows =>
    constructor
    case lb | address => rfl
    case same =>
      intro hu
      simp only [d', Bool.or_eq_false_iff, decide_eq_false_iff_not] at hu
      have ⟨⟨hu, hnr⟩, hnp⟩ := hu
      have hp : (dropProbe uid d.properties.probes).1 = d.properties.probes := hsame hnp
      simp only [d', hu, hp, Entry.others_eq_self hnr, ← hes, and_self]
    case updateLB =>
      intro hu
      simp [d', hu]

theorem removeFrontend_eq (uid pool : String) {d : Draft} (hd : Drafted S d.properties r)
    (hs : Settled S d.properties) :
    Drafted S (removeFrontend S (namesOf uid pool) d).properties (r.close (foldKey pool)) ∧
    d.Follows (removeFrontend S (namesOf uid pool) d) := by
  have hfront : ∀ f ∈ d.properties.frontendIPConfigurations,
      equalFold (val f.id) (S.az.getLBFrontendIPConfigurationID pool) =
      decide (foldKey f.name = foldKey pool) := by
    intro f hf
    rw [(hs.frontends f hf).left, val_some, equalFold_frontendID, equalFold_eq_decide]
  have hback : ∀ b ∈ d.properties.backendAddressPools,
      equalFold (val b.id) (S.az.getLBBackendAddressPoolID pool) =
      decide (foldKey b.name = foldKey pool) := by
    intro b hb
    rw [hs.backends b hb, val_some, equalFold_backendID, equalFold_eq_decide]
  obtain ⟨hfk, hfsame, hfsub⟩ := dropFirst_eq hfront
  obtain ⟨hbk, hbsame, _⟩ := dropFirst_eq hback
  refine ⟨?drafted, ?follows⟩
  case drafted =>
    exact { hd with
      frontends := by rw [Registry.close, ← hd.frontends]; exact hfk
      pending f h := hd.pending f (hfsub f h)
      backends  := by rw [Registry.close, ← hd.backends]; exact hbk }
  case follows =>
    constructor
    case lb | address => rfl
    case same =>
      intro hu
      simp only [removeFrontend, Bool.or_eq_false_iff] at hu
      obtain ⟨⟨hu, hnf⟩, hnb⟩ := hu
      refine ⟨hu, ?_⟩
      have hfs := hfsame hnf
      have hbs := hbsame hnb
      simp only [removeFrontend, dropFrontend, dropBackend, namesOf, hfs, hbs]
    case updateLB =>
      intro hu
      simp [removeFrontend, hu]

-- Only the load balancer may have changed.
def LBOnly (s s' : State) : Prop :=
  s' = { s with cloud := { s.cloud with
    loadBalancer := s'.cloud.loadBalancer, writes := s'.cloud.writes } }

-- A write either happened or not, and the answer only tells the former if it is not lost.
def Written {α : Type} (S : Settings) (A : Fault → Prop) (s : State)
    (r r' : Registry FoldKey FoldKey) (res : Except Err α) (s' : State) : Prop :=
  LBOnly s s' ∧
  match res with
  | .ok _    => Refines S s'.cloud.loadBalancer r'
  | .error _ => Disturbed A ∧ (Refines S s'.cloud.loadBalancer r ∨ Refines S s'.cloud.loadBalancer r')

theorem wp_createOrUpdateLB (hr : Refines S s.cloud.loadBalancer r) (hl : lb.properties = some p)
    (hd : Drafted S p r') (hf : r'.frontends ≠ []) :
    wp (world P S.az) (.faults A) (request (.createOrUpdateLB lb)) (fun res s' =>
      Written S A s r r' res s' ∧ ∀ lb, res = .ok lb → s'.cloud.loadBalancer = some lb) s := by
  have ⟨p', hp', hd', hs'⟩ := hd.provision (P := P) s.cloud.writes hl
  have hw : Refines S (some (P.provisionLB S.az s.cloud.writes lb)) r' := ⟨p', hp', hd', hs', hf⟩
  apply wp_perform_faults
  case served  => exact ⟨⟨rfl, hw⟩, fun _ h => congrArg some (Except.ok.inj h)⟩
  case lost    => exact fun ha => ⟨⟨rfl, ha, .inl hr⟩, nofun⟩
  case applied => exact fun ha => ⟨⟨rfl, ha, .inr hw⟩, nofun⟩

theorem wp_deleteLB (hr : Refines S s.cloud.loadBalancer r) :
    wp (world P S.az) (.faults A) (request .deleteLB) (Written S A s r {}) s := by
  apply wp_perform_faults
  case served  => exact ⟨rfl, rfl⟩
  case lost    => exact fun ha => ⟨rfl, ha, .inl hr⟩
  case applied => exact fun ha => ⟨rfl, ha, .inr rfl⟩

theorem wp_writeRule {d : Draft} {port : Int} (hr : Refines S s.cloud.loadBalancer r)
    (hd : Drafted S d.properties r') (hg : foldKey pool ∈ r'.frontends)
    (hk : d.updateLB = false → Refines S s.cloud.loadBalancer r')
    (hip : d.frontendIP = "" → d.updateLB = true) :
    wp (world P S.az) (.faults A) (writeRule (namesOf uid pool) d port) (fun res s' =>
      Written S A s r r' res s' ∧ ∀ ip q, res = .ok (ip, q) → ip ≠ "" ∧ q = port) s := by
  unfold writeRule
  split
  case isFalse hu =>
    have hne : d.frontendIP ≠ "" := fun he => hu (hip he)
    refine ⟨⟨rfl, hk (Bool.eq_false_iff.mpr hu)⟩, ?_⟩
    rintro _ _ ⟨⟩
    exact ⟨hne, rfl⟩
  case isTrue =>
    apply wp_seq (wp_createOrUpdateLB hr rfl hd (List.ne_nil_of_mem hg))
    case error => exact fun _ _ h => ⟨h.left, nofun⟩
    intro updatedLB s' ⟨hw, hlb⟩
    have ⟨p, hp, hd', hs', _⟩ : Refines S (some updatedLB) r' := hlb updatedLB rfl ▸ hw.right
    dsimp only
    split
    case isFalse hne =>
      refine ⟨hw, ?_⟩
      rintro _ _ ⟨⟩
      exact ⟨hne, rfl⟩
    case isTrue =>
      have ⟨ip, hf, hn⟩ := findFrontendIP_of_settled hs' pool
      have hne : ip ≠ "" := by
        intro he
        have hnot := hn.mp he
        rw [hd'.frontends] at hnot
        exact hnot hg
      rw [hp]
      simp only [show (namesOf uid pool).frontendName = pool from rfl, hf]
      change wp _ _ (if ip = "" then _ else _) _ _
      rw [if_neg hne]
      refine ⟨hw, ?_⟩
      rintro _ _ ⟨⟩
      exact ⟨hne, rfl⟩

theorem wp_writeRemoval {d : Draft} (hr : Refines S s.cloud.loadBalancer r)
    (hd : Drafted S d.properties r') (hf : r'.frontends ≠ [])
    (hk : d.updateLB = false → Refines S s.cloud.loadBalancer r') :
    wp (world P S.az) (.faults A) (writeRemoval d) (fun res s' =>
      Written S A s r r' res s' ∧ ∀ ip q, res = .ok (ip, q) → q = 0) s := by
  unfold writeRemoval
  split
  case isFalse hu =>
    refine ⟨⟨rfl, hk (Bool.eq_false_iff.mpr hu)⟩, ?_⟩
    rintro _ _ ⟨⟩
    rfl
  case isTrue =>
    apply wp_seq (wp_createOrUpdateLB hr rfl hd hf)
    case error => exact fun _ _ h => ⟨h.left, nofun⟩
    intro _ s' ⟨hw, _⟩
    refine ⟨hw, ?_⟩
    rintro _ _ ⟨⟩
    rfl

-- The transitions of the registry that a call for `cfg` can make, with what the call returns.
inductive Moved (S : Settings) (cfg : GatewayLBConfiguration) (c : Cloud)
    (r : Registry FoldKey FoldKey) : Bool → Registry FoldKey FoldKey → String × Int → Prop
  | require {pool : String} {r' : Registry FoldKey FoldKey} {i : Nat} (ip : String)
      (hp : poolID S c cfg.spec = some pool)
      (h : r.require portCount (foldKey cfg.meta_.uid) (foldKey pool) = some (r', i)) (hip : ip ≠ "") :
      Moved S cfg c r true r' (ip, i + wireguardPortStart)
  | dismiss {pool : String} (ip : String) (hp : poolID S c cfg.spec = some pool) :
      Moved S cfg c r false (r.dismiss (foldKey cfg.meta_.uid) (foldKey pool)) (ip, 0)
  | absent (ip : String) (h : r = {}) : Moved S cfg c r false r (ip, 0)

-- The pool has no port left.
def Full (S : Settings) (cfg : GatewayLBConfiguration) (c : Cloud) (r : Registry FoldKey FoldKey) :
    Prop :=
  ∃ pool, poolID S c cfg.spec = some pool ∧
    r.require portCount (foldKey cfg.meta_.uid) (foldKey pool) = none

-- A call makes its transition if it returns without error. Otherwise it makes it or does nothing.
def Reconciled (S : Settings) (A : Fault → Prop) (cfg : GatewayLBConfiguration) (needLB : Bool)
    (s : State) (r : Registry FoldKey FoldKey) (res : Except Err (String × Int)) (s' : State) : Prop :=
  LBOnly s s' ∧ ∃ r', Refines S s'.cloud.loadBalancer r' ∧
    match res with
    | .ok out  => Moved S cfg s.cloud r needLB r' out
    | .error _ => (r' = r ∨ ∃ out, Moved S cfg s.cloud r needLB r' out) ∧
        (Excused S A needLB cfg s ∨ needLB = true ∧ Full S cfg s.cloud r)

theorem Written.reconciled {needLB : Bool} {res : Except Err (String × Int)} {s' : State}
    (h : Written S A s r r' res s') {out : String × Int} (hm : Moved S cfg s.cloud r needLB r' out)
    (ho : ∀ out, res = .ok out → Moved S cfg s.cloud r needLB r' out) :
    Reconciled S A cfg needLB s r res s' := by
  refine ⟨h.left, ?_⟩
  cases res
  case ok a => exact ⟨r', h.right, ho a rfl⟩
  case error e =>
    rcases h.right with ⟨hd, hr | hr⟩
    · exact ⟨r, hr, .inl rfl, .inl (.inl hd)⟩
    · exact ⟨r', hr, .inr ⟨out, hm⟩, .inl (.inl hd)⟩

-- Nothing was written.
theorem Reconciled.idle {needLB : Bool} {e : Err} (hr : Refines S s.cloud.loadBalancer r)
    (h : Excused S A needLB cfg s ∨ needLB = true ∧ Full S cfg s.cloud r) :
    Reconciled S A cfg needLB s r (.error e) s :=
  ⟨rfl, r, hr, .inl rfl, h⟩

section Reconcile

variable (hr : Refines S s.cloud.loadBalancer r) (c : r.Consistent portCount)
  (hl : lb.properties = some p) (hd : Drafted S p r) (hs : Settled S p)

include hr c hl hd hs

theorem wp_reconcileLBRuleOn_true {updateLB : Bool}
    (hk : updateLB = false → s.cloud.loadBalancer = some lb) :
    wp (world P S.az) (.faults A) (reconcileLBRuleOn S cfg true lb updateLB)
      (Reconciled S A cfg true s r) s := by
  apply wp_seq (wp_openDraft hl hd hs)
  case error =>
    rintro e s ⟨rfl, he⟩
    exact .idle hr (.inl he)
  rintro ⟨names, d⟩ s ⟨rfl, pool, hp, rfl, ho⟩
  dsimp only
  rw [if_pos rfl]
  rcases addRule_eq ho.drafted c.leases with ⟨r', i, d', hreq, ha, hd', hf⟩ | ⟨hreq, e, ha⟩
  case inr =>
    rw [ha]
    exact .idle hr (.inr ⟨rfl, pool, hp, hreq⟩)
  have ⟨_, hfront, _, _⟩ := Registry.require_eq hreq
  have hg : foldKey pool ∈ r'.frontends := hfront ▸ mem_enroll.mpr (.inl rfl)
  have hkeep : d'.updateLB = false → Refines S s.cloud.loadBalancer r' := by
    intro hu
    have ⟨hu, hprop⟩ := hf.same hu
    have ⟨hu, hprop'⟩ := ho.same hu
    rw [hk hu]
    exact ⟨p, hl, hprop' ▸ hprop ▸ hd', hs, List.ne_nil_of_mem hg⟩
  have hip : d'.frontendIP = "" → d'.updateLB = true :=
    fun he => hf.updateLB (ho.address (hf.address ▸ he) rfl)
  rw [ha]
  refine wp_mono (wp_writeRule hr hd' hg hkeep hip) ?_
  rintro res s' ⟨hw, hres⟩
  refine hw.reconciled (.require "-" hp hreq (by simp)) ?_
  rintro ⟨ip, q⟩ he
  obtain ⟨hne, rfl⟩ := hres ip q he
  exact .require ip hp hreq hne

theorem wp_reconcileLBRuleOn_false (hlb : s.cloud.loadBalancer = some lb) (hne : r.frontends ≠ []) :
    wp (world P S.az) (.faults A) (reconcileLBRuleOn S cfg false lb false)
      (Reconciled S A cfg false s r) s := by
  apply wp_seq (wp_openDraft hl hd hs)
  case error =>
    rintro e s ⟨rfl, he⟩
    exact .idle hr (.inl he)
  rintro ⟨names, d⟩ s ⟨rfl, pool, hp, rfl, ho⟩
  have ⟨_, hprop⟩ := ho.kept rfl
  have ⟨d', ha, hd', hfs, hbs, hf⟩ := removeRule_eq cfg.meta_.uid pool (hprop ▸ hd)
  have keep {d'' : Draft} {r'} (hf : d.Follows d'') (hd : Drafted S d''.properties r')
      (hn : r'.frontends ≠ []) (hu : d''.updateLB = false) : Refines S s.cloud.loadBalancer r' := by
    rw [hlb]
    exact ⟨p, hl, hprop ▸ (hf.same hu).right ▸ hd, hs, hn⟩
  have written {res : Except Err (String × Int)} {s'}
      (hw : Written S A s r (r.dismiss (foldKey cfg.meta_.uid) (foldKey pool)) res s')
      (hres : ∀ ip q, res = .ok (ip, q) → q = 0) : Reconciled S A cfg false s r res s' := by
    refine hw.reconciled (.dismiss "" hp) ?_
    rintro ⟨ip, q⟩ hq
    obtain rfl := hres ip q hq
    exact .dismiss ip hp
  dsimp only
  rw [if_neg nofun, ha]
  change wp _ _ (if decide _ = true then _ else _) _ _
  simp only [decide_eq_true_eq]
  by_cases hg : foldKey pool ∈ (Lease.release (foldKey cfg.meta_.uid) r.leases).map (·.group)
  case pos =>
    rw [if_neg (not_not_intro hg)]
    rw [Registry.dismiss_of_mem hg] at written
    refine wp_mono (wp_writeRemoval hr hd' hne (keep hf hd' hne)) ?_
    exact fun res s' h => written h.left h.right
  case neg =>
    rw [if_pos hg]
    have hs' : Settled S d'.properties := by
      constructor
      · rw [hfs, hprop]
        exact hs.frontends
      · rw [hbs, hprop]
        exact hs.backends
    have ⟨hd'', hf'⟩ := removeFrontend_eq cfg.meta_.uid pool hd' hs'
    rw [← Registry.dismiss_of_not_mem hg] at hd''
    split
    case isTrue hz =>
      -- Without a frontend the registry is empty, and so may be the subscription.
      have hnil : (r.dismiss (foldKey cfg.meta_.uid) (foldKey pool)).frontends = [] := by
        rw [← hd''.frontends, List.length_eq_zero_iff.mp hz]
        rfl
      rw [c.dismiss.eq_empty hnil] at written
      apply wp_seq (wp_deleteLB hr)
      case ok => exact fun _ s' h => written h (by rintro _ _ ⟨⟩; rfl)
      case error => exact fun _ s' h => written h nofun
    case isFalse hz =>
      have hn : (r.dismiss (foldKey cfg.meta_.uid) (foldKey pool)).frontends ≠ [] := by
        intro hnil
        rw [← hd''.frontends] at hnil
        exact hz (by rw [List.map_eq_nil_iff.mp hnil]; rfl)
      refine wp_mono (wp_writeRemoval hr hd'' hn (keep (hf.trans hf') hd'' hn)) ?_
      exact fun res s' h => written h.left h.right

end Reconcile

theorem wp_getGatewayLB :
    wp (world P S.az) (.faults A) getGatewayLB (fun res s' => s' = s ∧
      match res with
      | .ok lb   => lb = s.cloud.loadBalancer
      | .error _ => Disturbed A) s := by
  refine wp_bind.mpr (wp_attempt.mpr (wp_read (serve_reads rfl) ?_ ?_))
  case refine_2 => exact fun hd => ⟨rfl, hd⟩
  case refine_1 =>
    simp only [world, State.serve]
    cases s.cloud.loadBalancer
    case none => exact ⟨rfl, rfl⟩
    case some => exact ⟨rfl, rfl⟩

theorem newLB_drafted : Drafted S {} {} where
  rules     := ⟨[], rfl, rfl⟩
  frontends := rfl
  pending   := nofun
  backends  := rfl
  probes    := .refl _
  probing   := nofun

omit [CaseFold] in
theorem newLB_settled : Settled S {} where
  frontends := nofun
  backends  := nofun

theorem wp_reconcileLBRule (hr : Refines S s.cloud.loadBalancer r) (c : r.Consistent portCount)
    (needLB : Bool) :
    wp (world P S.az) (.faults A) (reconcileLBRule S cfg needLB) (Reconciled S A cfg needLB s r) s := by
  apply wp_seq wp_getGatewayLB
  case error =>
    rintro e s ⟨rfl, hd⟩
    exact .idle hr (.inl (.inl hd))
  rintro lb s ⟨rfl, rfl⟩
  cases hlb : s.cloud.loadBalancer
  case some lb =>
    have ⟨p, hp, hd, hs, hne⟩ : Refines S (some lb) r := hlb ▸ hr
    cases needLB
    case true  => exact wp_reconcileLBRuleOn_true hr c hp hd hs (fun _ => hlb)
    case false => exact wp_reconcileLBRuleOn_false hr c hp hd hs hlb hne
  case none =>
    obtain rfl : r = {} := by rwa [hlb] at hr
    cases needLB
    case true  => exact wp_reconcileLBRuleOn_true hr c rfl newLB_drafted newLB_settled nofun
    case false => exact ⟨rfl, {}, hr, .absent "" rfl⟩

theorem Moved.consistent {c : Cloud} {needLB : Bool} {out : String × Int}
    (h : Moved S cfg c r needLB r' out) (hc : r.Consistent portCount) : r'.Consistent portCount := by
  cases h
  case require h => exact hc.require h
  case dismiss     => exact hc.dismiss
  case absent      => exact hc

end Manager
