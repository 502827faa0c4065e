import EgressGateway.Manager.LoadBalancer
import EgressGateway.Manager.Registry

-- The rules that `reconcileLBRule` writes are leases of the registry: the owner is the UID of the
-- configuration and the group is the unique ID of its pool, both ignoring case.

open Kubernetes Azure Text Keyed

namespace Manager

variable [CaseFold] (S : Settings)

def portCount : Nat := (wireguardPortEnd - wireguardPortStart).toNat

structure Entry where
  uid  : String
  pool : String
  slot : Nat

def namesOf (uid pool : String) : LBPropertyNames where
  frontendName := pool
  backendName  := pool
  lbRuleName   := uid
  probeName    := uid

namespace Entry

def port (e : Entry) : Int :=
  e.slot + wireguardPortStart

def rule (e : Entry) : LoadBalancingRule :=
  withPort (expectedLBRule S (namesOf e.uid e.pool)) e.port

def lease (e : Entry) : Lease FoldKey FoldKey where
  owner := foldKey e.uid
  group := foldKey e.pool
  slot  := e.slot

end Entry

variable {S} {uid pool : String} {e : Entry} {es : List Entry}

@[simp]
theorem equalFold_frontendID (az : CloudConfig) (p q : String) :
    equalFold (az.getLBFrontendIPConfigurationID p) (az.getLBFrontendIPConfigurationID q) =
    equalFold p q :=
  equalFold_append_left ..

@[simp]
theorem equalFold_backendID (az : CloudConfig) (p q : String) :
    equalFold (az.getLBBackendAddressPoolID p) (az.getLBBackendAddressPoolID q) = equalFold p q :=
  equalFold_append_left ..

@[simp]
theorem equalFold_probeID (az : CloudConfig) (p q : String) :
    equalFold (az.getLBProbeID p) (az.getLBProbeID q) = equalFold p q :=
  equalFold_append_left ..

namespace Entry

omit [CaseFold] in
@[simp]
theorem rule_name : (e.rule S).name = e.uid := rfl

omit [CaseFold] in
@[simp]
theorem rule_properties : (e.rule S).properties = some {
    protocol                := some .udp
    enableFloatingIP        := some true
    frontendIPConfiguration := some ⟨some (S.az.getLBFrontendIPConfigurationID e.pool)⟩
    backendAddressPool      := some ⟨some (S.az.getLBBackendAddressPoolID e.pool)⟩
    probe                   := some ⟨some (S.az.getLBProbeID e.uid)⟩
    frontendPort            := some e.port
    backendPort             := some e.port } := rfl

omit [CaseFold] in
theorem port_mem_range (h : e.slot < portCount) :
    wireguardPortStart ≤ e.port ∧ e.port < wireguardPortEnd := by
  simp only [portCount, port, wireguardPortStart, wireguardPortEnd] at h ⊢
  omega

omit [CaseFold] in
theorem port_sub_start : (e.port - wireguardPortStart).toNat = e.slot := by
  simp [port]

omit [CaseFold] in
theorem port_inj {e e' : Entry} : e.port = e'.port ↔ e.slot = e'.slot := by
  simp only [port]
  omega

end Entry

theorem sameLBRuleConfig_rule :
    sameLBRuleConfig (e.rule S) (expectedLBRule S (namesOf uid pool)) = true ↔
    foldKey e.pool = foldKey pool ∧ foldKey e.uid = foldKey uid := by
  simp only [sameLBRuleConfig, Entry.rule_properties, expectedLBRule, getExpectedLBRule, namesOf,
    equalSubResource, val_some, equalFold_frontendID, equalFold_backendID, equalFold_probeID,
    Bool.and_eq_true, equalFold_iff, beq_self_eq_true, and_true, and_self]

theorem occupiedIndex_rule (h : e.slot < portCount) :
    occupiedIndex (S.az.getLBBackendAddressPoolID pool) (e.rule S) =
    .ok (if foldKey e.pool = foldKey pool then some e.slot else none) := by
  have hp := e.port_mem_range h
  have hr : ¬(e.port < wireguardPortStart ∨ e.port ≥ wireguardPortEnd) := by omega
  by_cases hf : foldKey e.pool = foldKey pool
  · simp [occupiedIndex, equalFold_iff.mpr hf, hf, hr, Entry.port_sub_start]
  · simp [occupiedIndex, equalFold_false_iff.mpr hf, hf]

-- The occupancy array after the loop: what was set before, and the slots of the pool's rules.
theorem markPorts_rules (pool : String) {ports : List Bool} (hl : ports.length = portCount)
    (hs : ∀ e ∈ es, e.slot < portCount) :
    ∃ ports', markPorts (S.az.getLBBackendAddressPoolID pool) (es.map (·.rule S)) ports = .ok ports' ∧
      ports'.length = portCount ∧
      ∀ i < portCount, ports'[i]? = some true ↔
        ports[i]? = some true ∨ i ∈ Lease.occupied (foldKey pool) (es.map (·.lease)) := by
  induction es generalizing ports
  case nil => exact ⟨ports, rfl, hl, by simp [Lease.occupied]⟩
  case cons e es hi =>
    have he := hs e List.mem_cons_self
    have hes : ∀ e ∈ es, e.slot < portCount := fun e h => hs e (List.mem_cons_of_mem _ h)
    simp only [List.map_cons, markPorts, occupiedIndex_rule he]
    by_cases hf : foldKey e.pool = foldKey pool
    case neg =>
      simp only [if_neg hf]
      obtain ⟨ports', h, hl', hp⟩ := hi hl hes
      refine ⟨ports', h, hl', fun i hi => ?_⟩
      rw [hp i hi]
      simp [Lease.occupied, Entry.lease, hf]
    case pos =>
      simp only [if_pos hf, if_pos (hl ▸ he : e.slot < ports.length)]
      have hset : (ports.set e.slot true).length = portCount := by simpa using hl
      obtain ⟨ports', h, hl', hp⟩ := hi hset hes
      refine ⟨ports', h, hl', fun i hi => ?_⟩
      rw [hp i hi, List.getElem?_set]
      by_cases hei : e.slot = i
      · have : i < ports.length := hl ▸ hi
        simp [Lease.occupied, Entry.lease, hf, hei, this]
      · simp [Lease.occupied, Entry.lease, hf, hei, Ne.symm hei]

omit [CaseFold] in
-- The first unset index of the array is the first free slot.
theorem findIdx?_eq_firstFree {ports : List Bool} {used : List Nat} {n : Nat} (hl : ports.length = n)
    (h : ∀ i < n, ports[i]? = some true ↔ i ∈ used) :
    ports.findIdx? (!·) = Lease.firstFree n used := by
  have hu : ∀ i < n, ports[i]? = some (decide (i ∈ used)) := by
    intro i hi
    have hb : i < ports.length := hl ▸ hi
    have hh := h i hi
    rw [List.getElem?_eq_getElem hb] at hh ⊢
    by_cases hm : i ∈ used
    · simp [hm, Option.some.inj (hh.mpr hm)]
    · simpa [hm] using mt hh.mp hm
  cases hf : Lease.firstFree n used
  case none =>
    rw [List.findIdx?_eq_none_iff]
    intro b hb
    have ⟨i, hi, he⟩ := List.getElem_of_mem hb
    have hm := List.find?_eq_none.mp hf i (List.mem_range.mpr (hl ▸ hi))
    have := hu i (hl ▸ hi)
    rw [List.getElem?_eq_getElem hi, he] at this
    simp_all
  case some i =>
    have ⟨hi, hm⟩ := Lease.firstFree_some hf
    rw [List.findIdx?_eq_some_iff_getElem]
    refine ⟨hl ▸ hi, ?_, ?_⟩
    · have := hu i hi
      rw [List.getElem?_eq_getElem (hl ▸ hi)] at this
      simp_all
    · intro j hj
      have hjn : j < n := Nat.lt_trans hj hi
      have hlow := (List.find?_range_eq_some.mp hf).right.right j hj
      have := hu j hjn
      rw [List.getElem?_eq_getElem (hl ▸ hjn)] at this
      simp_all

theorem selectPortForLBRule_rules (hs : ∀ e ∈ es, e.slot < portCount) :
    selectPortForLBRule (expectedLBRule S (namesOf uid pool)) (es.map (·.rule S)) =
    match Lease.firstFree portCount (Lease.occupied (foldKey pool) (es.map (·.lease))) with
    | some i => .ok (i + wireguardPortStart)
    | none   => .error (Err.errorf "selectPortForLBRule: No available ports") := by
  have hlen : (List.replicate portCount false).length = portCount := List.length_replicate
  have ⟨ports, hm, hl, hp⟩ := markPorts_rules (S := S) pool hlen hs
  have hr : ∀ i < portCount, ports[i]? = some true ↔
      i ∈ Lease.occupied (foldKey pool) (es.map (·.lease)) := by
    intro i hi
    rw [hp i hi, List.getElem?_replicate_of_lt hi]
    simp
  simp only [selectPortForLBRule, expectedLBRule, getExpectedLBRule, namesOf, Option.bind_some,
    val_some]
  rw [portCount] at hm
  rw [hm]
  have hf := findIdx?_eq_firstFree hl hr
  cases hi : ports.findIdx? (!·) <;> simp only [← hf, hi]

-- The entries of all other configurations.
def Entry.others (uid : String) (es : List Entry) : List Entry :=
  es.filter (foldKey ·.uid ≠ foldKey uid)

namespace Entry

theorem mem_others : e ∈ others uid es ↔ e ∈ es ∧ foldKey e.uid ≠ foldKey uid := by
  simp [others]

theorem lease_others : (others uid es).map (·.lease) = Lease.release (foldKey uid) (es.map (·.lease)) := by
  simp [others, Lease.release, List.filter_map, Function.comp_def, lease]

theorem others_eq_self (h : foldKey uid ∉ es.map (foldKey ·.uid)) : others uid es = es := by
  refine List.filter_eq_self.mpr fun e he => ?_
  have hne : foldKey e.uid ≠ foldKey uid := fun heq => h (List.mem_map.mpr ⟨e, he, heq⟩)
  simpa using hne

theorem slot_lt_of_valid (v : Lease.Valid portCount (es.map (·.lease))) : ∀ e ∈ es, e.slot < portCount :=
  fun e he => v.bound e.lease (List.mem_map_of_mem he)

theorem uids_nodup (v : Lease.Valid portCount (es.map (·.lease))) : (es.map (foldKey ·.uid)).Nodup := by
  have := v.owners
  rwa [List.map_map] at this

theorem eraseP_rules (v : Lease.Valid portCount (es.map (·.lease))) :
    (es.map (·.rule S)).eraseP (equalFold ·.name uid) = (others uid es).map (·.rule S) := by
  have : (fun e : Entry => equalFold (e.rule S).name uid) =
      fun e => decide (foldKey e.uid = foldKey uid) := by
    funext e
    simp [equalFold_eq_decide]
  rw [List.eraseP_map, Function.comp_def, this, eraseP_eq_filter (uids_nodup v)]
  rfl

theorem find?_rules :
    (es.map (·.rule S)).find? (equalFold ·.name uid) =
    (es.find? (foldKey ·.uid = foldKey uid)).map (·.rule S) := by
  simp only [List.find?_map, Function.comp_def, rule_name]
  simp only [equalFold_eq_decide]

theorem find?_leases (uid : String) (es : List Entry) :
    (es.map (·.lease)).find? (·.owner = foldKey uid) =
    (es.find? (foldKey ·.uid = foldKey uid)).map (·.lease) := by
  simp [List.find?_map, lease]

end Entry

-- A new rule gets the first free port of its pool.
theorem createRule_rules (hs : ∀ e ∈ es, e.slot < portCount) :
    createRule (expectedLBRule S (namesOf uid pool)) (es.map (·.rule S)) =
    match Lease.firstFree portCount (Lease.occupied (foldKey pool) (es.map (·.lease))) with
    | some i => .ok ((es ++ [(⟨uid, pool, i⟩ : Entry)]).map (·.rule S), i + wireguardPortStart, true)
    | none   => .error (Err.errorf "selectPortForLBRule: No available ports") := by
  rw [createRule, selectPortForLBRule_rules hs]
  cases Lease.firstFree portCount (Lease.occupied (foldKey pool) (es.map (·.lease)))
  case none => rfl
  case some => simp [Entry.rule, Entry.port]

-- What the treatment of the rules does to the leases if the configuration needs a rule.
inductive Acquired (S : Settings) (uid pool : String) (es : List Entry) :
    Except Err (List LoadBalancingRule × Int × Bool) → Prop
  | done (es' : List Entry) (i : Nat) (changed : Bool)
      (lease : Lease.acquire portCount (foldKey uid) (foldKey pool) (es.map (·.lease)) =
        some (es'.map (·.lease), i))
      (same : changed = false → es' = es) :
      Acquired S uid pool es (.ok (es'.map (·.rule S), i + wireguardPortStart, changed))
  | full (e : Err)
      (lease : Lease.acquire portCount (foldKey uid) (foldKey pool) (es.map (·.lease)) = none) :
      Acquired S uid pool es (.error e)

theorem createRule_acquired (v : Lease.Valid portCount (es.map (·.lease)))
    (h : Lease.acquire portCount (foldKey uid) (foldKey pool) (es.map (·.lease)) =
      Lease.acquire.fresh portCount (foldKey uid) (foldKey pool) (es.map (·.lease))) :
    Acquired S uid pool es <|
      createRule (expectedLBRule S (namesOf uid pool)) ((Entry.others uid es).map (·.rule S)) := by
  have hs : ∀ e ∈ Entry.others uid es, e.slot < portCount :=
    fun e he => Entry.slot_lt_of_valid v e (Entry.mem_others.mp he).left
  rw [createRule_rules hs, Entry.lease_others]
  unfold Lease.acquire.fresh at h
  cases hf : Lease.firstFree portCount
    (Lease.occupied (foldKey pool) (Lease.release (foldKey uid) (es.map (·.lease))))
  case none =>
    rw [hf] at h
    exact .full _ h
  case some i =>
    rw [hf] at h
    refine .done (Entry.others uid es ++ [⟨uid, pool, i⟩]) i true ?_ (by simp)
    rw [h, List.map_append, Entry.lease_others]
    rfl

theorem ensureRule_acquired (v : Lease.Valid portCount (es.map (·.lease))) :
    Acquired S uid pool es <|
      ensureRule (expectedLBRule S (namesOf uid pool)) (es.map (·.rule S)) := by
  have hn : (expectedLBRule S (namesOf uid pool)).name = uid := rfl
  have hacq := Entry.find?_leases uid es
  rw [ensureRule, hn, Entry.find?_rules, Entry.eraseP_rules v]
  cases hf : es.find? (foldKey ·.uid = foldKey uid)
  case none =>
    rw [hf] at hacq
    have ho : Entry.others uid es = es := Entry.others_eq_self (find?_none_iff.mp hf)
    have hfresh : Lease.acquire portCount (foldKey uid) (foldKey pool) (es.map (·.lease)) =
        Lease.acquire.fresh portCount (foldKey uid) (foldKey pool) (es.map (·.lease)) := by
      rw [Lease.acquire, hacq]
      rfl
    have hc := createRule_acquired (S := S) v hfresh
    rwa [ho] at hc
  case some e =>
    rw [hf] at hacq
    have hu : foldKey e.uid = foldKey uid := by simpa using List.find?_some hf
    simp only [Option.map_some, Entry.rule_properties]
    by_cases hg : foldKey e.pool = foldKey pool
    case pos =>
      rw [if_pos (sameLBRuleConfig_rule.mpr ⟨hg, hu⟩)]
      refine .done es e.slot false ?_ (fun _ => rfl)
      rw [Lease.acquire, hacq]
      exact if_pos hg
    case neg =>
      rw [if_neg fun hs => hg (sameLBRuleConfig_rule.mp hs).left]
      refine createRule_acquired v ?_
      rw [Lease.acquire, hacq]
      exact if_neg hg

-- If the configuration needs no rule, the counter tells how many rules of the pool stay.
theorem dropRules_rules :
    dropRules uid (S.az.getLBFrontendIPConfigurationID pool) (es.map (·.rule S)) =
    .ok ((Entry.others uid es).map (·.rule S),
      (Entry.others uid es).countP (foldKey ·.pool = foldKey pool),
      decide (foldKey uid ∈ es.map (foldKey ·.uid))) := by
  induction es
  case nil => rfl
  case cons e es hi =>
    simp only [List.map_cons, dropRules, hi, Entry.rule_name, Entry.rule_properties,
      Option.bind_some, val_some, equalFold_frontendID]
    by_cases hu : foldKey e.uid = foldKey uid
    case pos => simp [equalFold_iff.mpr hu, Entry.others, hu]
    case neg =>
      have ho : Entry.others uid (e :: es) = e :: Entry.others uid es := by simp [Entry.others, hu]
      rw [ho, if_neg (by simpa [equalFold_iff] using hu)]
      by_cases hp : foldKey e.pool = foldKey pool
      · simp [equalFold_iff.mpr hp, hp, Ne.symm hu]
      · simp [equalFold_false_iff.mpr hp, hp, Ne.symm hu]

theorem countP_others_eq_zero_iff :
    (Entry.others uid es).countP (foldKey ·.pool = foldKey pool) = 0 ↔
    foldKey pool ∉ (Lease.release (foldKey uid) (es.map (·.lease))).map (·.group) := by
  rw [← Entry.lease_others, List.countP_eq_zero]
  simp [Entry.lease]

-- Rules as Azure returns them, whoever has written them.
section Arbitrary

def Listening (port : Int) : Prop :=
  wireguardPortStart ≤ port ∧ port < wireguardPortEnd

-- The rule belongs to the backend pool, and has `port` on either side.
def Takes (backendID : String) (port : Int) (rule : LoadBalancingRule) : Prop :=
  ∃ p b, rule.properties = some p ∧ p.backendAddressPool = some b ∧ equalFold (val b.id) backendID = true ∧
    (p.frontendPort = some port ∨ p.backendPort = some port)

variable {id : String} {port : Int} {rule target expected : LoadBalancingRule}
  {rules rules' : List LoadBalancingRule} {names : LBPropertyNames}

theorem Takes.occupiedIndex {r : Option Nat} (h : Takes id port rule) (ho : occupiedIndex id rule = .ok r) :
    Listening port ∧ r = some (port - wireguardPortStart).toNat := by
  have ⟨p, b, hp, hb, hid, hport⟩ := h
  obtain ⟨_, _, _, _, _, fp, bp⟩ := p
  simp only at hb hport
  simp only [Manager.occupiedIndex, hp, hb, if_pos hid] at ho
  split at ho
  case h_2 => nomatch ho
  case h_1 fp bp =>
    split at ho
    case isTrue => nomatch ho
    case isFalse hc =>
      obtain rfl : bp = port := by
        simp only [Option.some.injEq] at hport
        omega
      exact ⟨by unfold Listening; omega, (Except.ok.inj ho).symm⟩

theorem length_markPorts {ports ports' : List Bool} (h : markPorts id rules ports = .ok ports') :
    ports'.length = ports.length := by
  fun_induction markPorts id rules ports
  case case1 => cases h; rfl
  case case2 => nomatch h
  case case3 hi => exact hi h
  case case4 hi => simpa using hi h
  case case5 => nomatch h

-- Nothing is ever unmarked, and the port of each rule of the pool gets marked.
theorem markPorts_marked {ports ports' : List Bool} (h : markPorts id rules ports = .ok ports') :
    (∀ i : Nat, ports[i]? = some true → ports'[i]? = some true) ∧
    ∀ rule ∈ rules, ∀ port, Takes id port rule →
      Listening port ∧ ports'[(port - wireguardPortStart).toNat]? = some true := by
  fun_induction markPorts id rules ports
  case case1 =>
    cases h
    exact ⟨fun _ hs => hs, nofun⟩
  case case2 | case5 => nomatch h
  case case3 rule rules ports ho hi =>
    have ⟨hk, ht⟩ := hi h
    refine ⟨hk, fun rule' hm port hp => ?_⟩
    rcases List.mem_cons.mp hm with rfl | hm
    · exact absurd (hp.occupiedIndex ho).right nofun
    · exact ht rule' hm port hp
  case case4 rule rules ports j ho hj hi =>
    have ⟨hk, ht⟩ := hi h
    have hself : ports'[j]? = some true := hk j (by simp [hj])
    refine ⟨fun i hs => hk i ?_, fun rule' hm port hp => ?_⟩
    · by_cases hij : j = i
      · simp [← hij, hj]
      · rwa [List.getElem?_set_ne hij]
    · rcases List.mem_cons.mp hm with rfl | hm
      · have ⟨hl, he⟩ := hp.occupiedIndex ho
        exact ⟨hl, Option.some.inj he ▸ hself⟩
      · exact ht rule' hm port hp

theorem selectPortForLBRule_ok (h : selectPortForLBRule target rules = .ok port) :
    ∃ backend ports i, target.properties.bind (·.backendAddressPool) = some backend ∧
      markPorts (val backend.id) rules (List.replicate portCount false) = .ok ports ∧
      ports.findIdx? (!·) = some i ∧ port = i + wireguardPortStart := by
  unfold selectPortForLBRule at h
  split at h
  case h_1 => nomatch h
  case h_2 backend hb =>
    split at h
    case h_1 => nomatch h
    case h_2 ports hm =>
      split at h
      case h_2 => nomatch h
      case h_1 i hi => exact ⟨backend, ports, i, hb, hm, hi, (Except.ok.inj h).symm⟩

theorem listening_selectPort (h : selectPortForLBRule target rules = .ok port) : Listening port := by
  have ⟨_, ports, i, _, hm, hi, hp⟩ := selectPortForLBRule_ok h
  have hlen := length_markPorts hm
  have hlt := (List.findIdx?_eq_some_iff_getElem.mp hi).choose
  simp only [List.length_replicate, portCount] at hlen
  simp only [Listening, wireguardPortStart, wireguardPortEnd] at hlen hp ⊢
  omega

theorem occupiedIndex_cases (id : String) (rule : LoadBalancingRule) :
    occupiedIndex id rule = .ok none ∨ (∃ i < portCount, occupiedIndex id rule = .ok (some i)) ∨
    ∃ text, occupiedIndex id rule = .error (Err.errorf text) := by
  unfold occupiedIndex
  split
  case h_2 => exact .inl rfl
  case h_1 =>
    split
    case isFalse => exact .inl rfl
    case isTrue =>
      split
      case h_2 => exact .inr (.inr ⟨_, rfl⟩)
      case h_1 p q =>
        split
        case isTrue => exact .inr (.inr ⟨_, rfl⟩)
        case isFalse hc =>
          refine .inr (.inl ⟨_, ?_, rfl⟩)
          simp only [portCount, wireguardPortStart, wireguardPortEnd] at hc ⊢
          omega

-- The index is never out of range.
theorem markPorts_sane {ports : List Bool} {e : Err} (hl : ports.length = portCount)
    (h : markPorts id rules ports = .error e) : e.code ≠ .panic := by
  fun_induction markPorts id rules ports
  case case1 => nomatch h
  case case2 rule _ _ e' ho =>
    cases h
    rcases occupiedIndex_cases id rule with hc | ⟨i, _, hc⟩ | ⟨text, hc⟩
    · exact absurd (ho.symm.trans hc) nofun
    · exact absurd (ho.symm.trans hc) nofun
    · rw [Except.error.inj (ho.symm.trans hc)]
      nofun
  case case3 hi => exact hi hl h
  case case4 hi => exact hi (by simpa using hl) h
  case case5 rule _ _ i ho hi =>
    rcases occupiedIndex_cases id rule with hc | ⟨j, hj, hc⟩ | ⟨text, hc⟩
    · exact absurd (ho.symm.trans hc) nofun
    · obtain rfl : i = j := by simpa using ho.symm.trans hc
      exact absurd (hl ▸ hj) hi
    · exact absurd (ho.symm.trans hc) nofun

omit [CaseFold] in
theorem backend_expected : (expectedLBRule S names).properties.bind (·.backendAddressPool) =
    some ⟨some (S.az.getLBBackendAddressPoolID names.backendName)⟩ := rfl

theorem selectPort_sane {e : Err} {backend : SubResource}
    (hb : target.properties.bind (·.backendAddressPool) = some backend)
    (h : selectPortForLBRule target rules = .error e) : e.code ≠ .panic := by
  unfold selectPortForLBRule at h
  split at h
  case h_1 hn => nomatch hn.symm.trans hb
  case h_2 =>
    split at h
    case h_1 hm => exact markPorts_sane List.length_replicate (Except.error.inj h ▸ hm)
    case h_2 =>
      split at h
      case h_1 => nomatch h
      case h_2 => exact Except.error.inj h ▸ nofun

-- The port that is selected is free.
theorem not_takes_of_selectPort {backend : SubResource}
    (hb : target.properties.bind (·.backendAddressPool) = some backend)
    (h : selectPortForLBRule target rules = .ok port) :
    ∀ rule ∈ rules, ¬Takes (val backend.id) port rule := by
  have ⟨_, ports, i, hb', hm, hi, hp⟩ := selectPortForLBRule_ok h
  obtain rfl := Option.some.inj (hb.symm.trans hb')
  intro rule hr ht
  have ⟨hlt, hfree, _⟩ := List.findIdx?_eq_some_iff_getElem.mp hi
  have ⟨_, hset⟩ := (markPorts_marked hm).right rule hr port ht
  rw [hp, Int.add_sub_cancel, Int.toNat_natCast, List.getElem?_eq_getElem hlt] at hset
  simp [Option.some.inj hset] at hfree

-- Everything that the comparison of two rules looks at is as it should be.
def Refers (r : Option SubResource) (id : String) : Prop :=
  ∃ t, r = some t ∧ equalFold (val t.id) id = true

structure Wired (S : Settings) (names : LBPropertyNames) (p : LoadBalancingRuleProperties) : Prop where
  protocol   : p.protocol = some .udp
  floatingIP : p.enableFloatingIP = some true
  frontend   : Refers p.frontendIPConfiguration (S.az.getLBFrontendIPConfigurationID names.frontendName)
  backend    : Refers p.backendAddressPool (S.az.getLBBackendAddressPoolID names.backendName)
  probe      : Refers p.probe (S.az.getLBProbeID names.probeName)

theorem equalSubResource_iff {r : Option SubResource} :
    equalSubResource r (some ⟨some id⟩) = true ↔ Refers r id := by
  cases r
  case none   => simp [equalSubResource, Refers]
  case some t => simp [equalSubResource, Refers]

theorem sameLBRuleConfig_iff :
    sameLBRuleConfig rule (expectedLBRule S names) = true ↔ ∃ p, rule.properties = some p ∧ Wired S names p := by
  cases hp : rule.properties
  case none => simp [sameLBRuleConfig, expectedLBRule, getExpectedLBRule, hp]
  case some p =>
    have hproto : (val p.protocol == TransportProtocol.udp) = true ↔ p.protocol = some .udp := by
      cases p.protocol
      case none   => decide
      case some q => simp
    have hfloat : (val p.enableFloatingIP == true) = true ↔ p.enableFloatingIP = some true := by
      cases p.enableFloatingIP
      case none   => decide
      case some q => simp
    simp only [sameLBRuleConfig, expectedLBRule, getExpectedLBRule, hp, Bool.and_eq_true,
      equalSubResource_iff, val_some, hproto, hfloat, Option.some.injEq, exists_eq_left']
    constructor
    · rintro ⟨⟨⟨⟨hf, hb⟩, hpr⟩, hu⟩, hfl⟩
      exact ⟨hu, hfl, hf, hb, hpr⟩
    · rintro ⟨hu, hfl, hf, hb, hpr⟩
      exact ⟨⟨⟨⟨hf, hb⟩, hpr⟩, hu⟩, hfl⟩

-- A rule that is wired correctly stays, and any other one is replaced.
inductive Ensured (S : Settings) (names : LBPropertyNames) (rules : List LoadBalancingRule) :
    List LoadBalancingRule → Int → Bool → Prop
  | kept {rule : LoadBalancingRule} {p : LoadBalancingRuleProperties}
      (find : rules.find? (equalFold ·.name names.lbRuleName) = some rule)
      (properties : rule.properties = some p) (wired : Wired S names p) :
      Ensured S names rules rules (val p.frontendPort) false
  | created {port : Int}
      (find : ∀ rule, rules.find? (equalFold ·.name names.lbRuleName) = some rule →
        sameLBRuleConfig rule (expectedLBRule S names) = false)
      (select : selectPortForLBRule (expectedLBRule S names)
        (rules.eraseP (equalFold ·.name names.lbRuleName)) = .ok port) :
      Ensured S names rules (rules.eraseP (equalFold ·.name names.lbRuleName) ++
        [withPort (expectedLBRule S names) port]) port true

theorem createRule_ensured {new : Bool}
    (hf : ∀ rule, rules.find? (equalFold ·.name names.lbRuleName) = some rule →
      sameLBRuleConfig rule (expectedLBRule S names) = false)
    (h : createRule (expectedLBRule S names) (rules.eraseP (equalFold ·.name names.lbRuleName)) =
      .ok (rules', port, new)) : Ensured S names rules rules' port new := by
  unfold createRule at h
  split at h
  case h_1 => nomatch h
  case h_2 port' hp =>
    cases h
    exact .created hf hp

theorem ensureRule_ensured {new : Bool} (h : ensureRule (expectedLBRule S names) rules = .ok (rules', port, new)) :
    Ensured S names rules rules' port new := by
  unfold ensureRule at h
  rw [show (expectedLBRule S names).name = names.lbRuleName from rfl] at h
  split at h
  case h_1 hf =>
    refine createRule_ensured (by simp [hf]) ?_
    rwa [List.eraseP_of_forall_not (by simpa using hf)]
  case h_2 rule hf =>
    split at h
    case h_1 hp =>
      refine createRule_ensured (fun rule' hr => ?_) h
      obtain rfl := Option.some.inj (hf.symm.trans hr)
      simp [sameLBRuleConfig, hp, expectedLBRule, getExpectedLBRule]
    case h_2 p hp =>
      split at h
      case isTrue hs =>
        cases h
        obtain ⟨p', hp', hw⟩ := sameLBRuleConfig_iff.mp hs
        obtain rfl := Option.some.inj (hp.symm.trans hp')
        exact .kept hf hp hw
      case isFalse hs =>
        refine createRule_ensured (fun rule' hr => ?_) h
        obtain rfl := Option.some.inj (hf.symm.trans hr)
        exact Bool.eq_false_iff.mpr hs

theorem ensureRule_kept {p : LoadBalancingRuleProperties}
    (hf : rules.find? (equalFold ·.name names.lbRuleName) = some rule) (hp : rule.properties = some p)
    (hw : Wired S names p) :
    ensureRule (expectedLBRule S names) rules = .ok (rules, val p.frontendPort, false) := by
  have hs := sameLBRuleConfig_iff.mpr ⟨p, hp, hw⟩
  rw [ensureRule, show (expectedLBRule S names).name = names.lbRuleName from rfl, hf]
  simp only [hp, hs, if_true]

theorem ensureRule_sane {e : Err} (h : ensureRule (expectedLBRule S names) rules = .error e) : e.code ≠ .panic := by
  have hcreate {rules : List LoadBalancingRule} (h : createRule (expectedLBRule S names) rules = .error e) :
      e.code ≠ .panic := by
    unfold createRule at h
    split at h
    case h_1 hs => exact selectPort_sane backend_expected (Except.error.inj h ▸ hs)
    case h_2 => nomatch h
  unfold ensureRule at h
  split at h
  case h_1 => exact hcreate h
  case h_2 =>
    split at h
    case h_1 => exact hcreate h
    case h_2 =>
      split at h
      case isTrue  => nomatch h
      case isFalse => exact hcreate h

end Arbitrary

end Manager
