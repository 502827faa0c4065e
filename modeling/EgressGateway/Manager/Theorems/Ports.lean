import EgressGateway.Manager.Theorems.Rules
import Mathlib.Order.Bounds.Defs

-- The selection of a port is a first fit among the rules of one backend pool.

open Kubernetes Azure Text

namespace Manager

variable [CaseFold]

-- The rule belongs to the backend pool.
def belongsTo (backendID : String) (rule : LoadBalancingRule) : Bool :=
  (rule.properties.bind (·.backendAddressPool)).any fun b => equalFold (val b.id) backendID

-- A rule of the backend pool without a proper pair of ports.
def Misported (backendID : String) (rule : LoadBalancingRule) : Prop :=
  belongsTo backendID rule = true ∧
  ¬∃ p port, rule.properties = some p ∧ p.frontendPort = some port ∧ p.backendPort = some port ∧ Listening port

-- No port is left.
def Exhausted (backendID : String) (rules : List LoadBalancingRule) : Prop :=
  ∀ port, Listening port → ∃ rule ∈ rules, Takes backendID port rule

section Ports

variable {id : String} {port : Int} {rule target : LoadBalancingRule} {rules : List LoadBalancingRule}
  {ports ports' : List Bool}

theorem occupiedIndex_foreign (h : belongsTo id rule = false) : occupiedIndex id rule = .ok none := by
  unfold occupiedIndex
  split
  case h_2 => rfl
  case h_1 backend _ _ _ hp =>
    refine if_neg ?_
    simpa [belongsTo, hp] using h

-- The marks that a rule of the pool sets.
inductive Marks (id : String) (rule : LoadBalancingRule) : Except Err (Option Nat) → Prop
  | invalid {e} (bad : Misported id rule) : Marks id rule (.error e)
  | valid {i} (good : ¬Misported id rule) (range : i < portCount)
    (takes : ∀ port, Takes id port rule ↔ port = i + wireguardPortStart) : Marks id rule (.ok (some i))

theorem occupiedIndex_marks (h : belongsTo id rule = true) : Marks id rule (occupiedIndex id rule) := by
  obtain ⟨p, hp, hb⟩ : ∃ p, rule.properties = some p ∧
      (p.backendAddressPool.any fun b => equalFold (val b.id) id) = true := by
    cases hp : rule.properties
    case none   => simp [belongsTo, hp] at h
    case some p => exact ⟨p, rfl, by simpa [belongsTo, hp] using h⟩
  obtain ⟨proto, floating, frontend, _ | backend, probe, fp, bp⟩ := p
  case none => nomatch hb
  replace hb : equalFold (val backend.id) id = true := hb
  simp only [occupiedIndex, hp, if_pos hb]
  have hbad : ¬(∃ port, fp = some port ∧ bp = some port ∧ Listening port) → Misported id rule := by
    rintro hn
    refine ⟨h, ?_⟩
    rintro ⟨_, port, hp', hf, hb', hl⟩
    obtain rfl := Option.some.inj (hp.symm.trans hp')
    exact hn ⟨port, hf, hb', hl⟩
  split
  case h_2 hnone =>
    refine .invalid (hbad ?_)
    rintro ⟨port, hf, hb', _⟩
    exact hnone port port hf hb'
  case h_1 f b =>
    split
    case isTrue hr =>
      refine .invalid (hbad ?_)
      rintro ⟨port, hf, hb', hl⟩
      cases hf
      cases hb'
      unfold Listening at hl
      omega
    case isFalse hr =>
      obtain rfl : f = b := by omega
      have hl : Listening f := by
        unfold Listening
        omega
      refine .valid ?_ ?_ ?_
      case refine_1 => exact fun hm => hm.right ⟨_, f, hp, rfl, rfl, hl⟩
      case refine_2 =>
        simp only [portCount, Listening, wireguardPortStart, wireguardPortEnd] at hl ⊢
        omega
      case refine_3 =>
        intro port
        have hport : ((f - wireguardPortStart).toNat : Int) + wireguardPortStart = f := by
          simp only [Listening, wireguardPortStart, wireguardPortEnd] at hl ⊢
          omega
        rw [hport]
        constructor
        case mp =>
          rintro ⟨_, _, hp', _, _, hport⟩
          obtain rfl := Option.some.inj (hp.symm.trans hp')
          simpa [eq_comm] using hport
        case mpr =>
          rintro rfl
          exact ⟨_, backend, hp, rfl, hb, .inl rfl⟩

theorem belongsTo_of_takes (h : Takes id port rule) : belongsTo id rule = true := by
  have ⟨p, b, hp, hb, hid, _⟩ := h
  simp [belongsTo, hp, hb, hid]

-- Rules of other pools are passed over.
theorem markPorts_filter (id : String) (rules : List LoadBalancingRule) (ports : List Bool) :
    markPorts id rules ports = markPorts id (rules.filter (belongsTo id)) ports := by
  induction rules generalizing ports
  case nil => rfl
  case cons rule rules hi =>
    cases hb : belongsTo id rule
    case false =>
      rw [List.filter_cons_of_neg (by simp [hb]), ← hi, markPorts, occupiedIndex_foreign hb]
    case true =>
      rw [List.filter_cons_of_pos hb, markPorts, markPorts]
      simp only [← hi]

-- What the loop leaves behind: the ports that are taken are marked, unless one of the rules is not as it
-- should be.
theorem markPorts_spec (hl : ports.length = portCount) (hb : ∀ rule ∈ rules, belongsTo id rule = true) :
    (∃ e, markPorts id rules ports = .error e ∧ ∃ rule ∈ rules, Misported id rule) ∨
    (∃ ports', markPorts id rules ports = .ok ports' ∧ ports'.length = portCount ∧
      (∀ rule ∈ rules, ¬Misported id rule) ∧
      ∀ i : Nat, i < portCount → (ports'[i]? = some true ↔
        ports[i]? = some true ∨ ∃ rule ∈ rules, Takes id (i + wireguardPortStart) rule)) := by
  induction rules generalizing ports
  case nil => exact .inr ⟨ports, rfl, hl, nofun, by simp⟩
  case cons rule rules hi =>
    have hm := occupiedIndex_marks (hb rule List.mem_cons_self)
    have hb : ∀ rule ∈ rules, belongsTo id rule = true := fun r hr => hb r (List.mem_cons_of_mem _ hr)
    rw [markPorts]
    cases ho : occupiedIndex id rule
    case error e =>
      rw [ho] at hm
      cases hm
      case invalid bad => exact .inl ⟨e, rfl, rule, List.mem_cons_self, bad⟩
    case ok o =>
      rw [ho] at hm
      cases hm
      case valid j good range takes =>
        simp only [if_pos (hl ▸ range : j < ports.length)]
        rcases hi (by simpa using hl : (ports.set j true).length = portCount) hb with
          ⟨e, he, r, hr, hbad⟩ | ⟨ports', hp, hl', hgood, hset⟩
        · exact .inl ⟨e, he, r, List.mem_cons_of_mem _ hr, hbad⟩
        · refine .inr ⟨ports', hp, hl', ?_, fun i hi => ?_⟩
          · intro r hr
            rcases List.mem_cons.mp hr with rfl | hr
            · exact good
            · exact hgood r hr
          · rw [hset i hi, List.getElem?_set]
            have hi' : i < ports.length := hl ▸ hi
            have ht : Takes id (i + wireguardPortStart) rule ↔ j = i := by
              rw [takes]
              omega
            by_cases hji : j = i
            · simp [hji, hi', ht.mpr hji]
            · simp [hji, mt ht.mp hji]

omit [CaseFold] in
theorem listening_iff : Listening port ↔ ∃ i < portCount, port = i + wireguardPortStart := by
  simp only [Listening, portCount, wireguardPortStart, wireguardPortEnd]
  constructor
  case mp => exact fun h => ⟨(port - 6000).toNat, by omega, by omega⟩
  case mpr =>
    rintro ⟨i, hi, rfl⟩
    omega

-- The scan for the first gap.
theorem findIdx?_none_iff (hl : ports.length = portCount)
    (hp : ∀ i : Nat, i < portCount → (ports[i]? = some true ↔ ∃ rule ∈ rules, Takes id (i + wireguardPortStart) rule)) :
    ports.findIdx? (!·) = none ↔ Exhausted id rules := by
  rw [List.findIdx?_eq_none_iff]
  constructor
  case mp =>
    intro hall port hport
    obtain ⟨i, hi, rfl⟩ := listening_iff.mp hport
    have hlt : i < ports.length := lt_of_lt_of_eq hi hl.symm
    refine (hp i hi).mp ?_
    rw [List.getElem?_eq_getElem hlt]
    simpa using hall _ (List.getElem_mem hlt)
  case mpr =>
    intro hex b hb
    have ⟨i, hlt, he⟩ := List.getElem_of_mem hb
    have hi : i < portCount := lt_of_lt_of_eq hlt hl
    have hm := (hp i hi).mpr (hex _ (listening_iff.mpr ⟨i, hi, rfl⟩))
    rw [List.getElem?_eq_getElem hlt, he] at hm
    simpa using hm

theorem findIdx?_least (hl : ports.length = portCount)
    (hp : ∀ i : Nat, i < portCount → (ports[i]? = some true ↔ ∃ rule ∈ rules, Takes id (i + wireguardPortStart) rule))
    {i : Nat} (h : ports.findIdx? (!·) = some i) :
    IsLeast { q | Listening q ∧ ∀ rule ∈ rules, ¬Takes id q rule } (i + wireguardPortStart) := by
  have ⟨hlt, hfree, hlow⟩ := List.findIdx?_eq_some_iff_getElem.mp h
  have hi : i < portCount := lt_of_lt_of_eq hlt hl
  constructor
  case left =>
    refine ⟨listening_iff.mpr ⟨i, hi, rfl⟩, fun rule hr ht => ?_⟩
    have hm := (hp i hi).mpr ⟨rule, hr, ht⟩
    rw [List.getElem?_eq_getElem hlt] at hm
    simp [Option.some.inj hm] at hfree
  case right =>
    rintro q ⟨hq, hnot⟩
    obtain ⟨j, hj, rfl⟩ := listening_iff.mp hq
    by_contra hqi
    have hji : j < i := by omega
    have hjl : j < ports.length := lt_of_lt_of_eq hj hl.symm
    have hset : ports[j]? = some true := by
      rw [List.getElem?_eq_getElem hjl]
      simpa using hlow j hji
    have ⟨rule, hr, ht⟩ := (hp j hj).mp hset
    exact hnot rule hr ht

theorem takes_filter {q : Int} :
    (∃ rule ∈ rules.filter (belongsTo id), Takes id q rule) ↔ ∃ rule ∈ rules, Takes id q rule := by
  constructor
  case mp =>
    rintro ⟨rule, hr, ht⟩
    exact ⟨rule, (List.mem_filter.mp hr).left, ht⟩
  case mpr =>
    rintro ⟨rule, hr, ht⟩
    exact ⟨rule, List.mem_filter.mpr ⟨hr, belongsTo_of_takes ht⟩, ht⟩

theorem misported_filter :
    (∃ rule ∈ rules.filter (belongsTo id), Misported id rule) ↔ ∃ rule ∈ rules, Misported id rule := by
  constructor
  case mp =>
    rintro ⟨rule, hr, hm⟩
    exact ⟨rule, (List.mem_filter.mp hr).left, hm⟩
  case mpr =>
    rintro ⟨rule, hr, hm⟩
    exact ⟨rule, List.mem_filter.mpr ⟨hr, hm.left⟩, hm⟩

theorem selectPort_eq {backend : SubResource} (hb : target.properties.bind (·.backendAddressPool) = some backend) :
    selectPortForLBRule target rules =
      match markPorts (val backend.id) (rules.filter (belongsTo (val backend.id))) (List.replicate portCount false) with
      | .error e  => .error e
      | .ok ports =>
        match ports.findIdx? (!·) with
        | some i => .ok (i + wireguardPortStart)
        | none   => .error (Err.errorf "selectPortForLBRule: No available ports") := by
  rw [← markPorts_filter]
  simp only [selectPortForLBRule, hb]
  rfl

-- The outcomes of the selection.
inductive Selected (id : String) (rules : List LoadBalancingRule) : Except Err Int → Prop
  | invalid {e : Err} (bad : ∃ rule ∈ rules, Misported id rule) : Selected id rules (.error e)
  | full {e : Err} (none : Exhausted id rules) : Selected id rules (.error e)
  | fits {port : Int} (good : ¬∃ rule ∈ rules, Misported id rule)
    (least : IsLeast { q | Listening q ∧ ∀ rule ∈ rules, ¬Takes id q rule } port) : Selected id rules (.ok port)

theorem selectPort_fit {backend : SubResource} (hb : target.properties.bind (·.backendAddressPool) = some backend) :
    Selected (val backend.id) rules (selectPortForLBRule target rules) := by
  have hlen : (List.replicate portCount false).length = portCount := List.length_replicate
  have hbelongs : ∀ rule ∈ rules.filter (belongsTo (val backend.id)), belongsTo (val backend.id) rule = true :=
    fun rule hr => (List.mem_filter.mp hr).right
  rw [selectPort_eq hb]
  rcases markPorts_spec hlen hbelongs with ⟨e, he, hbad⟩ | ⟨ports, hp, hl, hgood, hmarks⟩
  case inl =>
    rw [he]
    exact .invalid (misported_filter.mp hbad)
  case inr =>
    have hmarks : ∀ i : Nat, i < portCount →
        (ports[i]? = some true ↔ ∃ rule ∈ rules, Takes (val backend.id) (i + wireguardPortStart) rule) := by
      intro i hi
      rw [hmarks i hi, takes_filter, List.getElem?_replicate_of_lt hi]
      simp
    rw [hp]
    cases hi : ports.findIdx? (!·)
    case none => simpa only [hi] using .full ((findIdx?_none_iff hl hmarks).mp hi)
    case some i =>
      have hgood : ¬∃ rule ∈ rules, Misported (val backend.id) rule := fun hex => by
        have ⟨rule, hr, hm⟩ := misported_filter.mpr hex
        exact hgood rule hr hm
      simpa only [hi] using .fits hgood (findIdx?_least hl hmarks hi)

-- A port is selected unless a rule of the pool is not as it should be or all ports are taken, and it is
-- the least one that is free. The index into the array is never out of range.
theorem selectPort_first_fit {backend : SubResource}
    (hb : target.properties.bind (·.backendAddressPool) = some backend) (rules : List LoadBalancingRule) :
    ((∃ e, selectPortForLBRule target rules = .error e) ↔
      (∃ rule ∈ rules, Misported (val backend.id) rule) ∨ Exhausted (val backend.id) rules) ∧
    (∀ port, selectPortForLBRule target rules = .ok port →
      IsLeast { q | Listening q ∧ ∀ rule ∈ rules, ¬Takes (val backend.id) q rule } port) ∧
    (∀ e, selectPortForLBRule target rules = .error e → e.code ≠ .panic) ∧
    selectPortForLBRule target rules =
      selectPortForLBRule target (rules.filter (belongsTo (val backend.id))) := by
  have hfit : Selected (val backend.id) rules (selectPortForLBRule target rules) := selectPort_fit hb
  refine ⟨?_, ?_, fun e => selectPort_sane hb, ?_⟩
  case refine_1 =>
    cases hr : selectPortForLBRule target rules
    case error e =>
      rw [hr] at hfit
      refine iff_of_true ⟨e, rfl⟩ ?_
      cases hfit
      case invalid bad => exact .inl bad
      case full none   => exact .inr none
    case ok port =>
      rw [hr] at hfit
      refine iff_of_false nofun ?_
      cases hfit
      case fits good least =>
        rintro (hbad | hfull)
        · exact good hbad
        · have ⟨rule, hrule, ht⟩ := hfull port least.left.left
          exact least.left.right rule hrule ht
  case refine_2 =>
    intro port hr
    rw [hr] at hfit
    cases hfit
    case fits least => exact least
  case refine_3 =>
    rw [selectPort_eq hb, selectPort_eq hb, List.filter_filter]
    simp only [Bool.and_self]

end Ports

end Manager

namespace Manager

namespace Sample

-- A rule of a backend pool with the same port on both sides.
def poolRule (pool : String) (port : Int) : LoadBalancingRule where
  name       := pool
  properties := some {
    protocol                := some .udp
    enableFloatingIP        := some true
    frontendIPConfiguration := none
    backendAddressPool      := some ⟨some pool⟩
    probe                   := none
    frontendPort            := some port
    backendPort             := some port }

end Sample

open Sample in
-- The first port is taken by a rule of the pool, the second one only by a rule of another pool.
theorem selectPort_first_fit_sample :
    selectPortForLBRule (poolRule "a" 0) [poolRule "b" 6001, poolRule "A" 6000] = .ok 6001 ∧
    IsLeast { q | Listening q ∧ ∀ rule ∈ [poolRule "b" 6001, poolRule "A" 6000], ¬Takes "a" q rule } 6001 := by
  have hr : selectPortForLBRule (poolRule "a" 0) [poolRule "b" 6001, poolRule "A" 6000] = .ok 6001 := by
    decide +kernel
  have hb : (poolRule "a" 0).properties.bind (·.backendAddressPool) = some ⟨some "a"⟩ := rfl
  exact ⟨hr, (selectPort_first_fit hb _).right.left 6001 hr⟩

end Manager
