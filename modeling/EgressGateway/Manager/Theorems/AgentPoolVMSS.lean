import EgressGateway.Base.Keyed
import EgressGateway.Manager.AgentPoolVMSS
import Mathlib.Data.List.Induction

-- On a scale set, the IP configurations of the gateways and the membership in the backend pool come and
-- go without a trace.

open Kubernetes Azure Text

namespace Azure.NetworkConfiguration

variable {nic : NetworkConfiguration} {cs ds : List IPConfiguration}

@[simp]
theorem setConfigs_setConfigs : (nic.setConfigs cs).setConfigs ds = nic.setConfigs ds := by
  cases nic with | mk _ p => cases p <;> rfl

@[simp]
theorem setConfigs_configs : nic.setConfigs nic.configs = nic := by
  cases nic with | mk _ p => cases p <;> rfl

@[simp]
theorem isPrimaryNIC_setConfigs : Manager.isPrimaryNIC (nic.setConfigs cs) = Manager.isPrimaryNIC nic := by
  cases nic with | mk _ p => cases p <;> rfl

theorem configs_setConfigs (h : Manager.isPrimaryNIC nic = true) : (nic.setConfigs cs).configs = cs := by
  cases nic with | mk _ p =>
    cases p
    case none => nomatch h
    case some => rfl

end Azure.NetworkConfiguration

namespace Manager

section Lists

variable {α β : Type} {p : α → Bool} {pre post : List α} {x : α}

theorem splitLast_none (h : ∀ y ∈ post, p y = false) : splitLast p post = none := by
  induction post
  case nil => rfl
  case cons y ys hi =>
    rw [splitLast, hi fun z hz => h z (List.mem_cons_of_mem _ hz)]
    simp [h y List.mem_cons_self]

theorem splitLast_append (hx : p x = true) (h : ∀ y ∈ post, p y = false) :
    splitLast p (pre ++ x :: post) = some (pre, x, post) := by
  induction pre
  case nil => simp [splitLast, splitLast_none h, hx]
  case cons y ys hi => rw [List.cons_append, splitLast, hi]

theorem modifyFirst_append {f : α → α × β} (h : ∀ y ∈ pre, p y = false) (hx : p x = true) :
    modifyFirst p f (pre ++ x :: post) = some (pre ++ (f x).1 :: post, (f x).2) := by
  induction pre
  case nil => simp [modifyFirst, hx]
  case cons y ys hi =>
    rw [List.cons_append, modifyFirst, hi fun z hz => h z (List.mem_cons_of_mem _ hz)]
    simp [h y List.mem_cons_self]

end Lists

-- The IP configuration with the additional membership in a backend pool.
def joined (pool : String) (c : IPConfiguration) : IPConfiguration :=
  { c with
    properties := c.properties.map fun p => { p with
      loadBalancerBackendAddressPools := p.loadBalancerBackendAddressPools ++ [⟨some pool⟩] } }

def backendPools (c : IPConfiguration) : List SubResource :=
  c.properties.elim [] (·.loadBalancerBackendAddressPools)

-- The primary IP configuration while the backend pool is in use, or not.
def member (pool : String) (used : Bool) (c : IPConfiguration) : IPConfiguration :=
  if used then joined pool c else c

-- The interface with the IP configurations `managed` of gateways, the first of which has brought the
-- primary IP configuration into the backend pool.
def provisioned (pool : String) (managed : List IPConfiguration) (nic : NetworkConfiguration) :
    NetworkConfiguration :=
  nic.setConfigs <|
    nic.configs.map (fun c => if isPrimaryConfig c then member pool (managed ≠ []) c else c) ++ managed

section Primary

variable {pool : String} {c : IPConfiguration} {used : Bool}

theorem isPrimaryConfig_member : isPrimaryConfig (member pool used c) = isPrimaryConfig c := by
  obtain ⟨_, _ | _⟩ := c <;> cases used <;> rfl

theorem subnet_member :
    (member pool used c).properties.bind (·.subnet) = c.properties.bind (·.subnet) := by
  obtain ⟨_, _ | _⟩ := c <;> cases used <;> rfl

theorem backendPools_member (h : isPrimaryConfig c = true) :
    backendPools (member pool used c) = backendPools c ++ if used then [⟨some pool⟩] else [] := by
  obtain ⟨_, _ | p⟩ := c
  case none => nomatch h
  case some =>
    cases used
    case true  => rfl
    case false => exact (List.append_nil _).symm

theorem name_member : (member pool used c).name = c.name := by
  cases used <;> rfl

end Primary

variable [CaseFold]

-- An interface list before any gateway has been provisioned: `nic` is its only primary interface, `c` the
-- only primary IP configuration of that interface.
structure Pristine (pool : String) (interfaces : List NetworkConfiguration)
    (nic : NetworkConfiguration) (c : IPConfiguration) : Prop where
  primary : interfaces.filter isPrimaryNIC = [nic] ∧ nic.configs.filter isPrimaryConfig = [c]
  subnet  : (c.properties.bind (·.subnet)).isSome
  foreign : ∀ d ∈ nic.configs, hasPrefix (val d.name) managedResourcePrefix = false
  outside : ∀ b ∈ backendPools c, equalFold pool (val b.id) = false

-- The IP configurations of gateways on one interface.
structure Managed (managed : List IPConfiguration) : Prop where
  named     : ∀ m ∈ managed, hasPrefix (val m.name) managedResourcePrefix = true
  secondary : ∀ m ∈ managed, isPrimaryConfig m = false
  nodup     : (managed.map (val ·.name)).Nodup

-- What becomes of them by one more call.
def adjusted (name : String) (expected : IPConfiguration) (want : Bool) (managed : List IPConfiguration) :
    List IPConfiguration :=
  if want && (managed.find? (val ·.name = name)).any (!different · expected) then managed
  else managed.eraseP (val ·.name = name) ++ if want then [expected] else []

omit [CaseFold] in
theorem differs_self {α : Type} {diff : α → α → Bool} (h : ∀ a, diff a a = false) (v : Option α) :
    differs diff v v = false := by
  cases v
  case none   => rfl
  case some a => exact h a

theorem different_self (c : IPConfiguration) : different c c = false := by
  have hid : ∀ a : SubResource, differentID a a = false := by simp [differentID, equalFold_refl]
  refine differs_self (fun p => ?_) _
  simp only [ne_eq, not_true_eq_false, decide_false, differs_self hid, Bool.false_or]
  refine differs_self (fun pip => ?_) _
  simp only [not_true_eq_false, decide_false, Bool.false_or]
  exact differs_self (fun p => differs_self hid p.publicIPPrefix) _

omit [CaseFold] in
theorem expected_name {name prefixID : String} {subnetID : Option String} :
    val (expectedIPConfig name prefixID subnetID).name = name := rfl

section Adjusted

variable {name : String} {expected m : IPConfiguration} {want : Bool} {managed : List IPConfiguration}

-- The target is the only one that is affected, and if it is wanted then it is as expected.
theorem mem_adjusted (h : (managed.map (val ·.name)).Nodup) (he : val expected.name = name)
    (hm : m ∈ adjusted name expected want managed) :
    m ∈ managed ∧ val m.name ≠ name ∨
    want = true ∧ val m.name = name ∧ different m expected = false ∧ (m ∈ managed ∨ m = expected) := by
  unfold adjusted at hm
  split at hm
  case isTrue hk =>
    rw [Bool.and_eq_true] at hk
    by_cases hn : val m.name = name
    case neg => exact .inl ⟨hm, hn⟩
    case pos =>
      have hf : managed.find? (val ·.name = name) = some m :=
        hn ▸ Keyed.find?_some_of_mem h hm
      exact .inr ⟨hk.left, hn, by simpa [hf] using hk.right, .inl hm⟩
  case isFalse hk =>
    rcases List.mem_append.mp hm with hm | hm
    · rw [Keyed.eraseP_eq_filter h, List.mem_filter] at hm
      exact .inl ⟨hm.left, by simpa using hm.right⟩
    · cases want
      case false => nomatch hm
      case true =>
        obtain rfl := List.mem_singleton.mp hm
        exact .inr ⟨rfl, he, different_self m, .inr rfl⟩

theorem names_adjusted (h : (managed.map (val ·.name)).Nodup) (he : val expected.name = name) :
    ((adjusted name expected want managed).map (val ·.name)).Nodup ∧
    ∀ n, n ∈ (adjusted name expected want managed).map (val ·.name) ↔
      if n = name then want = true else n ∈ managed.map (val ·.name) := by
  unfold adjusted
  split
  case isTrue hk =>
    rw [Bool.and_eq_true] at hk
    have hf : name ∈ managed.map (val ·.name) := by
      refine Keyed.find?_isSome_iff.mp ?_
      exact Option.isSome_of_any hk.right
    refine ⟨h, fun n => ?_⟩
    split
    case isTrue hn => simp only [hn, hf, hk.left]
    case isFalse   => rfl
  case isFalse =>
    rw [List.map_append, Keyed.map_eraseP]
    have hlast : (if want then [expected] else []).map (val ·.name) = if want then [name] else [] := by
      cases want <;> simp [he]
    rw [hlast]
    constructor
    case left =>
      refine List.nodup_append.mpr ⟨h.erase _, by cases want <;> simp, ?_⟩
      intro a ha b hb hab
      cases want
      case false => nomatch hb
      case true => exact (h.mem_erase_iff.mp ha).left (hab.trans (List.mem_singleton.mp hb))
    case right =>
      intro n
      rw [List.mem_append, h.mem_erase_iff]
      by_cases hn : n = name <;> cases want <;> simp [hn]

end Adjusted

omit [CaseFold] in
theorem Managed.init : Managed [] where
  named     := nofun
  secondary := nofun
  nodup     := List.nodup_nil

theorem Managed.adjusted {name prefixID : String} {subnetID : Option String} {want : Bool}
    {managed : List IPConfiguration} (h : Managed managed)
    (hn : hasPrefix name managedResourcePrefix = true) :
    Managed (adjusted name (expectedIPConfig name prefixID subnetID) want managed) where
  named m hm := by
    rcases mem_adjusted h.nodup expected_name hm with ⟨hm, _⟩ | ⟨_, rfl, _, _⟩
    · exact h.named m hm
    · exact hn
  secondary m hm := by
    rcases mem_adjusted h.nodup expected_name hm with ⟨hm, _⟩ | ⟨_, _, _, hm | rfl⟩
    · exact h.secondary m hm
    · exact h.secondary m hm
    · rfl
  nodup := (names_adjusted h.nodup expected_name).left

-- Joining and leaving the pool are inverse, since the membership is found at the end of the list.
theorem toggle_member {pool : String} {c : IPConfiguration} {used need : Bool}
    (hp : isPrimaryConfig c = true) (ho : ∀ b ∈ backendPools c, equalFold pool (val b.id) = false) :
    (toggleBackendPool pool need (member pool used c)).1 = member pool need c := by
  obtain ⟨name, _ | p⟩ := c
  case none => nomatch hp
  replace ho : ∀ b ∈ p.loadBalancerBackendAddressPools, equalFold pool (val b.id) = false := ho
  have hany : p.loadBalancerBackendAddressPools.any (fun b => equalFold pool (val b.id)) = false :=
    List.any_eq_false.mpr fun b hb => by simp [ho b hb]
  have herase : (p.loadBalancerBackendAddressPools ++ [(⟨some pool⟩ : SubResource)]).eraseP
      (fun b => equalFold pool (val b.id)) = p.loadBalancerBackendAddressPools := by
    rw [List.eraseP_append_right _ fun b hb => by simp [ho b hb]]
    simp [equalFold_refl]
  cases used <;> cases need <;>
    simp [member, joined, toggleBackendPool, toggleBackendPool.isPool, toggleBackendPool.set, hany,
      equalFold_refl, herase]

section Sweep

variable {name pool prefixID : String} {want : Bool} {nic : NetworkConfiguration}
  {expected : IPConfiguration} {cs ms : List IPConfiguration} {pre post : List NetworkConfiguration}

-- The target is there, and as expected.
def isKept (name : String) (expected : IPConfiguration) (want : Bool) (cs : List IPConfiguration) : Bool :=
  want && (cs.find? (val ·.name = name)).any (!different · expected)

theorem adjusted_kept (h : isKept name expected want cs = true) : adjusted name expected want cs = cs :=
  if_pos h

theorem adjusted_not_kept (h : isKept name expected want cs = false) :
    adjusted name expected want cs =
      cs.eraseP (val ·.name = name) ++ if want then [expected] else [] :=
  if_neg (Bool.eq_false_iff.mp h)

-- The target is only found among the IP configurations `ms`.
theorem adjusted_append (hc : ∀ c ∈ cs, val c.name ≠ name) :
    adjusted name expected want (cs ++ ms) = cs ++ adjusted name expected want ms := by
  have hf : (cs ++ ms).find? (val ·.name = name) = ms.find? (val ·.name = name) := by
    rw [List.find?_append, List.find?_eq_none.mpr fun c h => by simpa using hc c h, Option.none_or]
  have he : (cs ++ ms).eraseP (val ·.name = name) = cs ++ ms.eraseP (val ·.name = name) :=
    List.eraseP_append_right _ fun c h => by simpa using hc c h
  simp only [adjusted, hf, he, List.append_assoc]
  split <;> rfl

theorem sweepNIC_other (h : isPrimaryNIC nic = false) :
    sweepNIC expected name want nic = ⟨nic, false, false⟩ := by
  simp [sweepNIC, h]

theorem sweepNIC_primary (hn : isPrimaryNIC nic = true) :
    sweepNIC expected name want nic =
      if isKept name expected want nic.configs then
        ⟨nic, true, false⟩
      else
        ⟨nic.setConfigs (nic.configs.eraseP (val ·.name = name)), false,
          (nic.configs.find? (val ·.name = name)).isSome⟩ := by
  unfold sweepNIC
  rw [if_pos hn]
  split
  case h_1 hm =>
    have hk : isKept name expected want nic.configs = false := by simp [isKept, hm]
    rw [hk, List.eraseP_of_forall_not fun m h => List.find?_eq_none.mp hm m h]
    simp [hm]
  case h_2 m hm =>
    have hk : isKept name expected want nic.configs = (want && !different m expected) := by
      simp [isKept, hm]
    rw [hk, hm]
    rfl

-- Only the primary interface is affected.
theorem sweep_interfaces (nic : NetworkConfiguration) (expected : IPConfiguration) (name : String)
    (want : Bool) (hpre : ∀ n ∈ pre, isPrimaryNIC n = false)
    (hpost : ∀ n ∈ post, isPrimaryNIC n = false) :
    (pre ++ nic :: post).map (sweepNIC expected name want) =
      pre.map (⟨·, false, false⟩) ++ sweepNIC expected name want nic :: post.map (⟨·, false, false⟩) := by
  have hid : ∀ ns : List NetworkConfiguration, (∀ n ∈ ns, isPrimaryNIC n = false) →
      ns.map (sweepNIC expected name want) = ns.map (⟨·, false, false⟩) :=
    fun ns h => List.map_congr_left fun n hn => sweepNIC_other (h n hn)
  rw [List.map_append, List.map_cons, hid pre hpre, hid post hpost]

-- The IP configurations of the primary interface are adjusted, then its membership in the backend pool.
theorem reconcile_eq (hpre : ∀ n ∈ pre, isPrimaryNIC n = false)
    (hpost : ∀ n ∈ post, isPrimaryNIC n = false) (hn : isPrimaryNIC nic = true)
    (he : getExpectedIPConfig name prefixID (pre ++ nic :: post) = .ok expected) :
    reconcileVMSSNetworkInterface name prefixID pool want (pre ++ nic :: post) =
      (reconcileLbBackendPool pool (nic.setConfigs (adjusted name expected want nic.configs))).map
        fun (n, changed) => (pre ++ n :: post,
          !isKept name expected want nic.configs &&
            (want || (nic.configs.find? (val ·.name = name)).isSome) || changed) := by
  have hnil : ∀ ns : List NetworkConfiguration,
      (ns.map (Sweep.mk · false false)).any (·.found) = false ∧
      (ns.map (Sweep.mk · false false)).any (·.dropped) = false ∧
      (ns.map (Sweep.mk · false false)).map (·.nic) = ns := by
    simp [Function.comp_def]
  have ⟨hf, hd, hm⟩ := hnil pre
  have ⟨hf', hd', hm'⟩ := hnil post
  unfold reconcileVMSSNetworkInterface
  rw [he]
  simp only [bind, Except.bind, sweep_interfaces nic expected name want hpre hpost, sweepNIC_primary hn,
    List.any_append, List.any_cons, List.map_append, List.map_cons, hf, hd, hm, hf', hd', hm',
    Bool.false_or, Bool.or_false]
  cases hk : isKept name expected want nic.configs
  case true =>
    rw [adjusted_kept hk, if_pos rfl, splitLast_append hn hpost]
    simp only [Bool.not_true, Bool.and_false, Bool.false_eq_true, if_false,
      NetworkConfiguration.setConfigs_configs]
    cases reconcileLbBackendPool pool nic <;> rfl
  case false =>
    rw [adjusted_not_kept hk, if_neg Bool.false_ne_true, splitLast_append (by simpa using hn) hpost]
    have hnic : (if want then
          (nic.setConfigs (nic.configs.eraseP (val ·.name = name))).setConfigs
            ((nic.setConfigs (nic.configs.eraseP (val ·.name = name))).configs ++ [expected])
        else nic.setConfigs (nic.configs.eraseP (val ·.name = name))) =
        nic.setConfigs (nic.configs.eraseP (val ·.name = name) ++ if want then [expected] else []) := by
      cases want
      case false => simp
      case true  => simp [NetworkConfiguration.configs_setConfigs hn]
    simp only [Bool.not_false, Bool.and_true, Bool.true_and, hnic]
    cases reconcileLbBackendPool pool _
    case error => rfl
    case ok r  => simp only [Except.map, Bool.or_comm want]

end Sweep

omit [CaseFold] in
-- The subnet is that of the primary IP configuration.
theorem getExpectedIPConfig_eq {name prefixID : String} {interfaces : List NetworkConfiguration}
    {nic : NetworkConfiguration} {c : IPConfiguration} {subnet : SubResource}
    (hnic : interfaces.filter isPrimaryNIC = [nic]) (hc : nic.configs.filter isPrimaryConfig = [c])
    (hs : c.properties.bind (·.subnet) = some subnet) :
    getExpectedIPConfig name prefixID interfaces = .ok (expectedIPConfig name prefixID subnet.id) := by
  unfold getExpectedIPConfig primarySubnetID
  rw [hnic, List.flatMap_singleton, hc, List.foldlM_cons, hs]
  rfl

section Step

variable {pool name : String} {managed : List IPConfiguration}
  {pre post : List NetworkConfiguration} {nic : NetworkConfiguration}
  {cs ds : List IPConfiguration} {c expected : IPConfiguration}

-- The parts of a pristine interface list.
structure Parts (pool : String) (pre post : List NetworkConfiguration) (nic : NetworkConfiguration)
    (cs ds : List IPConfiguration) (c : IPConfiguration) : Prop where
  primaryNIC      : isPrimaryNIC nic = true
  otherNICs       : ∀ n ∈ pre ++ post, isPrimaryNIC n = false
  primaryConfig   : isPrimaryConfig c = true
  configsBefore   : ∀ d ∈ cs, isPrimaryConfig d = false
  configsAfter    : ∀ d ∈ ds, isPrimaryConfig d = false
  foreign         : ∀ d ∈ cs ++ c :: ds, hasPrefix (val d.name) managedResourcePrefix = false
  outside         : ∀ b ∈ backendPools c, equalFold pool (val b.id) = false

-- The original IP configurations of the primary interface.
def originals (pool : String) (cs ds : List IPConfiguration) (c : IPConfiguration) (used : Bool) :
    List IPConfiguration :=
  cs ++ member pool used c :: ds

theorem Parts.filter_nic (h : Parts pool pre post nic cs ds c) {ns : List IPConfiguration} :
    (pre ++ nic.setConfigs ns :: post).filter isPrimaryNIC = [nic.setConfigs ns] := by
  rw [List.filter_append, List.filter_cons_of_pos (by simpa using h.primaryNIC),
    List.filter_eq_nil_iff.mpr fun n hn => by simp [h.otherNICs n (List.mem_append_left _ hn)],
    List.filter_eq_nil_iff.mpr fun n hn => by simp [h.otherNICs n (List.mem_append_right _ hn)]]
  rfl

theorem Parts.filter_config (h : Parts pool pre post nic cs ds c) (hm : Managed managed) {used : Bool} :
    (originals pool cs ds c used ++ managed).filter isPrimaryConfig = [member pool used c] := by
  have hp : isPrimaryConfig (member pool used c) = true := isPrimaryConfig_member.trans h.primaryConfig
  rw [originals, List.filter_append, List.filter_append, List.filter_cons_of_pos hp,
    List.filter_eq_nil_iff.mpr fun d hd => by simp [h.configsBefore d hd],
    List.filter_eq_nil_iff.mpr fun d hd => by simp [h.configsAfter d hd],
    List.filter_eq_nil_iff.mpr fun d hd => by simp [hm.secondary d hd]]
  rfl

-- The subnet does not depend on what has been provisioned.
theorem Parts.expected_eq (h : Parts pool pre post nic cs ds c) (hm : Managed managed)
    {subnet : SubResource} (hs : c.properties.bind (·.subnet) = some subnet) (used : Bool)
    (name prefixID : String) :
    getExpectedIPConfig name prefixID (pre ++ nic.setConfigs (originals pool cs ds c used ++ managed) :: post) =
      .ok (expectedIPConfig name prefixID subnet.id) := by
  have hc : (nic.setConfigs (originals pool cs ds c used ++ managed)).configs.filter isPrimaryConfig =
      [member pool used c] := by
    rw [NetworkConfiguration.configs_setConfigs h.primaryNIC, h.filter_config hm]
  exact getExpectedIPConfig_eq h.filter_nic hc (subnet_member.trans hs)

theorem Parts.foreign_member (h : Parts pool pre post nic cs ds c) {used : Bool} :
    ∀ d ∈ originals pool cs ds c used, hasPrefix (val d.name) managedResourcePrefix = false := by
  intro d hd
  rcases List.mem_append.mp hd with hd | hd
  · exact h.foreign d (List.mem_append_left _ hd)
  · rcases List.mem_cons.mp hd with rfl | hd
    · rw [name_member]
      exact h.foreign c (by simp)
    · exact h.foreign d (by simp [hd])

-- The backend pool is joined with the first gateway and left with the last one.
theorem Parts.reconcile_pool (h : Parts pool pre post nic cs ds c) (hm : Managed managed) (used : Bool) :
    ∃ changed, reconcileLbBackendPool pool (nic.setConfigs (originals pool cs ds c used ++ managed)) =
      .ok (nic.setConfigs (originals pool cs ds c (managed ≠ []) ++ managed), changed) := by
  have hany : (originals pool cs ds c used ++ managed).any
      (fun c => hasPrefix (val c.name) managedResourcePrefix) = decide (managed ≠ []) := by
    rw [List.any_append, List.any_eq_false.mpr fun d hd => by simp [h.foreign_member d hd], Bool.false_or]
    cases managed
    case nil       => rfl
    case cons m ms => simp [hm.named m List.mem_cons_self]
  have hp : isPrimaryConfig (member pool used c) = true := isPrimaryConfig_member.trans h.primaryConfig
  unfold reconcileLbBackendPool
  simp only [NetworkConfiguration.configs_setConfigs h.primaryNIC, hany]
  rw [originals, List.append_assoc, List.cons_append, modifyFirst_append h.configsBefore hp,
    toggle_member h.primaryConfig h.outside]
  refine ⟨_, congrArg Except.ok (Prod.ext ?_ rfl)⟩
  simp [originals]

theorem Parts.step (h : Parts pool pre post nic cs ds c) (hm : Managed managed)
    (hn : hasPrefix name managedResourcePrefix = true)
    {subnet : SubResource} (hs : c.properties.bind (·.subnet) = some subnet) (prefixID : String)
    (want : Bool) :
    ∃ changed, reconcileVMSSNetworkInterface name prefixID pool want
      (pre ++ nic.setConfigs (originals pool cs ds c (managed ≠ []) ++ managed) :: post) =
    .ok (pre ++ nic.setConfigs
        (originals pool cs ds c
          (adjusted name (expectedIPConfig name prefixID subnet.id) want managed ≠ []) ++
        adjusted name (expectedIPConfig name prefixID subnet.id) want managed) :: post, changed) := by
  have hpre : ∀ n ∈ pre, isPrimaryNIC n = false := fun n hn => h.otherNICs n (List.mem_append_left _ hn)
  have hpost : ∀ n ∈ post, isPrimaryNIC n = false := fun n hn => h.otherNICs n (List.mem_append_right _ hn)
  have hc : ∀ d ∈ originals pool cs ds c (managed ≠ []), val d.name ≠ name := by
    rintro d hd rfl
    exact Bool.false_ne_true ((h.foreign_member d hd).symm.trans hn)
  have he := h.expected_eq hm hs (decide (managed ≠ [])) name prefixID
  have hm' : Managed (adjusted name (expectedIPConfig name prefixID subnet.id) want managed) :=
    hm.adjusted hn
  have ⟨changed, hr⟩ := h.reconcile_pool hm' (decide (managed ≠ []))
  rw [reconcile_eq hpre hpost (by simpa using h.primaryNIC) he,
    NetworkConfiguration.configs_setConfigs h.primaryNIC, adjusted_append hc,
    NetworkConfiguration.setConfigs_setConfigs, hr]
  exact ⟨_, rfl⟩

end Step

-- One call on behalf of a virtual machine configuration.
structure Provisioning where
  vmConfig     : GatewayVMConfiguration
  ipPrefixID   : String
  wantIPConfig : Bool

namespace Provisioning

def uid (st : Provisioning) : String :=
  st.vmConfig.meta_.uid

def apply (pool : String) (interfaces : List NetworkConfiguration) (st : Provisioning) :
    Except Err (List NetworkConfiguration) :=
  (reconcileVMSSNetworkInterface (managedSubresourceName st.vmConfig) st.ipPrefixID pool st.wantIPConfig
    interfaces).map (·.1)

def run (pool : String) (interfaces : List NetworkConfiguration) (steps : List Provisioning) :
    Except Err (List NetworkConfiguration) :=
  steps.foldlM (apply pool) interfaces

-- The last call on behalf of the object with the given UID.
def last (steps : List Provisioning) (uid : String) : Option Provisioning :=
  (steps.filter (·.uid = uid)).getLast?

end Provisioning

open Provisioning

omit [CaseFold] in
def subnetID (c : IPConfiguration) : Option String :=
  (c.properties.bind (·.subnet)).bind (·.id)

-- There is exactly one IP configuration for each object whose last call has asked for it.
structure Provisions (steps : List Provisioning) (subnetID : Option String)
    (managed : List IPConfiguration) : Prop where
  nodup : (managed.map (val ·.name)).Nodup
  every : ∀ uid st, last steps uid = some st → st.wantIPConfig = true →
    ∃ m ∈ managed, val m.name = managedResourcePrefix ++ uid
  only  : ∀ m ∈ managed, ∃ uid st, last steps uid = some st ∧ st.wantIPConfig = true ∧
    val m.name = managedResourcePrefix ++ uid ∧
    different m (expectedIPConfig (managedResourcePrefix ++ uid) st.ipPrefixID subnetID) = false

section Run

variable {pool : String} {interfaces : List NetworkConfiguration} {nic : NetworkConfiguration}
  {c : IPConfiguration} {id : Option String} {steps : List Provisioning} {st : Provisioning}
  {managed : List IPConfiguration}

omit [CaseFold] in
theorem last_append (uid : String) :
    last (steps ++ [st]) uid = if st.uid = uid then some st else last steps uid := by
  unfold last
  rw [List.filter_append]
  split <;> simp [*]

omit [CaseFold] in
theorem managedName_eq {uid : String} :
    managedResourcePrefix ++ uid = managedSubresourceName st.vmConfig ↔ st.uid = uid :=
  (String.append_right_inj _).trans eq_comm

theorem Provisions.init : Provisions [] id [] where
  nodup := List.nodup_nil
  every := nofun
  only  := nofun

theorem Provisions.step (h : Provisions steps id managed) :
    Provisions (steps ++ [st]) id
      (adjusted (managedSubresourceName st.vmConfig)
        (expectedIPConfig (managedSubresourceName st.vmConfig) st.ipPrefixID id) st.wantIPConfig
        managed) where
  nodup := (names_adjusted h.nodup expected_name).left
  every uid st' hl hw := by
    refine List.mem_map.mp (((names_adjusted h.nodup expected_name).right _).mpr ?_)
    rw [last_append] at hl
    by_cases hu : st.uid = uid
    case pos =>
      obtain rfl := Option.some.inj ((if_pos hu).symm.trans hl)
      rw [if_pos (managedName_eq.mpr hu)]
      exact hw
    case neg =>
      rw [if_neg (mt managedName_eq.mp hu)]
      exact List.mem_map.mpr (h.every uid st' ((if_neg hu).symm.trans hl) hw)
  only m hm := by
    rcases mem_adjusted h.nodup expected_name hm with ⟨hm, hne⟩ | ⟨hw, hn, hd, _⟩
    · have ⟨uid, st', hl, hw, hn, hd⟩ := h.only m hm
      have hu : st.uid ≠ uid := fun he => hne (hn.trans (managedName_eq.mpr he))
      exact ⟨uid, st', by rw [last_append, if_neg hu, hl], hw, hn, hd⟩
    · exact ⟨st.uid, st, by rw [last_append, if_pos rfl], hw, hn, hd⟩

-- An interface list while `managed` are provisioned.
def provisionedAll (pool : String) (managed : List IPConfiguration)
    (interfaces : List NetworkConfiguration) : List NetworkConfiguration :=
  interfaces.map fun n => if isPrimaryNIC n then provisioned pool managed n else n

theorem Pristine.parts (h : Pristine pool interfaces nic c) : ∃ pre post cs ds,
    interfaces = pre ++ nic :: post ∧ nic.configs = cs ++ c :: ds ∧
    Parts pool pre post nic cs ds c := by
  have ⟨pre, post, hi, hpre, hn, hpost⟩ := List.filter_eq_cons_iff.mp h.primary.left
  have ⟨cs, ds, hc, hcs, hp, hds⟩ := List.filter_eq_cons_iff.mp h.primary.right
  refine ⟨pre, post, cs, ds, hi, hc, ?_⟩
  constructor
  case primaryNIC => exact hn
  case primaryConfig => exact hp
  case otherNICs =>
    intro n hm
    rcases List.mem_append.mp hm with hm | hm
    · simpa using hpre n hm
    · simpa using List.filter_eq_nil_iff.mp hpost n hm
  case configsBefore => exact fun d hd => by simpa using hcs d hd
  case configsAfter => exact fun d hd => by simpa using List.filter_eq_nil_iff.mp hds d hd
  case foreign => exact hc ▸ h.foreign
  case outside => exact h.outside

theorem Parts.provisioned_eq {pre post : List NetworkConfiguration} {cs ds : List IPConfiguration}
    (h : Parts pool pre post nic cs ds c) (hc : nic.configs = cs ++ c :: ds) :
    provisionedAll pool managed (pre ++ nic :: post) =
      pre ++ nic.setConfigs (originals pool cs ds c (managed ≠ []) ++ managed) :: post := by
  have hid : ∀ ns : List NetworkConfiguration, (∀ n ∈ ns, isPrimaryNIC n = false) →
      ns.map (fun n => if isPrimaryNIC n then provisioned pool managed n else n) = ns := by
    intro ns hns
    conv_rhs => rw [← List.map_id ns]
    exact List.map_congr_left fun n hn => by simp [hns n hn]
  have hcs : ∀ ns : List IPConfiguration, (∀ d ∈ ns, isPrimaryConfig d = false) →
      ns.map (fun d => if isPrimaryConfig d then member pool (managed ≠ []) d else d) = ns := by
    intro ns hns
    conv_rhs => rw [← List.map_id ns]
    exact List.map_congr_left fun d hd => by simp [hns d hd]
  unfold provisionedAll
  rw [List.map_append, List.map_cons, hid pre fun n hn => h.otherNICs n (List.mem_append_left _ hn),
    hid post fun n hn => h.otherNICs n (List.mem_append_right _ hn), if_pos h.primaryNIC, provisioned, hc,
    List.map_append, List.map_cons, hcs cs h.configsBefore, hcs ds h.configsAfter, if_pos h.primaryConfig,
    originals]

omit [CaseFold] in
theorem provisionedAll_nil : provisionedAll pool [] interfaces = interfaces := by
  have hid : (fun n => if isPrimaryNIC n then provisioned pool [] n else n) = id := by
    funext n
    split
    case isTrue  => simp [provisioned, member]
    case isFalse => rfl
  rw [provisionedAll, hid, List.map_id]

-- Every run succeeds.
theorem run_provisions (h : Pristine pool interfaces nic c) (steps : List Provisioning) :
    ∃ managed, run pool interfaces steps = .ok (provisionedAll pool managed interfaces) ∧
      Managed managed ∧ Provisions steps (subnetID c) managed := by
  have ⟨pre, post, cs, ds, hi, hc, hp⟩ := h.parts
  have ⟨subnet, hs⟩ := Option.isSome_iff_exists.mp h.subnet
  have hsub : subnetID c = subnet.id := by simp [subnetID, hs]
  rw [hsub]
  induction steps using List.reverseRecOn
  case nil => exact ⟨[], congrArg Except.ok provisionedAll_nil.symm, .init, .init⟩
  case append_singleton steps st hr =>
    have ⟨managed, hr, hm, hq⟩ := hr
    have hn : hasPrefix (managedSubresourceName st.vmConfig) managedResourcePrefix = true :=
      hasPrefix_append _ _
    refine ⟨_, ?_, hm.adjusted hn, hq.step⟩
    have ⟨changed, hstep⟩ := hp.step hm hn hs st.ipPrefixID st.wantIPConfig
    rw [Provisioning.run, List.foldlM_append, ← Provisioning.run, hr]
    subst hi
    rw [hp.provisioned_eq hc, hp.provisioned_eq hc]
    change (apply pool _ st >>= pure) = _
    rw [bind_pure, apply, hstep]
    rfl

theorem primary_provisionedAll (h : Pristine pool interfaces nic c) (hm : Managed managed) :
    ∃ nic' c', (provisionedAll pool managed interfaces).filter isPrimaryNIC = [nic'] ∧
      nic'.configs.filter isPrimaryConfig = [c'] ∧
      backendPools c' = backendPools c ++ if managed = [] then [] else [⟨some pool⟩] := by
  have ⟨pre, post, cs, ds, hi, hc, hp⟩ := h.parts
  refine ⟨nic.setConfigs (originals pool cs ds c (managed ≠ []) ++ managed),
    member pool (managed ≠ []) c, ?_, ?_, ?_⟩
  case refine_1 => rw [hi, hp.provisioned_eq hc, hp.filter_nic]
  case refine_2 => rw [NetworkConfiguration.configs_setConfigs hp.primaryNIC, hp.filter_config hm]
  case refine_3 =>
    rw [backendPools_member hp.primaryConfig]
    by_cases hn : managed = [] <;> simp [hn]

-- Provisioning and deprovisioning are inverse, and those of different gateways do not interfere: the
-- interfaces are the original ones, extended by one IP configuration for each gateway that is left.
theorem vmss_provisioning_restores (h : Pristine pool interfaces nic c) (steps : List Provisioning) :
    ∃ managed result, run pool interfaces steps = .ok result ∧
      result = provisionedAll pool managed interfaces ∧
      Provisions steps (subnetID c) managed ∧
      (∃ nic' c', result.filter isPrimaryNIC = [nic'] ∧ nic'.configs.filter isPrimaryConfig = [c'] ∧
        backendPools c' = backendPools c ++ if managed = [] then [] else [⟨some pool⟩]) ∧
      ((∀ uid st, last steps uid = some st → st.wantIPConfig = false) → result = interfaces) := by
  have ⟨managed, hr, hm, hq⟩ := run_provisions h steps
  refine ⟨managed, _, hr, rfl, hq, primary_provisionedAll h hm, fun hw => ?_⟩
  have hn : managed = [] := List.eq_nil_iff_forall_not_mem.mpr fun m hm => by
    have ⟨uid, st, hl, hw', _⟩ := hq.only m hm
    exact Bool.false_ne_true ((hw uid st hl).symm.trans hw')
  rw [hn, provisionedAll_nil]

end Run

end Manager

namespace Manager

namespace Sample

def nicConfig : IPConfiguration where
  name       := some "ipconfig1"
  properties := some {
    primary                      := some true
    privateIPAddressVersion      := some .ipv4
    publicIPAddressConfiguration := none
    subnet                       := some ⟨some "subnet"⟩
    loadBalancerBackendAddressPools := [⟨some "kubernetes"⟩] }

def primaryNIC : NetworkConfiguration where
  name       := some "nic"
  properties := some { primary := some true, ipConfigurations := [nicConfig] }

def vmConfig (uid nodepool : String) : GatewayVMConfiguration where
  meta_ := { key := ⟨"default", uid⟩, uid := uid }
  spec  := { gatewayNodepoolName := nodepool }

def provisioning (uid : String) (want : Bool) : Provisioning where
  vmConfig     := vmConfig uid "gw"
  ipPrefixID   := "prefix-" ++ uid
  wantIPConfig := want

def provisionings : List Provisioning :=
  [provisioning "a" true, provisioning "b" true] ++ [provisioning "a" false] ++ [provisioning "b" false]

theorem provisionings_end (uid : String) (st : Provisioning)
    (h : Provisioning.last provisionings uid = some st) : st.wantIPConfig = false := by
  rw [provisionings, last_append, last_append] at h
  split at h
  case isTrue => exact Option.some.inj h ▸ rfl
  case isFalse hb =>
    split at h
    case isTrue => exact Option.some.inj h ▸ rfl
    case isFalse ha =>
      have ⟨hm, hu⟩ := List.mem_filter.mp (List.mem_of_getLast? h)
      rcases List.mem_cons.mp hm with rfl | hm
      · exact absurd (of_decide_eq_true hu) ha
      · rw [List.mem_singleton.mp hm] at hu
        exact absurd (of_decide_eq_true hu) hb

end Sample

open Sample in
-- The first gateway joins the pool, the last one leaves it.
theorem vmss_provisioning_restores_sample :
    Provisioning.run "pool" [primaryNIC] provisionings = .ok [primaryNIC] := by
  have hp : Pristine "pool" [primaryNIC] primaryNIC nicConfig := by
    refine ⟨⟨rfl, rfl⟩, rfl, ?_, ?_⟩ <;> decide
  have ⟨_, _, hr, _, _, _, hi⟩ := vmss_provisioning_restores hp provisionings
  rw [hr, hi provisionings_end]

end Manager
