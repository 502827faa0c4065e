import EgressGateway.Manager.Theorems.AgentPoolVMSS

-- One call on the interfaces of a scale set, whatever is on them: it reaches the wanted state, leaves
-- everything else alone, and reports a change exactly if there is one.

open Kubernetes Azure Text

namespace Manager

-- The IP configuration with other backend pools.
def withPools (pools : List SubResource) (c : IPConfiguration) : IPConfiguration :=
  { c with properties := c.properties.map fun p => { p with loadBalancerBackendAddressPools := pools } }

-- The IP configurations of an interface, with other backend pools for the primary one.
def repooled (pools : List SubResource) (c : IPConfiguration) : IPConfiguration :=
  if isPrimaryConfig c then withPools pools c else c

section Pools

variable {pools : List SubResource} {c : IPConfiguration} {cs : List IPConfiguration}

@[simp]
theorem name_repooled : (repooled pools c).name = c.name := by
  unfold repooled
  split <;> rfl

@[simp]
theorem isPrimaryConfig_withPools : isPrimaryConfig (withPools pools c) = isPrimaryConfig c := by
  obtain ⟨_, _ | _⟩ := c <;> rfl

@[simp]
theorem isPrimaryConfig_repooled : isPrimaryConfig (repooled pools c) = isPrimaryConfig c := by
  unfold repooled
  split
  case isTrue  => exact isPrimaryConfig_withPools
  case isFalse => rfl

theorem repooled_of_primary (h : isPrimaryConfig c = true) : repooled pools c = withPools pools c :=
  if_pos h

theorem repooled_of_not_primary (h : isPrimaryConfig c = false) : repooled pools c = c :=
  if_neg (Bool.eq_false_iff.mp h)

theorem backendPools_withPools (h : isPrimaryConfig c = true) : backendPools (withPools pools c) = pools := by
  obtain ⟨_, _ | _⟩ := c
  case none => nomatch h
  case some => rfl

theorem withPools_self : withPools (backendPools c) c = c := by
  obtain ⟨_, _ | _⟩ := c <;> rfl

theorem subnet_withPools :
    (withPools pools c).properties.bind (·.subnet) = c.properties.bind (·.subnet) := by
  obtain ⟨_, _ | _⟩ := c <;> rfl

theorem filter_map_repooled {p : IPConfiguration → Bool} (hp : ∀ d, p (repooled pools d) = p d) :
    (cs.map (repooled pools)).filter p = (cs.filter p).map (repooled pools) := by
  rw [List.filter_map]
  exact congrArg _ (List.filter_congr fun d _ => hp d)

-- Only the primary IP configuration is affected.
theorem map_repooled_append {ds : List IPConfiguration} (hc : isPrimaryConfig c = true)
    (hcs : ∀ d ∈ cs, isPrimaryConfig d = false) (hds : ∀ d ∈ ds, isPrimaryConfig d = false) :
    (cs ++ c :: ds).map (repooled pools) = cs ++ withPools pools c :: ds := by
  have hid : ∀ es : List IPConfiguration, (∀ d ∈ es, isPrimaryConfig d = false) →
      es.map (repooled pools) = es :=
    fun es h => (List.map_congr_left fun d hd => repooled_of_not_primary (h d hd)).trans (List.map_id es)
  rw [List.map_append, List.map_cons, hid cs hcs, hid ds hds, repooled_of_primary hc]

end Pools

variable [CaseFold]

def isPool (pool : String) (backend : SubResource) : Bool :=
  equalFold pool (val backend.id)

-- The backend pools of the primary IP configuration, with or without membership in `pool`.
def settledPools (pool : String) (need : Bool) (pools : List SubResource) : List SubResource :=
  if pools.any (isPool pool) then
    if need then pools else pools.eraseP (isPool pool)
  else
    if need then pools ++ [⟨some pool⟩] else pools

section Settled

variable {pool : String} {need : Bool} {pools : List SubResource} {c : IPConfiguration}

theorem settledPools_of_eq (h : pools.any (isPool pool) = need) : settledPools pool need pools = pools := by
  unfold settledPools
  cases need <;> simp [h]

theorem any_settledPools (h : pools.countP (isPool pool) ≤ 1) :
    (settledPools pool need pools).any (isPool pool) = need := by
  unfold settledPools
  split
  case isTrue ha =>
    cases need
    case true => exact ha
    case false =>
      have ⟨b, hb, hp⟩ := List.any_eq_true.mp ha
      have ⟨b, ps, qs, _, hp, he, hq⟩ := List.exists_of_eraseP hb hp
      have hc : (ps ++ qs).countP (isPool pool) = 0 := by
        rw [he, List.countP_append, List.countP_cons_of_pos hp] at h
        rw [List.countP_append]
        omega
      rw [if_neg Bool.false_ne_true, hq, List.any_eq_false]
      exact List.countP_eq_zero.mp hc
  case isFalse ha =>
    cases need
    case true  => simp [isPool, equalFold_refl]
    case false => simpa using ha

theorem filter_settledPools :
    (settledPools pool need pools).filter (!isPool pool ·) = pools.filter (!isPool pool ·) := by
  unfold settledPools
  split
  case isTrue =>
    cases need
    case true  => rfl
    case false => exact Keyed.filter_eraseP fun b _ hb => by simpa using hb
  case isFalse =>
    cases need
    case true  => simp [isPool, equalFold_refl]
    case false => rfl

theorem toggle_eq (h : isPrimaryConfig c = true) :
    toggleBackendPool pool need c =
      (withPools (settledPools pool need (backendPools c)) c,
        (backendPools c).any (isPool pool) != need) := by
  obtain ⟨_, _ | p⟩ := c
  case none => nomatch h
  case some =>
    unfold toggleBackendPool settledPools
    change (if p.loadBalancerBackendAddressPools.any (isPool pool) = true then _ else _) =
      (withPools (if p.loadBalancerBackendAddressPools.any (isPool pool) = true then _ else _) _,
        p.loadBalancerBackendAddressPools.any (isPool pool) != need)
    cases p.loadBalancerBackendAddressPools.any (isPool pool) <;> cases need <;> rfl

end Settled

-- Whether one of the IP configurations belongs to a gateway.
def anyManaged (cs : List IPConfiguration) : Bool :=
  cs.any fun c => hasPrefix (val c.name) managedResourcePrefix

-- An interface list with one primary interface `nic`, which has one primary IP configuration `c`. The
-- target `name` is another one, if it is there at all.
structure Regular (pool name : String) (interfaces : List NetworkConfiguration)
    (nic : NetworkConfiguration) (c : IPConfiguration) : Prop where
  primary : interfaces.filter isPrimaryNIC = [nic] ∧ nic.configs.filter isPrimaryConfig = [c]
  subnet  : (c.properties.bind (·.subnet)).isSome
  other   : val c.name ≠ name
  names   : (nic.configs.map (val ·.name)).Nodup
  once    : (backendPools c).countP (isPool pool) ≤ 1

-- If the target is wanted then there is one, as expected, and otherwise there is none.
def Targeted (name : String) (want : Bool) (expected : IPConfiguration) (cs : List IPConfiguration) : Prop :=
  if want then ∃ m, cs.filter (val ·.name = name) = [m] ∧ different m expected = false
  else cs.filter (val ·.name = name) = []

-- The primary interface `nic'` after a call on `nic`, with the primary IP configurations `c'` and `c`.
structure Reached (pool name : String) (want : Bool) (expected : IPConfiguration)
    (nic nic' : NetworkConfiguration) (c c' : IPConfiguration) : Prop where
  primary : nic'.configs.filter isPrimaryConfig = [c']
  target  : Targeted name want expected nic'.configs
  others  : nic'.configs.filter (val ·.name ≠ name) =
    (nic.configs.filter (val ·.name ≠ name)).map (repooled (backendPools c'))
  member  : (backendPools c').any (isPool pool) = anyManaged nic'.configs
  pools   : (backendPools c').filter (!isPool pool ·) = (backendPools c).filter (!isPool pool ·)
  frame   : nic' = nic.setConfigs nic'.configs

-- The target has to be moved to the end, added or removed.
def isMoved (name : String) (expected : IPConfiguration) (want : Bool) (cs : List IPConfiguration) : Bool :=
  !isKept name expected want cs && (want || (cs.find? (val ·.name = name)).isSome)

section Adjusted

variable {name prefixID : String} {id : Option String} {want : Bool} {cs : List IPConfiguration}
  {c expected : IPConfiguration} {pools : List SubResource}

theorem adjusted_of_not_moved (h : isMoved name expected want cs = false) :
    adjusted name expected want cs = cs := by
  cases hk : isKept name expected want cs
  case true => exact adjusted_kept hk
  case false =>
    simp only [isMoved, hk, Bool.not_false, Bool.true_and, Bool.or_eq_false_iff, Option.isSome_eq_false_iff,
      Option.isNone_iff_eq_none, List.find?_eq_none] at h
    rw [adjusted_not_kept hk, h.left, List.eraseP_of_forall_not h.right]
    exact List.append_nil cs

-- What has been moved is not as it was, with whatever backend pools.
theorem adjusted_of_moved (hn : (cs.map (val ·.name)).Nodup) (he : val expected.name = name)
    (hp : isPrimaryConfig expected = false) (h : isMoved name expected want cs = true) :
    (adjusted name expected want cs).map (repooled pools) ≠ cs := by
  intro heq
  rw [isMoved, Bool.and_eq_true, Bool.not_eq_true'] at h
  obtain ⟨hk, hf⟩ := h
  rw [adjusted_not_kept hk] at heq
  cases want
  case true =>
    -- The last IP configuration would be the expected one, which would have been kept.
    have hm : expected ∈ cs := by
      rw [← heq, List.map_append, if_pos rfl, List.map_singleton, repooled_of_not_primary hp]
      simp
    have hs : cs.find? (val ·.name = name) = some expected := he ▸ Keyed.find?_some_of_mem hn hm
    simp [isKept, hs, different_self] at hk
  case false =>
    obtain ⟨m, hm⟩ := Option.isSome_iff_exists.mp ((Bool.false_or _).symm.trans hf)
    have hlen := congrArg List.length heq
    rw [List.length_map, if_neg Bool.false_ne_true, List.append_nil,
      List.length_eraseP_of_mem (List.mem_of_find?_eq_some hm) (List.find?_some hm)] at hlen
    have hpos := List.length_pos_of_mem (List.mem_of_find?_eq_some hm)
    omega

theorem filter_adjusted {p : IPConfiguration → Bool} (hp : p expected = false)
    (hc : ∀ d ∈ cs, p d = true → val d.name ≠ name) :
    (adjusted name expected want cs).filter p = cs.filter p := by
  unfold adjusted
  split
  case isTrue => rfl
  case isFalse =>
    rw [List.filter_append, Keyed.filter_eraseP fun d hd hq => by simpa using hc d hd hq]
    cases want <;> simp [hp]

theorem targeted_adjusted (hn : (cs.map (val ·.name)).Nodup) (he : val expected.name = name) :
    Targeted name want expected (adjusted name expected want cs) := by
  have ⟨hnd, hmem⟩ : _ ∧ ∀ n, n ∈ (adjusted name expected want cs).map (val ·.name) ↔ _ :=
    names_adjusted hn he
  have hmem := (hmem name).trans (by rw [if_pos rfl])
  cases want
  case false =>
    refine List.filter_eq_nil_iff.mpr fun m hm hmn => Bool.false_ne_true (hmem.mp ?_)
    exact List.mem_map.mpr ⟨m, hm, of_decide_eq_true hmn⟩
  case true =>
    have ⟨m, hm, hmn⟩ := List.mem_map.mp (hmem.mpr rfl)
    refine ⟨m, Keyed.filter_of_mem hnd hm hmn, ?_⟩
    rcases mem_adjusted hn he hm with ⟨_, hne⟩ | ⟨_, _, hd, _⟩
    · exact absurd hmn hne
    · exact hd

end Adjusted

section Primary

variable {pool name prefixID : String} {want : Bool} {pre post : List NetworkConfiguration}
  {nic : NetworkConfiguration} {c expected : IPConfiguration} {adj : List IPConfiguration}

theorem reconcilePool_eq (hc : nic.configs.filter isPrimaryConfig = [c]) :
    reconcileLbBackendPool pool nic =
      .ok (nic.setConfigs (nic.configs.map
          (repooled (settledPools pool (anyManaged nic.configs) (backendPools c)))),
        (backendPools c).any (isPool pool) != anyManaged nic.configs) := by
  obtain ⟨cs, ds, he, hcs, hp, hds⟩ := List.filter_eq_cons_iff.mp hc
  replace hcs : ∀ d ∈ cs, isPrimaryConfig d = false := fun d hd => by simpa using hcs d hd
  replace hds : ∀ d ∈ ds, isPrimaryConfig d = false := fun d hd => by
    simpa using List.filter_eq_nil_iff.mp hds d hd
  simp only [reconcileLbBackendPool]
  rw [show (nic.configs.any fun c => hasPrefix (val c.name) managedResourcePrefix) = anyManaged nic.configs from rfl]
  generalize anyManaged nic.configs = need
  rw [he, modifyFirst_append hcs hp, toggle_eq hp, map_repooled_append hp hcs hds]

theorem primary_adjusted (hc : nic.configs.filter isPrimaryConfig = [c]) (ho : val c.name ≠ name)
    (hp : isPrimaryConfig expected = false) :
    (adjusted name expected want nic.configs).filter isPrimaryConfig = [c] := by
  rw [← hc]
  refine filter_adjusted hp fun d hd hp => ?_
  obtain rfl := List.mem_singleton.mp (hc ▸ List.mem_filter.mpr ⟨hd, hp⟩)
  exact ho

theorem call_eq (pool : String) {subnet : SubResource} (hpre : ∀ n ∈ pre, isPrimaryNIC n = false)
    (hpost : ∀ n ∈ post, isPrimaryNIC n = false) (hn : isPrimaryNIC nic = true)
    (hc : nic.configs.filter isPrimaryConfig = [c]) (hs : c.properties.bind (·.subnet) = some subnet)
    (ho : val c.name ≠ name)
    (he : expected = expectedIPConfig name prefixID subnet.id)
    (ha : adjusted name expected want nic.configs = adj) :
    reconcileVMSSNetworkInterface name prefixID pool want (pre ++ nic :: post) =
      .ok (pre ++ nic.setConfigs (adj.map
          (repooled (settledPools pool (anyManaged adj) (backendPools c)))) :: post,
        isMoved name expected want nic.configs ||
          ((backendPools c).any (isPool pool) != anyManaged adj)) := by
  have hnic : (pre ++ nic :: post).filter isPrimaryNIC = [nic] := by
    rw [List.filter_append, List.filter_cons_of_pos hn,
      List.filter_eq_nil_iff.mpr fun n hn => by simp [hpre n hn],
      List.filter_eq_nil_iff.mpr fun n hn => by simp [hpost n hn]]
    rfl
  have hadj : adj.filter isPrimaryConfig = [c] := ha ▸ he ▸ primary_adjusted hc ho rfl
  have hexp : getExpectedIPConfig name prefixID (pre ++ nic :: post) = .ok expected :=
    he ▸ getExpectedIPConfig_eq hnic hc hs
  rw [reconcile_eq hpre hpost hn hexp, ha,
    reconcilePool_eq (c := c) (by rwa [NetworkConfiguration.configs_setConfigs hn]),
    NetworkConfiguration.configs_setConfigs hn, NetworkConfiguration.setConfigs_setConfigs]
  rfl

end Primary

-- The interface list with another primary interface.
def withPrimary (nic' : NetworkConfiguration) (interfaces : List NetworkConfiguration) :
    List NetworkConfiguration :=
  interfaces.map fun n => if isPrimaryNIC n then nic' else n

section Call

variable {pool name prefixID : String} {want : Bool} {interfaces pre post : List NetworkConfiguration}
  {nic nic' : NetworkConfiguration} {c expected : IPConfiguration} {adj : List IPConfiguration}

omit [CaseFold] in
theorem withPrimary_append (hpre : ∀ n ∈ pre, isPrimaryNIC n = false)
    (hpost : ∀ n ∈ post, isPrimaryNIC n = false) (hn : isPrimaryNIC nic = true) :
    withPrimary nic' (pre ++ nic :: post) = pre ++ nic' :: post := by
  have hid : ∀ ns : List NetworkConfiguration, (∀ n ∈ ns, isPrimaryNIC n = false) →
      withPrimary nic' ns = ns := by
    intro ns h
    refine (List.map_congr_left fun n hn => ?_).trans (List.map_id ns)
    rw [h n hn]
    rfl
  rw [withPrimary, List.map_append, List.map_cons, if_pos hn]
  change withPrimary nic' pre ++ nic' :: withPrimary nic' post = _
  rw [hid pre hpre, hid post hpost]

omit [CaseFold] in
theorem anyManaged_repooled {pools : List SubResource} {cs : List IPConfiguration} :
    anyManaged (cs.map (repooled pools)) = anyManaged cs := by
  unfold anyManaged
  rw [List.any_map]
  exact congrArg _ (funext fun d => by simp)

-- The target is a secondary IP configuration, which keeps its backend pools.
theorem Targeted.repooled {pools : List SubResource} (h : Targeted name want expected adj)
    (hc : adj.filter isPrimaryConfig = [c]) (ho : val c.name ≠ name) :
    Targeted name want expected (adj.map (repooled pools)) := by
  have hf : (adj.map (Manager.repooled pools)).filter (val ·.name = name) =
      (adj.filter (val ·.name = name)).map (Manager.repooled pools) :=
    filter_map_repooled fun d => by rw [name_repooled]
  cases want
  case false => exact hf.trans (congrArg _ h)
  case true =>
    have ⟨m, hm, hd⟩ := h
    have ⟨hmem, hname⟩ := List.mem_filter.mp (hm ▸ List.mem_singleton_self m)
    have hp : isPrimaryConfig m = false := by
      rw [← Bool.not_eq_true]
      intro hp
      have hmc := hc ▸ List.mem_filter.mpr ⟨hmem, hp⟩
      exact ho (List.mem_singleton.mp hmc ▸ of_decide_eq_true hname)
    refine ⟨m, ?_, hd⟩
    rw [hf, hm, List.map_singleton, repooled_of_not_primary hp]

theorem Regular.reached (h : Regular pool name interfaces nic c)
    (hn : isPrimaryNIC nic = true) (he : val expected.name = name)
    (ha : adjusted name expected want nic.configs = adj) (hc : adj.filter isPrimaryConfig = [c])
    (hpc : isPrimaryConfig c = true) :
    Reached pool name want expected nic
      (nic.setConfigs (adj.map (repooled (settledPools pool (anyManaged adj) (backendPools c)))))
      c (withPools (settledPools pool (anyManaged adj) (backendPools c)) c) where
  primary := by
    rw [NetworkConfiguration.configs_setConfigs hn,
      filter_map_repooled fun d => isPrimaryConfig_repooled, hc, List.map_singleton,
      repooled_of_primary hpc]
  target := by
    have ht := ha ▸ targeted_adjusted h.names he
    rw [NetworkConfiguration.configs_setConfigs hn]
    exact ht.repooled hc h.other
  others := by
    have hf : adj.filter (val ·.name ≠ name) = nic.configs.filter (val ·.name ≠ name) := by
      rw [← ha]
      exact filter_adjusted (by simp [he]) fun d _ hd => by simpa using hd
    rw [NetworkConfiguration.configs_setConfigs hn,
      filter_map_repooled fun d => by rw [name_repooled], hf, backendPools_withPools hpc]
  member := by
    rw [backendPools_withPools hpc, NetworkConfiguration.configs_setConfigs hn, anyManaged_repooled]
    exact any_settledPools h.once
  pools := by
    rw [backendPools_withPools hpc, filter_settledPools]
  frame := by
    rw [NetworkConfiguration.configs_setConfigs hn]

theorem Targeted.not_moved {cs : List IPConfiguration} (h : Targeted name want expected cs) :
    isMoved name expected want cs = false := by
  cases want
  case false =>
    have hf : cs.find? (val ·.name = name) = none := List.head?_filter ▸ congrArg List.head? h
    simp [isMoved, hf]
  case true =>
    have ⟨m, hm, hd⟩ := h
    have hf : cs.find? (val ·.name = name) = some m := List.head?_filter ▸ congrArg List.head? hm
    simp [isMoved, isKept, hf, hd]

omit [CaseFold] in
theorem map_repooled_self {cs : List IPConfiguration} (hc : cs.filter isPrimaryConfig = [c]) :
    cs.map (repooled (backendPools c)) = cs := by
  refine (List.map_congr_left fun d hd => ?_).trans (List.map_id cs)
  cases hp : isPrimaryConfig d
  case false => exact repooled_of_not_primary hp
  case true =>
    obtain rfl := List.mem_singleton.mp (hc ▸ List.mem_filter.mpr ⟨hd, hp⟩)
    exact (repooled_of_primary hp).trans withPools_self

-- The report of a change is right.
theorem Regular.changed_iff (h : Regular pool name interfaces nic c) (he : val expected.name = name)
    (hp : isPrimaryConfig expected = false) (ha : adjusted name expected want nic.configs = adj)
    (hpc : isPrimaryConfig c = true) :
    (isMoved name expected want nic.configs ||
      ((backendPools c).any (isPool pool) != anyManaged adj)) = true ↔
    adj.map (repooled (settledPools pool (anyManaged adj) (backendPools c))) ≠ nic.configs := by
  cases hm : isMoved name expected want nic.configs
  case true =>
    rw [Bool.true_or, ← ha]
    exact iff_of_true rfl (adjusted_of_moved h.names he hp hm)
  case false =>
    obtain rfl : nic.configs = adj := (adjusted_of_not_moved hm).symm.trans ha
    rw [Bool.false_or, bne_iff_ne, not_iff_not]
    constructor
    case mp =>
      intro hany
      rw [settledPools_of_eq hany]
      exact map_repooled_self h.primary.right
    case mpr =>
      intro hmap
      have hc := congrArg (List.filter isPrimaryConfig) hmap
      rw [filter_map_repooled fun d => isPrimaryConfig_repooled, h.primary.right, List.map_singleton,
        repooled_of_primary hpc, List.singleton_inj] at hc
      have hpools := congrArg backendPools hc
      rw [backendPools_withPools hpc] at hpools
      have hany : (settledPools pool (anyManaged nic.configs) (backendPools c)).any (isPool pool) = _ :=
        any_settledPools h.once
      exact hpools ▸ hany

-- What has been reached stays.
theorem Reached.call {c' : IPConfiguration} {subnet : SubResource}
    (h : Reached pool name want (expectedIPConfig name prefixID subnet.id) nic nic' c c')
    (hpre : ∀ n ∈ pre, isPrimaryNIC n = false) (hpost : ∀ n ∈ post, isPrimaryNIC n = false)
    (hn : isPrimaryNIC nic' = true) (hs : c'.properties.bind (·.subnet) = some subnet)
    (ho : val c'.name ≠ name) :
    reconcileVMSSNetworkInterface name prefixID pool want (pre ++ nic' :: post) =
      .ok (pre ++ nic' :: post, false) := by
  have hm := h.target.not_moved
  rw [call_eq pool hpre hpost hn h.primary hs ho rfl (adjusted_of_not_moved hm), hm, h.member,
    bne_self_eq_false, settledPools_of_eq h.member, map_repooled_self h.primary, NetworkConfiguration.setConfigs_configs]
  rfl

end Call

end Manager

namespace Manager

end Manager
