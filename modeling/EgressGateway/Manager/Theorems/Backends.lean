import EgressGateway.Base.Keyed
import EgressGateway.Manager.Theorems.AgentPoolVMs

-- The membership of the gateway nodes of a pool of virtual machines in the backend pool of the load
-- balancer, compared with the IP configurations that they carry.

open Kubernetes Azure Text Program Keyed

namespace Manager

variable [CaseFold]

namespace Config

def isManaged (c : Config) : Bool :=
  c.any fun d => hasPrefix (val d.name) managedResourcePrefix

def subnetOf (c : Config) : Option SubResource :=
  (present c).bind fun (_, p) => p.subnet

-- A configuration that is a member of the backend pool if it is a primary one.
def join (pool : String) (c : Config) : Config :=
  if isPrimary c && !inPool pool c then addPool pool c else c

end Config

open Config

-- The IP configurations of an interface that only the controllers have touched: there is one primary
-- configuration, and managed ones are spelled as the controllers spell them.
structure SoundConfigs (cs : List Config) : Prop where
  unique  : cs.Pairwise fun c d => ∀ x ∈ c, ∀ y ∈ d, equalFold (val x.name) (val y.name) = false
  spelled : ∀ c ∈ cs, ∀ x ∈ c,
    (∀ uid, equalFold (val x.name) (managedResourcePrefix ++ uid) = false) ∨
    x.properties.isSome ∧ ∃ uid, val x.name = managedResourcePrefix ++ uid
  primary : ∃ c, cs.filter isPrimary = [c] ∧ ∃ subnet ∈ subnetOf c, val subnet.id ≠ ""

section Search

variable {name : String} {want : Bool} {expected : InterfaceIPConfiguration} {cs : List Config} {c : Config}

theorem search_cons (h : isTarget name c = false) :
    searchConfigs name want expected (c :: cs) =
      let r := searchConfigs name want expected cs
      ⟨c :: r.configs, r.found, r.dropped⟩ := by
  cases cs <;> simp [searchConfigs, h]

theorem search_of_none (h : ∀ c ∈ cs, isTarget name c = false) :
    searchConfigs name want expected cs = ⟨cs, false, false⟩ := by
  induction cs
  case nil => rfl
  case cons c cs hi =>
    rw [search_cons (h c List.mem_cons_self), hi fun d hd => h d (List.mem_cons_of_mem _ hd)]

-- Whether a target that is found can stay as it is.
def stays (want : Bool) (expected : InterfaceIPConfiguration) (c : Config) : Bool :=
  !(!want || c.any (differentNIC · expected))

theorem search_target (h : isTarget name c = true) (hc : ∀ d ∈ cs, isTarget name d = false) :
    searchConfigs name want expected (c :: cs) =
      if stays want expected c then ⟨c :: cs, true, false⟩ else ⟨cs, false, true⟩ := by
  unfold stays
  match cs with
  | []      =>
    rw [searchConfigs, if_pos h]
    cases !want || c.any (differentNIC · expected) <;> rfl
  | d :: ds =>
    rw [searchConfigs, if_pos h, search_of_none fun e he => hc e (List.mem_cons_of_mem _ he)]
    cases !want || c.any (differentNIC · expected) <;> rfl

-- There is at most one target.
theorem search_eq (h : cs.Pairwise fun c d => ¬(isTarget name c = true ∧ isTarget name d = true)) :
    searchConfigs name want expected cs =
      if (cs.find? (isTarget name)).any (stays want expected) then ⟨cs, true, false⟩
      else ⟨cs.eraseP (isTarget name), false, (cs.find? (isTarget name)).isSome⟩ := by
  induction cs
  case nil => rfl
  case cons c cs hi =>
    rw [List.pairwise_cons] at h
    cases hc : isTarget name c
    case true =>
      have hcs : ∀ d ∈ cs, isTarget name d = false := fun d hd => by simpa [hc] using h.left d hd
      rw [search_target hc hcs, List.find?_cons_of_pos hc, List.eraseP_cons_of_pos hc]
      rfl
    case false =>
      rw [search_cons hc, hi h.right, List.find?_cons_of_neg (by simp [hc]),
        List.eraseP_cons_of_neg (by simp [hc])]
      dsimp only
      split <;> rfl

end Search

section Join

variable {pool : String} {cs : List Config} {c : Config}

theorem joinBackendPool_none (h : ∀ c ∈ cs, isPrimary c = false) (b : Bool) :
    joinBackendPool pool b cs = (cs, b) := by
  induction cs
  case nil => rfl
  case cons c cs hi =>
    rw [joinBackendPool, if_neg (by simp [h c List.mem_cons_self]),
      hi fun d hd => h d (List.mem_cons_of_mem _ hd)]

theorem map_join_none (h : ∀ c ∈ cs, isPrimary c = false) : cs.map (join pool) = cs := by
  conv_rhs => rw [← List.map_id cs]
  exact List.map_congr_left fun c hc => by simp [join, h c hc]

-- With a single primary configuration it does not matter that the loop shares its flag.
theorem joinBackendPool_eq (h : cs.filter isPrimary = [c]) :
    joinBackendPool pool true cs = (cs.map (join pool), !inPool pool c) := by
  induction cs
  case nil => nomatch h
  case cons d ds hi =>
    cases hd : isPrimary d
    case true =>
      rw [List.filter_cons_of_pos hd, List.cons.injEq, List.filter_eq_nil_iff] at h
      obtain ⟨rfl, hn⟩ := h
      replace hn : ∀ e ∈ ds, isPrimary e = false := fun e he => by simpa using hn e he
      rw [joinBackendPool, if_pos hd]
      dsimp only
      rw [joinBackendPool_none hn, List.map_cons, map_join_none hn, join, hd]
      rfl
    case false =>
      rw [List.filter_cons_of_neg (by simp [hd])] at h
      rw [joinBackendPool, if_neg (by simp [hd]), hi h, List.map_cons]
      simp [join, hd]

theorem map_join_member (h : cs.filter isPrimary = [c]) (hc : inPool pool c = true) :
    cs.map (join pool) = cs := by
  conv_rhs => rw [← List.map_id cs]
  refine List.map_congr_left fun d hd => ?_
  cases hp : isPrimary d
  case false => simp [join, hp]
  case true =>
    have hm : d ∈ cs.filter isPrimary := List.mem_filter.mpr ⟨hd, hp⟩
    rw [h, List.mem_singleton] at hm
    simp [join, hm, hc]

end Join

-- Changes to IP configurations that leave alone what they are identified by.
def Harmless (g : Config → Config) : Prop :=
  ∀ c, ∃ f : InterfaceIPConfigurationProperties → InterfaceIPConfigurationProperties,
    (∀ p, (f p).primary = p.primary ∧ (f p).subnet = p.subnet) ∧
    g c = c.map fun d => { d with properties := d.properties.map f }

section Harmless

variable {g : Config → Config} {cs : List Config} {c : Config}

omit [CaseFold] in
theorem Harmless.isPrimary_eq (hg : Harmless g) (c : Config) : isPrimary (g c) = isPrimary c := by
  have ⟨f, hf, he⟩ := hg c
  rw [he]
  match c with
  | none | some ⟨_, none⟩ => rfl
  | some ⟨n, some p⟩      => exact congrArg val (hf p).left

omit [CaseFold] in
theorem Harmless.subnetOf_eq (hg : Harmless g) (c : Config) : subnetOf (g c) = subnetOf c := by
  have ⟨f, hf, he⟩ := hg c
  rw [he]
  match c with
  | none | some ⟨_, none⟩ => rfl
  | some ⟨n, some p⟩      => exact (hf p).right

omit [CaseFold] in
theorem Harmless.mem (hg : Harmless g) {x : InterfaceIPConfiguration} (hx : x ∈ g c) :
    ∃ y ∈ c, x.name = y.name ∧ x.properties.isSome = y.properties.isSome := by
  have ⟨f, _, he⟩ := hg c
  rw [he] at hx
  obtain ⟨y, hy, rfl⟩ := Option.map_eq_some_iff.mp hx
  exact ⟨y, hy, rfl, by simp⟩

omit [CaseFold] in
theorem Harmless.isManaged_eq (hg : Harmless g) (c : Config) : isManaged (g c) = isManaged c := by
  have ⟨f, _, he⟩ := hg c
  rw [he]
  cases c <;> rfl

theorem SoundConfigs.map (h : SoundConfigs cs) (hg : Harmless g) : SoundConfigs (cs.map g) := by
  constructor
  case unique =>
    refine List.pairwise_map.mpr (h.unique.imp fun hcd x hx y hy => ?_)
    have ⟨x', hx', hnx, _⟩ := hg.mem hx
    have ⟨y', hy', hny, _⟩ := hg.mem hy
    rw [hnx, hny]
    exact hcd x' hx' y' hy'
  case spelled =>
    intro c hc x hx
    obtain ⟨d, hd, rfl⟩ := List.mem_map.mp hc
    have ⟨x', hx', hn, hp⟩ := hg.mem hx
    rw [hn, hp]
    exact h.spelled d hd x' hx'
  case primary =>
    have ⟨c, hc, hs⟩ := h.primary
    refine ⟨g c, ?_, (hg.subnetOf_eq c).symm ▸ hs⟩
    rw [List.filter_map, show isPrimary ∘ g = isPrimary from funext hg.isPrimary_eq, hc]
    rfl

theorem harmless_join (pool : String) : Harmless (join pool) := by
  intro c
  unfold join
  split
  case isTrue  =>
    refine ⟨_, ?_, rfl⟩
    exact fun p => ⟨rfl, rfl⟩
  case isFalse => exact ⟨id, fun p => ⟨rfl, rfl⟩, by cases c <;> simp⟩

theorem harmless_provision (P : Platform) (now : Nat) (nicName : String) :
    Harmless (Option.map (P.provisionIPConfiguration now nicName)) := by
  intro c
  cases c
  case none   => exact ⟨id, fun p => ⟨rfl, rfl⟩, rfl⟩
  case some d =>
    refine ⟨_, ?_, rfl⟩
    exact fun p => ⟨rfl, rfl⟩

end Harmless

section Edit

variable {uid prefixID pool : String} {want : Bool} {cs : List Config} {pip : Option PublicIPAddress}
  {expected : InterfaceIPConfiguration} {name : String}

-- The IP configurations before the backend pool is looked at.
def retained (name : String) (want : Bool) (expected : InterfaceIPConfiguration) (cs : List Config) :
    List Config :=
  if (cs.find? (isTarget name)).any (stays want expected) then cs
  else cs.eraseP (isTarget name) ++ if want then [some expected] else []

theorem isTarget_mem {c : Config} (h : isTarget name c = true) : ∃ x ∈ c, equalFold (val x.name) name = true := by
  match c with
  | none | some ⟨_, none⟩ => nomatch h
  | some ⟨n, some p⟩      => exact ⟨_, rfl, h⟩

theorem SoundConfigs.one_target (h : SoundConfigs cs) (name : String) :
    cs.Pairwise fun c d => ¬(isTarget name c = true ∧ isTarget name d = true) := by
  refine h.unique.imp fun hcd ⟨hc, hd⟩ => ?_
  have ⟨x, hx, hxn⟩ := isTarget_mem hc
  have ⟨y, hy, hyn⟩ := isTarget_mem hd
  have hxy : equalFold (val x.name) (val y.name) = true :=
    equalFold_iff.mpr ((equalFold_iff.mp hxn).trans (equalFold_iff.mp hyn).symm)
  exact Bool.false_ne_true ((hcd x hx y hy).symm.trans hxy)

theorem editNIC_eq (pool : String) (h : SoundConfigs cs) {p : InterfaceProperties} (hp : nicConfigs p = cs) {c : Config}
    (hc : (retained name want expected cs).filter isPrimary = [c]) :
    ∃ b, editNIC name pool want expected p =
      ({ p with ipConfigurations := some ((retained name want expected cs).map (join pool)) }, b) ∧
      (b = false → (retained name want expected cs).map (join pool) = cs) := by
  unfold editNIC
  rw [hp, search_eq (h.one_target name)]
  by_cases hs : (cs.find? (isTarget name)).any (stays want expected) = true
  case pos =>
    have hr : retained name want expected cs = cs := if_pos hs
    rw [hr] at hc ⊢
    simp only [if_pos hs, Bool.not_true, Bool.and_false, Bool.false_eq_true, if_false,
      joinBackendPool_eq hc, Bool.false_or]
    exact ⟨_, rfl, fun hb => map_join_member hc (by simpa using hb)⟩
  case neg =>
    have hr : retained name want expected cs =
        if want = true then cs.eraseP (isTarget name) ++ [some expected] else cs.eraseP (isTarget name) := by
      cases want <;> simp [retained, hs]
    simp only [if_neg hs, Bool.not_false, Bool.and_true]
    rw [← hr, joinBackendPool_eq hc]
    refine ⟨_, rfl, fun hb => ?_⟩
    -- Nothing has been dropped or added.
    simp only [Bool.or_eq_false_iff, Bool.not_eq_false'] at hb
    obtain ⟨⟨hf, rfl⟩, hp⟩ := hb
    have hcs : retained name false expected cs = cs := by
      rw [hr, if_neg (by simp)]
      exact List.eraseP_of_forall_not fun c hc => by
        simpa using List.find?_eq_none.mp (Option.isSome_eq_false_iff.mp hf |> Option.isNone_iff_eq_none.mp) c hc
    rw [hcs] at hc ⊢
    exact map_join_member hc hp

-- A configuration with a managed name is recognised as such.
theorem SoundConfigs.of_name (h : SoundConfigs cs) {c : Config} (hc : c ∈ cs) {x : InterfaceIPConfiguration}
    (hx : x ∈ c) (hn : equalFold (val x.name) (managedResourcePrefix ++ uid) = true) :
    isTarget (managedResourcePrefix ++ uid) c = true ∧ isManaged c = true := by
  obtain rfl := Option.mem_def.mp hx
  rcases h.spelled _ hc x rfl with hu | ⟨hp, uid', hs⟩
  · exact absurd ((hu uid).symm.trans hn) Bool.false_ne_true
  · obtain ⟨n, _ | p⟩ := x
    · nomatch hp
    · refine ⟨hn, ?_⟩
      have hm : hasPrefix (val n) managedResourcePrefix = true := by
        rw [show val n = _ from hs]
        exact hasPrefix_append _ _
      exact hm

theorem SoundConfigs.eraseP_eq (h : SoundConfigs cs) :
    cs.eraseP (isTarget name) = cs.filter (!isTarget name ·) :=
  Keyed.eraseP_eq_filter_not (h.one_target name)

theorem SoundConfigs.retained (h : SoundConfigs cs) {subnetID : String}
    (hp : ∀ c ∈ cs, isPrimary c = true → isTarget (managedResourcePrefix ++ uid) c = false) :
    SoundConfigs (retained (managedResourcePrefix ++ uid) want
      (expectedNICConfig (managedResourcePrefix ++ uid) subnetID pip) cs) := by
  unfold Manager.retained
  split
  case isTrue => exact h
  case isFalse hs =>
    constructor
    case unique =>
      refine List.pairwise_append.mpr ⟨h.unique.sublist List.eraseP_sublist, by cases want <;> simp, ?_⟩
      intro c hc d hd x hx y hy
      have ⟨hc, ht⟩ := List.mem_filter.mp (h.eraseP_eq ▸ hc)
      cases want
      case false => nomatch hd
      case true =>
        obtain rfl := List.mem_singleton.mp hd
        obtain rfl := Option.some.inj hy
        cases hn : equalFold (val x.name) (managedResourcePrefix ++ uid)
        case false => exact hn
        case true  => simp [(h.of_name hc hx hn).left] at ht
    case spelled =>
      intro c hc x hx
      rcases List.mem_append.mp hc with hc | hc
      · exact h.spelled c (List.mem_of_mem_eraseP hc) x hx
      · cases want
        case false => nomatch hc
        case true =>
          obtain rfl := List.mem_singleton.mp hc
          obtain rfl := Option.some.inj hx
          exact .inr ⟨rfl, uid, rfl⟩
    case primary =>
      have ⟨c, hc, hsub⟩ := h.primary
      refine ⟨c, ?_, hsub⟩
      rw [List.filter_append, Keyed.filter_eraseP hp, hc]
      cases want <;> rfl

theorem any_managed_retained (h : SoundConfigs cs) {subnetID : String} :
    (retained (managedResourcePrefix ++ uid) want
      (expectedNICConfig (managedResourcePrefix ++ uid) subnetID pip) cs).any isManaged =
    (want || cs.any fun c => isManaged c && !isTarget (managedResourcePrefix ++ uid) c) := by
  unfold Manager.retained
  split
  case isTrue hs =>
    have ⟨c, hf, hs⟩ := (Option.any_eq_true _ _).mp hs
    have ⟨x, hx, hn⟩ := isTarget_mem (List.find?_some hf)
    have hc := List.mem_of_find?_eq_some hf
    have hw : want = true := by
      cases want
      · nomatch hs
      · rfl
    rw [hw, Bool.true_or, List.any_eq_true]
    exact ⟨c, hc, (h.of_name hc hx hn).right⟩
  case isFalse =>
    have ht : isManaged (some (expectedNICConfig (managedResourcePrefix ++ uid) subnetID pip)) = true :=
      hasPrefix_append _ _
    rw [List.any_append, h.eraseP_eq, List.any_filter]
    cases want
    case false => simp [Bool.and_comm]
    case true  => simp [ht]

end Edit

section Interface

variable {S : Settings} {P : Platform} {uid prefixID pool : String} {want : Bool} {nic nic' : Azure.Interface}

def configsOf (nic : Azure.Interface) : List Config :=
  nic.properties.elim [] nicConfigs

-- The primary IP configuration is a member of the backend pool.
def isMember (pool : String) (nic : Azure.Interface) : Bool :=
  (configsOf nic).any fun c => isPrimary c && inPool pool c

-- The interface carries the IP configuration of some gateway.
def carriesManaged (nic : Azure.Interface) : Bool :=
  (configsOf nic).any isManaged

-- The interface carries the IP configuration of a gateway other than the one with the given UID.
def carriesOther (uid : String) (nic : Azure.Interface) : Bool :=
  (configsOf nic).any fun c => isManaged c && !isTarget (managedResourcePrefix ++ uid) c

-- Without a primary IP configuration apart from the target, no subnet is found.
theorem subnetID_foldl {name : String} {cs : List Config} (acc : GatewayIPConfig)
    (h : ∀ c ∈ cs, isPrimary c = true → isTarget name c = true) :
    (cs.foldl (gatewayIPStep name) acc).subnetID = acc.subnetID := by
  induction cs generalizing acc
  case nil => rfl
  case cons c cs hi =>
    rw [List.foldl_cons, hi _ fun d hd => h d (List.mem_cons_of_mem _ hd)]
    match c with
    | none | some ⟨_, none⟩ => rfl
    | some ⟨n, some p⟩      =>
      have hc : val p.primary = true → equalFold (val n) name = true := h _ List.mem_cons_self
      change (if equalFold (val n) name then _ else _ : GatewayIPConfig).subnetID = _
      split
      case isTrue => rfl
      case isFalse ht => rw [if_neg fun hp => ht (hc hp)]

theorem inPool_join {c : Config} (hc : isPrimary c = true) : inPool pool (join pool c) = true := by
  unfold join
  cases hp : inPool pool c
  case true => simp [hp]
  case false =>
    rw [hc]
    match c with
    | none | some ⟨_, none⟩ => nomatch hc
    | some ⟨n, some p⟩      => simp [inPool, addPool, present, equalFold_refl]

theorem inPool_provision {now : Nat} {nicName : String} (c : Config) :
    inPool pool (c.map (P.provisionIPConfiguration now nicName)) = inPool pool c := by
  match c with
  | none | some ⟨_, none⟩ => rfl
  | some ⟨n, some p⟩      => rfl

-- The target is never the primary IP configuration if a subnet is found.
theorem SoundConfigs.primary_not_target {name : String} {p : InterfaceProperties}
    (h : SoundConfigs (nicConfigs p)) (hs : (getGatewayIPConfig p name).subnetID ≠ "") :
    ∀ c ∈ nicConfigs p, isPrimary c = true → isTarget name c = false := by
  have ⟨c₀, hc₀, _⟩ := h.primary
  have honly : ∀ c ∈ nicConfigs p, isPrimary c = true → c = c₀ := fun c hc hp =>
    List.mem_singleton.mp (hc₀ ▸ List.mem_filter.mpr ⟨hc, hp⟩)
  intro c hc hp
  cases ht : isTarget name c
  case false => rfl
  case true =>
    refine absurd (subnetID_foldl {} fun d hd hdp => ?_) hs
    rw [honly d hd hdp, ← honly c hc hp, ht]

-- Whatever has been there before, an edited interface is a member of the backend pool.
theorem SoundConfigs.edit {p : InterfaceProperties} (h : SoundConfigs (nicConfigs p))
    (hs : (getGatewayIPConfig p (managedResourcePrefix ++ uid)).subnetID ≠ "") {subnetID : String}
    {pip : Option PublicIPAddress} {e : InterfaceProperties × Bool}
    (he : e = editNIC (managedResourcePrefix ++ uid) pool want
      (expectedNICConfig (managedResourcePrefix ++ uid) subnetID pip) p) :
    ∃ cs, e.1.ipConfigurations = some cs ∧ (e.2 = false → cs = nicConfigs p) ∧ SoundConfigs cs ∧
      cs.any (fun c => isPrimary c && inPool pool c) = true ∧
      cs.any isManaged =
        (want || (nicConfigs p).any fun c => isManaged c && !isTarget (managedResourcePrefix ++ uid) c) := by
  have hr : SoundConfigs (Manager.retained (managedResourcePrefix ++ uid) want
      (expectedNICConfig (managedResourcePrefix ++ uid) subnetID pip) (nicConfigs p)) :=
    h.retained (h.primary_not_target hs)
  have ⟨c, hc, _⟩ := hr.primary
  have ⟨b, hb, hu⟩ := editNIC_eq pool h rfl hc
  rw [he, hb]
  refine ⟨_, rfl, hu, hr.map (harmless_join pool), ?_, ?_⟩
  case refine_1 =>
    have ⟨hm, hp⟩ := List.mem_filter.mp (hc ▸ List.mem_singleton_self c)
    refine List.any_eq_true.mpr ⟨join pool c, List.mem_map_of_mem hm, ?_⟩
    rw [(harmless_join pool).isPrimary_eq, hp, inPool_join hp]
    rfl
  case refine_2 =>
    rw [List.any_map, show isManaged ∘ join pool = isManaged from funext (harmless_join pool).isManaged_eq]
    exact any_managed_retained h

theorem configsOf_provision {p : InterfaceProperties} {cs : List Config} {now : Nat}
    (h : p.ipConfigurations = some cs) :
    configsOf (P.provisionNIC now { nic with properties := some p }) =
      cs.map (Option.map (P.provisionIPConfiguration now (val nic.name))) := by
  simp [configsOf, Platform.provisionNIC, nicConfigs, h]

theorem EditedNIC.backend (h : EditedNIC S P (managedResourcePrefix ++ uid) prefixID pool want nic nic')
    (hs : SoundConfigs (configsOf nic)) :
    SoundConfigs (configsOf nic') ∧ isMember pool nic' = true ∧
    carriesManaged nic' = (want || carriesOther uid nic) := by
  obtain ⟨e, ⟨p, hp, hsub, heq⟩, he⟩ := h
  have hcs : configsOf nic = nicConfigs p := by rw [configsOf, hp]; rfl
  unfold isMember carriesManaged carriesOther
  rw [hcs] at hs ⊢
  have ⟨cs, hcs', hu, hsound, hmem, hman⟩ := hs.edit hsub heq
  rcases he with ⟨hf, rfl⟩ | ⟨now, rfl⟩
  case inl =>
    rw [hcs, ← hu hf]
    rw [← hu hf] at hman
    exact ⟨hsound, hmem, hman⟩
  case inr =>
    have hg := harmless_provision P now (val nic.name)
    rw [configsOf_provision hcs', List.any_map, List.any_map]
    refine ⟨hsound.map hg, ?_, ?_⟩
    · simpa only [Function.comp_def, hg.isPrimary_eq, inPool_provision] using hmem
    · simpa only [Function.comp_def, hg.isManaged_eq] using hman

end Interface

-- An interface before any gateway has been provisioned on it.
structure FreshNIC (pool : String) (nic : Azure.Interface) : Prop where
  unique  : (configsOf nic).Pairwise fun c d =>
    ∀ x ∈ c, ∀ y ∈ d, equalFold (val x.name) (val y.name) = false
  primary : ∃ c, (configsOf nic).filter isPrimary = [c] ∧ ∃ subnet ∈ subnetOf c, val subnet.id ≠ ""
  foreign : ∀ c ∈ configsOf nic, ∀ x ∈ c, ∀ uid,
    equalFold (val x.name) (managedResourcePrefix ++ uid) = false
  outside : isMember pool nic = false

-- The reconcile of one configuration on the pool `a`.
structure VMsCall where
  vmConfig     : GatewayVMConfiguration
  ipPrefixID   : String
  wantIPConfig : Bool

section Run

variable (S : Settings) (P : Platform) (a : String)

-- The backend pool of the pool `a`.
def backendOf : String :=
  S.az.getLBBackendAddressPoolID (S.newMD5 a)

-- A call that returns without an error, whatever happens to the requests that it makes.
structure VMsCall.Succeeds (call : VMsCall) (s s' : State) : Prop where
  pool : equalFold call.vmConfig.spec.gatewayNodepoolName a = true
  run  : ∃ φ n r, Program.run (world P S.az) φ n
    (reconcileVMs S a call.vmConfig call.ipPrefixID call.wantIPConfig) s = r ∧
    r.result.isOk = true ∧ r.state = s'

inductive VMsSteps : State → State → Prop
  | refl (s : State) : VMsSteps s s
  | call {s s₁ s₂ : State} (h : VMsSteps s s₁) (call : VMsCall) (hc : call.Succeeds S P a s₁ s₂) :
      VMsSteps s s₂

variable {S P a} {s s' : State} {call : VMsCall}

theorem FreshNIC.sound {pool : String} {nic : Azure.Interface} (h : FreshNIC pool nic) :
    SoundConfigs (configsOf nic) where
  unique             := h.unique
  primary            := h.primary
  spelled c hc x hx  := .inl (h.foreign c hc x hx)

theorem isGatewayNIC_congr {nodepool : String} (h : equalFold nodepool a = true) (nic : Azure.Interface) :
    isGatewayNIC nodepool nic = isGatewayNIC a nic := by
  unfold isGatewayNIC taggedWith
  cases nic.tags.lookup aksNodepoolTagKey
  case none   => rfl
  case some v => simp only [equalFold_eq_decide, equalFold_iff.mp h]

-- What is known of the interfaces in every state of a run.
structure SoundPool (a : String) (s : State) : Prop where
  distinct : Distinct s.cloud.interfaces
  sound    : ∀ nic ∈ s.cloud.interfaces, isGatewayNIC a nic = true → SoundConfigs (configsOf nic)

-- One call, seen from the interfaces.
theorem VMsCall.Succeeds.interfaces (h : call.Succeeds S P a s s') (hs : SoundPool a s) :
    List.Forall₂ (fun n n' => n'.name = n.name ∧ n'.tags = n.tags ∧
      if isGatewayNIC a n then
        SoundConfigs (configsOf n') ∧ isMember (backendOf S a) n' = true ∧
        carriesManaged n' = (call.wantIPConfig || carriesOther call.vmConfig.meta_.uid n)
      else n' = n) s.cloud.interfaces s'.cloud.interfaces := by
  obtain ⟨hpool, φ, n, r, hr, hok, rfl⟩ := h
  have ⟨v, hv⟩ := ok_of_isOk hok
  have ⟨_, _, heff⟩ := (returns_reconcileVMs hs.distinct).outcome hr hv
  refine forall₂_imp_of_mem heff.interfaces fun nic hm nic' hn => ?_
  have hgate : nic ∈ s.cloud.interfaces.filter (isGatewayNIC call.vmConfig.spec.gatewayNodepoolName) ↔
      isGatewayNIC a nic = true := by
    rw [List.mem_filter, isGatewayNIC_congr hpool]
    exact and_iff_right hm
  by_cases hg : isGatewayNIC a nic = true
  case pos =>
    rw [if_pos (hgate.mpr hg)] at hn
    rw [if_pos hg]
    exact ⟨hn.name_eq, hn.tags_eq, hn.backend (hs.sound nic hm hg)⟩
  case neg =>
    rw [if_neg (mt hgate.mp hg)] at hn
    subst hn
    exact ⟨rfl, rfl, by rw [if_neg hg]⟩

theorem isGatewayNIC_eq {nic nic' : Azure.Interface} (h : nic'.tags = nic.tags) :
    isGatewayNIC a nic' = isGatewayNIC a nic := by
  rw [isGatewayNIC, h, isGatewayNIC]

theorem SoundPool.step (h : SoundPool a s) (hc : call.Succeeds S P a s s') : SoundPool a s' := by
  have hi := hc.interfaces h
  constructor
  case distinct => exact h.distinct.congr (hi.imp fun _ _ hn => hn.left)
  case sound =>
    intro nic' hm' hg
    have ⟨nic, hm, _, ht, hn⟩ := forall₂_right hi hm'
    rw [isGatewayNIC_eq ht] at hg
    rw [if_pos hg] at hn
    exact hn.left

theorem SoundPool.steps (h : SoundPool a s) (hc : VMsSteps S P a s s') : SoundPool a s' := by
  induction hc
  case refl => exact h
  case call hs hi => exact hi.step hs

-- After a call, membership in the backend pool follows the IP configurations exactly if the call asks for an
-- IP configuration or leaves one of another gateway on every interface.
theorem vms_backends_iff {s₀ : State} (hd : Distinct s₀.cloud.interfaces)
    (hf : ∀ nic ∈ s₀.cloud.interfaces, isGatewayNIC a nic = true → FreshNIC (backendOf S a) nic)
    (hr : VMsSteps S P a s₀ s) (hc : call.Succeeds S P a s s') :
    (∀ nic ∈ s'.cloud.interfaces, isGatewayNIC a nic = true →
      (isMember (backendOf S a) nic = true ↔ carriesManaged nic = true)) ↔
    call.wantIPConfig = true ∨ ∀ nic ∈ s.cloud.interfaces, isGatewayNIC a nic = true →
      carriesOther call.vmConfig.meta_.uid nic = true := by
  have hs : SoundPool a s := SoundPool.steps ⟨hd, fun nic hm hg => (hf nic hm hg).sound⟩ hr
  have hi := hc.interfaces hs
  constructor
  case mp =>
    intro h
    by_cases hw : call.wantIPConfig = true
    case pos => exact .inl hw
    case neg =>
      refine .inr fun nic hm hg => ?_
      have ⟨nic', hm', _, ht, hn⟩ := forall₂_left hi hm
      rw [if_pos hg] at hn
      have hman := (h nic' hm' ((isGatewayNIC_eq ht).trans hg)).mp hn.right.left
      simpa [hw, hman] using hn.right.right.symm
  case mpr =>
    intro h nic' hm' hg
    have ⟨nic, hm, _, ht, hn⟩ := forall₂_right hi hm'
    rw [isGatewayNIC_eq ht] at hg
    rw [if_pos hg] at hn
    have hman : carriesManaged nic' = true := by
      rw [hn.right.right]
      rcases h with hw | ho
      · rw [hw, Bool.true_or]
      · rw [ho nic hm hg, Bool.or_true]
    exact iff_of_true hn.right.left hman

end Run

end Manager

namespace Manager

namespace Sample

def interfaceConfig : InterfaceIPConfiguration where
  name       := some "ipconfig1"
  properties := some {
    primary                 := some true
    privateIPAddressVersion := some .ipv4
    privateIPAddress        := some "10.0.0.4"
    subnet                  := some ⟨some "subnet"⟩
    publicIPAddress         := none }

def gatewayNIC : Azure.Interface where
  name       := some "gateway-nic"
  id         := some "gateway-nic"
  tags       := [(aksStaticGatewayNICTagKey, some "true"), (aksNodepoolTagKey, some "gw")]
  properties := some {
    provisioningState := some .succeeded
    ipConfigurations  := some [some interfaceConfig] }

def nicState : State where
  cloud := { interfaces := [gatewayNIC] }

def vmsCall (uid : String) (want : Bool) : VMsCall where
  vmConfig     := { meta_ := { key := ⟨"default", uid⟩, uid := uid }, spec := poolSpec }
  ipPrefixID   := ""
  wantIPConfig := want

-- The state after a call that is not disturbed.
def nextVMs (call : VMsCall) (s : State) : State :=
  (run (world .simple settings.az) .calm 0
    (reconcileVMs settings "gw" call.vmConfig call.ipPrefixID call.wantIPConfig) s).state

theorem ipconfig_foreign (uid : String) : equalFold "ipconfig1" (managedResourcePrefix ++ uid) = false := by
  rw [equalFold_false_iff, foldKey_append]
  intro h
  have he : some 'i' = some 'e' := congrArg List.head? h
  exact absurd he (by decide)

theorem gatewayNIC_fresh : FreshNIC (backendOf settings "gw") gatewayNIC where
  unique  := List.pairwise_singleton _ _
  primary := ⟨some interfaceConfig, rfl, ⟨some "subnet"⟩, rfl, by decide⟩
  foreign c hc x hx uid := by
    obtain rfl := List.mem_singleton.mp hc
    obtain rfl := Option.some.inj hx
    exact ipconfig_foreign uid
  outside := by decide +kernel

end Sample

open Sample

theorem vms_backends_sample : Distinct nicState.cloud.interfaces ∧
    ∀ nic ∈ (nextVMs (vmsCall "a" true) nicState).cloud.interfaces, isGatewayNIC "gw" nic = true →
      (isMember (backendOf settings "gw") nic = true ↔ carriesManaged nic = true) := by
  have hd : Distinct nicState.cloud.interfaces := List.nodup_singleton _
  have hf : ∀ nic ∈ nicState.cloud.interfaces, isGatewayNIC "gw" nic = true →
      FreshNIC (backendOf settings "gw") nic :=
    fun nic hm _ => List.mem_singleton.mp hm ▸ gatewayNIC_fresh
  have hc : (vmsCall "a" true).Succeeds settings .simple "gw" nicState (nextVMs (vmsCall "a" true) nicState) :=
    ⟨by decide, .calm, 0, _, rfl, by decide +kernel, rfl⟩
  exact ⟨hd, (vms_backends_iff hd hf (.refl _) hc).mpr (.inl rfl)⟩

-- The interface remains a member of the backend pool when its last gateway has gone.
theorem vms_backends_stale :
    ∃ nic ∈ (nextVMs (vmsCall "a" false) (nextVMs (vmsCall "a" true) nicState)).cloud.interfaces,
      isGatewayNIC "gw" nic = true ∧ isMember (backendOf settings "gw") nic = true ∧
      carriesManaged nic = false := by
  decide +kernel

end Manager
