import EgressGateway.Manager.Theorems.PublicIPs

-- The prefix that a gateway takes its public addresses from: the one of the user or a managed one.

open Kubernetes Azure Text Program

namespace Manager

variable [CaseFold] {S : Settings} {P : Platform}

def isPrefixCreation : Call → Bool
  | .createOrUpdatePublicIPPrefix .. => true
  | _                                => false

-- The result describes a prefix that exists afterwards.
def Describes (S : Settings) (length : Int) (name : String) (c : Cloud) (egress : VMController.EgressPrefix) :
    Prop :=
  ∃ p ∈ c.prefixes, val p.id = egress.ipPrefixID ∧
    (∃ props, p.properties = some props ∧ val props.ipPrefix = egress.ipPrefix ∧ val props.prefixLength = length) ∧
    (egress.isManaged = true ↔ prefixNamed (S.az.orDefault "") name p = true)

-- The only change is that the managed prefix is created.
def CreatesPrefix (S : Settings) (name : String) (s s' : State) : Prop :=
  managedPrefix S s.cloud name = none ∧ ∃ p, prefixNamed (S.az.orDefault "") name p = true ∧
    s' = { s with
      cloud.prefixes := s.cloud.prefixes ++ [p]
      cloud.writes   := s.cloud.writes + 1 }

-- What a call of the function should return and do.
def UsablePrefix (S : Settings) (length : Int) (name : String) (s : State) :
    Except Err VMController.EgressPrefix → State → Prop
  | .ok egress, s' => Describes S length name s'.cloud egress ∧ (s' = s ∨ CreatesPrefix S name s s')
  | .error _,   s' => s' = s

-- The prefix that the function would return for the ID of the user.
def Accepts (S : Settings) (length : Int) (c : Cloud) (id : String) (p : PublicIPPrefix) : Prop :=
  ∃ rg name props, VMController.publicIPPrefixRE.findSubmatch id = some [S.az.subscriptionID, rg, name] ∧
    name ≠ "" ∧ c.findPrefix (S.az.orDefault rg) name = some p ∧ p.properties = some props ∧
    val props.prefixLength = length

-- An existing managed prefix has the right length, and the prefix of the user is not the managed one.
def Sized (S : Settings) (length : Int) (vmConfig : GatewayVMConfiguration) (c : Cloud) : Prop :=
  if vmConfig.spec.publicIpPrefixId = "" then
    ∀ p props, managedPrefix S c (managedSubresourceName vmConfig) = some p → p.properties = some props →
      val props.prefixLength = length
  else
    ∀ p, Accepts S length c vmConfig.spec.publicIpPrefixId p →
      prefixNamed (S.az.orDefault "") (managedSubresourceName vmConfig) p = false

section Prefixes

variable {s : State} {length : Int} {name : String} {vmConfig : GatewayVMConfiguration}

-- An error of the creation means that there is no prefix.
abbrev creating : Contract Sig State where
  allow c _ f := isPrefixCreation c = true → f ≠ .applied
  owe _ _     := True

theorem properties_showPrefix {c : Cloud} {p : PublicIPPrefix} {q : PublicIPPrefixProperties}
    (h : (c.showPrefix p).properties = some q) :
    ∃ props, p.properties = some props ∧ q.ipPrefix = props.ipPrefix ∧ q.prefixLength = props.prefixLength := by
  have ⟨props, hp, hq⟩ := Option.map_eq_some_iff.mp h
  exact ⟨props, hp, by rw [← hq], by rw [← hq]⟩

theorem mem_of_findPrefix {c : Cloud} {rg : String} {p : PublicIPPrefix} (h : c.findPrefix rg name = some p) :
    p ∈ c.prefixes :=
  List.mem_of_find?_eq_some h

-- The prefix of the user is never changed.
theorem wp_useProvidedPrefix {id : String}
    (h : ∀ p, Accepts S length s.cloud id p → prefixNamed (S.az.orDefault "") name p = false) :
    wp (world P S.az) creating (VMController.useProvidedPrefix S length id) (UsablePrefix S length name s) s := by
  unfold VMController.useProvidedPrefix
  split
  case h_2 => rfl
  case h_1 sub rg nm hre =>
    split
    case isTrue => rfl
    case isFalse hsub =>
      have hsub : sub = S.az.subscriptionID := by simpa using hsub
      refine wp_bind.mpr (wp_mapError.mpr (wp_mono (wp_findPrefix fun _ _ => trivial) ?_))
      rintro r s' ⟨rfl, hok, -⟩
      cases r
      case error => rfl
      case ok q =>
        obtain ⟨hnm, p, hp, rfl⟩ := hok q rfl
        simp only [Except.mapError, andThen]
        split
        case h_1 => rfl
        case h_2 props hprops =>
          split
          case isTrue => rfl
          case isFalse hlen =>
            obtain ⟨props', hprops', hcidr, hlength⟩ := properties_showPrefix hprops
            have hlen : val props'.prefixLength = length := by rw [← hlength]; simpa using hlen
            have hmanaged := h p ⟨rg, nm, props', hsub ▸ hre, hnm, hp, hprops', hlen⟩
            refine ⟨⟨p, mem_of_findPrefix hp, rfl, ⟨props', hprops', by rw [hcidr], hlen⟩, ?_⟩, .inl rfl⟩
            simp [hmanaged]

theorem wp_useManagedPrefix
    (h : ∀ p props, managedPrefix S s.cloud name = some p → p.properties = some props → val props.prefixLength = length) :
    wp (world P S.az) creating (VMController.useManagedPrefix length name) (UsablePrefix S length name s) s := by
  refine wp_bind.mpr (wp_attempt.mpr (wp_mono (wp_findPrefix fun _ _ => trivial) ?_))
  rintro r s' ⟨rfl, hok, herr⟩
  cases r
  case ok q =>
    obtain ⟨_, p, hp, rfl⟩ := hok q rfl
    simp only [andThen]
    split
    case h_1 => rfl
    case h_2 props hprops =>
      obtain ⟨props', hprops', hcidr, _⟩ := properties_showPrefix hprops
      have hnamed : prefixNamed (S.az.orDefault "") name p = true := List.find?_some hp
      refine ⟨⟨p, mem_of_findPrefix hp, rfl, ⟨props', hprops', by rw [hcidr], h p props' hp hprops'⟩, ?_⟩, .inl rfl⟩
      simp [hnamed]
  case error e =>
    simp only [andThen]
    split
    case isTrue => rfl
    case isFalse hn =>
      have hnone : managedPrefix S s'.cloud name = none := herr e rfl (by simpa using hn)
      have hkeep : s'.cloud.prefixes.filter (!prefixNamed (S.az.orDefault "") name ·) = s'.cloud.prefixes :=
        List.filter_eq_self.mpr fun p hp => by simpa using List.find?_eq_none.mp hnone p hp
      unfold VMController.createOrUpdatePublicIPPrefix guarded
      split
      case h_1 => rfl
      case h_2 =>
        refine wp_bind.mpr (wp_mapError.mpr (wp_perform.mpr ⟨trivial, fun f hf => ?_⟩))
        cases f
        case lost    => rfl
        case applied => exact absurd rfl (hf rfl)
        case none =>
          refine ⟨⟨P.provisionPrefix s'.cloud.writes (S.az.orDefault "") name length, ?_, rfl, ⟨_, rfl, rfl, rfl⟩, ?_⟩,
            .inr ⟨hnone, P.provisionPrefix s'.cloud.writes (S.az.orDefault "") name length,
              prefixNamed_provisionPrefix, ?_⟩⟩
          · exact List.mem_append_right _ (List.mem_singleton.mpr rfl)
          · simp [prefixNamed_provisionPrefix]
          · simp only [World.answer_none, world, State.serve, hkeep]

-- Without any faults, an existing prefix is returned as it is.

theorem yields_getPublicIPPrefix {rg : String} {p : PublicIPPrefix} (hn : name ≠ "")
    (h : s.cloud.findPrefix (S.az.orDefault rg) name = some p) :
    Yields (world P S.az) (VMController.getPublicIPPrefix rg name) s (s.cloud.showPrefix p) s := by
  have hguard : VMController.getPublicIPPrefix rg name = request (.getPublicIPPrefix rg name) := by
    simp [VMController.getPublicIPPrefix, guarded, hn]
  rw [hguard]
  refine yields_perform ?_
  simp only [world, State.serve, h]

theorem yields_useProvidedPrefix {id : String} {p : PublicIPPrefix} (h : Accepts S length s.cloud id p) :
    ∃ egress, Yields (world P S.az) (VMController.useProvidedPrefix S length id) s egress s ∧
      egress.ipPrefixID = val p.id ∧ egress.isManaged = false := by
  obtain ⟨rg, nm, props, hre, hnm, hp, hprops, hlen⟩ := h
  refine ⟨{ ipPrefix := val props.ipPrefix, ipPrefixID := val p.id, isManaged := false }, ?_, rfl, rfl⟩
  unfold VMController.useProvidedPrefix
  simp only [hre, ne_eq, not_true_eq_false, if_false]
  refine Yields.bind (Yields.mapError (yields_getPublicIPPrefix hnm hp)) ?_
  simp only [Cloud.showPrefix, hprops, Option.map_some, hlen, not_true_eq_false, if_false]
  exact yields_ret

theorem yields_useManagedPrefix (length : Int) {p : PublicIPPrefix} {props : PublicIPPrefixProperties} (hn : name ≠ "")
    (hp : managedPrefix S s.cloud name = some p) (hprops : p.properties = some props) :
    ∃ egress, Yields (world P S.az) (VMController.useManagedPrefix length name) s egress s ∧
      egress.ipPrefixID = val p.id := by
  refine ⟨{ ipPrefix := val props.ipPrefix, ipPrefixID := val p.id, isManaged := true }, ?_, rfl⟩
  refine Yields.bind (Yields.attempt (yields_getPublicIPPrefix hn hp)) ?_
  simp only [Cloud.showPrefix, hprops, Option.map_some]
  exact yields_ret

omit [CaseFold] in
theorem managedSubresourceName_ne : managedSubresourceName vmConfig ≠ "" := by
  simp [managedSubresourceName, managedResourcePrefix]

-- The function returns a usable prefix or changes nothing if and only if an existing managed prefix has
-- the required length and the prefix of the user is not the managed one.
theorem ensurePublicIPPrefix_iff (hv : vmConfig.spec.provisionPublicIps = true)
    (hid : ∀ p ∈ s.cloud.prefixes, ∀ q ∈ s.cloud.prefixes, val p.id = val q.id → p = q) :
    (∀ φ n o, run (world P S.az) φ n (VMController.ensurePublicIPPrefix S length vmConfig) s = o →
      (∀ i ∈ o.log, isPrefixCreation i.call = true → i.fault ≠ .applied) →
      UsablePrefix S length (managedSubresourceName vmConfig) s o.result o.state) ↔
    Sized S length vmConfig s.cloud := by
  -- An undisturbed run that ends where it begins.
  have huse (h : ∀ φ n o, run (world P S.az) φ n (VMController.ensurePublicIPPrefix S length vmConfig) s = o →
      (∀ i ∈ o.log, isPrefixCreation i.call = true → i.fault ≠ .applied) →
      UsablePrefix S length (managedSubresourceName vmConfig) s o.result o.state)
      (egress : VMController.EgressPrefix)
      (hy : Yields (world P S.az) (VMController.ensurePublicIPPrefix S length vmConfig) s egress s) :
      Describes S length (managedSubresourceName vmConfig) s.cloud egress := by
    have hu := h .calm 0 _ rfl fun i hi _ => by rw [fault_calm _ _ _ i hi]; decide
    have ⟨hr, hs⟩ := (yields_iff_run 0).mp hy
    rw [hr, hs] at hu
    exact hu.left
  unfold Sized
  constructor
  case mp =>
    intro h
    split
    case isTrue he =>
      intro p props hp hprops
      have ⟨egress, hy, hegress⟩ := yields_useManagedPrefix (P := P) length managedSubresourceName_ne hp hprops
      obtain ⟨q, hq, hqid, ⟨props', hprops', _, hlen⟩, _⟩ := huse h egress (by
        unfold VMController.ensurePublicIPPrefix
        simpa [hv, he] using hy)
      obtain rfl := hid q hq p (mem_of_findPrefix hp) (hqid.trans hegress)
      obtain rfl := Option.some.inj (hprops.symm.trans hprops')
      exact hlen
    case isFalse he =>
      intro p ha
      have ⟨_, _, _, _, _, hp, _⟩ := ha
      have ⟨egress, hy, hegress, hmanaged⟩ := yields_useProvidedPrefix (P := P) ha
      obtain ⟨q, hq, hqid, _, hiff⟩ := huse h egress (by
        unfold VMController.ensurePublicIPPrefix
        simpa [hv, he] using hy)
      obtain rfl := hid q hq p (mem_of_findPrefix hp) (hqid.trans hegress)
      simpa [hmanaged] using hiff
  case mpr =>
    intro h φ n o ho hc
    have hwp : wp (world P S.az) creating (VMController.ensurePublicIPPrefix S length vmConfig)
        (UsablePrefix S length (managedSubresourceName vmConfig) s) s := by
      unfold VMController.ensurePublicIPPrefix
      simp only [hv, Bool.not_true, Bool.false_eq_true, if_false, ne_eq, ite_not]
      split
      case isTrue he  => exact wp_useManagedPrefix (by simpa [he] using h)
      case isFalse he => exact wp_useProvidedPrefix (by simpa [he] using h)
    subst ho
    exact (run_of_wp hwp φ n hc).left

end Prefixes

end Manager

namespace Manager

namespace Sample

def managedPrefixOf (length : Int) : PublicIPPrefix where
  resourceGroup := "rg"
  name          := "egressgateway-a"
  id            := some (Platform.simple.prefixID "rg" "egressgateway-a")
  properties    := some { prefixLength := some length, ipPrefix := some "20.1.0.0/31" }

def prefixOf (length : Int) : State where
  cloud := { prefixes := [managedPrefixOf length] }

def prefixed (length : Int) : Outcome Sig State VMController.EgressPrefix :=
  run (world .simple settings.az) .calm 0 (VMController.ensurePublicIPPrefix settings length (egress "")) (prefixOf 31)

end Sample

open Sample in
theorem ensurePublicIPPrefix_sample : (egress "").spec.provisionPublicIps = true ∧
    UsablePrefix settings 31 "egressgateway-a" (prefixOf 31) (prefixed 31).result (prefixed 31).state := by
  have hid : ∀ p ∈ (prefixOf 31).cloud.prefixes, ∀ q ∈ (prefixOf 31).cloud.prefixes, val p.id = val q.id → p = q := by
    decide +kernel
  have hs : Sized settings 31 (egress "") (prefixOf 31).cloud := by
    intro p props hp hprops
    obtain rfl : managedPrefixOf 31 = p := Option.some.inj hp
    rw [← Option.some.inj hprops]
    rfl
  refine ⟨rfl, ?_⟩
  exact (ensurePublicIPPrefix_iff rfl hid).mpr hs .calm 0 (prefixed 31) rfl (by decide +kernel)

open Sample in
-- The managed prefix was created for a smaller pool, and it is returned nevertheless.
theorem ensurePublicIPPrefix_mismatch :
    ((prefixed 28).result.toOption.map fun e => (e.ipPrefixID, e.isManaged)) =
      some (Platform.simple.prefixID "rg" "egressgateway-a", true) ∧
    ∀ p ∈ (prefixed 28).state.cloud.prefixes, ∀ props ∈ p.properties, val props.prefixLength = 31 := by
  decide +kernel

end Manager
