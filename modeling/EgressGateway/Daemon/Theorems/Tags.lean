import EgressGateway.Daemon.Metadata

-- The tags of the node are parsed twice: with the spaces around names and values, and without them.

open Kubernetes Text

namespace Daemon

variable {m : Metadata} {name k v : String}

-- The well-formed entries of the text, as they are written.
def entries (m : Metadata) : List (String × String) :=
  (split ';' m.tags).filterMap fun tag =>
    match split ':' tag with
    | [k, v] => some (k, v)
    | _      => none

-- The last entry of a name, as it is written or up to spaces.
def exactEntry (m : Metadata) (name : String) : Option (String × String) :=
  (entries m).reverse.find? (·.1 = name)

def looseEntry (m : Metadata) (name : String) : Option (String × String) :=
  (entries m).reverse.find? (trimSpace ·.1 = name)

theorem parseNodeTags_eq : parseNodeTags m = (entries m).map fun (k, v) => (trimSpace k, trimSpace v) := by
  unfold parseNodeTags entries
  rw [List.map_filterMap]
  refine List.filterMap_congr fun tag _ => ?_
  rcases split ':' tag with _ | ⟨_, _ | ⟨_, _ | _⟩⟩ <;> rfl

theorem lookup_eq_find? {xs : List (String × String)} :
    xs.lookup name = (xs.find? (·.1 = name)).map (·.2) := by
  induction xs
  case nil => rfl
  case cons x xs hi =>
    obtain ⟨k, v⟩ := x
    by_cases hk : k = name
    case pos => simp [List.lookup, hk]
    case neg =>
      have hb : (name == k) = false := by simpa using Ne.symm hk
      simp [List.lookup, hk, hb, hi]

theorem nodeTag_eq : nodeTag m name = (looseEntry m name).map (trimSpace ·.2) := by
  rw [nodeTag, parseNodeTags_eq, lookup_eq_find?, ← List.map_reverse, List.find?_map, Option.map_map]
  rfl

theorem nicName_eq : nicName m = (exactEntry m aksNodeNICTagKey).elim "" (·.2) := by
  have he : ((split ';' m.tags).filterMap fun tag =>
      match split ':' tag with
      | [k, v] => if k = aksNodeNICTagKey then some v else none
      | _      => none) = ((entries m).filter (·.1 = aksNodeNICTagKey)).map (·.2) := by
    rw [entries, List.filter_filterMap, List.map_filterMap]
    refine List.filterMap_congr fun tag _ => ?_
    rcases split ':' tag with _ | ⟨k, _ | ⟨v, _ | _⟩⟩
    case cons.cons.nil => by_cases hk : k = aksNodeNICTagKey <;> simp [hk, Option.filter_some]
    all_goals rfl
  refine (congrArg (·.getLast?.getD "") he).trans ?_
  rw [exactEntry, ← List.head?_filter, List.filter_reverse, List.head?_reverse, List.getLast?_map]
  cases ((entries m).filter (·.1 = aksNodeNICTagKey)).getLast? <;> rfl

theorem trimSpace_key : trimSpace aksNodeNICTagKey = aksNodeNICTagKey := by
  decide

-- An entry that is written without spaces is found either way.
theorem looseEntry_of_exactEntry (ht : trimSpace name = name) (h : exactEntry m name = some (k, v)) :
    (looseEntry m name).isSome = true := by
  have hk : k = name := by simpa using List.find?_some h
  refine List.find?_isSome.mpr ⟨(k, v), List.mem_of_find?_eq_some h, ?_⟩
  simp [hk, ht]

theorem exactEntry_of_looseEntry (ht : trimSpace name = name) (h : looseEntry m name = some (name, v)) :
    exactEntry m name = some (name, v) := by
  have ⟨_, before, after, hl, hb⟩ := List.find?_eq_some_iff_append.mp h
  refine List.find?_eq_some_iff_append.mpr ⟨by simp, before, after, hl, fun e he => ?_⟩
  have hne := hb e he
  simp only [Bool.not_eq_eq_eq_not, Bool.not_true, decide_eq_false_iff_not] at hne ⊢
  exact fun hk => hne (hk ▸ ht)

-- The last entry for the interface is written without spaces around its name and value, or it says the
-- same as the last one that is.
def Legible (m : Metadata) : Prop :=
  ∀ k v, looseEntry m aksNodeNICTagKey = some (k, v) →
    if k = aksNodeNICTagKey then trimSpace v = v
    else trimSpace v = (exactEntry m aksNodeNICTagKey).elim "" (·.2)

theorem nicName_eq_nodeTag_iff : nicName m = (nodeTag m aksNodeNICTagKey).getD "" ↔ Legible m := by
  rw [nicName_eq, nodeTag_eq]
  cases hl : looseEntry m aksNodeNICTagKey
  case none =>
    have he : exactEntry m aksNodeNICTagKey = none := by
      cases he : exactEntry m aksNodeNICTagKey
      case none   => rfl
      case some e => simpa [hl] using looseEntry_of_exactEntry trimSpace_key he
    simp [Legible, hl, he]
  case some e =>
    obtain ⟨k, v⟩ := e
    have hiff : Legible m ↔ if k = aksNodeNICTagKey then trimSpace v = v
        else trimSpace v = (exactEntry m aksNodeNICTagKey).elim "" (·.2) := by
      simp [Legible, hl]
    rw [hiff]
    by_cases hk : k = aksNodeNICTagKey
    case pos =>
      subst hk
      simp [exactEntry_of_looseEntry trimSpace_key hl, eq_comm]
    case neg => simp [hk, eq_comm]

-- The profile that is taken for the node.
def matchedProfile (m : Metadata) (profiles : List GatewayVMProfile) : Option GatewayVMProfile :=
  profiles.find? fun p => p.nodeName = m.computerName ∨ p.nodeName = nicName m

theorem vmIPOf_eq {vmConfig : GatewayVMConfiguration} {status : GatewayVMConfigurationStatus}
    (h : vmConfig.status = some status) :
    vmIPOf m vmConfig =
      let profile := matchedProfile m status.gatewayVMProfiles
      if profile.elim "" (·.primaryIP) = "" ∨ profile.elim "" (·.secondaryIP) = "" then
        .error (.errorf ("failed to find primary or secondary IP for node " ++ m.computerName))
      else .ok (profile.elim "" (·.primaryIP), profile.elim "" (·.secondaryIP)) := by
  rw [vmIPOf, h]
  rfl

-- No profile without a name comes before those of the node.
def Named (m : Metadata) (profiles : List GatewayVMProfile) : Prop :=
  ∀ p ∈ profiles.takeWhile (·.nodeName ≠ m.computerName), p.nodeName ≠ ""

theorem matchedProfile_named_iff {profiles : List GatewayVMProfile} (h : nicName m = "") :
    (∀ p, matchedProfile m profiles = some p → p.nodeName = m.computerName) ↔ Named m profiles := by
  unfold matchedProfile Named
  rw [h]
  induction profiles
  case nil => simp
  case cons q qs hi =>
    by_cases hq : q.nodeName = m.computerName
    case pos => simp [hq]
    case neg =>
      by_cases hn : q.nodeName = ""
      case pos =>
        have hc : m.computerName ≠ "" := fun hc => hq (hn.trans hc.symm)
        simp [hn, Ne.symm hc]
      case neg => simpa [hq, hn] using hi

-- The two parsers agree on the interface of the node as long as spaces do not matter, and a node without
-- such a tag is only mistaken for one without a name.
theorem tags_agree_iff (m : Metadata) (profiles : List GatewayVMProfile) :
    (nicName m = (nodeTag m aksNodeNICTagKey).getD "" ∧
      (nodeTag m aksNodeNICTagKey = none →
        ∀ p, matchedProfile m profiles = some p → p.nodeName = m.computerName)) ↔
    Legible m ∧ (looseEntry m aksNodeNICTagKey = none → Named m profiles) := by
  rw [nicName_eq_nodeTag_iff]
  refine and_congr_right fun hl => ?_
  rw [nodeTag_eq, Option.map_eq_none_iff]
  refine forall_congr' fun hn => matchedProfile_named_iff ?_
  rw [nicName_eq_nodeTag_iff.mpr hl, nodeTag_eq, hn]
  rfl

namespace Sample

def tagged (tags : String) : Metadata where
  computerName      := "node-0"
  tags              := tags
  vmScaleSetName    := ""
  resourceGroupName := ""
  subnetPrefix      := none

def vmProfiles (nodeName : String) : GatewayVMConfiguration where
  meta_  := { key := ⟨"default", "a"⟩, uid := "a" }
  spec   := { gatewayNodepoolName := "gw" }
  status := some { gatewayVMProfiles := [⟨nodeName, "10.0.0.5", "10.0.0.6"⟩] }

end Sample

open Sample in
-- With a space before the colon the node does not find its own profile, and without the tag it takes that
-- of a node without a name.
theorem tags_disagree :
    nodeTag (tagged "aks-managed-nic-name : nic-0") aksNodeNICTagKey = some "nic-0" ∧
    nicName (tagged "aks-managed-nic-name : nic-0") = "" ∧
    (vmIPOf (tagged "aks-managed-nic-name : nic-0") (vmProfiles "nic-0")).toOption = none ∧
    nodeTag (tagged "") aksNodeNICTagKey = none ∧
    (vmIPOf (tagged "") (vmProfiles "")).toOption = some ("10.0.0.5", "10.0.0.6") := by
  decide +kernel

end Daemon
