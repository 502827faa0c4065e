import EgressGateway.Objects.Store

-- What the writes of the API server do to the objects that are found afterwards.

namespace Kubernetes

-- Metadata and status are separate parts of an object, and a patch touches what it is meant for.
class LawfulResource (α : Type) [Resource α] : Prop where
  meta_withMeta       : ∀ m (o : α), meta_ (Resource.withMeta m o) = m
  withMeta_withMeta   : ∀ m m' (o : α), Resource.withMeta m (Resource.withMeta m' o) = Resource.withMeta m o
  withMeta_meta       : ∀ o : α, Resource.withMeta (meta_ o) o = o
  meta_withStatus     : ∀ a o : α, meta_ (Resource.withStatus a o) = meta_ o
  meta_clearStatus    : ∀ o : α, meta_ (Resource.clearStatus o) = meta_ o
  withStatus_withMeta : ∀ (a : α) m o,
    Resource.withStatus a (Resource.withMeta m o) = Resource.withMeta m (Resource.withStatus a o)
  withStatus_idem     : ∀ a b o : α,
    Resource.withStatus a (Resource.withStatus b o) = Resource.withStatus a o
  meta_merge          : ∀ b a o : α,
    meta_ (Resource.merge b a o) = (meta_ b).mergeOwners (meta_ a) (meta_ o) ∨
    meta_ (Resource.merge b a o) = meta_ o
  meta_mergeStatus    : ∀ b a o : α, meta_ (Resource.mergeStatus b a o) = meta_ o
  mergeStatus_self    : ∀ b a : α, Resource.mergeStatus b a b = Resource.withStatus a b
  withStatus_self     : ∀ o : α, Resource.withStatus o o = o
  withStatus_merge    : ∀ s b a o : α,
    Resource.withStatus s (Resource.merge b a o) = Resource.merge b a (Resource.withStatus s o)
  clearStatus_idem    : ∀ o : α, Resource.clearStatus (Resource.clearStatus o) = Resource.clearStatus o

theorem patched_self {β : Type} [DecidableEq β] (b a : β) : patched b a b = a := by
  simp only [patched]
  split <;> simp_all

instance : LawfulResource StaticGatewayConfiguration where
  meta_withMeta _ _         := rfl
  withMeta_withMeta _ _ _   := rfl
  withMeta_meta _           := rfl
  meta_withStatus _ _       := rfl
  meta_clearStatus _        := rfl
  withStatus_withMeta _ _ _ := rfl
  withStatus_idem _ _ _     := rfl
  meta_merge _ _ _          := .inl rfl
  meta_mergeStatus _ _ _    := rfl
  mergeStatus_self b a      := by simp only [Resource.mergeStatus, Resource.withStatus, patched_self]
  withStatus_self _         := rfl
  withStatus_merge _ _ _ _  := rfl
  clearStatus_idem _        := rfl

instance : LawfulResource GatewayLBConfiguration where
  meta_withMeta _ _         := rfl
  withMeta_withMeta _ _ _   := rfl
  withMeta_meta _           := rfl
  meta_withStatus _ _       := rfl
  meta_clearStatus _        := rfl
  withStatus_withMeta _ _ _ := rfl
  withStatus_idem _ _ _     := rfl
  meta_merge _ _ _          := .inl rfl
  meta_mergeStatus _ _ _    := rfl
  mergeStatus_self b a      := by simp only [Resource.mergeStatus, Resource.withStatus, patched_self]
  withStatus_self _         := rfl
  withStatus_merge _ _ _ _  := rfl
  clearStatus_idem _        := rfl

instance : LawfulResource GatewayVMConfiguration where
  meta_withMeta _ _         := rfl
  withMeta_withMeta _ _ _   := rfl
  withMeta_meta _           := rfl
  meta_withStatus _ _       := rfl
  meta_clearStatus _        := rfl
  withStatus_withMeta _ _ _ := rfl
  withStatus_idem _ _ _     := rfl
  meta_merge _ _ _          := .inl rfl
  meta_mergeStatus _ _ _    := rfl
  mergeStatus_self b a      := by simp only [Resource.mergeStatus, Resource.withStatus, patched_self]
  withStatus_self _         := rfl
  withStatus_merge _ _ _ _  := rfl
  clearStatus_idem _        := rfl

instance : LawfulResource Secret where
  meta_withMeta _ _         := rfl
  withMeta_withMeta _ _ _   := rfl
  withMeta_meta _           := rfl
  meta_withStatus _ _       := rfl
  meta_clearStatus _        := rfl
  withStatus_withMeta _ _ _ := rfl
  withStatus_idem _ _ _     := rfl
  meta_merge _ _ _          := .inr rfl
  meta_mergeStatus _ _ _    := rfl
  mergeStatus_self _ _      := rfl
  withStatus_self _         := rfl
  withStatus_merge _ _ _ _  := rfl
  clearStatus_idem _        := rfl

attribute [simp] LawfulResource.meta_withMeta LawfulResource.withMeta_withMeta LawfulResource.withMeta_meta
  LawfulResource.meta_withStatus LawfulResource.meta_clearStatus LawfulResource.withStatus_withMeta
  LawfulResource.withStatus_idem LawfulResource.meta_mergeStatus

-- The two objects have the same status.
def SameStatus {α : Type} [Resource α] (o o' : α) : Prop :=
  Resource.withStatus o o' = o'

namespace Store

variable {α : Type} [DecidableEq α] [Resource α] {xs : List α} {o s : α} {k : NamespacedName} {clock : Nat}

omit [DecidableEq α] in
theorem key_of_find (h : find xs k = some o) : key o = k := by
  simpa using List.find?_some h

omit [DecidableEq α] in
theorem find_put (xs : List α) (o : α) (k : NamespacedName) :
    find (put xs o) k = if k = key o then (find xs k).map fun _ => o else find xs k := by
  induction xs
  case nil => simp [put, find]
  case cons x xs hi =>
    simp only [put, find, List.map_cons, List.find?_cons] at hi ⊢
    by_cases hx : key x = key o
    case neg =>
      simp only [if_neg hx, hi]
      by_cases hk : key x = k
      · have hne : k ≠ key o := hk ▸ hx
        simp [hk, hne]
      · simp [hk]
    case pos =>
      simp only [hi, hx]
      by_cases hk : key o = k
      · simp [hk]
      · have hne : k ≠ key o := Ne.symm hk
        simp [hk, hne]

omit [DecidableEq α] in
theorem find_remove {k' : NamespacedName} (h : k ≠ k') : find (remove xs k') k = find xs k := by
  induction xs
  case nil => rfl
  case cons x xs hi =>
    simp only [remove, find, List.filter_cons, List.find?_cons] at hi ⊢
    by_cases hx : key x = k'
    · have hk : key x ≠ k := fun he => h (he.symm.trans hx)
      simpa [hx, Ne.symm h] using hi
    · by_cases hk : key x = k
      · simp [hk, h]
      · simpa [hx, hk] using hi

omit [DecidableEq α] in
theorem find_put_self (h : find xs (key o) = some s) : find (put xs o) (key o) = some o := by
  rw [find_put, if_pos rfl, h]
  rfl

-- A status is stored if it was computed from what is stored.
theorem updateStatus_eq (h : find xs (key o) = some s) (hu : (meta_ s).uid = (meta_ o).uid)
    (hv : (meta_ s).resourceVersion = (meta_ o).resourceVersion) :
    updateStatus clock xs o =
      .ok (revise clock s (Resource.withStatus o s), put xs (revise clock s (Resource.withStatus o s))) := by
  simp [updateStatus, h, hu, hv]

theorem updateStatus_ok {o' : α} {xs' : List α} (h : updateStatus clock xs o = .ok (o', xs')) :
    ∃ s, find xs (key o) = some s ∧ (meta_ s).resourceVersion = (meta_ o).resourceVersion ∧
      o' = revise clock s (Resource.withStatus o s) ∧ xs' = put xs o' := by
  unfold updateStatus at h
  split at h
  case h_1 => nomatch h
  case h_2 s hs =>
    split at h
    case isTrue => nomatch h
    case isFalse hv =>
      simp only [not_or, not_not] at hv
      cases h
      exact ⟨s, hs, hv.right, rfl, rfl⟩

theorem update_ok {o' : α} {xs' : List α} (h : update clock xs o = .ok (o', xs')) :
    ∃ s, find xs (key o) = some s ∧ (meta_ s).uid = (meta_ o).uid ∧
      (meta_ s).resourceVersion = (meta_ o).resourceVersion ∧
      o' = revise clock s (Resource.withStatus s (Resource.withMeta
        { meta_ o with deleting := (meta_ s).deleting } o)) ∧
      ((meta_ s).deleting = true ∧ (meta_ o).finalizers = [] ∧ xs' = remove xs (key o) ∨
        ¬((meta_ s).deleting = true ∧ (meta_ o).finalizers = []) ∧ xs' = put xs o') := by
  unfold update at h
  split at h
  case h_1 => nomatch h
  case h_2 s hs =>
    split at h
    case isTrue => nomatch h
    case isFalse hv =>
      simp only [not_or, not_not] at hv
      split at h
      case isTrue => nomatch h
      case isFalse =>
        refine ⟨s, hs, hv.left, hv.right, ?_⟩
        dsimp only at h
        split at h
        case isTrue hd =>
          cases h
          exact ⟨rfl, .inl ⟨hd.left, hd.right, rfl⟩⟩
        case isFalse hd =>
          cases h
          exact ⟨rfl, .inr ⟨hd, rfl⟩⟩

theorem patchStatus_ok {b : α} {o' : α} {xs' : List α} (h : patchStatus clock xs b o = .ok (o', xs')) :
    ∃ s, find xs (key o) = some s ∧ o' = revise clock s (Resource.mergeStatus b o s) ∧ xs' = put xs o' := by
  unfold patchStatus at h
  split at h
  case h_1 => nomatch h
  case h_2 s hs =>
    cases h
    exact ⟨s, hs, rfl, rfl⟩

omit [DecidableEq α] in
theorem create_ok {uid : String} {o' : α} {xs' : List α} (h : create uid clock xs o = .ok (o', xs')) :
    (meta_ o).resourceVersion = 0 ∧ find xs (key o) = none ∧
    o' = Resource.clearStatus (Resource.withMeta
      { stamp (meta_ o) clock with uid := uid, deleting := false } o) ∧ xs' = xs ++ [o'] := by
  unfold create at h
  split at h
  case isTrue => nomatch h
  case isFalse hv =>
    split at h
    case h_1 => nomatch h
    case h_2 hf =>
      cases h
      exact ⟨not_not.mp hv, hf, rfl, rfl⟩

theorem patch_ok {b o' : α} {xs' : List α} (h : patch clock xs b o = .ok (o', xs')) :
    ∃ s, find xs (key o) = some s ∧ o' = revise clock s (Resource.merge b o s) ∧ xs' = put xs o' := by
  unfold patch at h
  split at h
  case h_1 => nomatch h
  case h_2 s hs =>
    cases h
    exact ⟨s, hs, rfl, rfl⟩

theorem delete_ok {xs' : List α} (h : delete clock xs k = .ok xs') :
    ∃ s, find xs k = some s ∧
      ((meta_ s).finalizers = [] ∧ xs' = remove xs k ∨
        (meta_ s).finalizers ≠ [] ∧
          xs' = put xs (revise clock s (Resource.withMeta { meta_ s with deleting := true } s))) := by
  unfold delete at h
  split at h
  case h_1 => nomatch h
  case h_2 s hs =>
    refine ⟨s, hs, ?_⟩
    split at h
    case isTrue hf  => exact .inl ⟨hf, (Except.ok.inj h).symm⟩
    case isFalse hf => exact .inr ⟨hf, (Except.ok.inj h).symm⟩

omit [DecidableEq α] in
theorem mem_put {x : α} (h : x ∈ put xs o) : x = o ∨ x ∈ xs := by
  have ⟨y, hy, he⟩ := List.mem_map.mp h
  split at he
  · exact .inl he.symm
  · exact .inr (he ▸ hy)

omit [DecidableEq α] in
theorem mem_remove {x : α} (h : x ∈ remove xs k) : x ∈ xs :=
  (List.mem_filter.mp h).left

variable [LawfulResource α]

-- A revised object is the new one, up to its version.
theorem revise_eq (clock : Nat) (old new : α) :
    ∃ v, revise clock old new = Resource.withMeta { meta_ new with resourceVersion := v } new ∧
      (v = (meta_ old).resourceVersion ∧ revise clock old new = old ∨ v = clock + 1) := by
  simp only [revise, stamp, LawfulResource.meta_withMeta, LawfulResource.withMeta_withMeta]
  split
  case isTrue h  => exact ⟨_, h.symm, .inl ⟨rfl, rfl⟩⟩
  case isFalse h => exact ⟨_, rfl, .inr rfl⟩

theorem meta_revise (clock : Nat) (old new : α) :
    ∃ v, meta_ (revise clock old new) = { meta_ new with resourceVersion := v } := by
  have ⟨v, he, _⟩ := revise_eq clock old new
  exact ⟨v, by rw [he, LawfulResource.meta_withMeta]⟩

theorem key_revise (clock : Nat) (old new : α) : key (revise clock old new) = key new := by
  have ⟨v, h⟩ := meta_revise clock old new
  rw [key, h, key]

theorem sameStatus_revise {clock : Nat} {old new : α} (h : SameStatus o new) :
    SameStatus o (revise clock old new) := by
  have ⟨v, he, _⟩ := revise_eq clock old new
  rw [SameStatus, he, LawfulResource.withStatus_withMeta, h]

-- The status of `x` is the one of an object in `xs`, or there is none yet.
def Inherits (xs : List α) (x : α) : Prop :=
  (∃ y ∈ xs, SameStatus y x) ∨ Resource.clearStatus x = x

omit [DecidableEq α] in
theorem inherits_of_mem {x : α} (h : x ∈ xs) : Inherits xs x :=
  .inl ⟨x, h, LawfulResource.withStatus_self x⟩

theorem inherits_revise {new : α} (hs : find xs k = some s) (h : SameStatus s new) :
    Inherits xs (revise clock s new) :=
  .inl ⟨s, List.mem_of_find?_eq_some hs, sameStatus_revise h⟩

theorem inherits_update {o' x : α} {xs' : List α} (h : update clock xs o = .ok (o', xs')) (hx : x ∈ xs') :
    Inherits xs x := by
  have ⟨s, hs, _, _, ho, hxs⟩ := update_ok h
  rcases hxs with ⟨_, _, rfl⟩ | ⟨_, rfl⟩
  · exact inherits_of_mem (mem_remove hx)
  · rcases mem_put hx with rfl | hx
    · exact ho ▸ inherits_revise hs (LawfulResource.withStatus_idem _ _ _)
    · exact inherits_of_mem hx

omit [DecidableEq α] in
theorem inherits_create {uid : String} {o' x : α} {xs' : List α}
    (h : create uid clock xs o = .ok (o', xs')) (hx : x ∈ xs') : Inherits xs x := by
  have ⟨_, _, ho, hxs⟩ := create_ok h
  rcases List.mem_append.mp (hxs ▸ hx) with hx | hx
  · exact inherits_of_mem hx
  · rw [List.mem_singleton.mp hx, ho]
    exact .inr (LawfulResource.clearStatus_idem _)

theorem inherits_patch {b o' x : α} {xs' : List α} (h : patch clock xs b o = .ok (o', xs')) (hx : x ∈ xs') :
    Inherits xs x := by
  have ⟨s, hs, ho, hxs⟩ := patch_ok h
  rcases mem_put (hxs ▸ hx) with rfl | hx
  · refine ho ▸ inherits_revise hs ?_
    rw [SameStatus, LawfulResource.withStatus_merge, LawfulResource.withStatus_self]
  · exact inherits_of_mem hx

theorem inherits_delete {x : α} {xs' : List α} (h : delete clock xs k = .ok xs') (hx : x ∈ xs') :
    Inherits xs x := by
  have ⟨s, hs, hxs⟩ := delete_ok h
  rcases hxs with ⟨_, rfl⟩ | ⟨_, rfl⟩
  · exact inherits_of_mem (mem_remove hx)
  · rcases mem_put hx with rfl | hx
    · refine inherits_revise hs ?_
      rw [SameStatus, LawfulResource.withStatus_withMeta, LawfulResource.withStatus_self]
    · exact inherits_of_mem hx

theorem version_revise (h : (meta_ s).resourceVersion ≤ clock) :
    (meta_ (revise clock s o)).resourceVersion ≤ clock + 1 := by
  have ⟨v, he, hv⟩ := revise_eq clock s o
  rw [he, LawfulResource.meta_withMeta]
  rcases hv with ⟨rfl, _⟩ | rfl
  · exact Nat.le_succ_of_le h
  · exact Nat.le_refl _

end Store

end Kubernetes
