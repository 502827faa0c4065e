import EgressGateway.Base.Keyed
import EgressGateway.Objects.Theorems.Store

-- An object with a finalizer stays until the finalizer is taken away: no write but an update is able to
-- do that.

namespace Kubernetes

namespace Store

variable {α : Type} [DecidableEq α] [Resource α] {xs xs' : List α} {o o' old new : α} {k key' : NamespacedName}
  {clock : Nat} {f uid : String}

-- There is one object for each key.
abbrev Unique (xs : List α) : Prop :=
  (xs.map key).Nodup

omit [DecidableEq α] in
theorem keys_put (xs : List α) (o : α) : (put xs o).map key = xs.map key := by
  rw [put, List.map_map]
  refine List.map_congr_left fun x _ => ?_
  rw [Function.comp_apply]
  split
  case isTrue h => exact h.symm
  case isFalse  => rfl

omit [DecidableEq α] in
theorem unique_remove (h : Unique xs) : Unique (remove xs k) :=
  h.sublist (List.filter_sublist.map _)

omit [DecidableEq α] in
theorem unique_put (h : Unique xs) : Unique (put xs o) := by
  rw [Unique, keys_put]
  exact h

omit [DecidableEq α] in
theorem find_of_unique (h : Unique xs) (ho : o ∈ xs) : find xs (key o) = some o :=
  Keyed.find?_some_of_mem h ho

-- The object with the UID `uid` is there, and it has the finalizer `f`.
def Held (f : String) (k : NamespacedName) (uid : String) (xs : List α) : Prop :=
  ∃ o, find xs k = some o ∧ (meta_ o).uid = uid ∧ containsFinalizer (meta_ o) f = true

theorem finalizers_ne {m : ObjectMeta} (h : containsFinalizer m f = true) : m.finalizers ≠ [] := by
  intro hnil
  simp [containsFinalizer, hnil] at h

omit [DecidableEq α] in
theorem Held.uid_eq (h : Held f k uid xs) (ho : find xs k = some o) : (meta_ o).uid = uid := by
  obtain ⟨_, hf, rfl, _⟩ := h
  rw [Option.some.inj (ho.symm.trans hf)]

omit [DecidableEq α] in
-- Another object takes the place of `old`.
theorem Held.put (h : Held f k uid xs) (ho : find xs (Store.key new) = some old)
    (hu : (meta_ new).uid = (meta_ old).uid)
    (hf : containsFinalizer (meta_ old) f = true → containsFinalizer (meta_ new) f = true) :
    Held f k uid (put xs new) := by
  obtain ⟨o, hk, rfl, hc⟩ := h
  rw [Held, find_put]
  by_cases hkey : k = Store.key new
  case neg =>
    rw [if_neg hkey]
    exact ⟨o, hk, rfl, hc⟩
  case pos =>
    obtain rfl : old = o := by
      rw [← hkey, hk] at ho
      exact (Option.some.inj ho).symm
    rw [if_pos hkey, hk]
    exact ⟨new, rfl, hu, hf hc⟩

omit [DecidableEq α] in
theorem Held.remove (h : Held f k uid xs) (hk : k ≠ key') : Held f k uid (remove xs key') := by
  rw [Held, find_remove hk]
  exact h

omit [DecidableEq α] in
theorem Held.create {u : String} (h : Held f k uid xs) (hc : create u clock xs o = .ok (o', xs')) : Held f k uid xs' := by
  obtain ⟨old, hk, hu, hf⟩ := h
  obtain ⟨_, _, _, rfl⟩ := create_ok hc
  refine ⟨old, ?_, hu, hf⟩
  rw [find, List.find?_append]
  rw [find] at hk
  rw [hk, Option.some_or]

theorem unique_update (h : Unique xs) (hw : update clock xs o = .ok (o', xs')) : Unique xs' := by
  obtain ⟨_, _, _, _, _, ⟨_, _, rfl⟩ | ⟨_, rfl⟩⟩ := update_ok hw
  · exact unique_remove h
  · exact unique_put h

theorem unique_delete (h : Unique xs) (hw : delete clock xs key' = .ok xs') : Unique xs' := by
  obtain ⟨_, _, ⟨_, rfl⟩ | ⟨_, rfl⟩⟩ := delete_ok hw
  · exact unique_remove h
  · exact unique_put h

variable [LawfulResource α]

omit [DecidableEq α] in
theorem unique_create {u : String} (h : Unique xs) (hc : create u clock xs o = .ok (o', xs')) : Unique xs' := by
  obtain ⟨_, hf, rfl, rfl⟩ := create_ok hc
  rw [Unique, List.map_append, List.map_singleton, List.nodup_append]
  refine ⟨h, List.nodup_singleton _, fun key' hk key'' hk' he => ?_⟩
  obtain ⟨x, hx, rfl⟩ := List.mem_map.mp hk
  obtain rfl := List.mem_singleton.mp hk'
  have hne : Store.key x ≠ Store.key o := by simpa using List.find?_eq_none.mp hf x hx
  exact hne (he.trans (by simp [Store.key, stamp]))

-- A write that changes neither the key, nor the UID, nor the finalizers.
theorem Held.revise (h : Held f k uid xs) (ho : find xs (Store.key old) = some old)
    (hm : ∃ refs d, meta_ new = { meta_ old with ownerReferences := refs, deleting := d }) :
    Held f k uid (Store.put xs (Store.revise clock old new)) := by
  obtain ⟨refs, d, hm⟩ := hm
  obtain ⟨v, hv⟩ := meta_revise clock old new
  have hkey : Store.key (Store.revise clock old new) = Store.key old := by rw [Store.key, hv, hm, Store.key]
  refine h.put (hkey ▸ ho) (by rw [hv, hm]) fun hc => ?_
  rw [hv, hm]
  exact hc

omit [DecidableEq α] [LawfulResource α] in
theorem find_key (h : find xs k = some o) : find xs (Store.key o) = some o :=
  (key_of_find h).symm ▸ h

theorem Held.updateStatus (h : Held f k uid xs) (hw : updateStatus clock xs o = .ok (o', xs')) : Held f k uid xs' := by
  obtain ⟨old, ho, _, rfl, rfl⟩ := updateStatus_ok hw
  exact h.revise (find_key ho) ⟨_, _, LawfulResource.meta_withStatus _ _⟩

theorem Held.patchStatus {b : α} (h : Held f k uid xs) (hw : patchStatus clock xs b o = .ok (o', xs')) :
    Held f k uid xs' := by
  obtain ⟨old, ho, rfl, rfl⟩ := patchStatus_ok hw
  exact h.revise (find_key ho) ⟨_, _, LawfulResource.meta_mergeStatus _ _ _⟩

theorem Held.patch {b : α} (h : Held f k uid xs) (hw : patch clock xs b o = .ok (o', xs')) : Held f k uid xs' := by
  obtain ⟨old, ho, rfl, rfl⟩ := patch_ok hw
  refine h.revise (find_key ho) ?_
  rcases LawfulResource.meta_merge b o old with hm | hm
  · exact ⟨_, _, hm⟩
  · exact ⟨_, _, hm⟩

theorem Held.delete (h : Held f k uid xs) (hw : delete clock xs key' = .ok xs') : Held f k uid xs' := by
  obtain ⟨old, ho, ⟨hnil, rfl⟩ | ⟨_, rfl⟩⟩ := delete_ok hw
  case inr => exact h.revise (find_key ho) ⟨_, _, LawfulResource.meta_withMeta _ _⟩
  case inl =>
    refine h.remove ?_
    rintro rfl
    obtain ⟨o, hk, _, hc⟩ := h
    obtain rfl := Option.some.inj (ho.symm.trans hk)
    exact finalizers_ne hc hnil

theorem meta_update (h : update clock xs o = .ok (o', xs')) :
    ∃ old v, find xs (Store.key o) = some old ∧ (meta_ old).uid = (meta_ o).uid ∧
      meta_ o' = { meta_ o with deleting := (meta_ old).deleting, resourceVersion := v } := by
  obtain ⟨old, ho, hu, _, rfl, _⟩ := update_ok h
  obtain ⟨v, hv⟩ := meta_revise clock old
    (Resource.withStatus old (Resource.withMeta { meta_ o with deleting := (meta_ old).deleting } o))
  refine ⟨old, v, ho, hu, ?_⟩
  rw [hv]
  simp

-- What is written with the finalizer is held by it.
theorem held_update (h : update clock xs o = .ok (o', xs')) (hf : containsFinalizer (meta_ o) f = true) :
    Held f (Store.key o) (meta_ o).uid xs' := by
  obtain ⟨old, v, ho, hu, hm⟩ := meta_update h
  obtain ⟨_, _, _, _, _, ⟨_, hnil, _⟩ | ⟨_, rfl⟩⟩ := update_ok h
  case inl => exact absurd hnil (finalizers_ne hf)
  case inr =>
    have hkey : Store.key o' = Store.key o := by rw [Store.key, hm, Store.key]
    refine ⟨o', ?_, by rw [hm], by rw [hm]; exact hf⟩
    rw [← hkey]
    exact find_put_self (hkey ▸ ho)

-- An update leaves the other objects alone, and it does not take a finalizer away from an object if it
-- comes with the finalizer.
theorem Held.update (h : Held f k uid xs) (hw : update clock xs o = .ok (o', xs'))
    (hf : k = Store.key o → containsFinalizer (meta_ o) f = true) : Held f k uid xs' := by
  obtain ⟨old, v, ho, hu, hm⟩ := meta_update hw
  by_cases hk : k = Store.key o
  case pos =>
    rw [hk] at h ⊢
    have huid : (meta_ o).uid = uid := hu.symm.trans (h.uid_eq ho)
    exact huid ▸ held_update hw (hf hk)
  case neg =>
    have hkey : Store.key o' = Store.key o := by rw [Store.key, hm, Store.key]
    obtain ⟨_, _, _, _, _, ⟨_, _, rfl⟩ | ⟨_, rfl⟩⟩ := update_ok hw
    case inl => exact h.remove hk
    case inr =>
      rw [Held, find_put, hkey, if_neg hk]
      exact h

end Store

end Kubernetes
