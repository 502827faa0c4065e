import EgressGateway.Manager.Theorems.Readiness
import EgressGateway.Objects.Theorems.Finalizers

-- What the controllers provide for their objects, and how they take care of it: a controller does not let go
-- of an object while there is something left that is named after it.

open Kubernetes Azure Text Program

namespace Manager

-- The kind of the objects of a controller, and its finalizer.

abbrev Controller.kind : Controller → Kind
  | .gw => .gwConfig
  | .lb => .lbConfig
  | .vm => .vmConfig

def Controller.finalizer : Controller → String
  | .gw => GwController.sgcFinalizerName
  | .lb => LBController.lbConfigFinalizerName
  | .vm => VMController.vmConfigFinalizerName

-- The object with this key and UID is there, and the controller has not let go of it.
def Held (i : Controller) (key : NamespacedName) (uid : String) (s : State) : Prop :=
  Store.Held i.finalizer key uid (s.api.items i.kind)

variable [CaseFold] (S : Settings)

-- The names of what there is of each kind that the controllers provide: the secrets with the keys, the
-- rules of the load balancer, and the prefixes.
def names (i : Controller) (s : State) : List String :=
  match i with
  | .gw => ((s.api.items .secret).filter fun o => (Store.key o).namespace_ = S.secretNamespace).map
      fun o => (Store.key o).name
  | .lb => s.cloud.rules.map (·.name)
  | .vm => (s.cloud.prefixes.filter fun p => equalFold p.resourceGroup (S.az.orDefault "")).map (·.name)

-- Something with this name is provided for the object with this UID.
def NamedAfter (i : Controller) (uid name : String) : Prop :=
  match i with
  | .gw => name = "sgw-" ++ uid
  | .lb => equalFold name uid = true
  | .vm => equalFold name (managedResourcePrefix ++ uid) = true

def managed (i : Controller) (s : State) : Set String :=
  { name | name ∈ names S i s ∧ ∃ uid, NamedAfter i uid name }

def Backed (i : Controller) (s : State) (name : String) : Prop :=
  ∃ key uid, NamedAfter i uid name ∧ Held i key uid s

structure Owned (s : State) : Prop where
  unique : ∀ k, Store.Unique (s.api.items k)
  backed : ∀ i, ∀ name ∈ managed S i s, Backed i s name

-- The controller `i` need not care about a step that lets go of none of its objects and provides nothing.
structure Keeps (i : Controller) (s s' : State) : Prop where
  held    : ∀ {key uid}, Held i key uid s → Held i key uid s'
  managed : managed S i s' ⊆ managed S i s

def custody : Pact Controller State where
  inv         := Owned S
  rely i s s' := Keeps S i s s'
  refl        := ⟨id, fun _ => id⟩
  trans h h'  := ⟨fun hk => h'.held (h.held hk), fun _ hn => h.managed (h'.managed hn)⟩

-- The controller that a call may concern.
def Call.concerns : Call → Option Controller
  | .update .gwConfig _ | .create .secret _ => some .gw
  | .update .lbConfig _ | .createOrUpdateLB _ => some .lb
  | .update .vmConfig _ | .createOrUpdatePublicIPPrefix .. => some .vm
  | _ => none

variable {S} {P : Platform} {s s' : State} {c : Call} {i j : Controller} {key : NamespacedName} {uid name : String}

section Keeps

theorem Keeps.backed (h : Keeps S i s s') (hb : Backed i s name) : Backed i s' name := by
  obtain ⟨key, uid, hn, hh⟩ := hb
  exact ⟨key, uid, hn, h.held hh⟩

theorem Owned.keeps (h : Owned S s) (hu : ∀ k, Store.Unique (s'.api.items k)) (hk : ∀ j, Keeps S j s s') : Owned S s' :=
  ⟨hu, fun i name hn => (hk i).backed (h.backed i name ((hk i).managed hn))⟩

theorem unique_serve {k : Kind} (h : Store.Unique (s.api.items k)) :
    Store.Unique ((State.serve P S.az c s).2.api.items k) := by
  by_cases hw : c.writes = some k
  case neg =>
    rw [(serve_spares hw).items]
    exact h
  have hcommit : ∀ {w : Store.Write (Obj k)}, (∀ o xs, w = .ok (o, xs) → Store.Unique xs) →
      Store.Unique ((s.commit k w).2.api.items k) := by
    intro w hw
    cases w
    case error => exact h
    case ok r  =>
      rw [State.commit, items_store_self]
      exact hw r.1 r.2 rfl
  cases c
  case update =>
    obtain rfl := Option.some.inj hw
    exact hcommit fun _ _ he => Store.unique_update h he
  case updateStatus =>
    obtain rfl := Option.some.inj hw
    refine hcommit fun _ _ he => ?_
    obtain ⟨_, _, _, _, rfl⟩ := Store.updateStatus_ok he
    exact Store.unique_put h
  case create =>
    obtain rfl := Option.some.inj hw
    exact hcommit fun _ _ he => Store.unique_create h he
  case patch =>
    obtain rfl := Option.some.inj hw
    refine hcommit fun _ _ he => ?_
    obtain ⟨_, _, _, rfl⟩ := Store.patch_ok he
    exact Store.unique_put h
  case patchStatus =>
    obtain rfl := Option.some.inj hw
    refine hcommit fun _ _ he => ?_
    obtain ⟨_, _, _, rfl⟩ := Store.patchStatus_ok he
    exact Store.unique_put h
  case delete =>
    obtain rfl := Option.some.inj hw
    simp only [State.serve]
    split
    case h_1 => exact h
    case h_2 he =>
      rw [items_store_self]
      exact Store.unique_delete h he
  all_goals cases hw

theorem allows_own (h : Owned S s) (hk : ∀ j ≠ i, Keeps S j s ((world P S.az).exec c s).2)
    (hi : ∀ name ∈ managed S i ((world P S.az).exec c s).2, Backed i ((world P S.az).exec c s).2 name) :
    (custody S).Allows i s ((world P S.az).exec c s).2 := by
  refine ⟨⟨fun k => unique_serve (h.unique k), fun j name hn => ?_⟩, hk⟩
  by_cases hj : j = i
  · exact hj ▸ hi name (hj ▸ hn)
  · exact (hk j hj).backed (h.backed j name ((hk j hj).managed hn))

omit [CaseFold] in
theorem held_spared (h : s'.api.items i.kind = s.api.items i.kind) (hh : Held i key uid s) : Held i key uid s' := by
  rw [Held, h]
  exact hh

omit [CaseFold] in
theorem held_commit {w : Store.Write (Obj i.kind)} (hh : Held i key uid s)
    (h : ∀ o xs, w = .ok (o, xs) → Store.Held i.finalizer key uid xs) :
    Held i key uid (s.commit i.kind w).2 := by
  cases w
  case error => exact hh
  case ok r  =>
    rw [Held, State.commit, items_store_self]
    exact h r.1 r.2 rfl

-- Only an update is able to take a finalizer away.
theorem held_serve (h : ∀ o, c ≠ .update i.kind o) (hh : Held i key uid s) :
    Held i key uid (State.serve P S.az c s).2 := by
  by_cases hw : c.writes = some i.kind
  case neg => exact held_spared (serve_spares hw).items hh
  cases c
  case update =>
    obtain rfl := Option.some.inj hw
    exact absurd rfl (h _)
  case updateStatus =>
    obtain rfl := Option.some.inj hw
    exact held_commit hh fun _ _ he => Store.Held.updateStatus hh he
  case create =>
    obtain rfl := Option.some.inj hw
    exact held_commit hh fun _ _ he => Store.Held.create hh he
  case patch =>
    obtain rfl := Option.some.inj hw
    exact held_commit hh fun _ _ he => Store.Held.patch hh he
  case patchStatus =>
    obtain rfl := Option.some.inj hw
    exact held_commit hh fun _ _ he => Store.Held.patchStatus hh he
  case delete =>
    obtain rfl := Option.some.inj hw
    simp only [State.serve]
    split
    case h_1 => exact hh
    case h_2 xs he =>
      rw [Held, items_store_self]
      exact Store.Held.delete hh he
  all_goals cases hw

-- Only a creation brings a new key.
theorem key_serve {k : Kind} (h : ∀ o, c ≠ .create k o) {x : Obj k} (hx : x ∈ (State.serve P S.az c s).2.api.items k) :
    ∃ y ∈ s.api.items k, Store.key y = Store.key x := by
  by_cases hw : c.writes = some k
  case neg =>
    rw [(serve_spares (P := P) (S := S) (s := s) hw).items] at hx
    exact ⟨x, hx, rfl⟩
  have hput : ∀ {key} {old new : Obj k}, Store.find (s.api.items k) key = some old → Store.key new = key →
      x ∈ Store.put (s.api.items k) new → ∃ y ∈ s.api.items k, Store.key y = Store.key x := by
    intro key old new hf hk hx
    rcases Store.mem_put hx with rfl | hx
    · exact ⟨old, List.mem_of_find?_eq_some hf, (Store.key_of_find hf).trans hk.symm⟩
    · exact ⟨x, hx, rfl⟩
  have hcommit : ∀ {w : Store.Write (Obj k)},
      (∀ o xs, w = .ok (o, xs) → x ∈ xs → ∃ y ∈ s.api.items k, Store.key y = Store.key x) →
      x ∈ (s.commit k w).2.api.items k → ∃ y ∈ s.api.items k, Store.key y = Store.key x := by
    intro w hw hx
    cases w
    case error => exact ⟨x, hx, rfl⟩
    case ok r  =>
      simp only [State.commit, items_store_self] at hx
      exact hw r.1 r.2 rfl hx
  cases c
  case create =>
    obtain rfl := Option.some.inj hw
    exact absurd rfl (h _)
  case update =>
    obtain rfl := Option.some.inj hw
    refine hcommit (fun o xs he hx => ?_) hx
    obtain ⟨old, v, hf, _, hm⟩ := Store.meta_update he
    obtain ⟨_, _, _, _, _, ⟨_, _, rfl⟩ | ⟨_, rfl⟩⟩ := Store.update_ok he
    · exact ⟨x, Store.mem_remove hx, rfl⟩
    · exact hput hf (by rw [Store.key, hm, Store.key]) hx
  case updateStatus =>
    obtain rfl := Option.some.inj hw
    refine hcommit (fun o xs he hx => ?_) hx
    obtain ⟨old, hf, _, rfl, rfl⟩ := Store.updateStatus_ok he
    refine hput hf ?_ hx
    rw [Store.key_revise, Store.key, LawfulResource.meta_withStatus]
    exact Store.key_of_find hf
  case patch =>
    obtain rfl := Option.some.inj hw
    refine hcommit (fun o xs he hx => ?_) hx
    obtain ⟨old, hf, rfl, rfl⟩ := Store.patch_ok he
    refine hput hf ?_ hx
    rw [Store.key_revise, Store.key]
    rcases LawfulResource.meta_merge _ _ old with hm | hm
    · rw [hm]
      exact Store.key_of_find hf
    · rw [hm]
      exact Store.key_of_find hf
  case patchStatus =>
    obtain rfl := Option.some.inj hw
    refine hcommit (fun o xs he hx => ?_) hx
    obtain ⟨old, hf, rfl, rfl⟩ := Store.patchStatus_ok he
    refine hput hf ?_ hx
    rw [Store.key_revise, Store.key, LawfulResource.meta_mergeStatus]
    exact Store.key_of_find hf
  case delete =>
    obtain rfl := Option.some.inj hw
    simp only [State.serve] at hx
    split at hx
    case h_1 => exact ⟨x, hx, rfl⟩
    case h_2 xs he =>
      rw [items_store_self] at hx
      obtain ⟨old, hf, ⟨_, rfl⟩ | ⟨_, rfl⟩⟩ := Store.delete_ok he
      · exact ⟨x, Store.mem_remove hx, rfl⟩
      · refine hput hf ?_ hx
        rw [Store.key_revise, Store.key, LawfulResource.meta_withMeta]
        exact Store.key_of_find hf
  all_goals cases hw

theorem prefixes_serve (h : ∀ rg name length, c ≠ .createOrUpdatePublicIPPrefix rg name length) :
    (State.serve P S.az c s).2.cloud.prefixes ⊆ s.cloud.prefixes := by
  by_cases hw : c.writes = none
  case neg =>
    rw [serve_cloud hw]
    exact fun _ => id
  cases c
  case createOrUpdatePublicIPPrefix => exact absurd rfl (h _ _ _)
  case deletePublicIPPrefix => exact List.filter_subset_self _
  case update | updateStatus | create | patch | patchStatus | delete => cases hw
  all_goals
    simp only [State.serve]
    repeat' split
    all_goals exact fun _ => id

theorem names_serve (h : c.concerns ≠ some i) : names S i (State.serve P S.az c s).2 ⊆ names S i s := by
  cases i
  case gw =>
    intro name hn
    obtain ⟨x, hx, rfl⟩ := List.mem_map.mp hn
    obtain ⟨hx, hns⟩ := List.mem_filter.mp hx
    obtain ⟨y, hy, hk⟩ := key_serve (fun o hc => h (by rw [hc]; rfl)) hx
    refine List.mem_map.mpr ⟨y, List.mem_filter.mpr ⟨hy, ?_⟩, by rw [hk]⟩
    rw [hk]
    exact hns
  case lb => exact List.map_subset _ (serve_rules fun lb hc => h (by rw [hc]; rfl))
  case vm =>
    exact List.map_subset _ (List.filter_subset _ (prefixes_serve fun rg name length hc => h (by rw [hc]; rfl)))

theorem keeps_serve (h : c.concerns ≠ some i) : Keeps S i s (State.serve P S.az c s).2 where
  held hh := held_serve (fun o hc => h (by rw [hc]; cases i <;> rfl)) hh
  managed := fun _ hn => ⟨names_serve h hn.left, hn.right⟩

theorem allows_serve (hs : Owned S s) (h : c.concerns = none) : (custody S).Allows i s ((world P S.az).exec c s).2 :=
  have hk : ∀ j, Keeps S j s (State.serve P S.az c s).2 := fun _ => keeps_serve (by rw [h]; simp)
  ⟨hs.keeps (fun k => unique_serve (hs.unique k)) hk, fun j _ => hk j⟩

end Keeps

-- Programs none of the calls of which concerns any controller.
abbrev Quiet {α : Type} (p : M α) : Prop :=
  p.Uses fun c : Call => c.concerns = none

-- What the controller `i` may rely on between its calls.
def Stable (S : Settings) (i : Controller) (J : State → Prop) : Prop :=
  ∀ s s', Keeps S i s s' → J s → J s'

section Steps

variable {α : Type} {p : M α} {J : State → Prop}

theorem stable_true : Stable S i fun _ => True := fun _ _ _ => id

theorem stable_held : Stable S i (Held i key uid) := fun _ _ h => h.held

theorem stable_backed {names : List String} : Stable S i fun s => ∀ name ∈ names, Backed i s name :=
  fun _ _ h hb name hn => h.backed (hb name hn)

-- Nothing is provided for the object with this UID.
def Absent (S : Settings) (i : Controller) (uid : String) (s : State) : Prop :=
  ∀ name ∈ managed S i s, ¬NamedAfter i uid name

theorem stable_absent : Stable S i (Absent S i uid) :=
  fun _ _ h ha name hn => ha name (h.managed hn)

theorem Stable.and {J' : State → Prop} (h : Stable S i J) (h' : Stable S i J') : Stable S i fun s => J s ∧ J' s :=
  fun s t hk hj => ⟨h s t hk hj.left, h' s t hk hj.right⟩

theorem abides_quiet (hp : Quiet p) (hJ : Stable S i J) (h : J s) :
    Abides (world P S.az) (custody S) i p s fun _ s => J s := by
  have ha : Abides (world P S.az) (custody S) i p s fun _ _ => True :=
    abides_of_uses hp fun c s hc hs => allows_serve hs hc
  refine (ha.frame hp hJ (fun c s hc => hJ s _ (keeps_serve ?_)) h).mono fun _ _ hq => hq.right
  rw [hc]
  simp

theorem abides_call (hc : c.concerns = none) {Q : Reply c → State → Prop}
    (h : ∀ s', Keeps S i s s' → Owned S s' → ∀ a, (State.serve P S.az c s').1 = .ok a → Q a (State.serve P S.az c s').2) :
    Abides (world P S.az) (custody S) i (request c) s Q :=
  abides_perform fun s' hr hs => ⟨allows_serve hs hc, h s' hr hs⟩

-- The answer and the state that the call leaves behind, also if the call is disturbed.
theorem abides_attempt (hc : c.concerns = none) {Q : Except Err (Reply c) → State → Prop}
    (h : ∀ s', Keeps S i s s' → Owned S s' →
      Q (State.serve P S.az c s').1 (State.serve P S.az c s').2 ∧ ∀ e s'', e.isNotFound = false → Q (.error e) s'') :
    Abides (world P S.az) (custody S) i (request c).attempt s Q := by
  refine abides_attempt_perform fun s' hr hs f => ?_
  obtain ⟨hok, herr⟩ := h s' hr hs
  cases f
  case none    => exact ⟨allows_serve hs hc, hok⟩
  case lost    => exact ⟨Pact.allows_refl hs, herr _ _ rfl⟩
  case applied => exact ⟨allows_serve hs hc, herr _ _ rfl⟩

omit [CaseFold] in
theorem concerns_update (o : Obj i.kind) : Call.concerns (.update i.kind o) = some i := by
  cases i <;> rfl

-- A write to the API server provides nothing unless it concerns the secrets.
theorem names_api (h : c.writes ≠ none) (hs : c.writes ≠ some .secret) :
    names S i (State.serve P S.az c s).2 = names S i s := by
  cases i
  case gw => simp only [names, (serve_spares (P := P) (S := S) (s := s) hs).items]
  case lb | vm => simp only [names, serve_cloud (P := P) (S := S) (s := s) h]

theorem allows_update (o : Obj i.kind) (hs : Owned S s)
    (h : ∀ {key uid}, Held i key uid s → (∃ name ∈ managed S i s, NamedAfter i uid name) →
      Held i key uid (State.serve P S.az (.update i.kind o) s).2) :
    (custody S).Allows i s ((world P S.az).exec (.update i.kind o) s).2 := by
  refine allows_own hs (fun j hj => keeps_serve ?_) fun name hn => ?_
  · rw [concerns_update]
    exact fun he => hj (Option.some.inj he).symm
  · have hn : name ∈ managed S i s := by
      refine ⟨?_, hn.right⟩
      rw [← names_api (P := P) (c := .update i.kind o) nofun (by cases i <;> simp [Call.writes])]
      exact hn.left
    obtain ⟨key, uid, hafter, hh⟩ := hs.backed i name hn
    exact ⟨key, uid, hafter, h hh ⟨name, hn, hafter⟩⟩

-- An update with the finalizer lets go of nothing.
theorem held_finalizer {o : Obj i.kind} (hf : containsFinalizer (meta_ o) i.finalizer = true) (hh : Held i key uid s) :
    Held i key uid (State.serve P S.az (.update i.kind o) s).2 :=
  held_commit hh fun _ _ he => Store.Held.update hh he fun _ => hf

theorem abides_ensureFinalizer {o : Obj i.kind}
    (ho : containsFinalizer (meta_ o) i.finalizer = true → Held i (Store.key o) (meta_ o).uid s) :
    Abides (world P S.az) (custody S) i (ensureFinalizer i.kind i.finalizer o) s fun o' s' =>
      Store.key o' = Store.key o ∧ (meta_ o').uid = (meta_ o).uid ∧ Held i (Store.key o) (meta_ o).uid s' := by
  unfold ensureFinalizer
  split
  case isTrue hf => exact abides_ret ⟨rfl, rfl, ho hf⟩
  case isFalse hf =>
    have hm : meta_ (Resource.withMeta (addFinalizer (meta_ o) i.finalizer) o) = addFinalizer (meta_ o) i.finalizer :=
      LawfulResource.meta_withMeta _ _
    have hkey : Store.key (Resource.withMeta (addFinalizer (meta_ o) i.finalizer) o) = Store.key o := by
      simp [Store.key, addFinalizer, hf]
    have huid : (meta_ (Resource.withMeta (addFinalizer (meta_ o) i.finalizer) o)).uid = (meta_ o).uid := by
      simp [addFinalizer, hf]
    have hfin : containsFinalizer (meta_ (Resource.withMeta (addFinalizer (meta_ o) i.finalizer) o)) i.finalizer = true := by
      rw [hm]
      exact containsFinalizer_addFinalizer
    refine abides_perform fun s' _ hs => ⟨allows_update _ hs fun hh _ => held_finalizer hfin hh, fun o' he => ?_⟩
    simp only [world, State.serve, State.commit] at he ⊢
    split at he
    case h_1 => cases he
    case h_2 o'' xs hw =>
      obtain rfl := Except.ok.inj he
      obtain ⟨_, v, _, _, hm'⟩ := Store.meta_update hw
      refine ⟨?_, ?_, ?_⟩
      · rw [Store.key, hm']
        exact hkey
      · rw [hm']
        exact huid
      · rw [Held, items_store_self, ← hkey, ← huid]
        exact Store.held_update hw hfin

-- The finalizer is only taken away when there is nothing left.
theorem abides_releaseFinalizer {o : Obj i.kind} (ha : Absent S i (meta_ o).uid s) :
    Abides (world P S.az) (custody S) i (releaseFinalizer i.kind i.finalizer o) s fun _ _ => True := by
  refine abides_perform fun s' hr hs => ⟨allows_update _ hs ?_, fun _ _ => trivial⟩
  rintro key uid hh ⟨name, hn, hafter⟩
  refine held_commit hh fun o' xs he => Store.Held.update hh he ?_
  rintro rfl
  obtain ⟨old, _, hf, hu, _⟩ := Store.meta_update he
  have huid : (meta_ o).uid = uid := by
    rw [← Store.Held.uid_eq hh hf, hu, LawfulResource.meta_withMeta]
    rfl
  exact absurd hafter (huid ▸ stable_absent s s' hr ha name hn)

end Steps

section Helpers

variable {k : Kind} {o : Obj k} {mutate : Obj k → M (Obj k)}

omit [CaseFold] in
theorem quiet_patchChanges {before after : Obj k} : Quiet (patchChanges k before after) := by
  unfold patchChanges
  split
  · refine uses_bind (uses_perform rfl) fun _ => ?_
    split
    · exact uses_perform rfl
    · exact uses_ret _
  · split
    · exact uses_perform rfl
    · exact uses_ret _

omit [CaseFold] in
-- Objects other than secrets come without anything.
theorem quiet_createOrPatch (hk : k ≠ .secret) (hm : ∀ o, Quiet (mutate o)) : Quiet (createOrPatch k o mutate) := by
  refine uses_bind (uses_attempt (uses_perform rfl)) fun r => ?_
  split
  · split
    · refine uses_bind (hm _) fun o => uses_bind (uses_perform ?_) fun _ => uses_ret _
      cases k
      case secret => exact absurd rfl hk
      all_goals rfl
    · exact uses_throw _
  · exact uses_bind (hm _) fun _ => uses_bind quiet_patchChanges fun _ => uses_ret _

-- The object that is found under a key.
theorem abides_get {req : NamespacedName} :
    Abides (world P S.az) (custody S) i (request (.get k req)).attempt s fun r s' =>
      ∀ o, r = .ok o → Store.find (s'.api.items k) req = some o := by
  refine Abides.attempt_ok (abides_call rfl fun s' _ _ o ho => ?_)
  simp only [State.serve] at ho ⊢
  split at ho
  case h_1 => cases ho
  case h_2 hf =>
    obtain rfl := Except.ok.inj ho
    rw [hf]

end Helpers

-- Looking for a pool, and dealing with its nodes, is of no concern to the controllers.
section Pools

variable {vmConfig : GatewayVMConfiguration} {spec : GatewaySpec} {prefixID : String} {want : Bool}

omit [CaseFold] in
theorem quiet_getVMSS {rg name : String} : Quiet (getVMSS rg name) := by
  unfold getVMSS
  split
  · exact uses_throw _
  · exact uses_perform rfl

theorem quiet_loadLBPool : Quiet (loadLBPool spec) := by
  unfold loadLBPool
  split
  · refine uses_bind (uses_perform rfl) fun vmssList => ?_
    split
    · exact uses_ret _
    · refine uses_bind (uses_perform rfl) fun vmsList => ?_
      split
      · exact uses_ret _
      · exact uses_throw _
  · exact uses_bind quiet_getVMSS fun _ => uses_ret _

theorem quiet_loadVMPool : Quiet (loadVMPool spec) := by
  unfold loadVMPool
  split
  · refine uses_bind (uses_perform rfl) fun vmsList => ?_
    split
    · exact uses_ofExcept fun _ _ => uses_ret _
    · refine uses_bind (uses_perform rfl) fun vmssList => ?_
      split
      · exact uses_ofExcept fun _ _ => uses_ret _
      · exact uses_throw _
  · exact uses_bind quiet_getVMSS fun _ => uses_ret _

theorem quiet_checkIPs {rg name id ipConfigName : String} {nics : List NetworkConfiguration} {ips : String × String} :
    Quiet (checkIPs rg name id ipConfigName nics ips) := by
  induction nics generalizing ips
  case nil => exact uses_ret _
  case cons nic nics hi =>
    unfold checkIPs
    split
    · refine uses_bind (uses_attempt (uses_guarded rfl)) fun r => ?_
      split
      · exact uses_ret _
      · split
        · exact uses_ret _
        · exact hi
    · exact hi

theorem quiet_fetchIPs {rg name id ipConfigName : String} {nics : List NetworkConfiguration} :
    Quiet (fetchIPs rg name id ipConfigName nics) := by
  refine uses_forFold fun ips nic _ => ?_
  split
  · refine uses_bind (uses_mapError (uses_guarded rfl)) fun vmNic => ?_
    split
    · exact uses_throw _
    · exact uses_ret _
  · exact uses_ret _

theorem quiet_reconcileVMSSVM {vmssName pool : String} {vm : ScaleSetVM} :
    Quiet (reconcileVMSSVM vmConfig vmssName vm prefixID pool want) := by
  unfold reconcileVMSSVM
  dsimp only
  split
  · exact uses_throw _
  · exact uses_throw _
  · refine uses_bind ?_ fun ips => uses_bind (uses_mapError ?_) fun (nics, need) => ?_
    · unfold knownIPs
      split
      · exact quiet_checkIPs
      · exact uses_ret _
    · cases reconcileVMSSNetworkInterface _ prefixID pool want _ <;> trivial
    · refine uses_bind (uses_when (uses_mapError (uses_guarded rfl))) fun _ => ?_
      split
      · exact uses_ret _
      · refine uses_bind ?_ fun (primaryIP, secondaryIP) => ?_
        · unfold currentIPs
          split
          · exact quiet_fetchIPs
          · exact uses_ret _
        · dsimp only
          split
          · exact uses_throw _
          · exact uses_ret _

theorem quiet_reconcileNIC {nic : Azure.Interface} {pool : String} :
    Quiet (reconcileNIC S vmConfig nic prefixID pool want) := by
  unfold reconcileNIC
  dsimp only
  split
  · exact uses_throw _
  · split
    · exact uses_throw _
    · refine uses_bind ?_ fun pip => uses_bind ?_ fun r => ?_
      · unfold ensurePublicIP
        split
        · exact uses_ofExcept fun _ _ => uses_bind (uses_guarded rfl) fun _ => uses_ret _
        · exact uses_ret _
      · unfold storeNIC
        split
        · refine uses_bind (uses_mapError (uses_guarded rfl)) fun nic => ?_
          split
          · exact uses_throw _
          · exact uses_ret _
        · exact uses_ret _
      · split <;> exact uses_ret _

theorem quiet_reconcileVMSS {vmss : VirtualMachineScaleSet} : Quiet (reconcileVMSS S vmConfig vmss prefixID want) := by
  unfold reconcileVMSS
  dsimp only
  split
  · exact uses_throw _
  · refine uses_bind (uses_mapError ?_) fun (nics, need) => ?_
    · cases reconcileVMSSNetworkInterface _ prefixID _ want _ <;> trivial
    · refine uses_bind (uses_when (uses_mapError (uses_guarded rfl))) fun _ => ?_
      refine uses_bind (uses_mapError (uses_guarded rfl)) fun instances => uses_bind ?_ fun r => ?_
      · exact uses_forFold fun _ _ _ => uses_bind quiet_reconcileVMSSVM fun _ => uses_ret _
      · exact uses_bind (uses_mapError (uses_perform rfl)) fun _ => uses_ret _

theorem quiet_pool {pool : GatewayPool} : Quiet (pool.reconcile S vmConfig prefixID want) := by
  cases pool
  case vmss => exact quiet_reconcileVMSS
  case vms  =>
    refine uses_bind (uses_perform rfl) fun nics => uses_forFold fun _ _ _ => ?_
    exact uses_bind quiet_reconcileNIC fun _ => uses_ret _

end Pools

end Manager
