import EgressGateway.Manager.LBConfiguration
import EgressGateway.Manager.StaticGateway
import EgressGateway.Manager.VMConfiguration
import EgressGateway.Manager.Theorems.Platform
import EgressGateway.Objects.Theorems.Store

-- Which objects of the API server the controllers are able to touch, and what their helpers store.

open Kubernetes Azure Text Program

namespace Manager

instance : (k : Kind) → LawfulResource (Obj k)
  | .gwConfig => inferInstanceAs (LawfulResource StaticGatewayConfiguration)
  | .lbConfig => inferInstanceAs (LawfulResource GatewayLBConfiguration)
  | .vmConfig => inferInstanceAs (LawfulResource GatewayVMConfiguration)
  | .secret   => inferInstanceAs (LawfulResource Secret)

-- The kind of the objects that a call may change.
def Call.writes : Call → Option Kind
  | .update k _ | .updateStatus k _ | .create k _ | .patch k .. | .patchStatus k .. | .delete k _ => some k
  | _ => none

variable {S : Settings} {s : State} {c : Call} {k : Kind}

theorem items_store_self {xs : List (Obj k)} : (s.store k xs).api.items k = xs := by
  simp [State.store]

theorem items_store_ne {k' : Kind} {xs : List (Obj k')} (h : k' ≠ k) :
    (s.store k' xs).api.items k = s.api.items k := by
  simp [State.store, Ne.symm h]

-- The objects of the other kinds are not affected by a write.
structure Spared (k : Kind) (s s' : State) : Prop where
  items : s'.api.items k = s.api.items k
  clock : s.api.clock ≤ s'.api.clock

theorem Spared.refl (s : State) : Spared k s s :=
  ⟨rfl, Nat.le_refl _⟩

theorem Spared.trans {s t u : State} (h : Spared k s t) (h' : Spared k t u) : Spared k s u :=
  ⟨h'.items.trans h.items, Nat.le_trans h.clock h'.clock⟩

theorem Spared.commit {k' : Kind} (hk : k' ≠ k) (w : Store.Write (Obj k')) : Spared k s (s.commit k' w).2 := by
  cases w
  case error => exact .refl s
  case ok    => exact ⟨items_store_ne hk, Nat.le_succ _⟩

section Serve

variable [CaseFold] {P : Platform}

theorem serve_api (h : c.writes = none) : (State.serve P S.az c s).2.api = s.api := by
  cases c
  case update | updateStatus | create | patch | patchStatus | delete => nomatch h
  all_goals
    simp only [State.serve]
    repeat' split
    all_goals rfl

theorem serve_cloud (h : c.writes ≠ none) : (State.serve P S.az c s).2.cloud = s.cloud := by
  have hcommit : ∀ {k} {w : Store.Write (Obj k)}, (s.commit k w).2.cloud = s.cloud := by
    rintro k (_ | _) <;> rfl
  cases c
  case update | updateStatus | create | patch | patchStatus => exact hcommit
  case delete k key =>
    simp only [State.serve]
    split <;> rfl
  all_goals exact absurd rfl h

theorem serve_spares (h : c.writes ≠ some k) : Spared k s (State.serve P S.az c s).2 := by
  by_cases hc : c.writes = none
  case pos =>
    have ha := serve_api (P := P) (S := S) (s := s) hc
    exact ⟨by rw [ha], Nat.le_of_eq (congrArg ApiServer.clock ha.symm)⟩
  have hne : ∀ {k'}, some k' ≠ some k → k' ≠ k := fun h he => h (congrArg some he)
  cases c
  case update | updateStatus | create | patch | patchStatus => exact .commit (hne h) _
  case delete k' key =>
    simp only [State.serve]
    split
    · exact .refl s
    · exact ⟨items_store_ne (hne h), Nat.le_succ _⟩
  all_goals exact absurd rfl hc

end Serve

-- Calls that change neither the objects of the API server nor the load balancer, and do not create public
-- IP addresses either.
def Call.plain : Call → Bool
  | .update .. | .updateStatus .. | .create .. | .patch .. | .patchStatus .. | .delete ..
  | .createOrUpdateLB _ | .deleteLB | .createOrUpdatePublicIP .. => false
  | _ => true

-- Calls that change nothing but what there is for the nodes.
def Call.ofNodes : Call → Bool
  | .createOrUpdatePublicIP .. => true
  | c => c.plain || c.writes = some .vmConfig

theorem Call.writes_of_plain (h : c.plain = true) : c.writes = none := by
  cases c
  case update | updateStatus | create | patch | patchStatus | delete => nomatch h
  all_goals rfl

-- Programs that leave the API server alone.

abbrev CloudOnly {α : Type} (p : M α) : Prop :=
  p.Uses fun c : Call => c.writes = none

abbrev Plain {α : Type} (p : M α) : Prop :=
  p.Uses fun c : Call => c.plain = true

abbrev OfNodes {α : Type} (p : M α) : Prop :=
  p.Uses fun c : Call => c.ofNodes = true

abbrev Spares {α : Type} (k : Kind) (p : M α) : Prop :=
  p.Uses fun c : Call => c.writes ≠ some k

section Uses

variable {α : Type} {ok : Call → Prop} {p : M α}

theorem CloudOnly.spares (h : CloudOnly p) : Spares k p :=
  h.mono fun c hc => by rw [hc]; nofun

theorem Plain.cloudOnly (h : Plain p) : CloudOnly p :=
  h.mono fun _ => Call.writes_of_plain

theorem Plain.spares (h : Plain p) : Spares k p :=
  h.cloudOnly.spares

theorem Call.ofNodes_of_plain (h : c.plain = true) : c.ofNodes = true := by
  cases c
  all_goals first | rfl | nomatch h

theorem Plain.ofNodes (h : Plain p) : OfNodes p :=
  h.mono fun _ => Call.ofNodes_of_plain

theorem uses_guarded {names : List (String × String)} (h : ok c) : (guarded names c).Uses ok := by
  unfold guarded
  split
  · exact uses_throw _
  · exact uses_perform h

theorem plain_getVMSS {rg name : String} : Plain (getVMSS rg name) := by
  unfold getVMSS
  split
  · exact uses_throw _
  · exact uses_perform rfl

theorem cloudOnly_writeRemoval {d : Draft} : CloudOnly (writeRemoval d) := by
  unfold writeRemoval
  split
  · exact uses_bind (uses_perform rfl) fun _ => uses_ret _
  · exact uses_ret _

variable [CaseFold]

theorem plain_loadLBPool {spec : GatewaySpec} : Plain (loadLBPool spec) := by
  unfold loadLBPool
  split
  · refine uses_bind (uses_perform rfl) fun vmssList => ?_
    split
    · exact uses_ret _
    · refine uses_bind (uses_perform rfl) fun vmsList => ?_
      split
      · exact uses_ret _
      · exact uses_throw _
  · exact uses_bind plain_getVMSS fun _ => uses_ret _

theorem plain_loadVMPool {spec : GatewaySpec} : Plain (loadVMPool spec) := by
  unfold loadVMPool
  split
  · refine uses_bind (uses_perform rfl) fun vmsList => ?_
    split
    · exact uses_ofExcept fun _ _ => uses_ret _
    · refine uses_bind (uses_perform rfl) fun vmssList => ?_
      split
      · exact uses_ofExcept fun _ _ => uses_ret _
      · exact uses_throw _
  · exact uses_bind plain_getVMSS fun _ => uses_ret _

theorem plain_openDraft {lbConfig : GatewayLBConfiguration} {needLB : Bool} {lb : LoadBalancer}
    {updateLB : Bool} : Plain (openDraft S lbConfig needLB lb updateLB) := by
  refine uses_bind plain_loadLBPool fun pool => uses_ofExcept fun names _ => ?_
  split
  · exact uses_throw _
  · refine uses_bind (uses_ofExcept fun ip _ => ?_) fun _ => uses_ofExcept fun _ _ => uses_ret _
    split
    · exact uses_bind (uses_perform rfl) fun _ => uses_ret _
    · exact uses_ret _

theorem cloudOnly_writeRule {names : LBPropertyNames} {d : Draft} {port : Int} :
    CloudOnly (writeRule names d port) := by
  unfold writeRule
  split
  · refine uses_bind (uses_perform rfl) fun lb => ?_
    split
    · split
      · exact uses_throw _
      · refine uses_ofExcept fun ip _ => ?_
        split
        · exact uses_throw _
        · exact uses_ret _
    · exact uses_ret _
  · exact uses_ret _

theorem cloudOnly_reconcileLBRuleOn {lbConfig : GatewayLBConfiguration} {needLB : Bool}
    {lb : LoadBalancer} {updateLB : Bool} :
    CloudOnly (reconcileLBRuleOn S lbConfig needLB lb updateLB) := by
  refine uses_bind plain_openDraft.cloudOnly fun (names, d) => ?_
  dsimp only
  split
  · exact uses_ofExcept fun _ _ => cloudOnly_writeRule
  · refine uses_ofExcept fun (d, deleteFrontend) _ => ?_
    dsimp only
    split
    · split
      · exact uses_bind (uses_perform rfl) fun _ => uses_ret _
      · exact cloudOnly_writeRemoval
    · exact cloudOnly_writeRemoval

theorem cloudOnly_reconcileLBRule {lbConfig : GatewayLBConfiguration} {needLB : Bool} :
    CloudOnly (reconcileLBRule S lbConfig needLB) := by
  refine uses_bind (uses_bind (uses_attempt (uses_perform rfl)) fun r => ?_) fun lb => ?_
  · split
    · exact uses_ret _
    · split
      · exact uses_ret _
      · exact uses_throw _
  · split
    · exact cloudOnly_reconcileLBRuleOn
    · split
      · exact cloudOnly_reconcileLBRuleOn
      · exact uses_ret _

theorem plain_useProvidedPrefix {length : Int} {id : String} :
    Plain (VMController.useProvidedPrefix S length id) := by
  unfold VMController.useProvidedPrefix
  split
  · split
    · exact uses_throw _
    · refine uses_bind (uses_mapError (uses_guarded rfl)) fun p => ?_
      split
      · exact uses_throw _
      · split
        · exact uses_throw _
        · exact uses_ret _
  · exact uses_throw _

omit [CaseFold] in
theorem plain_useManagedPrefix {length : Int} {name : String} :
    Plain (VMController.useManagedPrefix length name) := by
  refine uses_bind (uses_attempt (uses_guarded rfl)) fun r => ?_
  split
  · split
    · exact uses_throw _
    · exact uses_ret _
  · split
    · exact uses_throw _
    · refine uses_bind (uses_mapError (uses_guarded rfl)) fun p => ?_
      split
      · exact uses_throw _
      · exact uses_ret _

theorem plain_ensurePublicIPPrefix {length : Int} {vmConfig : GatewayVMConfiguration} :
    Plain (VMController.ensurePublicIPPrefix S length vmConfig) := by
  unfold VMController.ensurePublicIPPrefix
  split
  · exact uses_ret _
  · split
    · exact plain_useProvidedPrefix
    · exact plain_useManagedPrefix

omit [CaseFold] in
theorem plain_releasePublicIP {pip : Option SubResource} :
    Plain (VMController.releasePublicIP S pip) := by
  unfold VMController.releasePublicIP
  split
  · exact uses_ret _
  · split
    · exact uses_throw _
    · refine uses_bind (uses_attempt (uses_guarded rfl)) fun r => ?_
      split
      · exact uses_ret _
      · split
        · exact uses_ret _
        · exact uses_throw _

omit [CaseFold] in
theorem plain_ensurePublicIPPrefixDeleted {vmConfig : GatewayVMConfiguration} :
    Plain (VMController.ensurePublicIPPrefixDeleted S vmConfig) := by
  refine uses_bind (uses_attempt (uses_guarded rfl)) fun r => ?_
  split
  · split
    · exact uses_ret _
    · exact uses_throw _
  · refine uses_bind (uses_forEach fun _ _ => plain_releasePublicIP) fun _ => ?_
    exact uses_mapError (uses_guarded rfl)

theorem plain_checkIPs {rg name id ipConfigName : String} {nics : List NetworkConfiguration}
    {ips : String × String} : Plain (checkIPs rg name id ipConfigName nics ips) := by
  induction nics generalizing ips
  case nil => exact uses_ret _
  case cons nic nics hi =>
    unfold checkIPs
    split
    · refine uses_bind (uses_attempt (uses_guarded rfl)) fun r => ?_
      split
      · exact uses_ret _
      · split
        · exact uses_ret _
        · exact hi
    · exact hi

theorem plain_fetchIPs {rg name id ipConfigName : String} {nics : List NetworkConfiguration} :
    Plain (fetchIPs rg name id ipConfigName nics) := by
  refine uses_forFold fun ips nic _ => ?_
  split
  · refine uses_bind (uses_mapError (uses_guarded rfl)) fun vmNic => ?_
    split
    · exact uses_throw _
    · exact uses_ret _
  · exact uses_ret _

theorem plain_reconcileVMSSVM {vmConfig : GatewayVMConfiguration} {name : String} {vm : ScaleSetVM}
    {prefixID pool : String} {want : Bool} :
    Plain (reconcileVMSSVM vmConfig name vm prefixID pool want) := by
  unfold reconcileVMSSVM
  dsimp only
  split
  · exact uses_throw _
  · exact uses_throw _
  · refine uses_bind ?_ fun ips => uses_bind (uses_mapError ?_) fun (nics, need) => ?_
    · unfold knownIPs
      split
      · exact plain_checkIPs
      · exact uses_ret _
    · cases reconcileVMSSNetworkInterface _ prefixID pool want _ <;> trivial
    · refine uses_bind (uses_when (uses_mapError (uses_guarded rfl))) fun _ => ?_
      split
      · exact uses_ret _
      · refine uses_bind ?_ fun (primaryIP, secondaryIP) => ?_
        · unfold currentIPs
          split
          · exact plain_fetchIPs
          · exact uses_ret _
        · dsimp only
          split
          · exact uses_throw _
          · exact uses_ret _

theorem ofNodes_reconcileVMSS {vmConfig : GatewayVMConfiguration} {vmss : VirtualMachineScaleSet}
    {prefixID : String} {want : Bool} : OfNodes (reconcileVMSS S vmConfig vmss prefixID want) := by
  unfold reconcileVMSS
  dsimp only
  split
  · exact uses_throw _
  · refine uses_bind (uses_mapError ?_) fun (nics, need) => ?_
    · cases reconcileVMSSNetworkInterface _ prefixID _ want _ <;> trivial
    · refine uses_bind (uses_when (uses_mapError (uses_guarded rfl))) fun _ => ?_
      refine uses_bind (uses_mapError (uses_guarded rfl)) fun instances => uses_bind ?_ fun r => ?_
      · exact uses_forFold fun _ _ _ => uses_bind plain_reconcileVMSSVM.ofNodes fun _ => uses_ret _
      · exact uses_bind (uses_mapError (uses_perform rfl)) fun _ => uses_ret _

theorem ofNodes_reconcileNIC {vmConfig : GatewayVMConfiguration} {nic : Azure.Interface}
    {prefixID pool : String} {want : Bool} : OfNodes (reconcileNIC S vmConfig nic prefixID pool want) := by
  unfold reconcileNIC
  dsimp only
  split
  · exact uses_throw _
  · split
    · exact uses_throw _
    · refine uses_bind ?_ fun pip => uses_bind ?_ fun r => ?_
      · unfold ensurePublicIP
        split
        · exact uses_ofExcept fun _ _ => uses_bind (uses_guarded rfl) fun _ => uses_ret _
        · exact uses_ret _
      · unfold storeNIC
        split
        · refine uses_bind (uses_mapError (uses_guarded rfl)) fun nic => ?_
          split
          · exact uses_throw _
          · exact uses_ret _
        · exact uses_ret _
      · split <;> exact uses_ret _

theorem ofNodes_pool {pool : GatewayPool} {vmConfig : GatewayVMConfiguration} {prefixID : String}
    {want : Bool} : OfNodes (pool.reconcile S vmConfig prefixID want) := by
  cases pool
  case vmss => exact ofNodes_reconcileVMSS
  case vms  =>
    refine uses_bind (uses_perform rfl) fun nics => uses_forFold fun _ _ _ => ?_
    exact uses_bind ofNodes_reconcileNIC fun _ => uses_ret _

end Uses

section Helpers

variable {k' : Kind} {o : Obj k'} {mutate : Obj k' → M (Obj k')}

theorem spares_request (hc : c.writes = none ∨ ∃ k', c.writes = some k' ∧ k' ≠ k) : Spares k (request c) := by
  refine uses_perform fun h => ?_
  rcases hc with hc | ⟨k', hc, hk⟩
  · rw [hc] at h
    nomatch h
  · exact hk (Option.some.inj (hc.symm.trans h))

-- The helpers of one kind of objects only write objects of this kind.

variable {ok : Call → Prop}

theorem uses_patchChanges (h : ∀ c, c.writes = some k' → ok c) {before after : Obj k'} :
    (patchChanges k' before after).Uses ok := by
  unfold patchChanges
  split
  · refine uses_bind (uses_perform (h _ rfl)) fun _ => ?_
    split
    · exact uses_perform (h _ rfl)
    · exact uses_ret _
  · split
    · exact uses_perform (h _ rfl)
    · exact uses_ret _

theorem uses_createOrPatch (h : ∀ c, c.writes = some k' → ok c) (hg : ∀ key, ok (.get k' key))
    (hm : ∀ o, (mutate o).Uses ok) : (createOrPatch k' o mutate).Uses ok := by
  refine uses_bind (uses_attempt (uses_perform (hg _))) fun r => ?_
  split
  · split
    · exact uses_bind (hm _) fun _ => uses_bind (uses_perform (h _ rfl)) fun _ => uses_ret _
    · exact uses_throw _
  · exact uses_bind (hm _) fun _ => uses_bind (uses_patchChanges h) fun _ => uses_ret _

theorem uses_createOrUpdate (h : ∀ c, c.writes = some k' → ok c) (hg : ∀ key, ok (.get k' key))
    (hm : ∀ o, (mutate o).Uses ok) : (createOrUpdate k' o mutate).Uses ok := by
  refine uses_bind (uses_attempt (uses_perform (hg _))) fun r => ?_
  split
  · split
    · exact uses_bind (hm _) fun _ => uses_perform (h _ rfl)
    · exact uses_throw _
  · refine uses_bind (hm _) fun _ => ?_
    split
    · exact uses_perform (h _ rfl)
    · exact uses_ret _

theorem spares_of_writes (hk : k' ≠ k) (hw : c.writes = some k') : c.writes ≠ some k :=
  hw ▸ fun h => hk (Option.some.inj h)

theorem uses_reconcileGatewayVMConfig {lbConfig : GatewayLBConfiguration}
    (h : ∀ c, c.writes = some .vmConfig → ok c) (hg : ∀ key, ok (.get .vmConfig key)) :
    (LBController.reconcileGatewayVMConfig lbConfig).Uses ok :=
  uses_bind (uses_createOrPatch h hg fun _ => uses_ofExcept fun _ _ => uses_ret _) fun _ => uses_ret _

theorem spares_reconcileGatewayVMConfig {lbConfig : GatewayLBConfiguration} (hk : Kind.vmConfig ≠ k) :
    Spares k (LBController.reconcileGatewayVMConfig lbConfig) :=
  uses_reconcileGatewayVMConfig (fun _ => spares_of_writes hk) nofun

theorem spares_reconcileGatewayLBConfig {gwConfig : StaticGatewayConfiguration} (hk : Kind.lbConfig ≠ k) :
    Spares k (GwController.reconcileGatewayLBConfig gwConfig) :=
  uses_bind (uses_createOrPatch (fun _ => spares_of_writes hk) nofun fun _ => uses_ofExcept fun _ _ => uses_ret _)
    fun _ => uses_ret _

theorem spares_reconcileWireguardKey {gwConfig : StaticGatewayConfiguration} (hk : Kind.secret ≠ k) :
    Spares k (GwController.reconcileWireguardKey S gwConfig) := by
  refine uses_bind (uses_createOrUpdate (fun _ => spares_of_writes hk) nofun fun secret => ?_) fun _ => uses_ret _
  unfold GwController.provideKeys
  dsimp only
  split
  · exact uses_ret _
  · exact uses_bind (spares_request (.inl rfl)) fun _ => uses_ret _

theorem uses_ensureFinalizer {ok : Call → Prop} {finalizer : String} (h : ∀ o, ok (.update k' o)) :
    (ensureFinalizer k' finalizer o).Uses ok := by
  unfold ensureFinalizer
  split
  · exact uses_ret _
  · exact uses_perform (h _)

theorem uses_storeStatus {ok : Call → Prop} {existing : Obj k'} (h : ok (.updateStatus k' o)) :
    (storeStatus k' existing o).Uses ok :=
  uses_when (uses_bind (uses_attempt (uses_perform h)) fun _ => uses_ret _)

end Helpers

section Nodes

variable [CaseFold] {vmConfig : GatewayVMConfiguration}

open VMController

theorem ofNodes_reconcile : OfNodes (VMController.reconcile S vmConfig) := by
  refine uses_bind (uses_attempt (uses_bind ?_ fun r => ?_)) fun _ => uses_ret _
  · refine uses_bind (uses_ensureFinalizer fun _ => rfl) fun existing => ?_
    refine uses_bind plain_loadVMPool.ofNodes fun (pool, length) => ?_
    refine uses_bind plain_ensurePublicIPPrefix.ofNodes fun egress => uses_bind ofNodes_pool fun r => ?_
    exact uses_bind (uses_when plain_ensurePublicIPPrefixDeleted.ofNodes) fun _ => uses_ret _
  · exact uses_bind (uses_storeStatus rfl) fun _ => uses_ret _

theorem ofNodes_ensureDeleted : OfNodes (VMController.ensureDeleted S vmConfig) := by
  unfold ensureDeleted
  split
  · exact uses_ret _
  · refine uses_bind plain_loadVMPool.ofNodes fun (pool, length) => uses_bind ofNodes_pool fun r => ?_
    refine uses_bind plain_ensurePublicIPPrefixDeleted.ofNodes fun _ => ?_
    exact uses_bind (uses_perform rfl) fun _ => uses_ret _

theorem ofNodes_reconcileNode {name : String} : OfNodes (reconcileNode S name) := by
  refine uses_bind (uses_attempt (uses_perform rfl)) fun r => ?_
  split
  · split
    · exact uses_ret _
    · exact uses_throw _
  · refine uses_bind (uses_perform rfl) fun vmConfigs => uses_bind (uses_forFold fun errs _ _ => ?_) fun r => ?_
    · refine uses_bind ofNodes_reconcile fun o => ?_
      split <;> exact uses_ret _
    · split
      · exact uses_ret _
      · exact uses_throw _

-- The virtual machine controller only writes objects of its own kind.
theorem ofNodes_Reconcile {req : NamespacedName} : OfNodes (VMController.Reconcile S req) := by
  unfold VMController.Reconcile
  split
  · exact ofNodes_reconcileNode
  · refine uses_bind (uses_attempt (uses_perform rfl)) fun r => ?_
    split
    · split
      · exact uses_ret _
      · exact uses_throw _
    · refine uses_bind (uses_perform rfl) fun _ => ?_
      split
      · exact ofNodes_ensureDeleted
      · exact uses_bind ofNodes_reconcile fun o => uses_ofExcept fun _ _ => uses_ret _

end Nodes

-- `o` is what is stored under its key.
structure Holds (s : State) (k : Kind) (o : Obj k) : Prop where
  found   : Store.find (s.api.items k) (Store.key o) = some o
  stamped : (meta_ o).resourceVersion ≤ s.api.clock

theorem Holds.spared {o : Obj k} {s' : State} (h : Holds s k o) (hs : Spared k s s') : Holds s' k o :=
  ⟨hs.items ▸ h.found, Nat.le_trans h.stamped hs.clock⟩

theorem Holds.put {o o' : Obj k} (h : Store.find (s.api.items k) (Store.key o') = some o)
    (hv : (meta_ o').resourceVersion ≤ s.api.clock + 1) :
    Holds (s.store k (Store.put (s.api.items k) o')) k o' where
  found   := by rw [items_store_self, Store.find_put_self h]
  stamped := hv

variable [CaseFold] {P : Platform}

theorem returns_spares {α : Type} {p : M α} {Q : α → State → Prop} (hp : Spares k p)
    (h : Returns (world P S.az) p s Q) :
    Returns (world P S.az) p s fun a s' => Q a s' ∧ Spared k s s' :=
  h.frame hp Spared.refl Spared.trans fun _ _ hc => serve_spares hc

-- The stored object survives whatever does not concern objects of its kind.
theorem returns_keeping {α β : Type} {p : M α} {f : α → M β} {Q : β → State → Prop} {o : Obj k}
    (hp : Spares k p) (h : Holds s k o) (hf : ∀ a s', Holds s' k o → Returns (world P S.az) (f a) s' Q) :
    Returns (world P S.az) (p.bind f) s Q :=
  (returns_spares hp returns_any).bind fun a s' hs => hf a s' (h.spared hs.right)

-- An object that is there is found, unless the answer is lost.
theorem wp_get {o : Obj k} (h : Holds s k o) :
    wp (world P S.az) (.faults fun _ => True) (request (.get k (Store.key o))) (fun r s' => s' = s ∧
      (r = .ok o ∨ ∃ e, r = .error e ∧ e.isNotFound = false)) s := by
  have hserve : State.serve P S.az (.get k (Store.key o)) s = (.ok o, s) := by
    simp only [State.serve, h.found]
  refine wp_read (congrArg Prod.snd hserve) ⟨rfl, .inl (congrArg Prod.fst hserve)⟩ fun _ => ?_
  exact ⟨rfl, .inr ⟨_, rfl, rfl⟩⟩

theorem returns_observed {α : Type} {body : M (Except Err α)} {Q : α → State → Prop}
    (h : Returns (world P S.az) body s fun r s' => ∀ a, r = .ok a → Q a s') :
    Returns (world P S.az) (observed body) s fun r s' => ∀ a, r.result = .ok a → Q a s' := by
  refine (returns_attempt h).bind fun r s' hr => returns_ret fun a ha => ?_
  cases r
  case error   => nomatch ha
  case ok r    => exact hr r rfl a ha

theorem returns_storeStatus {existing o : Obj k} :
    Returns (world P S.az) (storeStatus k existing o) s fun _ s' => s'.cloud = s.cloud := by
  refine returns_when (fun _ => ?_) fun _ => rfl
  have hw : wp (world P S.az) (.faults fun _ => True) (request (.updateStatus k o))
      (fun _ s' => s'.cloud = s.cloud) s :=
    wp_perform_faults (serve_cloud nofun) (fun _ => rfl) fun _ => serve_cloud nofun
  exact (returns_attempt hw).bind fun _ _ hs => returns_ret hs

theorem returns_ensureFinalizer {finalizer : String} {o : Obj k} (h : Holds s k o) :
    Returns (world P S.az) (ensureFinalizer k finalizer o) s fun o' s' => Holds s' k o' := by
  unfold ensureFinalizer
  split
  case isTrue => exact returns_ret h
  case isFalse hf =>
    refine returns_perform fun o' ho => ?_
    simp only [world, State.serve, State.commit] at ho ⊢
    split at ho
    case h_1 => cases ho
    case h_2 o'' xs hw =>
      obtain rfl : o'' = o' := Except.ok.inj ho
      have hkey : Store.key (Resource.withMeta (addFinalizer (meta_ o) finalizer) o) = Store.key o := by
        simp [Store.key, addFinalizer, hf]
      obtain ⟨old, hfind, _, hv, hnew, hxs⟩ := Store.update_ok hw
      obtain rfl : old = o := by simpa [hkey, h.found] using hfind.symm
      have hfin : (meta_ (Resource.withMeta (addFinalizer (meta_ old) finalizer) old)).finalizers ≠ [] := by
        simp [addFinalizer, hf]
      obtain rfl := (hxs.resolve_left fun hd => hfin hd.right.left).right
      have hkey : Store.key o'' = Store.key old := by
        rw [hnew, Store.key_revise]
        simp [Store.key, addFinalizer, hf]
      exact .put (hkey ▸ h.found) (hnew ▸ Store.version_revise h.stamped)

end Manager
