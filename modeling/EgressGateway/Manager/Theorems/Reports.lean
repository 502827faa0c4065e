import EgressGateway.Manager.Theorems.AgentPoolVMs
import EgressGateway.Manager.Theorems.AgentPoolVMSS
import EgressGateway.Manager.Theorems.Allocation
import EgressGateway.Manager.Theorems.Client

-- What the outcome of a reconcile says about the object that it was meant to bring up to date.

open Kubernetes Azure Text Program

namespace Manager

-- The status of the stored object is the one that was computed.
def StatusStored (k : Kind) (computed : Obj k) (s : State) : Prop :=
  ∃ stored, Store.find (s.api.items k) (Store.key computed) = some stored ∧ SameStatus computed stored

-- A success is only returned if the status is stored, and exactly then the metric says so.
def Truthful (k : Kind) (o : Outcome Sig State (Observed (Obj k))) : Prop :=
  ∃ r, o.result = .ok r ∧
    (∀ computed, r.result = .ok computed → StatusStored k computed o.state) ∧
    (r.succeeded = true ↔ ∃ computed, r.result = .ok computed)

instance {k : Kind} {computed : Obj k} {s : State} : Decidable (StatusStored k computed s) :=
  match h : Store.find (s.api.items k) (Store.key computed) with
  | none        => isFalse fun ⟨_, hf, _⟩ => by simp [h] at hf
  | some stored => decidable_of_iff (Resource.withStatus computed stored = stored) (by
      simp [StatusStored, SameStatus, h])

instance {k : Kind} {o : Outcome Sig State (Observed (Obj k))} : Decidable (Truthful k o) :=
  match h : o.result with
  | .error _            => isFalse fun ⟨_, hr, _⟩ => by simp [h] at hr
  | .ok ⟨.error _, b⟩ => decidable_of_iff (b = false) (by simp [Truthful, h])
  | .ok ⟨.ok c, b⟩    => decidable_of_iff (StatusStored k c o.state ∧ b = true) (by simp [Truthful, h])

-- How things stand right before the final write: the computed object differs from the stored one at
-- most by its status, and if nothing has changed then not even by that.
def Stands (k : Kind) (r : Obj k × Obj k) (s : State) : Prop :=
  ∃ stored, Holds s k stored ∧ meta_ r.2 = meta_ stored ∧ (r.1 = r.2 → SameStatus r.2 stored)

variable [CaseFold] {P : Platform} {S : Settings} {s : State} {k : Kind} {φ : Oracle Sig}

-- The final write fails without a trace, although it would have changed the status.
def LosesStatus (P : Platform) (S : Settings) (k : Kind) (φ : Oracle Sig) (compute : M (Obj k × Obj k))
    (s : State) : Prop :=
  let o := run (world P S.az) φ 0 compute s
  ∃ r, o.result = .ok r ∧ φ o.log.length (.updateStatus k r.2) = .lost ∧ ¬StatusStored k r.2 o.state

theorem run_observed {α : Type} (body : M (Except Err α)) :
    run (world P S.az) φ 0 (observed body) s =
      { run (world P S.az) φ 0 body s with result := .ok (.of (run (world P S.az) φ 0 body s).result) } := by
  have he : observed body = (attempt body).bind fun r => ret (.of r) := rfl
  rw [he, run_bind, run_attempt]
  simp [Outcome.andThen, run]

omit [CaseFold] in
theorem Stands.key_eq {r : Obj k × Obj k} {stored : Obj k} (h : meta_ r.2 = meta_ stored) :
    Store.key stored = Store.key r.2 :=
  congrArg ObjectMeta.key h.symm

-- A write that reaches the API server is accepted there.
theorem Stands.write {r : Obj k × Obj k} (h : Stands k r s) :
    StatusStored k r.2 (State.serve P S.az (.updateStatus k r.2) s).2 := by
  have ⟨stored, hs, hm, _⟩ := h
  have hk := Stands.key_eq hm
  have hf := hk ▸ hs.found
  have he : Store.updateStatus s.api.clock _ r.2 = _ := Store.updateStatus_eq hf (by rw [hm]) (by rw [hm])
  refine ⟨Store.revise s.api.clock stored (Resource.withStatus r.2 stored), ?_, ?_⟩
  case refine_1 =>
    have hkey : Store.key (Store.revise s.api.clock stored (Resource.withStatus r.2 stored)) = Store.key r.2 := by
      rw [Store.key_revise, ← hk]
      simp [Store.key]
    simp only [State.serve, State.commit, he, items_store_self]
    rw [← hkey]
    exact Store.find_put_self (hkey ▸ hf)
  case refine_2 => exact Store.sameStatus_revise (LawfulResource.withStatus_idem _ _ _)

omit [CaseFold] in
theorem Stands.unchanged {r : Obj k × Obj k} (h : Stands k r s) (he : r.1 = r.2) : StatusStored k r.2 s := by
  have ⟨stored, hs, hm, hsame⟩ := h
  exact ⟨stored, Stands.key_eq hm ▸ hs.found, hsame he⟩

-- The status is stored at the end unless a write that was needed for that has been lost.
theorem Stands.stored_iff {r : Obj k × Obj k} (h : Stands k r s) (f : Fault) :
    StatusStored k r.2
      (if r.1 = r.2 then s else ((world P S.az).answer f (.updateStatus k r.2) s).2) ↔
    ¬(f = .lost ∧ ¬StatusStored k r.2 s) := by
  by_cases he : r.1 = r.2
  case pos => simp [he, h.unchanged he]
  case neg =>
    rw [if_neg he]
    cases f
    case lost           => simp
    case none | applied => exact iff_of_true (h.write (P := P) (S := S)) (by simp)

-- The end of both controllers that write their status in one go.
def settle (k : Kind) (compute : M (Obj k × Obj k)) : M (Except Err (Obj k)) :=
  compute.bind fun r => (storeStatus k r.1 r.2).bind fun _ => ret (.ok r.2)

-- Whatever becomes of the write, the end is reached.
theorem run_storeStatus (n : Nat) (existing o : Obj k) :
    (run (world P S.az) φ n (storeStatus k existing o) s).result = .ok () ∧
    (run (world P S.az) φ n (storeStatus k existing o) s).state =
      if existing = o then s else ((world P S.az).answer (φ n (.updateStatus k o)) (.updateStatus k o) s).2 := by
  unfold storeStatus
  by_cases h : existing = o
  case pos => simp [h, when, run]
  case neg =>
    have he : (when (decide (existing ≠ o)) (do
        let _ ← attempt (request (.updateStatus k o))
        ret ()) : M Unit) =
        ((request (.updateStatus k o)).attempt).bind fun _ => ret () := by simp [h, when]
    rw [he, run_bind, run_attempt, if_neg h]
    cases hf : (world P S.az).answer (φ n (.updateStatus k o)) (.updateStatus k o) s with
    | mk r s' => cases r <;> simp [Outcome.andThen, run, perform, hf]

theorem truthful_settle_iff {compute : M (Obj k × Obj k)} (h : Returns (world P S.az) compute s (Stands k)) :
    Truthful k (run (world P S.az) φ 0 (observed (settle k compute)) s) ↔
    ¬LosesStatus P S k φ compute s := by
  rw [run_observed, settle, run_bind, LosesStatus]
  have hs := fun r => h.outcome (φ := φ) (n := 0) (a := r) rfl
  generalize run (world P S.az) φ 0 compute s = o at hs
  cases ho : o.result
  case error e =>
    rw [Outcome.andThen_error ho]
    simp [Truthful, Observed.of]
  case ok r =>
    have ⟨hres, hstate⟩ := run_storeStatus (P := P) (S := S) (φ := φ) (s := o.state) (0 + o.log.length) r.1 r.2
    rw [Outcome.andThen_ok ho, run_bind, Outcome.andThen_ok hres, hstate, Nat.zero_add]
    have hiff := (hs r ho).stored_iff (P := P) (S := S) (φ o.log.length (.updateStatus k r.2))
    simpa [Truthful, Observed.of, run, LosesStatus] using hiff

omit [CaseFold] in
theorem LBController.meta_collectVMStatus (vmConfig : GatewayVMConfiguration) (lbConfig : GatewayLBConfiguration) :
    (collectVMStatus vmConfig lbConfig).meta_ = lbConfig.meta_ := by
  unfold collectVMStatus
  split <;> rfl

theorem LBController.returns_compute {lbConfig : GatewayLBConfiguration} (h : Holds s .lbConfig lbConfig) :
    Returns (world P S.az) (compute S lbConfig) s (Stands .lbConfig) := by
  refine (returns_ensureFinalizer h).bind fun existing s₁ h₁ => ?_
  refine returns_keeping cloudOnly_reconcileLBRule.spares h₁ fun frontend s₂ h₂ => ?_
  have hmeta : Returns (world P S.az) (reconcileGatewayVMConfig existing) s₂ fun lbConfig _ =>
      lbConfig.meta_ = existing.meta_ :=
    returns_skip fun _ _ => returns_ret (meta_collectVMStatus ..)
  refine (returns_spares (spares_reconcileGatewayVMConfig (k := .lbConfig) (by decide)) hmeta).bind ?_
  rintro lbConfig s₃ ⟨hm, hs⟩
  refine returns_ret ⟨existing, h₂.spared hs, hm, fun he => ?_⟩
  exact congrArg (Resource.withStatus · existing) he.symm

-- The object after a pool has been reconciled: if it is not the one from the beginning any more, then
-- its version tells.
def Follows (existing : GatewayVMConfiguration) (r : List String × GatewayVMConfiguration) (s : State) : Prop :=
  ∃ stored, Holds s .vmConfig stored ∧ r.2.meta_ = stored.meta_ ∧
    (stored.meta_ = existing.meta_ → stored = existing)

theorem returns_reconcileVMSSVM {vmConfig : GatewayVMConfiguration} {name : String} {vm : ScaleSetVM}
    {prefixID pool : String} {want : Bool} :
    Returns (world P S.az) (reconcileVMSSVM vmConfig name vm prefixID pool want) s fun r _ =>
      r.2.meta_ = vmConfig.meta_ := by
  unfold reconcileVMSSVM
  dsimp only
  split
  · exact returns_throw
  · exact returns_throw
  · refine returns_skip fun ips _ => returns_skip fun (nics, need) _ => returns_skip fun _ _ => ?_
    split
    · exact returns_ret rfl
    · refine returns_skip fun (primaryIP, secondaryIP) _ => ?_
      dsimp only
      split
      · exact returns_throw
      · exact returns_ret rfl

omit [CaseFold] in
theorem Holds.follows_updateStatus {vmConfig o : GatewayVMConfiguration} {xs : List GatewayVMConfiguration}
    {existing : GatewayVMConfiguration} (h : Holds s .vmConfig existing)
    (hm : vmConfig.meta_ = existing.meta_) {ips : List String}
    (hw : Store.updateStatus s.api.clock (s.api.items .vmConfig) vmConfig = .ok (o, xs)) :
    Follows existing (ips, o) (s.store .vmConfig xs) := by
  have ⟨stored, hf, _, ho, hxs⟩ := Store.updateStatus_ok hw
  have hkey : Store.key vmConfig = Store.key existing := congrArg ObjectMeta.key hm
  obtain rfl : stored = existing := by
    rw [hkey] at hf
    exact Option.some.inj (hf.symm.trans h.found)
  have hkey' : Store.key o = Store.key stored := by
    rw [ho, Store.key_revise]
    rfl
  subst hxs
  refine ⟨o, .put (hkey' ▸ h.found) (ho ▸ Store.version_revise h.stamped), rfl, fun he => ?_⟩
  have ⟨v, hv, hc⟩ := Store.revise_eq s.api.clock stored (Resource.withStatus vmConfig stored)
  rcases hc with ⟨_, hc⟩ | rfl
  · exact ho.trans hc
  · have hver : stored.meta_.resourceVersion = s.api.clock + 1 := by
      rw [← he, ho, hv]
      rfl
    exact absurd (hver ▸ h.stamped) (Nat.not_succ_le_self _)

theorem returns_reconcileVMSS {vmConfig : GatewayVMConfiguration} {vmss : VirtualMachineScaleSet}
    {prefixID : String} {want : Bool} (h : Holds s .vmConfig vmConfig) :
    Returns (world P S.az) (reconcileVMSS S vmConfig vmss prefixID want) s (Follows vmConfig) := by
  unfold reconcileVMSS
  dsimp only
  split
  case h_1 => exact returns_throw
  case h_2 interfaces _ =>
    refine returns_keeping ?_ h fun (interfaces, need) s₁ h₁ => ?_
    · cases reconcileVMSSNetworkInterface (managedSubresourceName vmConfig) prefixID _ want interfaces <;> trivial
    refine returns_keeping (uses_when (uses_mapError (uses_guarded (by simp [Call.writes])))) h₁ fun _ s₂ h₂ => ?_
    refine returns_keeping (uses_mapError (uses_guarded (by simp [Call.writes]))) h₂ fun instances s₃ h₃ => ?_
    let J (acc : List String × GatewayVMConfiguration) (_ : List ScaleSetVM) (s' : State) : Prop :=
      acc.2.meta_ = vmConfig.meta_ ∧ Holds s' .vmConfig vmConfig
    refine (returns_forFold (J := J) [] ⟨rfl, h₃⟩ ?_).bind ?_
    case refine_1 =>
      rintro ⟨ips, vc⟩ _ vm _ s₄ ⟨hm, h₄⟩
      refine (returns_spares (k := .vmConfig) plain_reconcileVMSSVM.spares returns_reconcileVMSSVM).bind ?_
      rintro ⟨ip, vc'⟩ s₅ ⟨hm', hs⟩
      exact returns_ret ⟨hm'.trans hm, h₄.spared hs⟩
    case refine_2 =>
      rintro ⟨ips, vc⟩ s₄ ⟨hm, h₄⟩
      refine (Returns.mapError (returns_perform fun o ho => ?_)).bind fun o s₅ h₅ => returns_ret h₅
      simp only [world, State.serve, State.commit] at ho ⊢
      split at ho
      case h_1 => cases ho
      case h_2 hw =>
        cases ho
        exact h₄.follows_updateStatus (show (pruneProfiles instances vc).meta_ = _ from hm) hw

theorem returns_reconcilePool {pool : GatewayPool} {vmConfig : GatewayVMConfiguration} {prefixID : String}
    {want : Bool} (h : Holds s .vmConfig vmConfig) :
    Returns (world P S.az) (pool.reconcile S vmConfig prefixID want) s (Follows vmConfig) := by
  cases pool
  case vmss v => exact returns_reconcileVMSS h
  case vms name =>
    refine returns_reconcileVMs_api.mono ?_
    rintro ⟨ips, vc⟩ s' ⟨hm, ha⟩
    exact ⟨vmConfig, h.spared ⟨by rw [ha], Nat.le_of_eq (congrArg ApiServer.clock ha.symm)⟩, hm, fun _ => rfl⟩

theorem VMController.returns_compute {vmConfig : GatewayVMConfiguration} (h : Holds s .vmConfig vmConfig) :
    Returns (world P S.az) (compute S vmConfig) s (Stands .vmConfig) := by
  refine (returns_ensureFinalizer h).bind fun existing s₁ h₁ => ?_
  refine returns_keeping plain_loadVMPool.spares h₁ fun (pool, length) s₂ h₂ => ?_
  refine returns_keeping plain_ensurePublicIPPrefix.spares h₂ fun egress s₃ h₃ => ?_
  refine (returns_reconcilePool h₃).bind ?_
  rintro ⟨ips, vmConfig⟩ s₄ ⟨stored, h₄, hm, hsame⟩
  refine returns_keeping (uses_when plain_ensurePublicIPPrefixDeleted.spares) h₄ fun _ s₅ h₅ => ?_
  refine returns_ret ⟨stored, h₅, hm, fun he => ?_⟩
  have hmeta : existing.meta_ = (withEgressIpPrefix vmConfig egress ips).meta_ :=
    congrArg GatewayVMConfiguration.meta_ he
  obtain rfl := hsame (hm.symm.trans hmeta.symm)
  exact congrArg (Resource.withStatus · stored) he.symm

namespace GwController

variable {gwConfig gwConfig' : StaticGatewayConfiguration}

omit [CaseFold] in
theorem withStatus_withKeys (secret : Secret) :
    Resource.withStatus gwConfig (withKeys gwConfig secret) = gwConfig := by
  unfold withKeys
  split <;> rfl

omit [CaseFold] in
theorem withStatus_collectLBStatus (lbConfig : GatewayLBConfiguration) :
    Resource.withStatus gwConfig (collectLBStatus lbConfig gwConfig') =
      Resource.withStatus gwConfig gwConfig' := by
  unfold collectLBStatus
  split <;> rfl

-- Only the status of the object is changed.
theorem returns_mutate (h : Holds s .gwConfig gwConfig) :
    Returns (world P S.az) (mutate S gwConfig) s fun gwConfig' s' =>
      Resource.withStatus gwConfig gwConfig' = gwConfig ∧ Holds s' .gwConfig gwConfig := by
  have hkey : Returns (world P S.az) (reconcileWireguardKey S gwConfig) s fun g _ =>
      Resource.withStatus gwConfig g = gwConfig :=
    returns_skip fun secret _ => returns_ret (withStatus_withKeys secret)
  refine (returns_spares (spares_reconcileWireguardKey (k := .gwConfig) (by decide)) hkey).bind ?_
  rintro g s₁ ⟨hg, hs⟩
  have hlb : Returns (world P S.az) (reconcileGatewayLBConfig g) s₁ fun g' _ =>
      Resource.withStatus gwConfig g' = gwConfig :=
    returns_skip fun _ _ => returns_ret ((withStatus_collectLBStatus _).trans hg)
  refine (returns_spares (spares_reconcileGatewayLBConfig (k := .gwConfig) (by decide)) hlb).mono ?_
  rintro g' s₂ ⟨hg', hs'⟩
  exact ⟨hg', (h.spared hs).spared hs'⟩

theorem returns_patchChanges (h : Holds s .gwConfig gwConfig)
    (ha : Resource.withStatus gwConfig gwConfig' = gwConfig) :
    Returns (world P S.az) (patchChanges .gwConfig gwConfig gwConfig') s fun _ s' =>
      StatusStored .gwConfig gwConfig' s' := by
  unfold patchChanges
  rw [if_neg (not_not.mpr ha)]
  have hkey : Store.key gwConfig' = Store.key gwConfig := by
    rw [← congrArg Store.key ha]
    rfl
  split
  case isFalse he =>
    obtain rfl := not_not.mp he
    exact returns_ret ⟨gwConfig', h.found, rfl⟩
  case isTrue =>
    refine returns_perform fun o ho => ?_
    simp only [world, State.serve, State.commit] at ho ⊢
    split at ho
    case h_1 => cases ho
    case h_2 hw =>
      cases ho
      obtain ⟨stored, hf, hnew, hxs⟩ := Store.patchStatus_ok hw
      obtain rfl : stored = gwConfig := by
        rw [hkey] at hf
        exact Option.some.inj (hf.symm.trans h.found)
      subst hxs
      rw [LawfulResource.mergeStatus_self] at hnew
      have hkey' : Store.key o = Store.key gwConfig' := by
        rw [hnew, Store.key_revise, hkey]
        rfl
      refine ⟨o, ?_, hnew ▸ Store.sameStatus_revise rfl⟩
      rw [items_store_self, ← hkey']
      exact Store.find_put_self (hkey'.symm ▸ hf)

-- `CreateOrPatch` stores what the computation has made of the object.
theorem returns_publish (h : Holds s .gwConfig gwConfig) :
    Returns (world P S.az) (publish S gwConfig) s fun r s' => StatusStored .gwConfig r.1 s' := by
  refine (returns_attempt (wp_get h)).bind ?_
  rintro r s' ⟨rfl, rfl | ⟨e, rfl, he⟩⟩
  · refine (returns_mutate h).bind ?_
    rintro computed s₁ ⟨ha, h₁⟩
    exact (returns_patchChanges h₁ ha).bind fun _ _ hs => returns_ret hs
  · dsimp only
    rw [he]
    exact returns_throw

theorem returns_prepare (h : Holds s .gwConfig gwConfig) :
    Returns (world P S.az) (prepare gwConfig) s fun g s' => Holds s' .gwConfig g :=
  returns_ofExcept fun _ _ => returns_ensureFinalizer h

-- The call to `CreateOrPatch` is reached, and fails.
def FailsLate (P : Platform) (S : Settings) (φ : Oracle Sig) (gwConfig : StaticGatewayConfiguration)
    (s : State) : Prop :=
  let o := run (world P S.az) φ 0 (prepare gwConfig) s
  ∃ prepared, o.result = .ok prepared ∧
    ∃ e, (run (world P S.az) φ o.log.length (publish S prepared) o.state).result = .error e

theorem truthful_iff (h : Holds s .gwConfig gwConfig) :
    Truthful .gwConfig (run (world P S.az) φ 0 (reconcile S gwConfig) s) ↔ ¬FailsLate P S φ gwConfig s := by
  have he : reconcile S gwConfig = observed ((prepare gwConfig).bind fun g =>
      (publish S g).attempt.bind fun r => ret (r.map (·.1))) := rfl
  rw [he, run_observed, run_bind, FailsLate]
  have hp := fun g => (returns_prepare (P := P) (S := S) h).outcome (φ := φ) (n := 0) (a := g) rfl
  generalize run (world P S.az) φ 0 (prepare gwConfig) s = o at hp
  cases ho : o.result
  case error e =>
    rw [Outcome.andThen_error ho]
    simp [Truthful, Observed.of]
  case ok g =>
    rw [Outcome.andThen_ok ho, run_bind, run_attempt, Outcome.andThen_ok rfl, Nat.zero_add]
    simp only [Except.ok.injEq, exists_eq_left']
    have hs := fun r => (returns_publish (P := P) (S := S) (hp g ho)).outcome (φ := φ)
      (n := o.log.length) (a := r) rfl
    generalize run (world P S.az) φ o.log.length (publish S g) o.state = o' at hs
    cases hr : o'.result
    case error e => simp [Truthful, Observed.of, run, Except.map]
    case ok r    => simpa [Truthful, Observed.of, run, Except.map, hr] using hs r hr

end GwController

end Manager

namespace Manager

namespace Sample

def gwConfig (uid nodepool : String) : StaticGatewayConfiguration where
  meta_ := { key := ⟨"default", uid⟩, uid := uid }
  spec  := { gatewayNodepoolName := nodepool }

-- The three objects of one gateway on a pool of virtual machines.
def gateway : State where
  cloud := { virtualMachines := [virtualMachine "gw"], subnet := some ⟨some "subnet"⟩ }
  api   := { items := fun
    | .gwConfig => [gwConfig "a" "gw"]
    | .lbConfig => [lbConfig "a" "gw"]
    | .vmConfig => [vmConfig "a" "gw"]
    | .secret   => [] }

def losing : Oracle Sig
  | _, .updateStatus .. | _, .create .. => .lost
  | _, _ => .none

end Sample

end Manager
