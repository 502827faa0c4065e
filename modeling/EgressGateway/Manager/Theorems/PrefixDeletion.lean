import EgressGateway.Manager.System

-- The deletion of a managed prefix in a subscription with several resource groups: the addresses that
-- are taken from the prefix are known by their IDs, but they are deleted by their names.

open Kubernetes Azure Text Program

namespace Manager

structure Address where
  resourceGroup : String
  name          : String
  id            : String
  -- Whether the address is taken from the managed prefix.
  attached      : Bool
  deriving DecidableEq

structure Estate where
  addresses : List Address
  -- Whether the managed prefix exists.
  prefixed  : Bool

-- How Azure shows the addresses of a prefix: possibly with entries that have no ID, and possibly
-- without any properties if there are no addresses.
structure Listing where
  render     : List String → Option (List (Option SubResource))
  render_ids : ∀ ids, ((render ids).elim [] fun xs => xs.filterMap (·.bind (·.id))) = ids

variable [CaseFold]

namespace Address

def isAt (rg name : String) (a : Address) : Bool :=
  equalFold a.resourceGroup rg && equalFold a.name name

end Address

namespace Estate

variable (az : CloudConfig) (L : Listing) (name : String)

def attachedIDs (e : Estate) : List String :=
  (e.addresses.filter (·.attached)).map (·.id)

-- Azure does not delete a prefix with addresses.
def serve : (c : Call) → Estate → Except Err (Reply c) × Estate
  | .getPublicIPPrefix rg nm, e =>
    if e.prefixed && equalFold nm name then
      (.ok {
        resourceGroup := az.orDefault rg
        name          := name
        id            := none
        properties    := (L.render e.attachedIDs).map fun xs =>
          { prefixLength := none, ipPrefix := none, publicIPAddresses := xs } }, e)
    else (.error (Call.missing "public ip prefix"), e)
  | .deletePublicIP rg nm, e =>
    if e.addresses.any (·.isAt (az.orDefault rg) nm) then
      (.ok (), { e with addresses := e.addresses.filter (!·.isAt (az.orDefault rg) nm) })
    else (.error (Call.missing "public ip"), e)
  | .deletePublicIPPrefix _ nm, e =>
    if !equalFold nm name then (.ok (), e)
    else if e.addresses.any (·.attached) then (.error (Err.errorf "InUsePublicIpPrefixCannotBeDeleted"), e)
    else (.ok (), { e with prefixed := false })
  | _, e => (.error (Err.errorf "not supported"), e)

def world : World Sig Estate where
  exec   := serve az L name
  outage := Err.errorf "the service is not available"

-- An ID is parsed to the name of its resource, and a resource group has at most one address of a name.
structure WellFormed (S : Settings) (e : Estate) : Prop where
  parses : ∀ a ∈ e.addresses, S.resourceName a.id = some a.name
  named  : ∀ a ∈ e.addresses, a.name ≠ ""
  unique : ∀ a ∈ e.addresses, ∀ b ∈ e.addresses, b.isAt a.resourceGroup a.name = true → b = a

-- The addresses of the prefix are in the resource group in which the controller deletes them.
def Local (S : Settings) (e : Estate) : Prop :=
  ∀ a ∈ e.addresses, a.attached = true → equalFold a.resourceGroup (S.az.orDefault "") = true

def Released (e : Estate) : Prop :=
  ∀ a ∈ e.addresses, a.attached = false

-- Some of the addresses of the prefix are deleted, and nothing else.
def Shrinks (e e' : Estate) : Prop :=
  e'.addresses ⊆ e.addresses ∧ ∀ a ∈ e.addresses, a ∉ e'.addresses → a.attached = true

end Estate

open Estate

-- One call of the function.
def deletion (S : Settings) (L : Listing) (vmConfig : GatewayVMConfiguration) (φ : Oracle Sig) (n : Nat)
    (e : Estate) : Outcome Sig Estate Unit :=
  run (Estate.world S.az L (managedSubresourceName vmConfig)) φ n
    (VMController.ensurePublicIPPrefixDeleted S vmConfig) e

-- The states that failed calls of the function lead to.
inductive Tries (S : Settings) (L : Listing) (vmConfig : GatewayVMConfiguration) (e₀ : Estate) : Estate → Prop
  | init : Tries S L vmConfig e₀ e₀
  | again {e : Estate} (h : Tries S L vmConfig e₀ e) (φ : Oracle Sig) (n : Nat)
      (failed : (deletion S L vmConfig φ n e).result.isOk = false) :
      Tries S L vmConfig e₀ (deletion S L vmConfig φ n e).state

def isPrefixDeletion : Call → Bool
  | .deletePublicIPPrefix .. => true
  | _                        => false

-- What a call of the function should do to the prefix and its addresses.
structure DeletesPrefix (S : Settings) (L : Listing) (vmConfig : GatewayVMConfiguration) (e : Estate) : Prop where
  last    : ∀ φ n, ∀ i ∈ (deletion S L vmConfig φ n e).log, isPrefixDeletion i.call = true → i.before.Released
  only    : ∀ φ n, e.Shrinks (deletion S L vmConfig φ n e).state
  -- If an error of the deletion itself means that the prefix has not been deleted, then so does any other.
  kept    : ∀ φ n, (∀ i ∈ (deletion S L vmConfig φ n e).log, isPrefixDeletion i.call = true → i.fault ≠ .applied) →
    e.prefixed = true → (deletion S L vmConfig φ n e).result.isOk = false →
    (deletion S L vmConfig φ n e).state.prefixed = true
  success : ∀ n, (deletion S L vmConfig .calm n e).result = .ok () ∧
    (deletion S L vmConfig .calm n e).state.prefixed = false ∧ (deletion S L vmConfig .calm n e).state.Released

section Estate

variable {S : Settings} {L : Listing} {vmConfig : GatewayVMConfiguration} {e e' e'' : Estate} {name : String}

omit [CaseFold] in
theorem Estate.Shrinks.refl : e.Shrinks e :=
  ⟨List.Subset.refl _, fun _ ha hn => absurd ha hn⟩

omit [CaseFold] in
theorem Estate.Shrinks.trans (h : e.Shrinks e') (h' : e'.Shrinks e'') : e.Shrinks e'' := by
  refine ⟨List.Subset.trans h'.left h.left, fun a ha hn => ?_⟩
  by_cases ha' : a ∈ e'.addresses
  · exact h'.right a ha' hn
  · exact h.right a ha ha'

theorem Estate.WellFormed.mono (h : e.WellFormed S) (hs : e'.addresses ⊆ e.addresses) : e'.WellFormed S where
  parses a ha      := h.parses a (hs ha)
  named a ha       := h.named a (hs ha)
  unique a ha b hb := h.unique a (hs ha) b (hs hb)

theorem Estate.Local.mono (h : e.Local S) (hs : e'.addresses ⊆ e.addresses) : e'.Local S :=
  fun a ha => h a (hs ha)

theorem Estate.Local.isAt {a : Address} (h : e.Local S) (ha : a ∈ e.addresses) (hat : a.attached = true) :
    a.isAt (S.az.orDefault "") a.name = true := by
  rw [Address.isAt, h a ha hat, equalFold_refl]
  rfl

omit [CaseFold] in
theorem mem_attachedIDs {id : String} :
    id ∈ e.attachedIDs ↔ ∃ a ∈ e.addresses, a.attached = true ∧ a.id = id := by
  simp [attachedIDs, and_assoc]

-- The state once the address with the given name is deleted.
def Estate.without (S : Settings) (e : Estate) (name : String) : Estate :=
  { e with addresses := e.addresses.filter (!·.isAt (S.az.orDefault "") name) }

-- The address of an attached ID is the only one that the name of the ID stands for.
theorem Estate.shrinks_without {a : Address} (hw : e.WellFormed S) (hl : e.Local S) (ha : a ∈ e.addresses)
    (hat : a.attached = true) (hs : e.Shrinks e') : e'.Shrinks (e'.without S a.name) := by
  refine ⟨List.filter_subset_self _, fun b hb hn => ?_⟩
  have hba : b.isAt (S.az.orDefault "") a.name = true := by
    simpa [without, hb] using hn
  have hrg : equalFold b.resourceGroup a.resourceGroup = true := by
    rw [Address.isAt, Bool.and_eq_true] at hba
    exact equalFold_iff.mpr <| (equalFold_iff.mp hba.left).trans (equalFold_iff.mp (hl a ha hat)).symm
  rw [Address.isAt, Bool.and_eq_true] at hba
  have hb' : b = a := hw.unique a ha b (hs.left hb) (by rw [Address.isAt, hrg, hba.right]; rfl)
  rw [hb', hat]

-- The rules for the function: whether the deletion of the prefix may be carried out without an answer, and
-- that it is only issued once the addresses are gone.
abbrev owing (A : Fault → Prop) (H : Prop) : Contract Sig Estate where
  allow c _ f := A f ∧ (H → isPrefixDeletion c = true → f ≠ .applied)
  owe c e     := isPrefixDeletion c = true → e.Released

variable {A : Fault → Prop} {H : Prop}

theorem wp_request_owing {c : Call} {Q : Except Err (Reply c) → Estate → Prop} (hc : isPrefixDeletion c = false)
    (served : Q (Estate.serve S.az L name c e).1 (Estate.serve S.az L name c e).2)
    (failed : Disturbed A → ∀ e' ∈ [e, (Estate.serve S.az L name c e).2],
      Q (.error (Estate.world S.az L name).outage) e') :
    wp (Estate.world S.az L name) (owing A H) (request c) Q e := by
  refine wp_perform.mpr ⟨fun h => absurd (hc.symm.trans h) nofun, fun f ⟨hf, _⟩ => ?_⟩
  cases f
  case none    => exact served
  case lost    => exact failed ⟨_, by decide, hf⟩ _ (by simp)
  case applied => exact failed ⟨_, by decide, hf⟩ _ (by simp [Estate.world])

-- One of the addresses is gone if the iteration completes.
theorem wp_releasePublicIP {x : Option SubResource} (hw : e.WellFormed S) (hl : e.Local S) (hs : e.Shrinks e')
    (hx : ∀ id ∈ x.bind (·.id), id ∈ e.attachedIDs) :
    wp (Estate.world S.az L name) (owing A H) (VMController.releasePublicIP S x) (fun r e'' =>
      e'.Shrinks e'' ∧ e''.prefixed = e'.prefixed ∧
      (r = .ok () → ∀ id ∈ x.bind (·.id), id ∉ e''.attachedIDs) ∧
      ∀ err, r = .error err → Disturbed A) e' := by
  unfold VMController.releasePublicIP
  split
  case h_1 hn => exact ⟨.refl, rfl, fun _ => by simp [hn], nofun⟩
  case h_2 pipID hid =>
    obtain ⟨a, ha, hat, rfl⟩ := mem_attachedIDs.mp (hx pipID hid)
    have hsub := Estate.shrinks_without hw hl ha hat hs
    -- Another address with this ID would have the same name.
    have hgone : ∀ id ∈ x.bind (·.id), id ∉ (e'.without S a.name).attachedIDs := by
      intro id hid' hmem
      obtain rfl := Option.some.inj (hid.symm.trans hid')
      obtain ⟨b, hb, hbt, hba⟩ := mem_attachedIDs.mp hmem
      have hb' := hs.left (hsub.left hb)
      have hname : b.name = a.name :=
        Option.some.inj ((hw.parses b hb').symm.trans (hba ▸ hw.parses a ha))
      have hfilter := (List.mem_filter.mp hb).right
      rw [← hname, hl.isAt hb' hbt] at hfilter
      nomatch hfilter
    rw [hw.parses a ha]
    have hguard : VMController.deletePublicIP a.name = request (.deletePublicIP "" a.name) := by
      simp [VMController.deletePublicIP, guarded, hw.named a ha]
    refine wp_bind.mpr (wp_attempt.mpr ?_)
    rw [hguard]
    refine wp_request_owing rfl ?_ fun hd e'' he => ?_
    case refine_1 =>
      simp only [Estate.serve]
      split
      case isTrue  => exact ⟨hsub, rfl, fun _ => hgone, nofun⟩
      case isFalse hn =>
        have hsame : e'.without S a.name = e' := by
          have hfilter : e'.addresses.filter (!·.isAt (S.az.orDefault "") a.name) = e'.addresses :=
            List.filter_eq_self.mpr fun b hb => by simpa using fun hat => hn (List.any_eq_true.mpr ⟨b, hb, hat⟩)
          rw [Estate.without, hfilter]
        exact ⟨.refl, rfl, fun _ => hsame ▸ hgone, nofun⟩
    case refine_2 =>
      refine ⟨?_, ?_, nofun, fun _ _ => hd⟩
      all_goals
        rcases List.mem_pair.mp he with rfl | rfl
        · first | exact .refl | rfl
        · simp only [Estate.serve]
          split <;> first | exact hsub | exact .refl | rfl

theorem wp_getManagedPrefix (he : e.prefixed = true) :
    wp (Estate.world S.az L (managedSubresourceName vmConfig)) (owing A H)
      (VMController.getPublicIPPrefix "" (managedSubresourceName vmConfig)) (fun r e' => e' = e ∧
        ((∃ found, r = .ok found ∧
          (found.properties.elim [] (·.publicIPAddresses)).filterMap (·.bind (·.id)) = e.attachedIDs) ∨
        ∃ err, r = .error err ∧ err.isNotFound = false ∧ Disturbed A)) e := by
  have hguard : VMController.getPublicIPPrefix "" (managedSubresourceName vmConfig) =
      request (.getPublicIPPrefix "" (managedSubresourceName vmConfig)) := by
    simp [VMController.getPublicIPPrefix, guarded, managedSubresourceName, managedResourcePrefix]
  have hserve : Estate.serve S.az L (managedSubresourceName vmConfig)
      (.getPublicIPPrefix "" (managedSubresourceName vmConfig)) e =
      (.ok {
        resourceGroup := S.az.orDefault ""
        name          := managedSubresourceName vmConfig
        id            := none
        properties    := (L.render e.attachedIDs).map fun xs =>
          { prefixLength := none, ipPrefix := none, publicIPAddresses := xs } }, e) := by
    simp [Estate.serve, he, equalFold_refl]
  rw [hguard]
  refine wp_request_owing rfl ?_ fun hd e' he' => ?_
  case refine_1 =>
    rw [hserve]
    refine ⟨rfl, .inl ⟨_, rfl, ?_⟩⟩
    refine Eq.trans ?_ (L.render_ids e.attachedIDs)
    cases L.render e.attachedIDs <;> rfl
  case refine_2 =>
    rw [hserve] at he'
    exact ⟨by simpa using he', .inr ⟨_, rfl, rfl, hd⟩⟩

theorem wp_deleteManagedPrefix (he : e.prefixed = true) (hr : e.Released) :
    wp (Estate.world S.az L (managedSubresourceName vmConfig)) (owing A H)
      (VMController.deletePublicIPPrefix (managedSubresourceName vmConfig)) (fun r e' =>
        e'.addresses = e.addresses ∧ (r = .ok () → e'.prefixed = false) ∧
        ∀ err, r = .error err → Disturbed A ∧ (e'.prefixed = true ∨ ¬H)) e := by
  have hguard : VMController.deletePublicIPPrefix (managedSubresourceName vmConfig) =
      request (.deletePublicIPPrefix "" (managedSubresourceName vmConfig)) := by
    simp [VMController.deletePublicIPPrefix, guarded, managedSubresourceName, managedResourcePrefix]
  have hexec : (Estate.world S.az L (managedSubresourceName vmConfig)).exec
      (.deletePublicIPPrefix "" (managedSubresourceName vmConfig)) e = (.ok (), { e with prefixed := false }) := by
    have hany : e.addresses.any (·.attached) = false :=
      List.any_eq_false.mpr fun a ha => by simp [hr a ha]
    simp [Estate.world, Estate.serve, equalFold_refl, hany]
  rw [hguard]
  refine wp_perform.mpr ⟨fun _ => hr, fun f ⟨hf, hH⟩ => ?_⟩
  cases f
  case none =>
    rw [World.answer_none, hexec]
    exact ⟨rfl, fun _ => rfl, nofun⟩
  case lost => exact ⟨rfl, nofun, fun _ _ => ⟨⟨_, by decide, hf⟩, .inl he⟩⟩
  case applied =>
    rw [World.answer_applied, hexec]
    exact ⟨rfl, nofun, fun _ _ => ⟨⟨_, by decide, hf⟩, .inr fun h => hH h rfl rfl⟩⟩

-- How a call of the function ends that finds the prefix.
theorem wp_ensurePublicIPPrefixDeleted (hw : e.WellFormed S) (hl : e.Local S) (he : e.prefixed = true) :
    wp (Estate.world S.az L (managedSubresourceName vmConfig)) (owing A H)
      (VMController.ensurePublicIPPrefixDeleted S vmConfig) (fun r e' => e.Shrinks e' ∧
        (r = .ok () → e'.prefixed = false ∧ e'.Released) ∧
        ∀ err, r = .error err → Disturbed A ∧ (e'.prefixed = true ∨ ¬H ∧ e'.Released)) e := by
  refine wp_bind.mpr (wp_attempt.mpr (wp_mono (wp_getManagedPrefix he) ?_))
  rintro r e' ⟨rfl, ⟨found, rfl, hids⟩ | ⟨err, rfl, hn, hd⟩⟩
  case inr =>
    simp only [andThen, hn]
    exact ⟨.refl, nofun, fun _ _ => ⟨hd, .inl he⟩⟩
  have hmem : ∀ x ∈ found.properties.elim [] (·.publicIPAddresses), ∀ id ∈ x.bind (·.id), id ∈ e'.attachedIDs := by
    intro x hx id hid
    rw [← hids]
    exact List.mem_filterMap.mpr ⟨x, hx, hid⟩
  refine wp_seq (wp_forEach_done
      (J := fun done e₁ => e'.Shrinks e₁ ∧ e₁.prefixed = true ∧ ∀ x ∈ done, ∀ id ∈ x.bind (·.id), id ∉ e₁.attachedIDs)
      (E := fun _ e₁ => e'.Shrinks e₁ ∧ e₁.prefixed = true ∧ Disturbed A) [] ⟨.refl, he, nofun⟩ ?_)
    (fun _ e₁ h => ?_) fun err e₁ h => ?_
  case refine_1 =>
    rintro done x hx e₁ ⟨hs, hp, hgone⟩
    refine wp_mono (wp_releasePublicIP hw hl hs (hmem x hx)) ?_
    rintro r e₂ ⟨hs₂, hp₂, hok, herr⟩
    refine ⟨fun h => ⟨hs.trans hs₂, hp₂.trans hp, fun y hy id hid => ?_⟩,
      fun err h => ⟨hs.trans hs₂, hp₂.trans hp, herr err h⟩⟩
    rcases List.mem_append.mp hy with hy | hy
    · refine fun hm => hgone y hy id hid ?_
      have ⟨a, ha, hat⟩ := mem_attachedIDs.mp hm
      exact mem_attachedIDs.mpr ⟨a, hs₂.left ha, hat⟩
    · obtain rfl := List.mem_singleton.mp hy
      exact hok h id hid
  case refine_2 =>
    obtain ⟨hs, hp, hgone⟩ := h.left rfl
    have hr : e₁.Released := by
      intro a ha
      by_contra hat
      have hat : a.attached = true := by simpa using hat
      have hid : a.id ∈ e'.attachedIDs := mem_attachedIDs.mpr ⟨a, hs.left ha, hat, rfl⟩
      rw [← hids] at hid
      obtain ⟨x, hx, hid⟩ := List.mem_filterMap.mp hid
      exact hgone x hx a.id hid (mem_attachedIDs.mpr ⟨a, ha, hat, rfl⟩)
    refine wp_mapError.mpr (wp_mono (wp_deleteManagedPrefix hp hr) ?_)
    rintro r e₂ ⟨hsame, hok, herr⟩
    have hr₂ : e₂.Released := fun a ha => hr a (hsame ▸ ha)
    refine ⟨hs.trans ⟨(hsame ▸ List.Subset.refl _), fun a ha hn => absurd (hsame ▸ ha) hn⟩, fun h => ⟨?_, hr₂⟩, fun err h => ?_⟩
    case refine_1 =>
      cases r
      case ok    => exact hok rfl
      case error => nomatch h
    case refine_2 =>
      cases r
      case ok      => nomatch h
      case error e => exact (herr e rfl).imp_right (·.imp_right (⟨·, hr₂⟩))
  case refine_3 =>
    have ⟨hs, hp, hd⟩ := h.right err rfl
    exact ⟨hs, nofun, fun _ _ => ⟨hd, .inl hp⟩⟩

-- Without a prefix there is nothing to do.
theorem wp_ensurePublicIPPrefixDeleted_absent (he : e.prefixed = false) :
    wp (Estate.world S.az L (managedSubresourceName vmConfig)) (owing A H)
      (VMController.ensurePublicIPPrefixDeleted S vmConfig) (fun r e' => e' = e ∧
        ∀ err, r = .error err → Disturbed A) e := by
  have hguard : VMController.getPublicIPPrefix "" (managedSubresourceName vmConfig) =
      request (.getPublicIPPrefix "" (managedSubresourceName vmConfig)) := by
    simp [VMController.getPublicIPPrefix, guarded, managedSubresourceName, managedResourcePrefix]
  refine wp_bind.mpr (wp_attempt.mpr ?_)
  rw [hguard]
  refine wp_request_owing rfl ?_ fun hd e' he' => ?_
  case refine_1 =>
    simp only [Estate.serve, he, Bool.false_and, Bool.false_eq_true, if_false]
    exact ⟨rfl, nofun⟩
  case refine_2 =>
    simp only [Estate.serve, he, Bool.false_and, Bool.false_eq_true, if_false] at he'
    exact ⟨by simpa using he', fun _ _ => hd⟩

-- What holds whenever the function is called.
structure Deletable (S : Settings) (e : Estate) : Prop where
  wellFormed : e.WellFormed S
  isLocal    : e.Local S
  left       : e.prefixed = true ∨ e.Released

theorem Deletable.wp (h : Deletable S e) (L : Listing) (vmConfig : GatewayVMConfiguration) :
    wp (Estate.world S.az L (managedSubresourceName vmConfig)) (owing A H)
      (VMController.ensurePublicIPPrefixDeleted S vmConfig) (fun r e' => e.Shrinks e' ∧ Deletable S e' ∧
        (r = .ok () → e'.prefixed = false ∧ e'.Released) ∧
        ∀ err, r = .error err → Disturbed A ∧ (H → e.prefixed = true → e'.prefixed = true)) e := by
  cases he : e.prefixed
  case false =>
    refine wp_mono (wp_ensurePublicIPPrefixDeleted_absent he) ?_
    rintro r e' ⟨rfl, hd⟩
    have hr : e'.Released := h.left.resolve_left (by simp [he])
    exact ⟨.refl, h, fun _ => ⟨he, hr⟩, fun err herr => ⟨hd err herr, nofun⟩⟩
  case true =>
    refine wp_mono (wp_ensurePublicIPPrefixDeleted h.wellFormed h.isLocal he) ?_
    rintro r e' ⟨hs, hok, herr⟩
    refine ⟨hs, ⟨h.wellFormed.mono hs.left, h.isLocal.mono hs.left, ?_⟩, hok, fun err hr => ?_⟩
    case refine_1 =>
      cases r
      case ok        => exact .inr (hok rfl).right
      case error err => exact (herr err rfl).right.imp_right (·.right)
    case refine_2 =>
      have ⟨hd, hleft⟩ := herr err hr
      exact ⟨hd, fun hH _ => hleft.resolve_right fun ⟨hn, _⟩ => hn hH⟩

theorem Deletable.run (h : Deletable S e) (φ : Oracle Sig) (n : Nat) :
    e.Shrinks (deletion S L vmConfig φ n e).state ∧ Deletable S (deletion S L vmConfig φ n e).state ∧
    ∀ i ∈ (deletion S L vmConfig φ n e).log, isPrefixDeletion i.call = true → i.before.Released := by
  have ⟨hq, howe⟩ := run_of_wp (h.wp L vmConfig (A := fun _ => True) (H := False)) φ n
    fun _ _ => ⟨trivial, nofun⟩
  exact ⟨hq.left, hq.right.left, howe⟩

theorem Deletable.tries {e₀ : Estate} (h : Deletable S e₀) (ht : Tries S L vmConfig e₀ e) : Deletable S e := by
  induction ht
  case init           => exact h
  case again φ n _ hi => exact (hi.run φ n).right.left

theorem Deletable.deletesPrefix (h : Deletable S e) : DeletesPrefix S L vmConfig e where
  last φ n := (h.run φ n).right.right
  only φ n := (h.run φ n).left
  kept φ n hφ he hfail := by
    have hrun := run_of_wp (h.wp L vmConfig (A := fun _ => True) (H := True)) φ n
      fun i hi => ⟨trivial, fun _ => hφ i hi⟩
    have ⟨_, _, _, herr⟩ := hrun.left
    cases hr : (deletion S L vmConfig φ n e).result
    case ok        => exact absurd hfail (by rw [hr]; nofun)
    case error err => exact (herr err hr).right trivial he
  success n := by
    have hrun := run_of_wp (h.wp L vmConfig (A := (· = .none)) (H := True)) .calm n
      fun i hi => ⟨fault_calm _ _ _ i hi, fun _ _ => by rw [fault_calm _ _ _ i hi]; decide⟩
    have ⟨_, _, hok, herr⟩ := hrun.left
    cases hr : (deletion S L vmConfig .calm n e).result
    case ok        => exact ⟨rfl, hok hr⟩
    case error err => exact absurd (herr err hr).left not_disturbed_calm

-- The calls of the function, which never name another resource group.
def inDefaultGroup : Call → Prop
  | .deletePublicIP rg _ => rg = ""
  | _                    => True

omit [CaseFold] in
theorem uses_ensurePublicIPPrefixDeleted (S : Settings) (vmConfig : GatewayVMConfiguration) :
    (VMController.ensurePublicIPPrefixDeleted S vmConfig).Uses inDefaultGroup := by
  have hg : ∀ {names : List (String × String)} {c : Call}, inDefaultGroup c → (guarded names c).Uses inDefaultGroup := by
    intro names c hc
    unfold guarded
    split
    · exact uses_throw _
    · exact uses_perform hc
  refine uses_bind (uses_attempt (hg trivial)) fun r => ?_
  split
  case h_1 => split <;> trivial
  case h_2 =>
    refine uses_bind (uses_forEach fun x _ => ?_) fun _ => uses_mapError (hg trivial)
    unfold VMController.releasePublicIP
    split
    case h_1 => trivial
    case h_2 =>
      split
      case h_1 => trivial
      case h_2 =>
        refine uses_bind (uses_attempt (hg rfl)) fun r => ?_
        split
        · trivial
        · split <;> trivial

-- An address in another resource group stays.
theorem mem_deletion (L : Listing) (vmConfig : GatewayVMConfiguration) (φ : Oracle Sig) (n : Nat) {a : Address}
    (ha : a ∈ e.addresses)
    (hrg : equalFold a.resourceGroup (S.az.orDefault "") = false) :
    a ∈ (deletion S L vmConfig φ n e).state.addresses := by
  have hstep : ∀ c e, inDefaultGroup c → a ∈ e.addresses →
      a ∈ (Estate.serve S.az L (managedSubresourceName vmConfig) c e).2.addresses := by
    intro c e hc ha
    unfold Estate.serve
    split
    case h_1 => split <;> exact ha
    case h_2 rg _ =>
      obtain rfl : rg = "" := hc
      split
      case isTrue  => exact List.mem_filter.mpr ⟨ha, by simp [Address.isAt, hrg]⟩
      case isFalse => exact ha
    case h_3 =>
      split
      · exact ha
      · split <;> exact ha
    case h_4 => exact ha
  have hwp := wp_invariant (W := Estate.world S.az L (managedSubresourceName vmConfig))
    (J := fun e => a ∈ e.addresses) (C := .faults fun _ => True) hstep
    (uses_ensurePublicIPPrefixDeleted S vmConfig) (fun _ _ _ => trivial) ha
  exact (run_of_wp hwp φ n fun _ _ => trivial).left

end Estate

end Manager

namespace Manager

namespace Sample

def blankFirst : Listing where
  render ids     := some (none :: ids.map fun id => some ⟨some id⟩)
  render_ids ids := by
    simp only [Option.elim_some, List.filterMap_cons, Option.bind_none, List.filterMap_map]
    exact List.filterMap_some

def address (rg name : String) (attached : Bool) : Address where
  resourceGroup := rg
  name          := name
  id            := "/subscriptions/sub/resourceGroups/" ++ rg ++ "/providers/Microsoft.Network/publicIPAddresses/" ++ name
  attached      := attached

def prefixOwner : GatewayVMConfiguration where
  meta_ := { key := ⟨"default", "a"⟩, uid := "a" }
  spec  := poolSpec

-- Somebody else has an address too.
def estate (rg name : String) : Estate where
  addresses := [address rg "node0" true, address "rg" name false]
  prefixed  := true

def elsewhere : Outcome Sig Estate Unit :=
  deletion settings blankFirst prefixOwner .calm 0 (estate "nodes" "node0")

end Sample

end Manager
