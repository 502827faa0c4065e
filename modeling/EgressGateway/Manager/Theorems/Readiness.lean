import EgressGateway.CniManager.Server
import EgressGateway.Manager.System
import EgressGateway.Manager.Theorems.Client
import EgressGateway.Manager.Theorems.Rules

-- A gateway is only announced once everything that its clients need is in place.

open Kubernetes Azure Text Program

namespace Manager

-- What the clients of a gateway have to know, apart from its addresses on the way out.
structure Complete (status : StaticGatewayConfigurationStatus) : Prop where
  ip        : status.gatewayServerProfile.ip ≠ ""
  port      : Listening status.gatewayServerProfile.port
  publicKey : status.gatewayServerProfile.publicKey ≠ ""
  secret    : status.gatewayServerProfile.privateKeySecretRef ≠ none

def Announced (status : StaticGatewayConfigurationStatus) : Prop :=
  status.egressIpPrefix ≠ "" → Complete status

def Served (status : Option GatewayLBConfigurationStatus) : Prop :=
  ∀ st, status = some st → st.frontendIp ≠ "" ∧ Listening st.serverPort

-- The port of a rule is one of those that are handed out.
def InRange (rule : LoadBalancingRule) : Prop :=
  ∀ p, rule.properties = some p → Listening (val p.frontendPort)

-- Secrets of the controllers are never held back from deletion, and they have a public key.
structure Keyed (secret : Secret) : Prop where
  finalizers : secret.meta_.finalizers = []
  deleting   : secret.meta_.deleting = false
  publicKey  : ∃ key, secret.data.lookup GwController.wireguardPublicKeyName = some key ∧ key ≠ ""

structure Sound (S : Settings) (s : State) : Prop where
  rules   : ∀ rule ∈ s.cloud.rules, InRange rule
  secrets : ∀ secret ∈ s.api.items .secret, ∀ gw, Store.key secret = GwController.secretKey S gw → Keyed secret
  lbs     : ∀ lb ∈ s.api.items .lbConfig, Served (GatewayLBConfiguration.status lb)
  gws     : ∀ gw ∈ s.api.items .gwConfig, Announced (StaticGatewayConfiguration.status gw)

-- A stored object with a status that is not going to change while the finalizer is in place.
def Pinned (key : NamespacedName) (status : StaticGatewayConfigurationStatus) (s : State) : Prop :=
  ∃ gw, Store.find (s.api.items .gwConfig) key = some gw ∧
    containsFinalizer (meta_ gw) GwController.sgcFinalizerName = true ∧ gw.status = status

def pact (S : Settings) : Pact Controller State where
  inv := Sound S
  rely i s s' := i = .gw → ∀ key status, Pinned key status s → Pinned key status s'
  refl _ _ _ h := h
  trans h h' hi _ _ hp := h' hi _ _ (h hi _ _ hp)

-- The kind of the objects the status of which a call may change.
def Call.writesStatus : Call → Option Kind
  | .updateStatus k _ | .patchStatus k .. => some k
  | _ => none

-- Calls after which nothing incomplete can be found that was not there before.
def Call.harmless : Call → Bool
  | .createOrUpdateLB _ => false
  | .delete .. => true
  | c => c.writes ≠ some .secret && c.writesStatus ≠ some .gwConfig && c.writesStatus ≠ some .lbConfig

theorem Announced.inherits {gws : List StaticGatewayConfiguration} {gw : StaticGatewayConfiguration}
    (h : ∀ gw ∈ gws, Announced gw.status) (hi : Store.Inherits gws gw) : Announced gw.status := by
  rcases hi with ⟨gw', hm, hs⟩ | hs
  · exact congrArg StaticGatewayConfiguration.status hs ▸ h gw' hm
  · have hs : {} = gw.status := congrArg StaticGatewayConfiguration.status hs
    exact hs ▸ fun he => absurd rfl he

theorem Served.inherits {lbs : List GatewayLBConfiguration} {lb : GatewayLBConfiguration}
    (h : ∀ lb ∈ lbs, Served lb.status) (hi : Store.Inherits lbs lb) : Served lb.status := by
  rcases hi with ⟨lb', hm, hs⟩ | hs
  · exact congrArg GatewayLBConfiguration.status hs ▸ h lb' hm
  · have hs : none = lb.status := congrArg GatewayLBConfiguration.status hs
    exact hs ▸ nofun

variable [CaseFold] {P : Platform} {S : Settings} {s s' : State} {c : Call} {k : Kind} {i : Controller}

section Serve

theorem serve_inherits (h : c.writesStatus ≠ some k) :
    ∀ x ∈ (State.serve P S.az c s).2.api.items k, Store.Inherits (s.api.items k) x := by
  by_cases hw : c.writes = some k
  case neg =>
    intro x hx
    rw [(serve_spares (P := P) (S := S) (s := s) hw).items] at hx
    exact Store.inherits_of_mem hx
  have hcommit : ∀ {w : Store.Write (Obj k)},
      (∀ o xs, w = .ok (o, xs) → ∀ x ∈ xs, Store.Inherits (s.api.items k) x) →
      ∀ x ∈ (s.commit k w).2.api.items k, Store.Inherits (s.api.items k) x := by
    intro w hw x hx
    cases w
    case error => exact Store.inherits_of_mem hx
    case ok r  =>
      simp only [State.commit, items_store_self] at hx
      exact hw r.1 r.2 rfl x hx
  cases c
  case updateStatus | patchStatus => exact absurd hw h
  case update =>
    obtain rfl := Option.some.inj hw
    exact hcommit fun _ _ he _ => Store.inherits_update he
  case create =>
    obtain rfl := Option.some.inj hw
    exact hcommit fun _ _ he _ => Store.inherits_create he
  case patch =>
    obtain rfl := Option.some.inj hw
    exact hcommit fun _ _ he _ => Store.inherits_patch he
  case delete =>
    obtain rfl := Option.some.inj hw
    intro x hx
    simp only [State.serve] at hx
    split at hx
    case h_1 => exact Store.inherits_of_mem hx
    case h_2 xs he =>
      rw [items_store_self] at hx
      exact Store.inherits_delete he hx
  all_goals cases hw

theorem serve_rules (h : ∀ lb, c ≠ .createOrUpdateLB lb) :
    (State.serve P S.az c s).2.cloud.rules ⊆ s.cloud.rules := by
  by_cases hw : c.writes = none
  case neg => rw [serve_cloud hw]; exact fun _ => id
  cases c
  case createOrUpdateLB lb => exact absurd rfl (h lb)
  case deleteLB => exact List.nil_subset _
  case update | updateStatus | create | patch | patchStatus | delete => nomatch hw
  all_goals
    simp only [State.serve]
    repeat' split
    all_goals exact fun _ => id

end Serve

-- How each kind of call keeps the state sound.
section Sound

-- Secrets only come and go.
theorem Sound.keyed_delete (h : Sound S s) (key : NamespacedName) :
    ∀ secret ∈ (State.serve P S.az (.delete .secret key) s).2.api.items .secret,
      ∀ gw, Store.key secret = GwController.secretKey S gw → Keyed secret := by
  intro secret hm gw hk
  simp only [State.serve] at hm
  split at hm
  case h_1 => exact h.secrets secret hm gw hk
  case h_2 xs he =>
    rw [items_store_self] at hm
    obtain ⟨stored, hf, hxs⟩ := Store.delete_ok he
    rcases hxs with ⟨_, rfl⟩ | ⟨hne, rfl⟩
    · exact h.secrets secret (Store.mem_remove hm) gw hk
    · rcases Store.mem_put hm with rfl | hm
      · rw [Store.key_revise] at hk
        have hstored := h.secrets stored (List.mem_of_find?_eq_some hf) gw hk
        exact absurd hstored.finalizers hne
      · exact h.secrets secret hm gw hk

theorem Sound.harmless (h : Sound S s) (hc : c.harmless = true) : Sound S (State.serve P S.az c s).2 where
  rules rule hr := h.rules rule (serve_rules (by rintro lb rfl; nomatch hc) hr)
  secrets := by
    by_cases hw : c.writes = some .secret
    case neg => rw [(serve_spares hw).items]; exact h.secrets
    cases c
    case delete =>
      obtain rfl := Option.some.inj hw
      exact h.keyed_delete _
    all_goals simp_all [Call.harmless]
  lbs lb hl := .inherits h.lbs (serve_inherits (by cases c <;> simp_all [Call.harmless, Call.writesStatus]) lb hl)
  gws gw hg := .inherits h.gws (serve_inherits (by cases c <;> simp_all [Call.harmless, Call.writesStatus]) gw hg)

omit [CaseFold] in
theorem Sound.storeLBs (h : Sound S s) {lbs : List GatewayLBConfiguration} (hl : ∀ lb ∈ lbs, Served lb.status) :
    Sound S (s.store .lbConfig lbs) where
  rules   := h.rules
  secrets := by rw [items_store_ne (by decide)]; exact h.secrets
  lbs     := by rw [items_store_self]; exact hl
  gws     := by rw [items_store_ne (by decide)]; exact h.gws

omit [CaseFold] in
theorem Sound.storeGws (h : Sound S s) {gws : List StaticGatewayConfiguration}
    (hg : ∀ gw ∈ gws, Announced gw.status) : Sound S (s.store .gwConfig gws) where
  rules   := h.rules
  secrets := by rw [items_store_ne (by decide)]; exact h.secrets
  lbs     := by rw [items_store_ne (by decide)]; exact h.lbs
  gws     := by rw [items_store_self]; exact hg

omit [CaseFold] in
theorem Sound.storeSecrets (h : Sound S s) {secrets : List Secret}
    (hs : ∀ secret ∈ secrets, ∀ gw, Store.key secret = GwController.secretKey S gw → Keyed secret) :
    Sound S (s.store .secret secrets) where
  rules   := h.rules
  secrets := by rw [items_store_self]; exact hs
  lbs     := by rw [items_store_ne (by decide)]; exact h.lbs
  gws     := by rw [items_store_ne (by decide)]; exact h.gws

theorem Sound.writeLB (h : Sound S s) {lb : LoadBalancer}
    (hr : ∀ p, lb.properties = some p → ∀ rule ∈ p.loadBalancingRules, InRange rule) :
    Sound S (State.serve P S.az (.createOrUpdateLB lb) s).2 where
  rules rule hm := by
    have hm : rule ∈ (lb.properties.getD {}).loadBalancingRules := hm
    cases hp : lb.properties
    case none   => simp [hp] at hm
    case some p => exact hr p hp rule (by simpa [hp] using hm)
  secrets := h.secrets
  lbs     := h.lbs
  gws     := h.gws

theorem Sound.writeLBStatus (h : Sound S s) {o : GatewayLBConfiguration} (ho : Served o.status) :
    Sound S (State.serve P S.az (.updateStatus .lbConfig o) s).2 := by
  simp only [State.serve, State.commit]
  split
  case h_1 => exact h
  case h_2 o' xs he =>
    refine h.storeLBs fun lb hl => ?_
    obtain ⟨stored, _, _, hnew, hxs⟩ := Store.updateStatus_ok he
    rcases Store.mem_put (hxs ▸ hl) with rfl | hl
    · have hs : SameStatus o lb := hnew ▸ Store.sameStatus_revise (LawfulResource.withStatus_idem _ _ _)
      exact congrArg GatewayLBConfiguration.status hs ▸ ho
    · exact h.lbs lb hl

-- Nobody has changed the status in the meantime, so that the patch leaves it as it was computed.
theorem Sound.writeGwStatus (h : Sound S s) {before after : StaticGatewayConfiguration}
    (hp : Pinned (Store.key (α := Obj .gwConfig) after) before.status s) (ha : Announced after.status) :
    Sound S (State.serve P S.az (.patchStatus .gwConfig before after) s).2 := by
  simp only [State.serve, State.commit]
  split
  case h_1 => exact h
  case h_2 o' xs he =>
    refine h.storeGws fun gw hg => ?_
    obtain ⟨stored, hf, hnew, hxs⟩ := Store.patchStatus_ok he
    rcases Store.mem_put (hxs ▸ hg) with rfl | hg
    · obtain ⟨gw', hf', _, hst⟩ := hp
      obtain rfl : gw' = stored := Option.some.inj (hf'.symm.trans hf)
      have hmerge : (Resource.mergeStatus (α := StaticGatewayConfiguration) before after gw').status = after.status := by
        simp only [Resource.mergeStatus, hst, patched_self]
      obtain ⟨v, hv, _⟩ := Store.revise_eq s.api.clock gw' (Resource.mergeStatus (α := Obj .gwConfig) before after gw')
      have hs : gw.status = after.status := by
        rw [hnew, hv]
        exact hmerge
      exact hs ▸ ha
    · exact h.gws gw hg

theorem Sound.createSecret (h : Sound S s) {o : Secret} (ho : Keyed o) :
    Sound S (State.serve P S.az (.create .secret o) s).2 ∧
    ∀ r, (State.serve P S.az (.create .secret o) s).1 = .ok r → Keyed r := by
  simp only [State.serve, State.commit]
  split
  case h_1 => exact ⟨h, by simp⟩
  case h_2 o' xs he =>
    obtain ⟨_, _, hnew, hxs⟩ := Store.create_ok he
    have hkeyed : Keyed o' := by
      rw [hnew]
      exact ⟨ho.finalizers, rfl, ho.publicKey⟩
    refine ⟨h.storeSecrets fun secret hm gw hk => ?_, fun r hr => Except.ok.inj hr ▸ hkeyed⟩
    rcases List.mem_append.mp (hxs ▸ hm) with hm | hm
    · exact h.secrets secret hm gw hk
    · exact List.mem_singleton.mp hm ▸ hkeyed

omit [CaseFold] in
theorem Keyed.revise {clock : Nat} {old new : Secret} (h : Keyed new) :
    Keyed (Store.revise (α := Obj .secret) clock old new) := by
  have ⟨v, hv, _⟩ := Store.revise_eq (α := Obj .secret) clock old new
  rw [hv]
  exact ⟨h.finalizers, h.deleting, h.publicKey⟩

theorem Sound.updateSecret (h : Sound S s) {o : Secret} {gw : StaticGatewayConfiguration} (ho : Keyed o)
    (hkey : Store.key (α := Obj .secret) o = GwController.secretKey S gw) :
    Sound S (State.serve P S.az (.update .secret o) s).2 ∧
    ∀ r, (State.serve P S.az (.update .secret o) s).1 = .ok r → Keyed r := by
  simp only [State.serve, State.commit]
  split
  case h_1 => exact ⟨h, by simp⟩
  case h_2 o' xs he =>
    obtain ⟨stored, hf, _, _, hnew, hxs⟩ := Store.update_ok he
    have hstored := h.secrets stored (List.mem_of_find?_eq_some hf) gw ((Store.key_of_find hf).trans hkey)
    have hkeyed : Keyed o' := hnew ▸ .revise ⟨ho.finalizers, hstored.deleting, ho.publicKey⟩
    refine ⟨h.storeSecrets fun secret hm gw hk => ?_, fun r hr => Except.ok.inj hr ▸ hkeyed⟩
    rcases hxs with ⟨_, _, rfl⟩ | ⟨_, rfl⟩
    · exact h.secrets secret (Store.mem_remove hm) gw hk
    · rcases Store.mem_put hm with rfl | hm
      · exact hkeyed
      · exact h.secrets secret hm gw hk

end Sound

-- What the controllers may do without a look at the others.
section Allowed

omit [CaseFold] in
theorem allows (h : Sound S s') (hi : i ≠ .gw → s'.api.items .gwConfig = s.api.items .gwConfig) :
    (pact S).Allows i s s' := by
  refine ⟨h, fun j hj hgw key status hp => ?_⟩
  subst hgw
  rw [Pinned, hi hj.symm]
  exact hp

omit [CaseFold] in
theorem allows_gw (h : Sound S s') : (pact S).Allows .gw s s' :=
  allows h fun hi => absurd rfl hi

theorem allows_harmless (h : Sound S s) (hc : c.harmless = true) (hi : i ≠ .gw → c.writes ≠ some .gwConfig) :
    (pact S).Allows i s ((world P S.az).exec c s).2 :=
  allows (h.harmless hc) fun hne => (serve_spares (hi hne)).items

omit [CaseFold] in
theorem Call.harmless_of_plain (h : c.plain = true) : c.harmless = true := by
  cases c
  all_goals first | rfl | nomatch h

theorem abides_plain {α : Type} {p : M α} (h : Plain p) : Abides (world P S.az) (pact S) i p s fun _ _ => True := by
  refine abides_of_uses h fun c s hc hs => ?_
  exact allows_harmless hs (Call.harmless_of_plain hc) fun _ => by rw [Call.writes_of_plain hc]; nofun

omit [CaseFold] in
theorem Call.harmless_of_ofNodes (h : c.ofNodes = true) : c.harmless = true ∧ c.writes ≠ some .gwConfig := by
  cases c
  all_goals simp_all [Call.ofNodes, Call.plain, Call.harmless, Call.writes, Call.writesStatus]

theorem abides_ofNodes {α : Type} {p : M α} (h : OfNodes p) :
    Abides (world P S.az) (pact S) i p s fun _ _ => True := by
  refine abides_of_uses h fun c s hc hs => ?_
  have ⟨hh, hw⟩ := Call.harmless_of_ofNodes hc
  exact allows_harmless hs hh fun _ => hw

-- Reads, the replies to which are taken from the state.
theorem abides_read {Q : Reply c → State → Prop} (hc : c.plain = true)
    (h : ∀ s', (pact S).rely i s s' → Sound S s' → ∀ a, (State.serve P S.az c s').1 = .ok a →
      Q a (State.serve P S.az c s').2) :
    Abides (world P S.az) (pact S) i (request c) s Q := by
  refine abides_perform fun s' hr hs => ⟨?_, h s' hr hs⟩
  exact allows_harmless hs (Call.harmless_of_plain hc) fun _ => by rw [Call.writes_of_plain hc]; nofun

end Allowed

-- The load balancer controller.
section LB

variable {lb : LoadBalancer} {lbConfig : GatewayLBConfiguration} {names : LBPropertyNames}

omit [CaseFold] in
theorem inRange_withPort {rule : LoadBalancingRule} {port : Int} (h : Listening port) :
    InRange (withPort rule port) := by
  intro p hp
  have ⟨q, _, hq⟩ := Option.map_eq_some_iff.mp hp
  exact hq ▸ h

theorem inRange_createRule {expected : LoadBalancingRule} {rules rules' : List LoadBalancingRule}
    {port : Int} {new : Bool} (hr : ∀ rule ∈ rules, InRange rule)
    (h : createRule expected rules = .ok (rules', port, new)) :
    (∀ rule ∈ rules', InRange rule) ∧ Listening port := by
  unfold createRule at h
  split at h
  case h_1 => nomatch h
  case h_2 port' hp =>
    have hport := listening_selectPort hp
    cases h
    refine ⟨fun rule hm => ?_, hport⟩
    rcases List.mem_append.mp hm with hm | hm
    · exact hr rule hm
    · exact List.mem_singleton.mp hm ▸ inRange_withPort hport

theorem inRange_ensureRule {expected : LoadBalancingRule} {rules rules' : List LoadBalancingRule}
    {port : Int} {new : Bool} (hr : ∀ rule ∈ rules, InRange rule)
    (h : ensureRule expected rules = .ok (rules', port, new)) :
    (∀ rule ∈ rules', InRange rule) ∧ Listening port := by
  have herase : ∀ rule ∈ rules.eraseP (equalFold ·.name expected.name), InRange rule :=
    fun rule hm => hr rule (List.mem_of_mem_eraseP hm)
  unfold ensureRule at h
  split at h
  case h_1 => exact inRange_createRule hr h
  case h_2 rule hf =>
    split at h
    case h_1 => exact inRange_createRule herase h
    case h_2 p hp =>
      split at h
      case isTrue =>
        cases h
        exact ⟨hr, hr rule (List.mem_of_find?_eq_some hf) p hp⟩
      case isFalse => exact inRange_createRule herase h

theorem mem_of_dropRules {name id : String} {rules rules' : List LoadBalancingRule} {n : Nat} {dropped : Bool}
    (h : dropRules name id rules = .ok (rules', n, dropped)) : rules' ⊆ rules := by
  fun_induction dropRules name id rules generalizing rules' n dropped
  case case1 => cases h; exact List.Subset.refl _
  case case2 => nomatch h
  case case3 hd _ hi => cases h; exact List.subset_cons_of_subset _ (hi hd)
  case case4 => nomatch h
  case case5 hd _ _ _ _ hi => cases h; exact List.cons_subset_cons _ (hi hd)
  case case6 hd _ _ _ _ hi => cases h; exact List.cons_subset_cons _ (hi hd)

-- The draft has the rules of the load balancer, and if a frontend is missing then it is going to be sent.
structure Opening (needLB : Bool) (lb : LoadBalancer) (d : Draft) : Prop where
  rules    : ∃ p, lb.properties = some p ∧ d.properties.loadBalancingRules = p.loadBalancingRules
  frontend : needLB = true → d.frontendIP = "" → d.updateLB = true

theorem abides_openDraft {needLB updateLB : Bool} :
    Abides (world P S.az) (pact S) i (openDraft S lbConfig needLB lb updateLB) s fun r _ =>
      Opening needLB lb r.2 := by
  refine (abides_plain plain_loadLBPool).bind fun pool s _ => abides_ofExcept fun names _ => ?_
  split
  case h_1 => exact abides_throw
  case h_2 p hp =>
    refine Abides.bind (Q := fun r _ => needLB = true → r.1 = "" → r.2.2 = true)
      (abides_ofExcept fun ip _ => ?_) fun (ip, frontends, new) s hf => abides_ofExcept fun backends _ => ?_
    · split
      case isTrue  => exact (abides_plain (uses_perform rfl)).bind fun _ _ _ => abides_ret fun _ _ => rfl
      case isFalse hn => exact abides_ret fun hneed hip => absurd ⟨hip, hneed⟩ hn
    · refine abides_ret ⟨⟨p, hp, rfl⟩, fun hneed hip => ?_⟩
      have hnew : new = true := hf hneed hip
      simp [hnew]

theorem inRange_addRule {d d' : Draft} {port : Int} (hr : ∀ rule ∈ d.properties.loadBalancingRules, InRange rule)
    (h : addRule S lbConfig names d = .ok (d', port)) :
    (∀ rule ∈ d'.properties.loadBalancingRules, InRange rule) ∧ Listening port ∧
    d'.frontendIP = d.frontendIP ∧ (d.updateLB = true → d'.updateLB = true) := by
  unfold addRule at h
  split at h
  case h_1 => nomatch h
  case h_2 rules lbPort new he =>
    split at h
    case h_1 => nomatch h
    case h_2 =>
      have ⟨hr', hp⟩ := inRange_ensureRule hr he
      cases h
      exact ⟨hr', hp, rfl, fun hu => by simp [hu]⟩

theorem inRange_removeRule {d d' : Draft} {unused : Bool}
    (hr : ∀ rule ∈ d.properties.loadBalancingRules, InRange rule)
    (h : removeRule S names d = .ok (d', unused)) :
    ∀ rule ∈ d'.properties.loadBalancingRules, InRange rule := by
  unfold removeRule at h
  split at h
  case h_1 => nomatch h
  case h_2 rules n dropped he =>
    cases h
    exact fun rule hm => hr rule (mem_of_dropRules he hm)

theorem abides_writeLB {d : Draft} (hr : ∀ rule ∈ d.properties.loadBalancingRules, InRange rule) :
    Abides (world P S.az) (pact S) i (request (.createOrUpdateLB d.toLB)) s fun _ _ => True := by
  refine abides_perform fun s' _ hs => ⟨allows (hs.writeLB ?_) fun _ => rfl, fun _ _ => trivial⟩
  intro p hp rule hm
  exact hr rule (Option.some.inj hp ▸ hm)

theorem abides_writeRule {d : Draft} {port : Int} (hr : ∀ rule ∈ d.properties.loadBalancingRules, InRange rule)
    (hu : d.frontendIP = "" → d.updateLB = true) :
    Abides (world P S.az) (pact S) .lb (writeRule names d port) s fun r _ => r.1 ≠ "" ∧ r.2 = port := by
  unfold writeRule
  split
  case isTrue =>
    refine (abides_writeLB hr).bind fun lb s _ => ?_
    split
    case isTrue =>
      split
      case h_1 => exact abides_throw
      case h_2 =>
        refine abides_ofExcept fun ip _ => ?_
        split
        case isTrue     => exact abides_throw
        case isFalse hn => exact abides_ret ⟨hn, rfl⟩
    case isFalse hn => exact abides_ret ⟨hn, rfl⟩
  case isFalse hn => exact abides_ret ⟨fun he => hn (hu he), rfl⟩

theorem abides_writeRemoval {d : Draft} (hr : ∀ rule ∈ d.properties.loadBalancingRules, InRange rule) :
    Abides (world P S.az) (pact S) .lb (writeRemoval d) s fun _ _ => True := by
  unfold writeRemoval
  split
  case isTrue  => exact (abides_writeLB hr).bind fun _ _ _ => abides_ret trivial
  case isFalse => exact abides_ret trivial

-- Whether or not a rule is needed, and what the caller gets if so.
theorem abides_reconcileLBRuleOn {needLB updateLB : Bool}
    (hr : ∀ p, lb.properties = some p → ∀ rule ∈ p.loadBalancingRules, InRange rule) :
    Abides (world P S.az) (pact S) .lb (reconcileLBRuleOn S lbConfig needLB lb updateLB) s fun r _ =>
      needLB = true → r.1 ≠ "" ∧ Listening r.2 := by
  refine abides_openDraft.bind fun (names, d) s hd => ?_
  have ⟨⟨p, hp, hrules⟩, hfront⟩ := hd
  have hr : ∀ rule ∈ d.properties.loadBalancingRules, InRange rule := hrules ▸ hr p hp
  dsimp only
  split
  case isTrue hneed =>
    refine abides_ofExcept fun (d', port) he => ?_
    have ⟨hr', hport, hip, hup⟩ := inRange_addRule hr he
    refine (abides_writeRule hr' fun he => hup (hfront hneed (hip ▸ he))).mono fun r _ h _ => ?_
    exact ⟨h.left, h.right ▸ hport⟩
  case isFalse hneed =>
    refine abides_ofExcept fun (d', unused) he => ?_
    have hr' := inRange_removeRule hr he
    refine Abides.mono (Q := fun _ _ => True) ?_ fun _ _ _ hn => absurd hn hneed
    dsimp only
    split
    case isTrue =>
      split
      case isTrue =>
        refine Abides.bind (Q := fun _ _ => True) ?_ fun _ _ _ => abides_ret trivial
        refine abides_perform fun s' _ hs => ⟨allows_harmless hs rfl fun _ => nofun, fun _ _ => trivial⟩
      case isFalse => exact abides_writeRemoval hr'
    case isFalse => exact abides_writeRemoval hr'

theorem abides_reconcileLBRule {needLB : Bool} :
    Abides (world P S.az) (pact S) .lb (reconcileLBRule S lbConfig needLB) s fun r _ =>
      needLB = true → r.1 ≠ "" ∧ Listening r.2 := by
  refine Abides.bind (Q := fun lb _ => ∀ lb', lb = some lb' → ∀ p, lb'.properties = some p →
    ∀ rule ∈ p.loadBalancingRules, InRange rule) ?_ fun lb s hr => ?_
  case refine_1 =>
    refine Abides.bind (Q := fun r _ => ∀ lb', r = .ok lb' → ∀ p, lb'.properties = some p →
      ∀ rule ∈ p.loadBalancingRules, InRange rule) ?_ fun r s hr => ?_
    · refine Abides.attempt_ok (abides_read rfl fun s' _ hs lb' hlb => ?_)
      intro p hp rule hm
      simp only [State.serve] at hlb
      split at hlb
      case h_1 => cases hlb
      case h_2 hc =>
        obtain rfl := Except.ok.inj hlb
        exact hs.rules rule (by simpa [Cloud.rules, hc, hp] using hm)
    · split
      case h_1 lb' => exact abides_ret fun _ he => Option.some.inj he ▸ hr lb' rfl
      case h_2 =>
        split
        · exact abides_ret (by simp)
        · exact abides_throw
  case refine_2 =>
    split
    case h_1 lb' => exact abides_reconcileLBRuleOn (hr lb' rfl)
    case h_2 =>
      split
      case isTrue =>
        refine abides_reconcileLBRuleOn fun p hp rule hm => ?_
        obtain rfl : ({} : LoadBalancerProperties) = p := Option.some.inj hp
        cases hm
      case isFalse hn => exact abides_ret fun hneed => absurd hneed hn

theorem abides_harmless (hc : c.harmless = true) (hw : c.writes ≠ some .gwConfig) :
    Abides (world P S.az) (pact S) i (request c) s fun _ _ => True :=
  abides_perform fun _ _ hs => ⟨allows_harmless hs hc fun _ => hw, fun _ _ => trivial⟩

theorem abides_ensureFinalizer_lb :
    Abides (world P S.az) (pact S) .lb (ensureFinalizer .lbConfig LBController.lbConfigFinalizerName lbConfig) s
      fun _ _ => True := by
  unfold ensureFinalizer
  split
  · exact abides_ret trivial
  · exact abides_harmless rfl nofun

omit [CaseFold] in
open LBController in
theorem served_withFrontend {frontend : String × Int} (hip : frontend.1 ≠ "") (hp : Listening frontend.2) :
    Served (withFrontend lbConfig frontend).status := by
  intro st hst
  obtain rfl := Option.some.inj hst
  exact ⟨hip, hp⟩

open LBController in
theorem abides_lb_reconcile :
    Abides (world P S.az) (pact S) .lb (LBController.reconcile S lbConfig) s fun _ _ => True := by
  refine Abides.bind (Q := fun _ _ => True) (Abides.attempt (Q := fun _ _ => True) ?_ (fun _ _ => id) fun _ _ => trivial)
    fun _ _ _ => abides_ret trivial
  refine Abides.bind (Q := fun r _ => Served r.2.status) ?_ fun (existing, computed) s hs => ?_
  · refine abides_ensureFinalizer_lb.bind fun existing s _ => abides_reconcileLBRule.bind fun frontend s hf => ?_
    refine (abides_ofNodes (uses_reconcileGatewayVMConfig (fun c hc => ?_) fun _ => rfl)).bind fun computed s _ => ?_
    · cases c
      all_goals simp_all [Call.ofNodes, Call.writes]
    · exact abides_ret (served_withFrontend (hf rfl).left (hf rfl).right)
  · refine Abides.bind (Q := fun _ _ => True) (abides_when (fun _ => ?_) fun _ => trivial) fun _ _ _ => abides_ret trivial
    refine Abides.bind (Q := fun _ _ => True) ?_ fun _ _ _ => abides_ret trivial
    refine abides_attempt_perform fun s' _ hsound f => ⟨?_, trivial⟩
    have ha : (pact S).Allows .lb s' ((world P S.az).exec (.updateStatus .lbConfig computed) s').2 :=
      allows (hsound.writeLBStatus (P := P) hs) fun _ => (serve_spares (by nofun)).items
    cases f
    case none | applied => exact ha
    case lost           => exact Pact.allows_refl hsound

open LBController in
theorem abides_lb_ensureDeleted :
    Abides (world P S.az) (pact S) .lb (LBController.ensureDeleted S lbConfig) s fun _ _ => True := by
  unfold ensureDeleted
  split
  · exact abides_ret trivial
  · refine Abides.bind (Q := fun _ _ => True)
      ((abides_harmless rfl (by nofun)).attempt (fun _ _ => id) fun _ _ => trivial) fun r s _ => ?_
    split
    · exact abides_ret trivial
    · split
      · exact abides_throw
      · refine abides_reconcileLBRule.bind fun _ s _ => ?_
        exact (abides_harmless rfl (by nofun)).bind fun _ _ _ => abides_ret trivial

theorem abides_lb {req : NamespacedName} :
    Abides (world P S.az) (pact S) .lb (LBController.Reconcile S req) s fun _ _ => True := by
  refine Abides.bind (Q := fun _ _ => True)
    ((abides_harmless rfl (by nofun)).attempt (fun _ _ => id) fun _ _ => trivial) fun r s _ => ?_
  split
  · split
    · exact abides_ret trivial
    · exact abides_throw
  · refine (abides_harmless rfl (by nofun)).bind fun _ s _ => ?_
    split
    · exact abides_lb_ensureDeleted
    · exact abides_lb_reconcile.bind fun o s _ => abides_ofExcept fun _ _ => abides_ret trivial

end LB

-- The controller of the static gateway configurations.
section Gw

open GwController

variable {gw before : StaticGatewayConfiguration} {secret : Secret}

omit [CaseFold] in
theorem lookup_setEntry {key value : String} {m : List (String × String)} :
    (setEntry key value m).lookup key = some value := by
  have hnone : (m.filter (·.1 ≠ key)).lookup key = none := by
    refine List.lookup_eq_none_iff.mpr fun e he => ?_
    have hne : e.1 ≠ key := by simpa using (List.mem_filter.mp he).right
    simpa using hne.symm
  rw [setEntry, List.lookup_append, hnone]
  simp [List.lookup]

theorem keyed_provideKeys (hf : secret.meta_.finalizers = []) (hd : secret.meta_.deleting = false)
    (hk : (secret.data.lookup wireguardPrivateKeyName).isSome = true → Keyed secret) :
    Abides (world P S.az) (pact S) .gw (provideKeys gw secret) s fun r _ =>
      Keyed r ∧ r.meta_ = secret.meta_ := by
  unfold provideKeys
  dsimp only
  split
  case h_1 key hs =>
    have hs : secret.data.lookup wireguardPrivateKeyName = some key := hs
    have h := hk (by rw [hs]; rfl)
    exact abides_ret ⟨⟨hf, hd, h.publicKey⟩, rfl⟩
  case h_2 =>
    refine Abides.bind (Q := fun pair _ => pair.publicKey ≠ "") ?_ fun pair s hne => ?_
    · exact abides_read rfl fun s' _ _ pair hp => Except.ok.inj hp ▸ P.keyPair_ne _
    · refine abides_ret ⟨⟨hf, hd, pair.publicKey, ?_, hne⟩, rfl⟩
      exact lookup_setEntry

theorem abides_reconcileWireguardKey :
    Abides (world P S.az) (pact S) .gw (reconcileWireguardKey S gw) s fun gw' _ =>
      ∃ ref key, key ≠ "" ∧ gw' = { gw with
        status.gatewayServerProfile.privateKeySecretRef := some ref
        status.gatewayServerProfile.publicKey           := key } := by
  refine Abides.bind (Q := fun secret _ => Keyed secret) ?_ fun secret s hs => ?_
  case refine_2 =>
    obtain ⟨key, hl, hne⟩ := hs.publicKey
    refine abides_ret ⟨⟨secret.meta_.key.namespace_, secret.meta_.key.name⟩, key, hne, ?_⟩
    simp [withKeys, hs.deleting, hl]
  case refine_1 =>
    refine Abides.bind (Q := fun r _ => ∀ before, r = .ok before →
      Keyed before ∧ Store.key (α := Obj .secret) before = secretKey S gw) ?_ fun r s hr => ?_
    · refine Abides.attempt_ok (abides_read rfl fun s' _ hs before hb => ?_)
      simp only [State.serve] at hb
      split at hb
      case h_1 => cases hb
      case h_2 hf =>
        obtain rfl := Except.ok.inj hb
        have hkey := Store.key_of_find hf
        exact ⟨hs.secrets _ (List.mem_of_find?_eq_some hf) gw hkey, hkey⟩
    · split
      case h_1 e =>
        split
        case isFalse => exact abides_throw
        case isTrue =>
          refine (keyed_provideKeys rfl rfl (by simp)).bind fun secret s hk => ?_
          refine abides_perform fun s' _ hs => ?_
          obtain ⟨hsound, hreply⟩ := hs.createSecret (P := P) hk.left
          exact ⟨allows_gw hsound, hreply⟩
      case h_2 before =>
        obtain ⟨hb, hkey⟩ := hr before rfl
        refine (keyed_provideKeys hb.finalizers hb.deleting fun _ => hb).bind fun secret s hk => ?_
        split
        case isFalse => exact abides_ret hk.left
        case isTrue =>
          refine abides_perform fun s' _ hs => ?_
          have hkey' : Store.key (α := Obj .secret) secret = secretKey S gw :=
            (congrArg ObjectMeta.key hk.right).trans hkey
          obtain ⟨hsound, hreply⟩ := hs.updateSecret (P := P) hk.left hkey'
          exact ⟨allows_gw hsound, hreply⟩

theorem served_get {lb : GatewayLBConfiguration} {key : NamespacedName} (hs : Sound S s)
    (h : (State.serve P S.az (.get .lbConfig key) s).1 = .ok lb) : Served lb.status := by
  simp only [State.serve] at h
  split at h
  case h_1 => cases h
  case h_2 hf => exact Except.ok.inj h ▸ hs.lbs _ (List.mem_of_find?_eq_some hf)

theorem served_create {o lb : GatewayLBConfiguration}
    (h : (State.serve P S.az (.create .lbConfig o) s).1 = .ok lb) : Served lb.status := by
  simp only [State.serve, State.commit] at h
  split at h
  case h_1 => cases h
  case h_2 lb' xs he =>
    obtain ⟨_, _, hnew, _⟩ := Store.create_ok he
    obtain rfl := Except.ok.inj h
    rw [hnew]
    intro status hs
    cases hs

theorem served_patch {before after lb : GatewayLBConfiguration} (hs : Sound S s)
    (h : (State.serve P S.az (.patch .lbConfig before after) s).1 = .ok lb) : Served lb.status := by
  simp only [State.serve, State.commit] at h
  split at h
  case h_1 => cases h
  case h_2 lb' xs he =>
    obtain ⟨stored, hf, hnew, _⟩ := Store.patch_ok he
    obtain rfl := Except.ok.inj h
    refine Served.inherits hs.lbs (hnew ▸ Store.inherits_revise hf ?_)
    rw [SameStatus, LawfulResource.withStatus_merge, LawfulResource.withStatus_self]

-- Ownership and specification are all that may differ, so that the status is never patched.
theorem abides_patchChanges_lb {before after : GatewayLBConfiguration} (hb : Served before.status)
    (he : after.status = before.status) :
    Abides (world P S.az) (pact S) .gw (patchChanges .lbConfig before after) s fun lb _ => Served lb.status := by
  have hsame : Resource.withStatus (α := Obj .lbConfig) after before = before := by
    cases before
    exact congrArg (GatewayLBConfiguration.mk _ _) he
  have hself : Resource.withStatus (α := Obj .lbConfig) before after = after := by
    cases after
    exact congrArg (GatewayLBConfiguration.mk _ _) he.symm
  unfold patchChanges
  rw [hself, hsame]
  split
  case isTrue =>
    refine Abides.bind (Q := fun lb _ => Served lb.status) ?_ fun lb _ hlb => ?_
    · exact abides_perform fun s' _ hs => ⟨allows_gw (hs.harmless rfl), fun lb => served_patch (P := P) hs⟩
    · rw [if_neg (not_not.mpr rfl)]
      exact abides_ret hlb
  case isFalse heq =>
    rw [not_not.mp heq]
    exact abides_ret hb

theorem abides_reconcileGatewayLBConfig :
    Abides (world P S.az) (pact S) .gw (reconcileGatewayLBConfig gw) s fun gw' _ =>
      ∃ lb, Served lb.status ∧ gw' = collectLBStatus lb gw := by
  refine Abides.bind (Q := fun r _ => Served r.2.status) ?_ fun r s hs => abides_ret ⟨r.2, hs, rfl⟩
  refine Abides.bind (Q := fun r _ => ∀ before, r = .ok before → Served before.status) ?_ fun r s hr => ?_
  case refine_1 =>
    refine Abides.attempt_ok (abides_read rfl fun s' _ hs before hb => ?_)
    exact served_get (P := P) hs hb
  split
  case h_1 e =>
    split
    case isFalse => exact abides_throw
    case isTrue =>
      refine Abides.bind (Q := fun _ _ => True) (abides_ofExcept fun _ _ => abides_ret trivial) fun lb s _ => ?_
      refine Abides.bind (Q := fun lb _ => Served lb.status) ?_ fun _ _ hlb => abides_ret hlb
      exact abides_perform fun s' _ hs => ⟨allows_gw (hs.harmless rfl), fun lb => served_create (P := P) (S := S)⟩
  case h_2 before =>
    refine Abides.bind (Q := fun after _ => after.status = before.status)
      (abides_ofExcept fun _ _ => abides_ret rfl) fun after s he => ?_
    exact (abides_patchChanges_lb (hr before rfl) he).bind fun _ _ hlb => abides_ret hlb

omit [CaseFold] in
theorem announced_collect {lb : GatewayLBConfiguration} {ref : ObjectReference} {key : String}
    (hb : Announced before.status) (hk : key ≠ "") (hlb : Served lb.status)
    (hgw : gw = { before with
      status.gatewayServerProfile.privateKeySecretRef := some ref
      status.gatewayServerProfile.publicKey           := key }) :
    Announced (collectLBStatus lb gw).status := by
  subst hgw
  unfold collectLBStatus
  split
  case h_1 st _ hst =>
    have ⟨hip, hport⟩ := hlb st hst
    exact fun _ => ⟨hip, hport, hk, nofun⟩
  case h_2 =>
    intro he
    have hc := hb he
    exact ⟨hc.ip, hc.port, hk, nofun⟩

omit [CaseFold] in
theorem collectLBStatus_eq (lb : GatewayLBConfiguration) (gw : StaticGatewayConfiguration) :
    collectLBStatus lb gw = { gw with status := (collectLBStatus lb gw).status } := by
  unfold collectLBStatus
  split <;> rfl

-- Only the status is computed anew.
theorem abides_mutate (hb : Announced before.status) :
    Abides (world P S.az) (pact S) .gw (mutate S before) s fun after _ =>
      Announced after.status ∧ after = { before with status := after.status } := by
  refine abides_reconcileWireguardKey.bind fun gw s ⟨ref, key, hk, hgw⟩ => ?_
  refine abides_reconcileGatewayLBConfig.mono fun after _ ⟨lb, hlb, hafter⟩ => ?_
  subst hafter
  refine ⟨announced_collect hb hk hlb hgw, ?_⟩
  rw [collectLBStatus_eq, hgw]

omit [CaseFold] in
theorem spares_mutate : Spares .gwConfig (mutate S gw) :=
  uses_bind (spares_reconcileWireguardKey (by decide)) fun _ => spares_reconcileGatewayLBConfig (by decide)

theorem pinned_spares {key : NamespacedName} {status : StaticGatewayConfigurationStatus} (hc : c.writes ≠ some .gwConfig)
    (h : Pinned key status s) : Pinned key status ((world P S.az).exec c s).2 := by
  have hi : ((world P S.az).exec c s).2.api.items .gwConfig = s.api.items .gwConfig := (serve_spares hc).items
  rw [Pinned, hi]
  exact h

theorem abides_patchChanges_gw {after : StaticGatewayConfiguration} (ha : Announced after.status)
    (he : after = { before with status := after.status })
    (hp : Pinned before.meta_.key before.status s) :
    Abides (world P S.az) (pact S) .gw (patchChanges .gwConfig before after) s fun _ _ => True := by
  have hself : Resource.withStatus (α := Obj .gwConfig) before after = before := by
    rw [he]
    rfl
  have hkey : Store.key (α := Obj .gwConfig) after = before.meta_.key := by
    rw [he]
    rfl
  unfold patchChanges
  rw [hself, if_neg (not_not.mpr rfl)]
  split
  case isFalse => exact abides_ret trivial
  case isTrue =>
    refine abides_perform fun s' hr hs => ⟨allows_gw (hs.writeGwStatus (P := P) ?_ ha), fun _ _ => trivial⟩
    exact hkey ▸ hr rfl _ _ hp

-- The object is held by its finalizer from the first read to the final write.
theorem abides_publish {status : StaticGatewayConfigurationStatus} (hp : Pinned gw.meta_.key status s) :
    Abides (world P S.az) (pact S) .gw (publish S gw) s fun _ _ => True := by
  refine Abides.bind (Q := fun r s => (∀ e, r = .error e → e.isNotFound = false) ∧ ∀ before, r = .ok before →
    before.meta_.key = gw.meta_.key ∧ Announced before.status ∧ Pinned gw.meta_.key before.status s) ?_ fun r s hr => ?_
  case refine_1 =>
    refine abides_attempt_perform fun s' hr hs f => ?_
    obtain ⟨before, hf, hfin, hst⟩ := hr rfl _ _ hp
    have hserve : (world P S.az).exec (.get .gwConfig (Store.key (α := Obj .gwConfig) gw)) s' = (.ok before, s') := by
      simp only [world, State.serve, Store.key, meta_] at hf ⊢
      rw [hf]
    have hok : Pinned gw.meta_.key before.status s' := ⟨before, hf, hfin, rfl⟩
    cases f
    case none =>
      rw [World.answer_none, hserve]
      refine ⟨Pact.allows_refl hs, by simp, fun b hb => ?_⟩
      obtain rfl := Except.ok.inj hb
      exact ⟨Store.key_of_find hf, hs.gws _ (List.mem_of_find?_eq_some hf), hok⟩
    case lost =>
      refine ⟨Pact.allows_refl hs, fun e he => ?_, by simp⟩
      exact Except.error.inj he ▸ rfl
    case applied =>
      rw [World.answer_applied, hserve]
      refine ⟨Pact.allows_refl hs, fun e he => ?_, by simp⟩
      exact Except.error.inj he ▸ rfl
  case refine_2 =>
    split
    case h_1 e =>
      rw [if_neg (by simp [hr.left e rfl])]
      exact abides_throw
    case h_2 before =>
      obtain ⟨hkey, hann, hpin⟩ := hr.right before rfl
      refine Abides.bind (Abides.frame (abides_mutate hann) spares_mutate (fun s s' hr => hr rfl _ _)
        (fun c s hc => pinned_spares hc) hpin) ?_
      rintro after s ⟨⟨ha, he⟩, hp⟩
      exact (abides_patchChanges_gw ha he (hkey ▸ hp)).bind fun _ _ _ => abides_ret trivial

-- What is written with the finalizer stays as long as it has one.
theorem pinned_update {o o' : StaticGatewayConfiguration}
    (hf : containsFinalizer o.meta_ sgcFinalizerName = true)
    (h : (State.serve P S.az (.update .gwConfig o) s).1 = .ok o') :
    o'.meta_.key = o.meta_.key ∧
    Pinned o.meta_.key o'.status (State.serve P S.az (.update .gwConfig o) s).2 := by
  simp only [State.serve, State.commit] at h ⊢
  split at h
  case h_1 => cases h
  case h_2 o'' xs he =>
    obtain rfl := Except.ok.inj h
    obtain ⟨stored, hfind, _, _, hnew, hxs⟩ := Store.update_ok he
    have hfin : (meta_ (α := Obj .gwConfig) o).finalizers ≠ [] := by
      intro hnil
      have hnil : o.meta_.finalizers = [] := hnil
      simp [containsFinalizer, hnil] at hf
    obtain rfl := (hxs.resolve_left fun hd => hfin hd.right.left).right
    obtain ⟨v, hv⟩ := Store.meta_revise s.api.clock stored (Resource.withStatus (α := Obj .gwConfig) stored
      (Resource.withMeta { meta_ (α := Obj .gwConfig) o with deleting := (meta_ stored).deleting } o))
    have hmeta : meta_ o'' = { meta_ (α := Obj .gwConfig) o with
        deleting := (meta_ stored).deleting, resourceVersion := v } := by
      rw [hnew, hv]
      rfl
    have hkey : Store.key o'' = o.meta_.key := by
      rw [Store.key, hmeta]
      rfl
    refine ⟨hkey, o'', ?_, ?_, rfl⟩
    · have hold : Store.find (s.api.items .gwConfig) (Store.key o'') = some stored := hkey.symm ▸ hfind
      rw [items_store_self, ← hkey]
      exact Store.find_put_self hold
    · rw [hmeta]
      exact hf

omit [CaseFold] in
theorem containsFinalizer_addFinalizer {m : ObjectMeta} {f : String} :
    containsFinalizer (addFinalizer m f) f = true := by
  unfold addFinalizer
  split
  case isTrue h => exact h
  case isFalse  => simp [containsFinalizer]

theorem abides_prepare (hg : Store.find (s.api.items .gwConfig) gw.meta_.key = some gw) :
    Abides (world P S.az) (pact S) .gw (prepare gw) s fun gw' s =>
      ∃ status, Pinned gw'.meta_.key status s := by
  refine abides_ofExcept fun _ _ => ?_
  unfold ensureFinalizer
  split
  case isTrue hf => exact abides_ret ⟨gw.status, gw, hg, hf, rfl⟩
  case isFalse =>
    refine abides_perform fun s' _ hs => ⟨allows_gw (hs.harmless rfl), fun o' ho => ?_⟩
    have ⟨hkey, hp⟩ := pinned_update (P := P) (S := S) containsFinalizer_addFinalizer ho
    exact ⟨_, hkey ▸ hp⟩

theorem abides_gw_reconcile (hg : Store.find (s.api.items .gwConfig) gw.meta_.key = some gw) :
    Abides (world P S.az) (pact S) .gw (GwController.reconcile S gw) s fun _ _ => True := by
  refine Abides.bind (Q := fun _ _ => True)
    (Abides.attempt (Q := fun _ _ => True) ?_ (fun _ _ => id) fun _ _ => trivial) fun _ _ _ => abides_ret trivial
  refine (abides_prepare hg).bind fun gw' s ⟨status, hp⟩ => ?_
  exact Abides.bind (Q := fun _ _ => True) ((abides_publish hp).attempt (fun _ _ => id) fun _ _ => trivial)
    fun _ _ _ => abides_ret trivial

theorem abides_harmless_gw (hc : c.harmless = true) :
    Abides (world P S.az) (pact S) .gw (request c) s fun _ _ => True :=
  abides_perform fun _ _ hs => ⟨allows_gw (hs.harmless hc), fun _ _ => trivial⟩

theorem abides_deleted {k : Kind} {key : NamespacedName} :
    Abides (world P S.az) (pact S) .gw (deleted k key) s fun _ _ => True := by
  refine Abides.bind (Q := fun _ _ => True)
    ((abides_harmless_gw rfl).attempt (fun _ _ => id) fun _ _ => trivial) fun r s _ => ?_
  split
  · exact abides_ret trivial
  · split
    · exact abides_ret trivial
    · exact abides_throw

theorem abides_gw_ensureDeleted :
    Abides (world P S.az) (pact S) .gw (GwController.ensureDeleted S gw) s fun _ _ => True := by
  unfold GwController.ensureDeleted
  split
  · exact abides_ret trivial
  · refine abides_deleted.bind fun _ s _ => abides_deleted.bind fun _ s _ => ?_
    refine abides_when (fun _ => ?_) fun _ => trivial
    exact (abides_harmless_gw rfl).bind fun _ _ _ => abides_ret trivial

theorem abides_gw {req : NamespacedName} :
    Abides (world P S.az) (pact S) .gw (GwController.Reconcile S req) s fun _ _ => True := by
  refine Abides.bind (Q := fun r s => ∀ gw, r = .ok gw →
    Store.find (s.api.items .gwConfig) gw.meta_.key = some gw) ?_ fun r s hr => ?_
  case refine_1 =>
    refine Abides.attempt_ok (abides_read rfl fun s' _ _ gw hg => ?_)
    simp only [State.serve] at hg ⊢
    split at hg
    case h_1 => cases hg
    case h_2 o hf =>
      obtain rfl := Except.ok.inj hg
      have hkey : o.meta_.key = req := Store.key_of_find hf
      rw [hkey, hf]
  case refine_2 =>
    split
    case h_1 =>
      split
      · exact abides_ret trivial
      · exact abides_throw
    case h_2 gw =>
      split
      · exact abides_gw_ensureDeleted
      · exact (abides_gw_reconcile (hr gw rfl)).bind fun o s _ => abides_ofExcept fun _ _ => abides_ret trivial

end Gw

-- What happens around the controllers does not disturb them.
section Environment

variable {key : NamespacedName} {status : StaticGatewayConfigurationStatus}

theorem Sound.outside (h : Sound S s) (ho : Outside P S s s') : Sound S s' := by
  cases ho
  case create k hk o => exact h.harmless (by cases k <;> first | rfl | exact absurd rfl hk)
  case update k hk o hf => exact h.harmless (by cases k <;> first | rfl | exact absurd rfl hk)
  case delete k key => exact h.harmless rfl
  case azure hr ha => exact ⟨fun rule hm => h.rules rule (hr hm), ha ▸ h.secrets, ha ▸ h.lbs, ha ▸ h.gws⟩
  case nodes nodes => exact ⟨h.rules, h.secrets, h.lbs, h.gws⟩

omit [CaseFold] in
theorem finalizers_ne_nil {gw : StaticGatewayConfiguration}
    (h : containsFinalizer gw.meta_ GwController.sgcFinalizerName = true) : gw.meta_.finalizers ≠ [] := by
  intro hnil
  simp [containsFinalizer, hnil] at h

omit [CaseFold] in
-- A write that puts an object in the place of another one with the same status.
theorem Pinned.put {gw new : StaticGatewayConfiguration} (h : Pinned key status s)
    (hf : Store.find (s.api.items .gwConfig) (Store.key (α := Obj .gwConfig) new) = some gw)
    (hs : new.status = gw.status)
    (hc : containsFinalizer gw.meta_ GwController.sgcFinalizerName = true →
      containsFinalizer new.meta_ GwController.sgcFinalizerName = true) :
    Pinned key status (s.store .gwConfig (Store.put (s.api.items .gwConfig) new)) := by
  have ⟨gw', hf', hc', hs'⟩ := h
  rw [Pinned, items_store_self, Store.find_put]
  by_cases hk : key = Store.key (α := Obj .gwConfig) new
  case pos =>
    obtain rfl : gw = gw' := by
      rw [← hk, hf'] at hf
      exact (Option.some.inj hf).symm
    rw [if_pos hk, hf']
    exact ⟨new, rfl, hc hc', hs.trans hs'⟩
  case neg =>
    rw [if_neg hk]
    exact h

theorem Pinned.create {o : StaticGatewayConfiguration} (h : Pinned key status s) :
    Pinned key status (State.serve P S.az (.create .gwConfig o) s).2 := by
  simp only [State.serve, State.commit]
  split
  case h_1 => exact h
  case h_2 o' xs he =>
    obtain ⟨gw, hf, hc, hs⟩ := h
    obtain ⟨_, _, _, hxs⟩ := Store.create_ok he
    refine ⟨gw, ?_, hc, hs⟩
    rw [items_store_self, hxs, Store.find, List.find?_append]
    rw [Store.find] at hf
    rw [hf, Option.some_or]

theorem Pinned.update {o : StaticGatewayConfiguration} (h : Pinned key status s)
    (hf : ∀ stored, Store.find (s.api.items .gwConfig) (Store.key (α := Obj .gwConfig) o) = some stored →
      stored.meta_.finalizers ⊆ o.meta_.finalizers) :
    Pinned key status (State.serve P S.az (.update .gwConfig o) s).2 := by
  simp only [State.serve, State.commit]
  split
  case h_1 => exact h
  case h_2 o' xs he =>
    obtain ⟨stored, hfind, _, _, hnew, hxs⟩ := Store.update_ok he
    have hsub := hf stored hfind
    have hkeep : containsFinalizer stored.meta_ GwController.sgcFinalizerName = true →
        containsFinalizer o.meta_ GwController.sgcFinalizerName = true := by
      simp only [containsFinalizer, List.contains_eq_mem, decide_eq_true_eq]
      exact fun hm => hsub hm
    obtain ⟨v, hv, _⟩ := Store.revise_eq s.api.clock stored (Resource.withStatus (α := Obj .gwConfig) stored
      (Resource.withMeta { meta_ (α := Obj .gwConfig) o with deleting := (meta_ stored).deleting } o))
    have hkey : Store.key o' = Store.key (α := Obj .gwConfig) o := by
      rw [hnew, Store.key_revise]
      rfl
    rcases hxs with ⟨_, hnil, rfl⟩ | ⟨_, rfl⟩
    · -- Only an object without finalizers goes away, and so it is another one.
      obtain ⟨gw, hfg, hc, hs⟩ := h
      refine ⟨gw, ?_, hc, hs⟩
      have hne : key ≠ Store.key (α := Obj .gwConfig) o := by
        rintro rfl
        obtain rfl : stored = gw := Option.some.inj (hfind.symm.trans hfg)
        exact finalizers_ne_nil (hkeep hc) hnil
      rw [items_store_self, Store.find_remove hne]
      exact hfg
    · have hold : Store.find (s.api.items .gwConfig) (Store.key o') = some stored := hkey.symm ▸ hfind
      refine h.put hold ?_ fun hc => ?_
      · rw [hnew, hv]
        rfl
      · rw [hnew, hv]
        exact hkeep hc

theorem Pinned.delete {name : NamespacedName} (h : Pinned key status s) :
    Pinned key status (State.serve P S.az (.delete .gwConfig name) s).2 := by
  simp only [State.serve]
  split
  case h_1 => exact h
  case h_2 xs he =>
    obtain ⟨stored, hfind, hxs⟩ := Store.delete_ok he
    rcases hxs with ⟨hnil, rfl⟩ | ⟨_, rfl⟩
    · obtain ⟨gw, hfg, hc, hs⟩ := h
      refine ⟨gw, ?_, hc, hs⟩
      have hne : key ≠ name := by
        rintro rfl
        obtain rfl : stored = gw := Option.some.inj (hfind.symm.trans hfg)
        exact finalizers_ne_nil hc hnil
      rw [items_store_self, Store.find_remove hne]
      exact hfg
    · obtain ⟨v, hv, _⟩ := Store.revise_eq s.api.clock stored
        (Resource.withMeta { meta_ (α := Obj .gwConfig) stored with deleting := true } stored)
      have hold : Store.find (s.api.items .gwConfig) (Store.key stored) = some stored :=
        (Store.key_of_find hfind).symm ▸ hfind
      rw [hv]
      exact h.put hold rfl id

theorem Pinned.outside (h : Pinned key status s) (ho : Outside P S s s') : Pinned key status s' := by
  have hspared : ∀ {k : Kind} {c : Call}, c.writes = some k → k ≠ .gwConfig →
      Pinned key status (State.serve P S.az c s).2 :=
    fun hc hk => pinned_spares (P := P) (S := S) (by rw [hc]; exact fun he => hk (Option.some.inj he)) h
  cases ho
  case create k hk o =>
    cases k
    case gwConfig => exact h.create
    all_goals exact hspared rfl (by decide)
  case update k hk o hf =>
    cases k
    case gwConfig => exact h.update hf
    all_goals exact hspared rfl (by decide)
  case delete k name =>
    cases k
    case gwConfig => exact h.delete
    all_goals exact hspared rfl (by decide)
  case azure hr ha =>
    rw [Pinned, ha]
    exact h
  case nodes => exact h

end Environment

-- A state in which the controllers have not done anything yet.
structure Unpublished (S : Settings) (s : State) : Prop where
  rules   : s.cloud.rules = []
  secrets : ∀ secret ∈ s.api.items .secret, ∀ gw, Store.key secret ≠ GwController.secretKey S gw
  lbs     : ∀ lb ∈ s.api.items .lbConfig, GatewayLBConfiguration.status lb = none
  gws     : ∀ gw ∈ s.api.items .gwConfig, StaticGatewayConfiguration.status gw = {}

omit [CaseFold] in
theorem Unpublished.sound (h : Unpublished S s) : Sound S s where
  rules rule hm        := by simp [h.rules] at hm
  secrets secret hm gw := fun hk => absurd hk (h.secrets secret hm gw)
  lbs lb hm            := by rw [h.lbs lb hm]; exact nofun
  gws gw hm            := by rw [h.gws gw hm]; exact fun he => absurd rfl he

theorem sound_of_reaches {c : Processes.Config Sig Controller State} (h : Unpublished S s)
    (hr : (system P S).Reaches ⟨s, fun _ => none⟩ c) : Sound S c.state := by
  refine (Processes.Kept.reaches (T := pact S) (fun i p s hj hs => ?_) (fun s s' ho hs => ?_) (.init h.sound) hr).inv
  · cases i <;> obtain ⟨req, rfl⟩ := hj
    case gw => exact abides_gw
    case lb => exact abides_lb
    case vm => exact abides_ofNodes ofNodes_Reconcile
  · exact ⟨hs.outside ho, fun i _ key status hp => hp.outside ho⟩

-- The configurations that the service finds are those of a state that has been reached.
def Reads (P : Platform) (S : Settings) (s : State) (w : CniManager.State) : Prop :=
  ∃ c, (system P S).Reaches ⟨s, fun _ => none⟩ c ∧ w.gwConfigs = c.state.api.items .gwConfig

theorem complete_nicAdd {uid : Nat → String} {req : CniManager.NicAddRequest} {resp : CniManager.NicAddResponse}
    (h : Unpublished S s) (hr : Ends (CniManager.world uid) (Reads P S s) (CniManager.NicAdd req) (.ok resp)) :
    resp.endpointIp ≠ "" ∧ Listening resp.listenPort ∧ resp.publicKey ≠ "" := by
  have ⟨gw, hget, hr⟩ := hr.bind_ok
  have ⟨w, ⟨c, hc, hw⟩, hgw⟩ := hget.mapError_ok.perform_ok
  have hfind : Store.find w.gwConfigs ⟨req.podConfig.podNamespace, req.gatewayName⟩ = some gw := by
    simp only [CniManager.world, CniManager.State.serve, CniManager.State.reply] at hgw
    split at hgw
    case h_1 => nomatch hgw
    case h_2 hf => exact hf.trans (congrArg some (Except.ok.inj hgw))
  have hm : gw ∈ c.state.api.items .gwConfig := hw ▸ List.mem_of_find?_eq_some hfind
  dsimp only at hr
  split at hr
  case isTrue => nomatch hr
  case isFalse he =>
    have hcomplete := (sound_of_reaches h hc).gws gw hm he
    have ⟨pod, _, hr⟩ := hr.bind_ok
    have ⟨endpoint, _, hr⟩ := hr.bind_ok
    cases hr
    exact ⟨hcomplete.ip, hcomplete.port, hcomplete.publicKey⟩

-- Whatever the controllers have done so far and however they were interrupted.
theorem readiness_complete (h : Unpublished S s) :
    (∀ c, (system P S).Reaches ⟨s, fun _ => none⟩ c →
      ∀ gw : StaticGatewayConfiguration, gw ∈ c.state.api.items .gwConfig →
        gw.status.egressIpPrefix ≠ "" → Complete gw.status) ∧
    ∀ uid req resp, Ends (CniManager.world uid) (Reads P S s) (CniManager.NicAdd req) (.ok resp) →
      resp.endpointIp ≠ "" ∧ resp.listenPort ≠ 0 ∧ resp.publicKey ≠ "" := by
  refine ⟨fun c hc gw hm => (sound_of_reaches h hc).gws gw hm, fun uid req resp hr => ?_⟩
  have ⟨hip, hport, hkey⟩ := complete_nicAdd h hr
  refine ⟨hip, fun hz => ?_, hkey⟩
  simp [hz, Listening, wireguardPortStart] at hport

end Manager

namespace Manager

namespace Sample

def request : NamespacedName := ⟨"default", "web"⟩

def wanted : State where
  cloud := { virtualMachines := [virtualMachine "gw"], subnet := some ⟨some "subnet"⟩ }
  api   := {
    items := fun
      | .gwConfig => [{ meta_ := { key := request, uid := "web" }, spec := poolSpec }]
      | _         => [] }

def turn (s : State) : Controller → State
  | .gw => (run (world .simple settings.az) .calm 0 (GwController.Reconcile settings request) s).state
  | .lb => (run (world .simple settings.az) .calm 0 (LBController.Reconcile settings request) s).state
  | .vm => (run (world .simple settings.az) .calm 0 (VMController.Reconcile settings request) s).state

-- The configuration is handed down to the virtual machines, and the result is handed back.
def turns : List Controller := [.gw, .lb, .vm, .lb, .gw]

theorem reaches_turns (s : State) (is : List Controller) :
    (system .simple settings).Reaches ⟨s, fun _ => none⟩ ⟨is.foldl turn s, fun _ => none⟩ := by
  induction is generalizing s
  case nil => exact .refl
  case cons i is hi =>
    refine .trans ?_ (hi (turn s i))
    cases i
    case gw => exact Processes.reaches_run (Y := system .simple settings) (i := .gw) .calm 0 ⟨request, rfl⟩
    case lb => exact Processes.reaches_run (Y := system .simple settings) (i := .lb) .calm 0 ⟨request, rfl⟩
    case vm => exact Processes.reaches_run (Y := system .simple settings) (i := .vm) .calm 0 ⟨request, rfl⟩

theorem unpublished : Unpublished settings wanted where
  rules   := rfl
  secrets := nofun
  lbs     := nofun
  gws gw  := by simp [wanted]; rintro rfl; rfl

-- What the service sees, and a pod that joins the gateway.
def service (s : State) : CniManager.State where
  gwConfigs := s.api.items .gwConfig
  pods      := [{ meta_ := { key := ⟨"default", "pod"⟩, uid := "pod" } }]

def join : CniManager.NicAddRequest where
  podConfig   := { podName := "pod", podNamespace := "default" }
  gatewayName := "web"
  allowedIp   := "10.0.0.9/32"
  publicKey   := "cG9k"

def nicAdd (s : State) : Except CniManager.Failure CniManager.NicAddResponse :=
  (run (CniManager.world Platform.simple.uid) .calm 0 (CniManager.NicAdd join) (service s)).result

-- The service does not write configurations.
theorem Reads.step {c : CniManager.Call} {w : CniManager.State} (h : Reads .simple settings wanted w) :
    Reads .simple settings wanted ((CniManager.world Platform.simple.uid).exec c w).2 := by
  have hsame : ((CniManager.world Platform.simple.uid).exec c w).2.gwConfigs = w.gwConfigs := by
    cases c <;> simp only [CniManager.world, CniManager.State.serve, CniManager.State.reply, CniManager.State.commit]
      <;> split <;> rfl
  have ⟨c', hc, hw⟩ := h
  exact ⟨c', hc, hsame.trans hw⟩

theorem ends_nicAdd {s : State} (h : (system .simple settings).Reaches ⟨wanted, fun _ => none⟩ ⟨s, fun _ => none⟩) :
    Ends (CniManager.world Platform.simple.uid) (Reads .simple settings wanted) (CniManager.NicAdd join) (nicAdd s) :=
  ends_run .calm 0 ⟨_, h, rfl⟩ fun _ _ => Reads.step

end Sample

open Sample in
-- The response to a pod that joins the gateway after the controllers have taken their turns.
theorem readiness_complete_sample :
    ∃ resp, nicAdd (turns.foldl turn wanted) = .ok resp ∧
      resp.endpointIp ≠ "" ∧ resp.listenPort ≠ 0 ∧ resp.publicKey ≠ "" := by
  have hok : (nicAdd (turns.foldl turn wanted)).isOk = true := by decide +kernel
  have ⟨resp, hresp⟩ := ok_of_isOk hok
  have hends := ends_nicAdd (reaches_turns wanted turns)
  rw [hresp] at hends
  exact ⟨resp, hresp, (readiness_complete unpublished).right _ join resp hends⟩

end Manager
