import EgressGateway.Manager.Theorems.Custody
import EgressGateway.Manager.Theorems.Stages

-- Nothing is orphaned: whatever the controllers provide for an object, the object is there with the
-- finalizer of its controller, however the controllers are interleaved and interrupted.

open Kubernetes Azure Text Program

namespace Manager

variable [CaseFold] {S : Settings} {P : Platform} {s s' : State} {c : Call} {i : Controller} {key : NamespacedName}
  {uid name : String}

-- The load balancer controller.
section LB

variable {lb : LoadBalancer} {lbConfig : GatewayLBConfiguration}

theorem quiet_openDraft {needLB updateLB : Bool} : Quiet (openDraft S lbConfig needLB lb updateLB) := by
  refine uses_bind quiet_loadLBPool fun pool => uses_ofExcept fun names _ => ?_
  split
  · exact uses_throw _
  · refine uses_bind (uses_ofExcept fun ip _ => ?_) fun _ => uses_ofExcept fun _ _ => uses_ret _
    split
    · exact uses_bind (uses_perform rfl) fun _ => uses_ret _
    · exact uses_ret _

theorem results_openDraft {needLB updateLB : Bool} :
    Results (fun r : LBPropertyNames × Draft => r.1.lbRuleName = lbConfig.meta_.uid ∧
      ∃ p, lb.properties = some p ∧ r.2.properties.loadBalancingRules = p.loadBalancingRules)
      (openDraft S lbConfig needLB lb updateLB) := by
  refine results_skip fun pool => results_ofExcept fun names hn => ?_
  have hname : names.lbRuleName = lbConfig.meta_.uid := by
    unfold getLBPropertyName at hn
    split at hn
    · cases hn
    · rw [← Except.ok.inj hn]
  split
  case h_1 => exact results_throw
  case h_2 p hp => exact results_skip fun _ => results_ofExcept fun _ _ => results_ret ⟨hname, p, hp, rfl⟩

theorem mem_createRule {expected : LoadBalancingRule} {rules rules' : List LoadBalancingRule} {port : Int} {new : Bool}
    (h : createRule expected rules = .ok (rules', port, new)) :
    ∀ rule ∈ rules', rule ∈ rules ∨ rule.name = expected.name := by
  unfold createRule at h
  split at h
  case h_1 => cases h
  case h_2 =>
    cases h
    intro rule hm
    rcases List.mem_append.mp hm with hm | hm
    · exact .inl hm
    · exact .inr (List.mem_singleton.mp hm ▸ rfl)

theorem mem_ensureRule {expected : LoadBalancingRule} {rules rules' : List LoadBalancingRule} {port : Int} {new : Bool}
    (h : ensureRule expected rules = .ok (rules', port, new)) :
    ∀ rule ∈ rules', rule ∈ rules ∨ rule.name = expected.name := by
  have herase : createRule expected (rules.eraseP (equalFold ·.name expected.name)) = .ok (rules', port, new) →
      ∀ rule ∈ rules', rule ∈ rules ∨ rule.name = expected.name :=
    fun h rule hm => (mem_createRule h rule hm).imp_left List.mem_of_mem_eraseP
  unfold ensureRule at h
  split at h
  case h_1 => exact mem_createRule h
  case h_2 rule hf =>
    split at h
    case h_1 => exact herase h
    case h_2 p hp =>
      split at h
      case isFalse => exact herase h
      case isTrue =>
        cases h
        exact fun rule hm => .inl hm

theorem mem_addRule {names : LBPropertyNames} {d d' : Draft} {port : Int}
    (h : addRule S lbConfig names d = .ok (d', port)) :
    ∀ rule ∈ d'.properties.loadBalancingRules, rule ∈ d.properties.loadBalancingRules ∨ rule.name = names.lbRuleName := by
  unfold addRule at h
  split at h
  case h_1 => cases h
  case h_2 rules lbPort new he =>
    split at h
    case h_1 => cases h
    case h_2 =>
      cases h
      exact mem_ensureRule he

-- The rules that stay, and that there was no other one unless the load balancer has to be updated.
theorem removeRule_stays {names : LBPropertyNames} {d d' : Draft} {unused : Bool}
    (h : removeRule S names d = .ok (d', unused)) :
    (∀ rule ∈ d'.properties.loadBalancingRules, rule ∈ d.properties.loadBalancingRules ∧
      equalFold rule.name names.lbRuleName = false) ∧
    (d'.updateLB = false → d'.properties.loadBalancingRules = d.properties.loadBalancingRules) := by
  obtain ⟨rfl, _⟩ := removeRule_ok h
  refine ⟨fun rule hm => ?_, fun hu => List.filter_eq_self.mpr fun rule hm => ?_⟩
  · obtain ⟨hm, hn⟩ := List.mem_filter.mp hm
    exact ⟨hm, by simpa using hn⟩
  · simp only [Bool.or_eq_false_iff] at hu
    simpa using List.any_eq_false.mp hu.left.right rule hm

theorem names_writeLB {d : Draft} :
    names S .lb (State.serve P S.az (.createOrUpdateLB d.toLB) s).2 = d.properties.loadBalancingRules.map (·.name) := by
  simp [names, State.serve, Cloud.rules, Platform.provisionLB, Draft.toLB]

theorem abides_sendLB {d : Draft} (hb : ∀ name ∈ d.properties.loadBalancingRules.map (·.name), Backed .lb s name) :
    Abides (world P S.az) (custody S) .lb (request (.createOrUpdateLB d.toLB)) s fun _ s' =>
      names S .lb s' = d.properties.loadBalancingRules.map (·.name) := by
  refine abides_perform fun s' hr hs => ⟨allows_own hs (fun j hj => keeps_serve ?_) fun name hn => ?_, fun _ _ => names_writeLB⟩
  · exact fun he => hj (Option.some.inj he).symm
  · have hn : name ∈ d.properties.loadBalancingRules.map (·.name) := by
      rw [← names_writeLB (S := S) (P := P) (s := s')]
      exact hn.left
    obtain ⟨key, uid, hafter, hh⟩ := hr.backed (hb name hn)
    exact ⟨key, uid, hafter, hh⟩

omit [CaseFold] in
theorem held_of_find {o : Obj i.kind} (h : Store.find (s.api.items i.kind) key = some o)
    (hf : containsFinalizer (meta_ o) i.finalizer = true) : Held i (Store.key o) (meta_ o).uid s :=
  ⟨o, Store.find_key h, rfl, hf⟩

-- The load balancer as it has been read, and the object for which it is edited.
theorem abides_addRule {updateLB : Bool} (hh : Held .lb key lbConfig.meta_.uid s)
    (hb : ∀ name ∈ (lb.properties.elim [] (·.loadBalancingRules)).map (·.name), Backed .lb s name) :
    Abides (world P S.az) (custody S) .lb (reconcileLBRuleOn S lbConfig true lb updateLB) s fun _ _ => True := by
  refine Abides.bind ((abides_quiet quiet_openDraft (stable_held.and stable_backed) ⟨hh, hb⟩).results results_openDraft) ?_
  rintro ⟨names, d⟩ s ⟨⟨hh, hb⟩, hname, p, hp, hrules⟩
  refine abides_ofExcept fun (d', port) he => ?_
  have hb' : ∀ name ∈ d'.properties.loadBalancingRules.map (·.name), Backed .lb s name := by
    intro name hn
    obtain ⟨rule, hm, rfl⟩ := List.mem_map.mp hn
    rcases mem_addRule he rule hm with hm | hr
    · exact hb _ (List.mem_map_of_mem (by rw [hp, Option.elim_some, ← hrules]; exact hm))
    · refine ⟨key, lbConfig.meta_.uid, ?_, hh⟩
      rw [hr, hname]
      exact equalFold_refl _
  change Abides _ _ _ (writeRule names d' port) _ _
  unfold writeRule
  split
  case isFalse => exact abides_ret trivial
  case isTrue =>
    refine (abides_sendLB hb').bind fun lb s _ => ?_
    split
    · split
      · exact abides_throw
      · refine abides_ofExcept fun ip _ => ?_
        split
        · exact abides_throw
        · exact abides_ret trivial
    · exact abides_ret trivial

theorem absent_of_names (h : ∀ name ∈ names S .lb s, equalFold name uid = false) : Absent S .lb uid s := by
  intro name hn hafter
  exact Bool.false_ne_true ((h name hn.left).symm.trans hafter)

-- Either nothing has to be written, or what is written does not have the rule any more.
theorem abides_withdraw {d : Draft} (hb : ∀ name ∈ d.properties.loadBalancingRules.map (·.name), Backed .lb s name)
    (hstay : ∀ rule ∈ d.properties.loadBalancingRules, equalFold rule.name uid = false)
    (hkept : d.updateLB = false → Absent S .lb uid s) :
    Abides (world P S.az) (custody S) .lb (writeRemoval d) s fun _ s' => Absent S .lb uid s' := by
  unfold writeRemoval
  split
  case isFalse hu => exact abides_ret (hkept (by simpa using hu))
  case isTrue =>
    refine (abides_sendLB hb).bind fun _ s hn => abides_ret (absent_of_names fun name hm => ?_)
    rw [hn] at hm
    obtain ⟨rule, hr, rfl⟩ := List.mem_map.mp hm
    exact hstay rule hr

theorem abides_removeRule (ha : ∀ name ∈ names S .lb s, name ∈ (lb.properties.elim [] (·.loadBalancingRules)).map (·.name))
    (hb : ∀ name ∈ (lb.properties.elim [] (·.loadBalancingRules)).map (·.name), Backed .lb s name) :
    Abides (world P S.az) (custody S) .lb (reconcileLBRuleOn S lbConfig false lb false) s fun _ s' =>
      Absent S .lb lbConfig.meta_.uid s' := by
  have hstable : Stable S .lb fun s =>
      ∀ name ∈ managed S .lb s, name ∈ (lb.properties.elim [] (·.loadBalancingRules)).map (·.name) :=
    fun s s' hk ha name hn => ha name (hk.managed hn)
  refine Abides.bind ((abides_quiet quiet_openDraft (hstable.and stable_backed)
    ⟨fun name hn => ha name hn.left, hb⟩).results results_openDraft) ?_
  rintro ⟨names', d⟩ s ⟨⟨ha, hb⟩, hname, p, hp, hrules⟩
  refine abides_ofExcept fun (d', unused) he => ?_
  obtain ⟨hstay, hkept⟩ := removeRule_stays he
  have hread : ∀ rule ∈ d.properties.loadBalancingRules,
      rule.name ∈ (lb.properties.elim [] (·.loadBalancingRules)).map (·.name) := by
    intro rule hm
    rw [hp, Option.elim_some, ← hrules]
    exact List.mem_map_of_mem hm
  have hb' : ∀ name ∈ d'.properties.loadBalancingRules.map (·.name), Backed .lb s name := by
    intro name hn
    obtain ⟨rule, hm, rfl⟩ := List.mem_map.mp hn
    exact hb _ (hread rule (hstay rule hm).left)
  have hstay' : ∀ rule ∈ d'.properties.loadBalancingRules, equalFold rule.name lbConfig.meta_.uid = false := by
    intro rule hm
    rw [← hname]
    exact (hstay rule hm).right
  have hkept' : d'.updateLB = false → Absent S .lb lbConfig.meta_.uid s := by
    intro hu name hn hafter
    have hm := ha name hn
    rw [hp, Option.elim_some, ← hrules, ← hkept hu] at hm
    obtain ⟨rule, hr, rfl⟩ := List.mem_map.mp hm
    exact Bool.false_ne_true ((hstay' rule hr).symm.trans hafter)
  dsimp only
  split
  case isFalse => exact abides_withdraw hb' hstay' hkept'
  case isTrue =>
    split
    case isFalse =>
      refine abides_withdraw hb' hstay' fun hu => hkept' ?_
      have hu : (d'.updateLB || _ || _) = false := hu
      simp only [Bool.or_eq_false_iff] at hu
      exact hu.left.left
    case isTrue =>
      refine Abides.bind (Q := fun _ s => Absent S .lb lbConfig.meta_.uid s) ?_ fun _ _ h => abides_ret h
      exact abides_call rfl fun s' _ _ _ _ => absent_of_names fun name hn => by cases hn

def rulesOf (lb : Option LoadBalancer) : List String :=
  ((lb.bind (·.properties)).elim [] (·.loadBalancingRules)).map (·.name)

theorem backed_rules (h : Owned S s) : ∀ name ∈ names S .lb s, Backed .lb s name :=
  fun name hn => h.backed .lb name ⟨hn, name, equalFold_refl name⟩

-- The rules are read, and all of them belong to somebody.
theorem abides_getGatewayLB :
    Abides (world P S.az) (custody S) .lb getGatewayLB s fun r s' =>
      (∀ name ∈ names S .lb s', name ∈ rulesOf r) ∧ ∀ name ∈ rulesOf r, Backed .lb s' name := by
  refine Abides.bind (Q := fun r s' => (∀ lb, r = .ok lb → names S .lb s' = rulesOf (some lb) ∧ Owned S s') ∧
    ∀ e, r = .error e → e.isNotFound = true → names S .lb s' = []) ?_ ?_
  case refine_1 =>
    refine abides_attempt rfl fun s' _ hs => ⟨⟨fun lb he => ?_, fun e he _ => ?_⟩, fun e s'' hf => ⟨by simp, ?_⟩⟩
    · simp only [State.serve] at he ⊢
      split at he
      case h_1 => cases he
      case h_2 lb' hlb =>
        obtain rfl := Except.ok.inj he
        refine ⟨?_, hs⟩
        rw [names, Cloud.rules, hlb]
        rfl
    · simp only [State.serve] at he ⊢
      split at he
      case h_1 hlb =>
        rw [names, Cloud.rules, hlb]
        rfl
      case h_2 => cases he
    · rintro e' he hn
      obtain rfl := Except.error.inj he
      rw [hf] at hn
      cases hn
  case refine_2 =>
    rintro r s ⟨hok, herr⟩
    split
    case h_1 lb =>
      obtain ⟨hn, hs⟩ := hok lb rfl
      exact abides_ret ⟨fun name hm => hn ▸ hm, fun name hm => backed_rules hs name (hn ▸ hm)⟩
    case h_2 e =>
      split
      case isFalse => exact abides_throw
      case isTrue hf =>
        have hn := herr e rfl hf
        refine abides_ret ⟨?_, fun name hm => by cases hm⟩
        rw [hn]
        simp

theorem abides_provideRule (hh : Held .lb key lbConfig.meta_.uid s) :
    Abides (world P S.az) (custody S) .lb (reconcileLBRule S lbConfig true) s fun _ _ => True := by
  refine Abides.bind (abides_getGatewayLB.and (abides_quiet ?_ stable_held hh)) ?_
  · refine uses_bind (uses_attempt (uses_perform rfl)) fun r => ?_
    split
    · exact uses_ret _
    · split
      · exact uses_ret _
      · exact uses_throw _
  · rintro r s ⟨⟨_, hb⟩, hh⟩
    cases r
    case some lb => exact abides_addRule hh hb
    case none    => exact abides_addRule hh fun name hn => by cases hn

theorem abides_withdrawRule :
    Abides (world P S.az) (custody S) .lb (reconcileLBRule S lbConfig false) s fun _ s' =>
      Absent S .lb lbConfig.meta_.uid s' := by
  refine Abides.bind abides_getGatewayLB ?_
  rintro r s ⟨ha, hb⟩
  cases r
  case some lb => exact abides_removeRule ha hb
  case none    => exact abides_ret (absent_of_names fun name hn => by cases ha name hn)

open LBController

omit [CaseFold] in
theorem quiet_reconcileGatewayVMConfig : Quiet (reconcileGatewayVMConfig lbConfig) :=
  uses_bind (quiet_createOrPatch (by decide) fun _ => uses_ofExcept fun _ _ => uses_ret _) fun _ => uses_ret _

theorem custody_lb_reconcile {o : GatewayLBConfiguration}
    (ho : containsFinalizer o.meta_ lbConfigFinalizerName = true → Held .lb (Store.key (α := Obj .lbConfig) o) o.meta_.uid s) :
    Abides (world P S.az) (custody S) .lb (LBController.reconcile S o) s fun _ _ => True := by
  refine Abides.bind (Q := fun _ _ => True) (Abides.attempt (Q := fun _ _ => True) ?_ (fun _ _ => id) fun _ _ => trivial)
    fun _ _ _ => abides_ret trivial
  refine Abides.bind (Q := fun _ _ => True) ?_ fun (existing, computed) s _ => ?_
  · refine Abides.bind (abides_ensureFinalizer (i := .lb) ho) ?_
    rintro existing s ⟨_, huid, hh⟩
    have huid : existing.meta_.uid = o.meta_.uid := huid
    have hh : Held .lb (Store.key (α := Obj .lbConfig) o) existing.meta_.uid s := huid ▸ hh
    refine Abides.bind (abides_provideRule hh) fun frontend s _ => ?_
    exact (abides_quiet quiet_reconcileGatewayVMConfig stable_true trivial).bind fun _ _ _ => abides_ret trivial
  · refine (abides_quiet ?_ stable_true trivial).bind fun _ _ _ => abides_ret trivial
    exact uses_storeStatus rfl

theorem custody_lb_ensureDeleted :
    Abides (world P S.az) (custody S) .lb (LBController.ensureDeleted S lbConfig) s fun _ _ => True := by
  unfold LBController.ensureDeleted
  split
  · exact abides_ret trivial
  · refine (abides_quiet (uses_attempt (uses_perform rfl)) stable_true trivial).bind fun r s _ => ?_
    split
    · exact abides_ret trivial
    · split
      · exact abides_throw
      · refine abides_withdrawRule.bind fun _ s ha => ?_
        exact (abides_releaseFinalizer (i := .lb) ha).bind fun _ _ _ => abides_ret trivial

theorem custody_lb {req : NamespacedName} :
    Abides (world P S.az) (custody S) .lb (LBController.Reconcile S req) s fun _ _ => True := by
  refine Abides.bind abides_get fun r s hr => ?_
  split
  case h_1 =>
    split
    · exact abides_ret trivial
    · exact abides_throw
  case h_2 lbConfig =>
    have hstable : Stable S .lb fun s => containsFinalizer lbConfig.meta_ lbConfigFinalizerName = true →
        Held .lb (Store.key (α := Obj .lbConfig) lbConfig) lbConfig.meta_.uid s :=
      fun s s' hk h hf => hk.held (h hf)
    refine (abides_quiet (uses_perform rfl) hstable fun hf => held_of_find (i := .lb) (hr lbConfig rfl) hf).bind
      fun _ s hh => ?_
    split
    · exact custody_lb_ensureDeleted
    · exact (custody_lb_reconcile hh).bind fun o s _ => abides_ofExcept fun _ _ => abides_ret trivial

end LB

-- The virtual machine controller.
section VM

open VMController

variable {vmConfig : GatewayVMConfiguration} {length : Int}

theorem absent_of_prefixes
    (h : ∀ p ∈ s.cloud.prefixes, prefixNamed (S.az.orDefault "") (managedResourcePrefix ++ uid) p = false) :
    Absent S .vm uid s := by
  rintro name ⟨hn, _⟩ hafter
  obtain ⟨p, hp, rfl⟩ := List.mem_map.mp hn
  obtain ⟨hp, hrg⟩ := List.mem_filter.mp hp
  have hnamed : prefixNamed (S.az.orDefault "") (managedResourcePrefix ++ uid) p = true :=
    Bool.and_eq_true_iff.mpr ⟨hrg, hafter⟩
  exact Bool.false_ne_true ((h p hp).symm.trans hnamed)

theorem names_createPrefix (hn : name ∈ names S .vm (State.serve P S.az
    (.createOrUpdatePublicIPPrefix "" (managedResourcePrefix ++ uid) length) s).2) :
    name ∈ names S .vm s ∨ name = managedResourcePrefix ++ uid := by
  obtain ⟨p, hp, rfl⟩ := List.mem_map.mp hn
  obtain ⟨hp, hrg⟩ := List.mem_filter.mp hp
  rcases List.mem_append.mp hp with hp | hp
  · exact .inl (List.mem_map_of_mem (List.mem_filter.mpr ⟨(List.mem_filter.mp hp).left, hrg⟩))
  · exact .inr (List.mem_singleton.mp hp ▸ rfl)

theorem abides_createPrefix (hh : Held .vm key uid s) :
    Abides (world P S.az) (custody S) .vm (createOrUpdatePublicIPPrefix (managedResourcePrefix ++ uid) length) s
      fun _ _ => True := by
  unfold createOrUpdatePublicIPPrefix guarded
  split
  · exact abides_throw
  · refine abides_perform fun s' hr hs => ⟨allows_own hs (fun j hj => keeps_serve ?_) fun name hn => ?_, fun _ _ => trivial⟩
    · exact fun he => hj (Option.some.inj he).symm
    · have hheld : ∀ {key uid'}, Held .vm key uid' s' → Held .vm key uid' (State.serve P S.az
          (.createOrUpdatePublicIPPrefix "" (managedResourcePrefix ++ uid) length) s').2 :=
        fun hh => held_serve (fun o => nofun) hh
      rcases names_createPrefix hn.left with hold | rfl
      · obtain ⟨key, uid', hafter, hh⟩ := hs.backed .vm name ⟨hold, hn.right⟩
        exact ⟨key, uid', hafter, hheld hh⟩
      · exact ⟨key, uid, equalFold_refl _, hheld (hr.held hh)⟩

theorem quiet_useProvidedPrefix {id : String} : Quiet (useProvidedPrefix S length id) := by
  unfold useProvidedPrefix
  split
  · split
    · exact uses_throw _
    · refine uses_bind (uses_mapError (uses_guarded rfl)) fun p => ?_
      split
      · exact uses_throw _
      · split
        · exact uses_throw _
        · exact uses_ret _
  · exact uses_throw _

theorem abides_ensurePrefix (hh : Held .vm key vmConfig.meta_.uid s) :
    Abides (world P S.az) (custody S) .vm (ensurePublicIPPrefix S length vmConfig) s fun _ _ => True := by
  unfold ensurePublicIPPrefix
  split
  · exact abides_ret trivial
  · split
    · exact abides_quiet quiet_useProvidedPrefix stable_true trivial
    · refine (abides_quiet (uses_attempt (uses_guarded rfl)) stable_held hh).bind fun r s hh => ?_
      split
      · split
        · exact abides_throw
        · exact abides_ret trivial
      · split
        · exact abides_throw
        · refine (abides_createPrefix hh).mapError.bind fun p s _ => ?_
          split
          · exact abides_throw
          · exact abides_ret trivial

omit [CaseFold] in
theorem quiet_releasePublicIP {pip : Option SubResource} : Quiet (releasePublicIP S pip) := by
  unfold releasePublicIP
  split
  · exact uses_ret _
  · split
    · exact uses_throw _
    · refine uses_bind (uses_attempt (uses_guarded rfl)) fun r => ?_
      split
      · exact uses_ret _
      · split
        · exact uses_ret _
        · exact uses_throw _

omit [CaseFold] in
theorem quiet_ensurePublicIPPrefixDeleted : Quiet (ensurePublicIPPrefixDeleted S vmConfig) := by
  refine uses_bind (uses_attempt (uses_guarded rfl)) fun r => ?_
  split
  · split
    · exact uses_ret _
    · exact uses_throw _
  · refine uses_bind (uses_forEach fun _ _ => quiet_releasePublicIP) fun _ => ?_
    exact uses_mapError (uses_guarded rfl)

theorem abides_prefixDeleted :
    Abides (world P S.az) (custody S) .vm (ensurePublicIPPrefixDeleted S vmConfig) s fun _ s' =>
      Absent S .vm vmConfig.meta_.uid s' := by
  refine Abides.bind (Q := fun r s' => ∀ e, r = .error e → e.isNotFound = true → Absent S .vm vmConfig.meta_.uid s') ?_ ?_
  case refine_1 =>
    unfold getPublicIPPrefix guarded
    split
    case h_1 =>
      refine abides_ret fun e he hf => ?_
      obtain rfl := Except.error.inj he
      cases hf
    case h_2 =>
      refine abides_attempt rfl fun s' _ hs => ⟨fun e he _ => absent_of_prefixes ?_, fun e s'' hf e' he hn => ?_⟩
      · simp only [State.serve] at he ⊢
        split at he
        case h_1 hf =>
          exact fun p hp => Bool.eq_false_iff.mpr (List.find?_eq_none.mp hf p hp)
        case h_2 => cases he
      · obtain rfl := Except.error.inj he
        rw [hf] at hn
        cases hn
  case refine_2 =>
    intro r s hr
    split
    case h_1 e =>
      split
      case isTrue hf => exact abides_ret (hr e rfl hf)
      case isFalse   => exact abides_throw
    case h_2 =>
      refine (abides_quiet (uses_forEach fun _ _ => quiet_releasePublicIP) stable_true trivial).bind fun _ s _ => ?_
      refine Abides.mapError ?_
      unfold deletePublicIPPrefix guarded
      split
      · exact abides_throw
      · refine abides_call rfl fun s' _ _ _ _ => absent_of_prefixes fun p hp => ?_
        exact (Bool.not_eq_true' _).mp (List.mem_filter.mp hp).right

theorem custody_vm_reconcile
    (ho : containsFinalizer vmConfig.meta_ vmConfigFinalizerName = true →
      Held .vm (Store.key (α := Obj .vmConfig) vmConfig) vmConfig.meta_.uid s) :
    Abides (world P S.az) (custody S) .vm (VMController.reconcile S vmConfig) s fun _ _ => True := by
  refine Abides.bind (Q := fun _ _ => True) (Abides.attempt (Q := fun _ _ => True) ?_ (fun _ _ => id) fun _ _ => trivial)
    fun _ _ _ => abides_ret trivial
  refine Abides.bind (Q := fun _ _ => True) ?_ fun (existing, computed) s _ => ?_
  · refine Abides.bind (abides_ensureFinalizer (i := .vm) ho) ?_
    rintro existing s ⟨_, huid, hh⟩
    have huid : existing.meta_.uid = vmConfig.meta_.uid := huid
    have hh : Held .vm (Store.key (α := Obj .vmConfig) vmConfig) existing.meta_.uid s := huid ▸ hh
    refine (abides_quiet quiet_loadVMPool stable_held hh).bind fun (pool, length) s hh => ?_
    refine (abides_ensurePrefix hh).bind fun egress s _ => ?_
    refine (abides_quiet quiet_pool stable_true trivial).bind fun (ips, computed) s _ => ?_
    exact (abides_quiet (uses_when quiet_ensurePublicIPPrefixDeleted) stable_true trivial).bind
      fun _ _ _ => abides_ret trivial
  · exact (abides_quiet (uses_storeStatus rfl) stable_true trivial).bind fun _ _ _ => abides_ret trivial

theorem custody_vm_ensureDeleted :
    Abides (world P S.az) (custody S) .vm (VMController.ensureDeleted S vmConfig) s fun _ _ => True := by
  unfold VMController.ensureDeleted
  split
  · exact abides_ret trivial
  · refine (abides_quiet quiet_loadVMPool stable_true trivial).bind fun (pool, length) s _ => ?_
    refine (abides_quiet quiet_pool stable_true trivial).bind fun (ips, vmConfig') s _ => ?_
    refine abides_prefixDeleted.bind fun _ s ha => ?_
    exact (abides_releaseFinalizer (i := .vm) ha).bind fun _ _ _ => abides_ret trivial

-- A reconcile does not let go of any object.
theorem held_reconcile :
    (VMController.reconcile S vmConfig).Uses fun c => ∀ s key uid, Held .vm key uid s →
      Held .vm key uid (State.serve P S.az c s).2 := by
  have hquiet : ∀ {α : Type} {p : M α}, Quiet p → p.Uses fun c => ∀ s key uid, Held .vm key uid s →
      Held .vm key uid (State.serve P S.az c s).2 := fun hp => hp.mono fun c hc s key uid hh =>
    held_serve (fun o he => by rw [he] at hc; cases hc) hh
  refine uses_bind (uses_attempt (uses_bind ?_ fun r => ?_)) fun _ => uses_ret _
  · refine uses_bind ?_ fun existing => uses_bind (hquiet quiet_loadVMPool) fun (pool, length) => ?_
    · unfold ensureFinalizer
      split
      · exact uses_ret _
      · refine uses_perform fun s key uid hh => held_finalizer (i := .vm) ?_ hh
        rw [LawfulResource.meta_withMeta]
        exact containsFinalizer_addFinalizer
    · refine uses_bind (plain_ensurePublicIPPrefix.mono fun c hc s key uid hh => ?_) fun egress => ?_
      · exact held_serve (fun o he => by rw [he] at hc; cases hc) hh
      · exact uses_bind (hquiet quiet_pool) fun r =>
          uses_bind (uses_when (hquiet quiet_ensurePublicIPPrefixDeleted)) fun _ => uses_ret _
  · exact uses_bind (hquiet (uses_storeStatus rfl)) fun _ => uses_ret _

-- The configurations that have been listed with the finalizer still have it.
def Listed (vmConfigs : List GatewayVMConfiguration) (s : State) : Prop :=
  ∀ v ∈ vmConfigs, containsFinalizer v.meta_ vmConfigFinalizerName = true →
    Held .vm (Store.key (α := Obj .vmConfig) v) v.meta_.uid s

-- All of them are reconciled one after the other.
theorem custody_vm_reconcileNode {name : String} :
    Abides (world P S.az) (custody S) .vm (reconcileNode S name) s fun _ _ => True := by
  refine (abides_quiet (uses_attempt (uses_perform rfl)) stable_true trivial).bind fun r s _ => ?_
  split
  · split
    · exact abides_ret trivial
    · exact abides_throw
  · refine Abides.bind (Q := Listed) ?_ fun vmConfigs s hall => ?_
    · refine abides_call rfl fun s' _ hs vmConfigs he v hv hf => ?_
      obtain rfl := Except.ok.inj he
      exact held_of_find (i := .vm) (Store.find_of_unique (hs.unique .vmConfig) hv) hf
    · refine Abides.bind (Q := fun _ s => Listed vmConfigs s) (abides_forFold hall fun errs v hv s hall => ?_) ?_
      · refine Abides.bind ((custody_vm_reconcile (hall v (List.mem_filter.mp hv).left)).frame (J := Listed vmConfigs)
          held_reconcile (fun s s' hk hall v hv hf => hk.held (hall v hv hf))
          (fun c s hc hall v hv hf => hc s _ _ (hall v hv hf)) hall) ?_
        rintro o s ⟨_, hall⟩
        split
        · exact abides_ret hall
        · exact abides_ret hall
      · intro r s _
        split
        · exact abides_ret trivial
        · exact abides_throw

theorem custody_vm {req : NamespacedName} :
    Abides (world P S.az) (custody S) .vm (VMController.Reconcile S req) s fun _ _ => True := by
  unfold VMController.Reconcile
  split
  · exact custody_vm_reconcileNode
  · refine Abides.bind abides_get fun r s hr => ?_
    split
    case h_1 =>
      split
      · exact abides_ret trivial
      · exact abides_throw
    case h_2 vmConfig =>
      have hstable : Stable S .vm fun s => containsFinalizer vmConfig.meta_ vmConfigFinalizerName = true →
          Held .vm (Store.key (α := Obj .vmConfig) vmConfig) vmConfig.meta_.uid s :=
        fun s s' hk h hf => hk.held (h hf)
      refine (abides_quiet (uses_perform rfl) hstable fun hf => held_of_find (i := .vm) (hr vmConfig rfl) hf).bind
        fun _ s hh => ?_
      split
      · exact custody_vm_ensureDeleted
      · exact (custody_vm_reconcile hh).bind fun o s _ => abides_ofExcept fun _ _ => abides_ret trivial

end VM

-- The controller of the static gateway configurations.
section Gw

open GwController

variable {gw : StaticGatewayConfiguration} {secret : Secret}

omit [CaseFold] in
theorem quiet_provideKeys : Quiet (provideKeys gw secret) := by
  unfold provideKeys
  dsimp only
  split
  · exact uses_ret _
  · exact uses_bind (uses_perform rfl) fun _ => uses_ret _

omit [CaseFold] in
theorem results_provideKeys : Results (fun r => r.meta_ = secret.meta_) (provideKeys gw secret) := by
  unfold provideKeys
  dsimp only
  split
  · exact results_ret rfl
  · exact results_skip fun _ => results_ret rfl

theorem names_createSecret {o : Secret} (ho : o.meta_.key = secretKey S gw)
    (hn : name ∈ names S .gw (State.serve P S.az (.create .secret o) s).2) :
    name ∈ names S .gw s ∨ name = "sgw-" ++ gw.meta_.uid := by
  obtain ⟨x, hx, rfl⟩ := List.mem_map.mp hn
  obtain ⟨hx, hns⟩ := List.mem_filter.mp hx
  simp only [State.serve, State.commit] at hx
  split at hx
  case h_1 => exact .inl (List.mem_map_of_mem (List.mem_filter.mpr ⟨hx, hns⟩))
  case h_2 o' xs he =>
    rw [items_store_self] at hx
    obtain ⟨_, _, ho', rfl⟩ := Store.create_ok he
    rcases List.mem_append.mp hx with hx | hx
    · exact .inl (List.mem_map_of_mem (List.mem_filter.mpr ⟨hx, hns⟩))
    · obtain rfl := List.mem_singleton.mp hx
      have hkey : Store.key x = secretKey S gw := by
        rw [ho', Store.key, LawfulResource.meta_clearStatus, LawfulResource.meta_withMeta]
        exact ho
      exact .inr (by rw [hkey]; rfl)

theorem abides_createSecret {o : Secret} (ho : o.meta_.key = secretKey S gw) (hh : Held .gw key gw.meta_.uid s) :
    Abides (world P S.az) (custody S) .gw (request (.create .secret o)) s fun _ _ => True := by
  refine abides_perform fun s' hr hs => ⟨allows_own hs (fun j hj => keeps_serve ?_) fun name hn => ?_, fun _ _ => trivial⟩
  · exact fun he => hj (Option.some.inj he).symm
  · have hheld : ∀ {key uid}, Held .gw key uid s' → Held .gw key uid (State.serve P S.az (.create .secret o) s').2 :=
      fun hh => held_serve (fun o => nofun) hh
    rcases names_createSecret ho hn.left with hold | rfl
    · obtain ⟨key, uid, hafter, hh⟩ := hs.backed .gw name ⟨hold, hn.right⟩
      exact ⟨key, uid, hafter, hheld hh⟩
    · exact ⟨key, gw.meta_.uid, rfl, hheld (hr.held hh)⟩

theorem custody_reconcileWireguardKey (hh : Held .gw key gw.meta_.uid s) :
    Abides (world P S.az) (custody S) .gw (reconcileWireguardKey S gw) s fun _ _ => True := by
  refine Abides.bind (Q := fun _ _ => True) ?_ fun _ _ _ => abides_ret trivial
  refine (abides_quiet (uses_attempt (uses_perform rfl)) stable_held hh).bind fun r s hh => ?_
  split
  case h_1 =>
    split
    case isFalse => exact abides_throw
    case isTrue =>
      refine Abides.bind ((abides_quiet quiet_provideKeys stable_held hh).results results_provideKeys) ?_
      rintro o s ⟨hh, hm⟩
      exact abides_createSecret (by rw [hm]; rfl) hh
  case h_2 before =>
    refine (abides_quiet quiet_provideKeys stable_true trivial).bind fun after s _ => ?_
    split
    · exact abides_quiet (uses_perform rfl) stable_true trivial
    · exact abides_ret trivial

omit [CaseFold] in
theorem quiet_reconcileGatewayLBConfig : Quiet (reconcileGatewayLBConfig gw) :=
  uses_bind (quiet_createOrPatch (by decide) fun _ => uses_ofExcept fun _ _ => uses_ret _) fun _ => uses_ret _

-- The object that is found again is the one that is held.
theorem custody_publish (hh : Held .gw gw.meta_.key uid s) :
    Abides (world P S.az) (custody S) .gw (publish S gw) s fun _ _ => True := by
  refine Abides.bind (Q := fun r s => (∀ e, r = .error e → e.isNotFound = false) ∧
    ∀ before, r = .ok before → Held .gw gw.meta_.key before.meta_.uid s) ?_ ?_
  case refine_1 =>
    refine abides_attempt_perform fun s' hr hs f => ?_
    obtain ⟨before, hf, rfl, hc⟩ := hr.held hh
    have hserve : (world P S.az).exec (.get .gwConfig (Store.key (α := Obj .gwConfig) gw)) s' = (.ok before, s') := by
      simp only [world, State.serve, Store.key, meta_] at hf ⊢
      rw [hf]
    cases f
    case none =>
      rw [World.answer_none, hserve]
      refine ⟨Pact.allows_refl hs, by simp, fun b hb => ?_⟩
      obtain rfl := Except.ok.inj hb
      exact hr.held hh
    case lost =>
      refine ⟨Pact.allows_refl hs, fun e he => ?_, by simp⟩
      exact Except.error.inj he ▸ rfl
    case applied =>
      rw [World.answer_applied, hserve]
      refine ⟨Pact.allows_refl hs, fun e he => ?_, by simp⟩
      exact Except.error.inj he ▸ rfl
  case refine_2 =>
    rintro r s ⟨herr, hok⟩
    split
    case h_1 e =>
      rw [if_neg (by simp [herr e rfl])]
      exact abides_throw
    case h_2 before =>
      refine Abides.bind (Q := fun _ _ => True) ?_ fun after s _ => ?_
      · refine (custody_reconcileWireguardKey (hok before rfl)).bind fun gw s _ => ?_
        exact abides_quiet quiet_reconcileGatewayLBConfig stable_true trivial
      · exact (abides_quiet quiet_patchChanges stable_true trivial).bind fun _ _ _ => abides_ret trivial

theorem custody_gw_reconcile
    (ho : containsFinalizer gw.meta_ sgcFinalizerName = true →
      Held .gw (Store.key (α := Obj .gwConfig) gw) gw.meta_.uid s) :
    Abides (world P S.az) (custody S) .gw (GwController.reconcile S gw) s fun _ _ => True := by
  refine Abides.bind (Q := fun _ _ => True)
    (Abides.attempt (Q := fun _ _ => True) ?_ (fun _ _ => id) fun _ _ => trivial) fun _ _ _ => abides_ret trivial
  refine Abides.bind (abides_ofExcept fun _ _ => abides_ensureFinalizer (i := .gw) ho) ?_
  rintro gw' s ⟨hkey, _, hh⟩
  have hkey : gw'.meta_.key = Store.key (α := Obj .gwConfig) gw := hkey
  exact Abides.bind (Q := fun _ _ => True) ((custody_publish (hkey ▸ hh)).attempt (fun _ _ => id) fun _ _ => trivial)
    fun _ _ _ => abides_ret trivial

theorem absent_of_secret (h : Store.find (s.api.items .secret) (secretKey S gw) = none) : Absent S .gw gw.meta_.uid s := by
  rintro name ⟨hn, _⟩ hafter
  obtain ⟨x, hx, rfl⟩ := List.mem_map.mp hn
  obtain ⟨hx, hns⟩ := List.mem_filter.mp hx
  have hkey : Store.key x = secretKey S gw := by
    have hns : (Store.key x).namespace_ = S.secretNamespace := by simpa using hns
    have hafter : (Store.key x).name = "sgw-" ++ gw.meta_.uid := hafter
    rw [secretKey, ← hns, ← hafter]
  simpa [hkey] using List.find?_eq_none.mp h x hx

-- There is nothing to be deleted only if there is no secret.
theorem custody_deleted :
    Abides (world P S.az) (custody S) .gw (deleted .secret (secretKey S gw)) s fun r s' =>
      r = true → Absent S .gw gw.meta_.uid s' := by
  refine Abides.bind (Q := fun r s' => ∀ e, r = .error e → e.isNotFound = true → Absent S .gw gw.meta_.uid s') ?_ ?_
  case refine_1 =>
    refine abides_attempt rfl fun s' _ hs => ⟨fun e he _ => absent_of_secret ?_, fun e s'' hf e' he hn => ?_⟩
    · simp only [State.serve] at he ⊢
      split at he
      case h_2 => cases he
      case h_1 hd =>
        unfold Store.delete at hd
        split at hd
        case h_1 hf => exact hf
        case h_2 => split at hd <;> cases hd
    · obtain rfl := Except.error.inj he
      rw [hf] at hn
      cases hn
  case refine_2 =>
    intro r s hr
    split
    case h_1 => exact abides_ret (by simp)
    case h_2 e =>
      split
      case isTrue hf => exact abides_ret fun _ => hr e rfl hf
      case isFalse   => exact abides_throw

theorem custody_gw_ensureDeleted :
    Abides (world P S.az) (custody S) .gw (GwController.ensureDeleted S gw) s fun _ _ => True := by
  unfold GwController.ensureDeleted
  split
  · exact abides_ret trivial
  · refine custody_deleted.bind fun secretDeleted s ha => ?_
    have hstable : Stable S .gw fun s => secretDeleted = true → Absent S .gw gw.meta_.uid s :=
      fun s s' hk ha hd => stable_absent s s' hk (ha hd)
    refine Abides.bind (abides_quiet ?_ hstable ha) fun lbConfigDeleted s ha => ?_
    · refine uses_bind (uses_attempt (uses_perform rfl)) fun r => ?_
      split
      · exact uses_ret _
      · split
        · exact uses_ret _
        · exact uses_throw _
    · refine abides_when (fun hd => ?_) fun _ => trivial
      have hd : secretDeleted = true := (Bool.and_eq_true_iff.mp hd).left
      exact (abides_releaseFinalizer (i := .gw) (ha hd)).bind fun _ _ _ => abides_ret trivial

theorem custody_gw {req : NamespacedName} :
    Abides (world P S.az) (custody S) .gw (GwController.Reconcile S req) s fun _ _ => True := by
  refine Abides.bind abides_get fun r s hr => ?_
  split
  case h_1 =>
    split
    · exact abides_ret trivial
    · exact abides_throw
  case h_2 gw =>
    split
    · exact custody_gw_ensureDeleted
    · refine (custody_gw_reconcile fun hf => held_of_find (i := .gw) (hr gw rfl) hf).bind fun o s _ => ?_
      exact abides_ofExcept fun _ _ => abides_ret trivial

end Gw

section Environment

theorem keeps_outside (ho : Outside P S s s') (hp : managed S .vm s' ⊆ managed S .vm s) : Keeps S i s s' := by
  cases ho
  case create k hk o =>
    refine keeps_serve ?_
    cases k
    case secret => exact absurd rfl hk
    all_goals simp [Call.concerns]
  case update k hk o hf =>
    refine ⟨fun hh => ?_, fun name hn => ⟨?_, hn.right⟩⟩
    · by_cases hi : k = i.kind
      case neg => exact held_spared (serve_spares (by simpa [Call.writes] using hi)).items hh
      case pos =>
        subst hi
        refine held_commit hh fun _ _ he => Store.Held.update hh he ?_
        rintro rfl
        obtain ⟨stored, hfind, _, hc⟩ := hh
        simp only [containsFinalizer, List.contains_eq_mem, decide_eq_true_eq] at hc ⊢
        exact hf stored hfind hc
    · rw [← names_api (P := P) (c := .update k o) (by simp [Call.writes]) (by simpa [Call.writes] using hk)]
      exact hn.left
  case delete k key => exact keeps_serve (by simp [Call.concerns])
  case azure hr ha =>
    refine ⟨held_spared (by rw [ha]), ?_⟩
    cases i
    case gw =>
      rintro name ⟨hn, hafter⟩
      simp only [names, ha] at hn
      exact ⟨hn, hafter⟩
    case lb => exact fun name hn => ⟨List.map_subset _ hr hn.left, hn.right⟩
    case vm => exact hp
  case nodes nodes => exact ⟨id, fun _ hn => by cases i <;> exact hn⟩

theorem unique_outside {k : Kind} (ho : Outside P S s s') (h : Store.Unique (s.api.items k)) :
    Store.Unique (s'.api.items k) := by
  cases ho
  case create | update | delete => exact unique_serve h
  case azure ha =>
    rw [ha]
    exact h
  case nodes => exact h

end Environment

-- The controllers among users who do not create prefixes with the names of managed ones.
def tended (P : Platform) (S : Settings) : Processes Sig Controller State :=
  { system P S with outside := fun s s' => Outside P S s s' ∧ managed S .vm s' ⊆ managed S .vm s }

-- Every key secret, every rule of the load balancer and every managed prefix is named after an object that
-- is there with its finalizer, at any time.
theorem resources_held {c : Processes.Config Sig Controller State} (h : Owned S s)
    (hr : (tended P S).Reaches ⟨s, fun _ => none⟩ c) :
    ∀ i, ∀ name ∈ managed S i c.state, ∃ key uid, NamedAfter i uid name ∧ Held i key uid c.state := by
  refine (Processes.Kept.reaches (T := custody S) (fun i p s hj hs => ?_) (fun s s' ho hs => ?_) (.init h) hr).inv.backed
  · cases i <;> obtain ⟨req, rfl⟩ := hj
    case gw => exact custody_gw
    case lb => exact custody_lb
    case vm => exact custody_vm
  · have hk : ∀ i, Keeps S i s s' := fun i => keeps_outside ho.left ho.right
    exact ⟨hs.keeps (fun k => unique_outside ho.left (hs.unique k)) hk, hk⟩

end Manager

namespace Manager

namespace Sample

theorem tended_turns (s : State) (is : List Controller) :
    (tended .simple settings).Reaches ⟨s, fun _ => none⟩ ⟨is.foldl turn s, fun _ => none⟩ := by
  induction is generalizing s
  case nil => exact .refl
  case cons i is hi =>
    refine .trans ?_ (hi (turn s i))
    cases i
    case gw => exact Processes.reaches_run (Y := tended .simple settings) (i := .gw) .calm 0 ⟨request, rfl⟩
    case lb => exact Processes.reaches_run (Y := tended .simple settings) (i := .lb) .calm 0 ⟨request, rfl⟩
    case vm => exact Processes.reaches_run (Y := tended .simple settings) (i := .vm) .calm 0 ⟨request, rfl⟩

theorem wanted_owned : Owned settings wanted where
  unique k := by cases k <;> simp [Store.Unique, wanted]
  backed i name hn := by
    obtain ⟨hn, _⟩ := hn
    cases i <;> simp [names, wanted, Cloud.rules] at hn

end Sample

open Sample in
theorem resources_held_sample :
    ∃ name ∈ names settings .lb (turns.foldl turn wanted), ∃ key uid,
      NamedAfter .lb uid name ∧ Held .lb key uid (turns.foldl turn wanted) := by
  have hne : names settings .lb (turns.foldl turn wanted) ≠ [] := by decide +kernel
  have hr := tended_turns wanted turns
  generalize turns.foldl turn wanted = s at hne hr ⊢
  have ⟨name, hn⟩ := List.exists_mem_of_ne_nil _ hne
  exact ⟨name, hn, resources_held wanted_owned hr .lb name ⟨hn, name, equalFold_refl name⟩⟩

end Manager
