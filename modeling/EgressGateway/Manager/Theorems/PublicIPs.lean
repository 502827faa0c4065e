import EgressGateway.Manager.Theorems.Backends
import EgressGateway.Manager.Theorems.Client
import EgressGateway.Manager.Theorems.Pool

-- The public IP addresses of the nodes of a pool of virtual machines: who refers to them, and when they
-- are released.

open Kubernetes Azure Text Program Keyed

namespace Manager

variable [CaseFold] {S : Settings} {P : Platform}

def Config.publicIP (c : Config) : Option PublicIPAddress :=
  (present c).bind fun (_, p) => p.publicIPAddress

open Config

-- The IP configuration with the given name refers to a public IP address.
def RefersTo (name : String) (nic : Azure.Interface) (q : PublicIPAddress) : Prop :=
  ∃ c ∈ configsOf nic, isTarget name c = true ∧ ∃ r ∈ publicIP c, r.id = q.id

-- The name of a public IP address, if it is shown at all, is the one that its ID belongs to.
def Labelled (S : Settings) (P : Platform) (r : PublicIPAddress) : Prop :=
  r.name = none ∨ ∃ name, r.name = some name ∧ r.id = some (P.publicIPID (S.az.orDefault "") name)

def LabelledNIC (S : Settings) (P : Platform) (name : String) (nic : Azure.Interface) : Prop :=
  ∀ c ∈ configsOf nic, isTarget name c = true → ∀ r ∈ publicIP c, Labelled S P r

section Edit

variable {name pool : String} {want : Bool} {expected : InterfaceIPConfiguration} {cs : List Config}

theorem mem_of_mem_search {c : Config} (h : c ∈ (searchConfigs name want expected cs).configs) : c ∈ cs := by
  fun_induction searchConfigs name want expected cs
  case case1 | case4 => exact h
  case case2 => nomatch h
  case case3 d _ _ e ds r hi =>
    rcases List.mem_cons.mp h with rfl | hc
    · simp
    · simp [hi hc]
  case case5 d ds _ r hi =>
    rcases List.mem_cons.mp h with rfl | hc
    · simp
    · simp [hi hc]

-- A target that is found is kept.
theorem search_found (h : (searchConfigs name want expected cs).found = true) :
    ∃ c ∈ (searchConfigs name want expected cs).configs, isTarget name c = true ∧
      c.any (differentNIC · expected) = false := by
  fun_induction searchConfigs name want expected cs
  case case1 | case2 => nomatch h
  case case3 d _ _ e ds r hi =>
    have ⟨c, hc, hk⟩ := hi h
    exact ⟨c, List.mem_cons_of_mem _ hc, hk⟩
  case case4 d ds ht hd =>
    simp only [Bool.or_eq_true, not_or, Bool.not_eq_true] at hd
    exact ⟨d, List.mem_cons_self, ht, hd.right⟩
  case case5 d ds _ r hi =>
    have ⟨c, hc, hk⟩ := hi h
    exact ⟨c, List.mem_cons_of_mem _ hc, hk⟩

-- The loop over the primary IP configurations does not care about the public IP addresses.
theorem joinBackendPool_forall₂ (name pool : String) (b : Bool) (cs : List Config) :
    List.Forall₂ (fun c d => (isTarget name d = isTarget name c) ∧ publicIP d = publicIP c)
      cs (joinBackendPool pool b cs).1 := by
  have hadd : ∀ c : Config, isTarget name (addPool pool c) = isTarget name c ∧ publicIP (addPool pool c) = publicIP c
    | none | some ⟨_, none⟩ | some ⟨_, some _⟩ => ⟨rfl, rfl⟩
  induction cs generalizing b
  case nil => exact .nil
  case cons c cs hi =>
    rw [joinBackendPool]
    split
    case isFalse => exact .cons ⟨rfl, rfl⟩ (hi b)
    case isTrue =>
      refine .cons ?_ (hi _)
      split
      · exact hadd c
      · exact ⟨rfl, rfl⟩

theorem isTarget_provision {now : Nat} {nicName : String} (c : Config) :
    isTarget name (c.map (P.provisionIPConfiguration now nicName)) = isTarget name c := by
  match c with
  | none | some ⟨_, none⟩ | some ⟨_, some _⟩ => rfl

theorem publicIP_provision {now : Nat} {nicName : String} (c : Config) :
    publicIP (c.map (P.provisionIPConfiguration now nicName)) = (publicIP c).map P.readPublicIP := by
  match c with
  | none | some ⟨_, none⟩ | some ⟨_, some _⟩ => rfl

theorem Labelled.read {r : PublicIPAddress} (h : Labelled S P r) : Labelled S P (P.readPublicIP r) := by
  rcases P.readPublicIP_eq r with he | he
  · rwa [he]
  · exact he ▸ .inl rfl

theorem id_readPublicIP (r : PublicIPAddress) : (P.readPublicIP r).id = r.id := by
  rcases P.readPublicIP_eq r with he | he <;> rw [he]

-- The name of a public IP address can be recovered from its ID.
def Parses (S : Settings) (P : Platform) : Prop :=
  ∀ id nicName nm, buildPublicIPName S id nicName = .ok nm →
    S.resourceName (P.publicIPID (S.az.orDefault "") nm) = some nm

theorem labelled_publicIPOf {prefixID : String} {nic : Azure.Interface} {q : PublicIPAddress}
    (h : publicIPOf S P prefixID want nic = some q) :
    ∃ nm, nm ≠ "" ∧ q.name = some nm ∧ q.id = some (P.publicIPID (S.az.orDefault "") nm) := by
  unfold publicIPOf at h
  split at h
  case isFalse => nomatch h
  case isTrue =>
    obtain ⟨nm, hn, rfl⟩ := Option.map_eq_some_iff.mp h
    refine ⟨nm, ?_, rfl, rfl⟩
    rintro rfl
    unfold buildPublicIPName at hn
    split at hn
    · nomatch hn
    · rename_i resource _
      have hlen := congrArg String.length (Option.some.inj hn)
      simp at hlen

theorem Parses.publicIPOf (hS : Parses S P) {prefixID nm : String} {nic : Azure.Interface} {q : PublicIPAddress}
    (h : publicIPOf S P prefixID want nic = some q) (hn : q.name = some nm) :
    S.resourceName (P.publicIPID (S.az.orDefault "") nm) = some nm := by
  unfold Manager.publicIPOf at h
  split at h
  case isFalse => nomatch h
  case isTrue =>
    obtain ⟨nm', hb, rfl⟩ := Option.map_eq_some_iff.mp h
    obtain rfl := Option.some.inj hn
    refine hS prefixID (val nic.name) nm' ?_
    cases hb' : buildPublicIPName S prefixID (val nic.name)
    case ok v  =>
      rw [hb'] at hb
      exact congrArg _ (Option.some.inj hb)
    case error => simp [hb', Except.toOption] at hb

-- What an unchanged target says about its public IP address.
theorem publicIP_of_same {c : Config} {subnetID : String} {q : PublicIPAddress} (ht : isTarget name c = true)
    (h : c.any (differentNIC · (expectedNICConfig name subnetID (some q))) = false) :
    ∃ r ∈ publicIP c, val r.name = val q.name := by
  match c with
  | none | some ⟨_, none⟩ => nomatch ht
  | some ⟨n, some p⟩      =>
    simp only [Option.any_some, differentNIC, expectedNICConfig, differs, Bool.or_eq_false_iff] at h
    have hpip := h.right
    cases hp : p.publicIPAddress
    case none   => simp [hp] at hpip
    case some r =>
      simp only [hp, Bool.or_eq_false_iff, decide_eq_false_iff_not, not_not] at hpip
      exact ⟨r, hp, hpip.left⟩

end Edit

section EditedNIC

variable {name prefixID pool : String} {want : Bool} {nic nic' : Azure.Interface}

-- The IP configurations of an edited interface: each is one that has been there or the expected one, up to
-- what the target is not recognised by, and the expected one is among them if it is wanted.
theorem editNIC_configs {subnetID : String} {pip : Option PublicIPAddress} {p : InterfaceProperties}
    {e : InterfaceProperties × Bool}
    (he : e = editNIC name pool want (expectedNICConfig name subnetID pip) p) :
    ∃ cs, e.1.ipConfigurations = some cs ∧
      (∀ c ∈ cs, ∃ d, (d ∈ nicConfigs p ∨ d = some (expectedNICConfig name subnetID pip)) ∧
        isTarget name c = isTarget name d ∧ publicIP c = publicIP d) ∧
      (want = true →
        (∃ c ∈ nicConfigs p, isTarget name c = true ∧
          c.any (differentNIC · (expectedNICConfig name subnetID pip)) = false ∧
          ∃ d ∈ cs, isTarget name d = true ∧ publicIP d = publicIP c) ∨
        e.2 = true ∧ ∃ d ∈ cs, isTarget name d = true ∧ publicIP d = pip) := by
  let expected := expectedNICConfig name subnetID pip
  let r := searchConfigs name want expected (nicConfigs p)
  let missing := want && !r.found
  let configs := if missing then r.configs ++ [some expected] else r.configs
  have hj := joinBackendPool_forall₂ name pool true configs
  have hexp : isTarget name (some expected) = true := equalFold_refl name
  refine ⟨(joinBackendPool pool true configs).1, he ▸ rfl, ?_, ?_⟩
  case refine_1 =>
    intro c hc
    have ⟨d, hd, ht, hp⟩ := forall₂_right hj hc
    refine ⟨d, ?_, ht, hp⟩
    by_cases hm : missing = true
    case neg => exact .inl (mem_of_mem_search (by simpa only [configs, if_neg hm] using hd))
    case pos =>
      rw [show configs = r.configs ++ [some expected] from if_pos hm] at hd
      rcases List.mem_append.mp hd with hd | hd
      · exact .inl (mem_of_mem_search hd)
      · exact .inr (List.mem_singleton.mp hd)
  case refine_2 =>
    intro hw
    by_cases hf : r.found = true
    case pos =>
      have ⟨c, hc, ht, hsame⟩ := search_found hf
      have hcs : configs = r.configs := if_neg (by simp [missing, hf])
      have ⟨d, hd, htd, hpd⟩ := forall₂_left hj (hcs ▸ hc)
      exact .inl ⟨c, mem_of_mem_search hc, ht, hsame, d, hd, htd.trans ht, hpd⟩
    case neg =>
      have hm : missing = true := by simp [missing, hw, hf]
      have hmem : some expected ∈ configs := by simp [configs, hm]
      have ⟨d, hd, htd, hpd⟩ := forall₂_left hj hmem
      refine .inr ⟨?_, d, hd, htd.trans hexp, hpd⟩
      have he₂ : e.2 = (r.dropped || missing || (joinBackendPool pool true configs).2) := he ▸ rfl
      rw [he₂, hm]
      simp

-- An edited interface is still labelled, and refers to the public IP address that it is meant to have.
theorem EditedNIC.labelled (h : EditedNIC S P name prefixID pool want nic nic') (hl : LabelledNIC S P name nic) :
    LabelledNIC S P name nic' := by
  obtain ⟨e, ⟨p, hp, _, heq⟩, he⟩ := h
  have hcs : configsOf nic = nicConfigs p := by rw [configsOf, hp]; rfl
  rcases he with ⟨_, rfl⟩ | ⟨now, rfl⟩
  case inl => exact hl
  case inr =>
    obtain ⟨cs, hcs', hmem, _⟩ := editNIC_configs heq
    intro c' hc' ht r' hr'
    rw [configsOf_provision hcs'] at hc'
    obtain ⟨c, hc, rfl⟩ := List.mem_map.mp hc'
    rw [isTarget_provision] at ht
    rw [publicIP_provision] at hr'
    obtain ⟨r, hr, rfl⟩ := Option.map_eq_some_iff.mp hr'
    obtain ⟨d, hd, htd, hpd⟩ := hmem c hc
    rw [hpd] at hr
    refine Labelled.read ?_
    rcases hd with hd | rfl
    · exact hl d (hcs ▸ hd) (htd ▸ ht) r hr
    · obtain ⟨nm, _, hn, hi⟩ := labelled_publicIPOf (show publicIPOf S P prefixID want nic = some r from hr)
      exact .inr ⟨nm, hn, hi⟩

-- A target that can stay refers to the address by its name, and thereby by its ID.
theorem LabelledNIC.stays {c : Config} {q : PublicIPAddress} {subnetID : String} (hl : LabelledNIC S P name nic)
    (hq : publicIPOf S P prefixID want nic = some q) (hc : c ∈ configsOf nic) (ht : isTarget name c = true)
    (hsame : c.any (differentNIC · (expectedNICConfig name subnetID (some q))) = false) :
    ∃ r ∈ publicIP c, r.id = q.id := by
  have ⟨nm, hne, hn, hi⟩ := labelled_publicIPOf hq
  have ⟨r, hr, hv⟩ := publicIP_of_same ht hsame
  refine ⟨r, hr, ?_⟩
  rcases hl c hc ht r hr with hnone | ⟨nm', hn', hi'⟩
  · rw [hnone, hn] at hv
    exact absurd hv.symm hne
  · rw [hn', hn] at hv
    obtain rfl : nm' = nm := hv
    exact hi'.trans hi.symm

theorem EditedNIC.refersTo {q : PublicIPAddress} (h : EditedNIC S P name prefixID pool true nic nic')
    (hl : LabelledNIC S P name nic) (hq : publicIPOf S P prefixID true nic = some q) : RefersTo name nic' q := by
  obtain ⟨e, ⟨p, hp, _, heq⟩, he⟩ := h
  have hcs : configsOf nic = nicConfigs p := by rw [configsOf, hp]; rfl
  rw [hq] at heq
  obtain ⟨cs, hcs', _, hwant⟩ := editNIC_configs heq
  rcases he with ⟨hf, rfl⟩ | ⟨now, rfl⟩
  case inl =>
    rcases hwant rfl with ⟨c, hc, ht, hsame, _⟩ | ⟨hu, _⟩
    · exact ⟨c, hcs ▸ hc, ht, hl.stays hq (hcs ▸ hc) ht hsame⟩
    · exact absurd (hf.symm.trans hu) Bool.false_ne_true
  case inr =>
    obtain ⟨d, hd, htd, r, hr, hid⟩ : ∃ d ∈ cs, isTarget name d = true ∧ ∃ r ∈ publicIP d, r.id = q.id := by
      rcases hwant rfl with ⟨c, hc, ht, hsame, d, hd, htd, hpd⟩ | ⟨_, d, hd, htd, hpd⟩
      · exact ⟨d, hd, htd, hpd ▸ hl.stays hq (hcs ▸ hc) ht hsame⟩
      · exact ⟨d, hd, htd, q, hpd, rfl⟩
    refine ⟨_, configsOf_provision hcs' ▸ List.mem_map_of_mem hd, (isTarget_provision d).trans htd, P.readPublicIP r, ?_, ?_⟩
    · rw [publicIP_provision, hr]
      rfl
    · exact (id_readPublicIP r).trans hid

end EditedNIC

section Prefix

variable {s : State} {vmConfig : GatewayVMConfiguration}

-- The managed prefix of a configuration.
def managedPrefix (S : Settings) (c : Cloud) (name : String) : Option PublicIPPrefix :=
  c.findPrefix (S.az.orDefault "") name

-- Its ID, which a prefix that does not exist yet will have.
def managedPrefixID (S : Settings) (P : Platform) (c : Cloud) (name : String) : String :=
  (managedPrefix S c name).elim (P.prefixID (S.az.orDefault "") name) (val ·.id)

theorem wp_findPrefix {C : Contract Sig State} {rg name : String} (ho : ∀ c s, C.owe c s) :
    wp (world P S.az) C (VMController.getPublicIPPrefix rg name) (fun r s' => s' = s ∧
      (∀ q, r = .ok q → name ≠ "" ∧
        ∃ p, s.cloud.findPrefix (S.az.orDefault rg) name = some p ∧ q = s.cloud.showPrefix p) ∧
      ∀ e, r = .error e → e.isNotFound = true → s.cloud.findPrefix (S.az.orDefault rg) name = none) s := by
  have hother {e : Err} (he : e.isNotFound = false) : ∀ e', (Except.error e : Except Err PublicIPPrefix) = .error e' →
      e'.isNotFound = true → s.cloud.findPrefix (S.az.orDefault rg) name = none := by
    rintro _ ⟨⟩ hn
    cases he.symm.trans hn
  unfold VMController.getPublicIPPrefix guarded
  split
  case h_1 => exact ⟨rfl, by simp, hother rfl⟩
  case h_2 hname =>
    have hname : name ≠ "" := by simpa using hname
    refine wp_perform.mpr ⟨ho _ _, fun f _ => ?_⟩
    have hread : (State.serve P S.az (.getPublicIPPrefix rg name) s).2 = s := serve_reads rfl
    cases f
    case lost    => exact ⟨rfl, by simp, hother rfl⟩
    case applied => exact ⟨hread, by simp, hother rfl⟩
    case none =>
      refine ⟨hread, fun q hq => ?_, fun e he _ => ?_⟩
      all_goals simp only [World.answer_none, world, State.serve] at *
      · split at hq
        · cases hq
        · exact ⟨hname, _, ‹_›, (Except.ok.inj hq).symm⟩
      · split at he
        · assumption
        · cases he

theorem wp_getPublicIPPrefix {name : String} :
    wp (world P S.az) (.faults fun _ => True) (VMController.getPublicIPPrefix "" name) (fun r s' => s' = s ∧
      (∀ q, r = .ok q → ∃ p, managedPrefix S s.cloud name = some p ∧ q = s.cloud.showPrefix p) ∧
      (∀ e, r = .error e → e.isNotFound = true → managedPrefix S s.cloud name = none)) s :=
  wp_mono (wp_findPrefix fun _ _ => trivial) fun _ _ ⟨hs, hok, herr⟩ => ⟨hs, fun q hq => (hok q hq).right, herr⟩

theorem prefixNamed_provisionPrefix {now : Nat} {rg name : String} {length : Int} :
    prefixNamed rg name (P.provisionPrefix now rg name length) = true := by
  simp [prefixNamed, Platform.provisionPrefix, equalFold_refl]

theorem returns_useManagedPrefix {length : Int} {name : String} :
    Returns (world P S.az) (VMController.useManagedPrefix length name) s fun egress s' =>
      egress.isManaged = true ∧ egress.ipPrefixID = managedPrefixID S P s.cloud name ∧
      (∃ p, managedPrefix S s'.cloud name = some p ∧ p.properties.isSome = true ∧
        val p.id = managedPrefixID S P s.cloud name) ∧
      ∃ ps n, s'.cloud = { s.cloud with prefixes := ps, writes := n } := by
  refine (returns_attempt wp_getPublicIPPrefix).bind ?_
  rintro r s' ⟨rfl, hok, herr⟩
  split
  case h_1 q =>
    obtain ⟨p, hp, rfl⟩ := hok _ rfl
    split
    case h_1 => exact returns_throw
    case h_2 props hprops =>
      have hid : val p.id = managedPrefixID S P s'.cloud name := by rw [managedPrefixID, hp]; rfl
      refine returns_ret ⟨rfl, hid, ⟨p, hp, ?_, hid⟩, _, _, rfl⟩
      have ⟨q, hq, _⟩ := Option.map_eq_some_iff.mp hprops
      rw [hq]
      rfl
  case h_2 e =>
    split
    case isTrue => exact returns_throw
    case isFalse hn =>
      have hnone := herr e rfl (by simpa using hn)
      have hid : P.prefixID (S.az.orDefault "") name = managedPrefixID S P s'.cloud name := by
        rw [managedPrefixID, hnone]
        rfl
      refine Returns.bind (P := fun p s₁ => ∃ now length,
          p = P.provisionPrefix now (S.az.orDefault "") name length ∧
          s₁.cloud = { s'.cloud with
            prefixes := s'.cloud.prefixes.filter (!prefixNamed (S.az.orDefault "") name ·) ++ [p]
            writes   := s'.cloud.writes + 1 })
        (returns_guarded fun p hp => ⟨_, _, (Except.ok.inj hp).symm, by rw [← Except.ok.inj hp]; rfl⟩).mapError ?_
      rintro p s₁ ⟨now, length, rfl, hs₁⟩
      refine returns_ret ⟨rfl, hid, ⟨P.provisionPrefix now (S.az.orDefault "") name length, ?_, rfl, hid⟩,
        _, _, hs₁⟩
      rw [managedPrefix, Cloud.findPrefix, hs₁, List.find?_append]
      have hf : (s'.cloud.prefixes.filter (!prefixNamed (S.az.orDefault "") name ·)).find?
          (prefixNamed (S.az.orDefault "") name) = none :=
        List.find?_eq_none.mpr fun q hq => by simpa using (List.mem_filter.mp hq).right
      rw [hf, List.find?_cons_of_pos prefixNamed_provisionPrefix]
      rfl

-- The effect of releasing the public IP addresses with the given IDs.
structure Released (S : Settings) (ids : List (Option SubResource)) (c c' : Cloud) : Prop where
  rest : ∃ pips n, c' = { c with publicIPs := pips, writes := n }
  sub  : ∀ q ∈ c'.publicIPs, q ∈ c.publicIPs
  gone : ∀ x ∈ ids, ∀ id ∈ x.bind (·.id), ∀ nm, S.resourceName id = some nm →
    ∀ q ∈ c'.publicIPs, publicIPNamed nm q = false

theorem Released.refl {c : Cloud} : Released S [] c c where
  rest := ⟨_, _, rfl⟩
  sub  := fun _ hq => hq
  gone := nofun

theorem Released.trans {xs ys : List (Option SubResource)} {c c' c'' : Cloud} (h : Released S xs c c')
    (h' : Released S ys c' c'') : Released S (xs ++ ys) c c'' where
  rest :=
    have ⟨_, _, hr⟩ := h.rest
    have ⟨_, _, hr'⟩ := h'.rest
    ⟨_, _, by rw [hr', hr]⟩
  sub  := fun q hq => h.sub q (h'.sub q hq)
  gone x hx id hid nm hn q hq := by
    rcases List.mem_append.mp hx with hx | hx
    · exact h.gone x hx id hid nm hn q (h'.sub q hq)
    · exact h'.gone x hx id hid nm hn q hq

theorem wp_deletePublicIP {name : String} :
    wp (world P S.az) (.faults fun _ => True) (VMController.deletePublicIP name) (fun r s' =>
      r = .ok () ∨ (∃ e, r = .error e ∧ e.isNotFound = true) →
        (∃ pips n, s'.cloud = { s.cloud with publicIPs := pips, writes := n }) ∧
        s'.cloud.publicIPs = s.cloud.publicIPs.filter (!publicIPNamed name ·)) s := by
  unfold VMController.deletePublicIP guarded
  split
  case h_1 =>
    rintro (h | ⟨e, he, hn⟩)
    · cases h
    · cases he
      cases hn
  case h_2 =>
    refine wp_perform_faults ?_ (fun _ => ?_) fun _ => ?_
    case refine_1 =>
      intro _
      simp only [world, State.serve]
      split
      case isTrue => exact ⟨⟨_, _, rfl⟩, rfl⟩
      case isFalse h =>
        refine ⟨⟨_, _, rfl⟩, (List.filter_eq_self.mpr fun q hq => ?_).symm⟩
        simpa using fun hn => h (List.any_eq_true.mpr ⟨q, hq, hn⟩)
    all_goals
      rintro (h | ⟨e, he, hn⟩)
      · cases h
      · cases he
        cases hn

theorem returns_releasePublicIP {x : Option SubResource} :
    Returns (world P S.az) (VMController.releasePublicIP S x) s fun _ s' =>
      Released S [x] s.cloud s'.cloud := by
  have hidle : (∀ id ∈ x.bind (·.id), S.resourceName id = none) → Released S [x] s.cloud s.cloud := by
    refine fun hn => ⟨⟨_, _, rfl⟩, fun _ hq => hq, fun y hy id hid nm hnm => ?_⟩
    obtain rfl := List.mem_singleton.mp hy
    nomatch (hn id hid).symm.trans hnm
  unfold VMController.releasePublicIP
  split
  case h_1 hx => exact returns_ret (hidle (by simp [hx]))
  case h_2 pipID hx =>
    split
    case h_1 => exact returns_throw
    case h_2 name hn =>
      refine (returns_attempt wp_deletePublicIP).bind fun r s' hr => ?_
      have hgone : r = .ok () ∨ (∃ e, r = .error e ∧ e.isNotFound = true) →
          Released S [x] s.cloud s'.cloud := by
        intro h
        have ⟨hrest, hpips⟩ := hr h
        refine ⟨hrest, fun q hq => ?_, fun y hy id hid nm hnm q hq => ?_⟩
        · exact (List.mem_filter.mp (hpips ▸ hq)).left
        · obtain rfl := List.mem_singleton.mp hy
          obtain rfl := Option.some.inj (hx.symm.trans hid)
          obtain rfl := Option.some.inj (hn.symm.trans hnm)
          rw [hpips, List.mem_filter] at hq
          simpa using hq.right
      split
      case h_1 => exact returns_ret (hgone (.inl rfl))
      case h_2 e =>
        split
        case isTrue he  => exact returns_ret (hgone (.inr ⟨e, rfl, he⟩))
        case isFalse he => exact returns_throw

-- Once the managed prefix is deleted, so are the addresses that were taken from it.
theorem returns_ensurePublicIPPrefixDeleted :
    Returns (world P S.az) (VMController.ensurePublicIPPrefixDeleted S vmConfig) s fun _ s' =>
      s'.cloud.interfaces = s.cloud.interfaces ∧
      (∀ q ∈ s'.cloud.publicIPs, q ∈ s.cloud.publicIPs) ∧
      ∀ p, managedPrefix S s.cloud (managedSubresourceName vmConfig) = some p → p.properties.isSome = true →
        ∀ q ∈ s.cloud.publicIPs, Cloud.takenFrom (val p.id) q = true → ∀ id ∈ q.id,
          ∀ nm, S.resourceName id = some nm → ∀ q' ∈ s'.cloud.publicIPs, publicIPNamed nm q' = false := by
  refine (returns_attempt wp_getPublicIPPrefix).bind ?_
  rintro r s' ⟨rfl, hok, herr⟩
  split
  case h_1 e =>
    split
    case isTrue he =>
      refine returns_ret ⟨rfl, fun _ hq => hq, fun p hp => ?_⟩
      cases (herr e rfl he).symm.trans hp
    case isFalse => exact returns_throw
  case h_2 found =>
    obtain ⟨p, hp, rfl⟩ := hok _ rfl
    refine (returns_forEach (J := fun done s₁ => Released S done s'.cloud s₁.cloud) [] .refl ?_).bind ?_
    case refine_1 => exact fun done x _ s₁ h => returns_releasePublicIP.mono fun _ _ h' => h.trans h'
    case refine_2 =>
      intro _ s₁ h
      refine (returns_guarded fun _ _ => ?_).mapError
      obtain ⟨_, _, hrest⟩ := h.rest
      refine ⟨by simp only [State.serve, hrest], h.sub, fun p' hp' hprops q hq hfrom id hid => ?_⟩
      obtain rfl := Option.some.inj (hp.symm.trans hp')
      refine h.gone (some ⟨q.id⟩) ?_ id hid
      obtain ⟨props, hprops⟩ := Option.isSome_iff_exists.mp hprops
      simp only [Cloud.showPrefix, hprops, Option.map_some, Option.elim_some, List.nil_append]
      exact List.mem_map.mpr ⟨q, List.mem_filter.mpr ⟨hq, hfrom⟩, rfl⟩

end Prefix

-- The names of the public IP addresses of the nodes of the pool `a`.
def nodeIPs (S : Settings) (P : Platform) (prefixID a : String) (c : Cloud) : Set String :=
  { nm | ∃ nic ∈ c.interfaces, isGatewayNIC a nic = true ∧
    ∃ r, publicIPOf S P prefixID true nic = some r ∧ r.name = some nm }

-- Every public IP address among `N` that exists is taken from the managed prefix for some node, the
-- interface of which refers to it.
structure Accounted (S : Settings) (P : Platform) (name a : String) (N : Set String) (c : Cloud) : Prop where
  distinct : Distinct c.interfaces
  labelled : ∀ nic ∈ c.interfaces, LabelledNIC S P name nic
  held     : ∀ nm ∈ N, ∀ q ∈ c.publicIPs, publicIPNamed nm q = true →
    ∃ p, managedPrefix S c name = some p ∧ p.properties.isSome = true ∧
    ∃ nic ∈ c.interfaces, isGatewayNIC a nic = true ∧
      publicIPOf S P (val p.id) true nic = some q ∧ RefersTo name nic q

section Accounted

variable {name a pool prefixID : String} {N : Set String} {c c₁ c' : Cloud}

theorem publicIPOf_congr {want : Bool} {nic nic' : Azure.Interface} (h : nic'.name = nic.name) :
    publicIPOf S P prefixID want nic' = publicIPOf S P prefixID want nic := by
  rw [publicIPOf, h, publicIPOf]

theorem publicIPOf_none {want : Bool} {nic : Azure.Interface} : publicIPOf S P "" want nic = none := by
  simp [publicIPOf]

theorem publicIPNamed_self {q : PublicIPAddress} {nm : String} (h : q.name = some nm) :
    publicIPNamed nm q = true := by
  rw [publicIPNamed, h]
  exact equalFold_refl nm

theorem Accounted.mono {N' : Set String} (h : Accounted S P name a N c) (hN : N' ⊆ N) :
    Accounted S P name a N' c :=
  { h with held := fun nm hm => h.held nm (hN hm) }

-- What the loop over the interfaces does not touch.
theorem managedPrefix_effect {want : Bool} {nics : List Azure.Interface}
    (h : VMsEffect S P name prefixID pool want nics c c') : managedPrefix S c' name = managedPrefix S c name := by
  have ⟨_, _, _, hr⟩ := h.rest
  rw [managedPrefix, hr]
  rfl

theorem distinct_effect {want : Bool} {nics : List Azure.Interface}
    (h : VMsEffect S P name prefixID pool want nics c c') (hd : Distinct c.interfaces) : Distinct c'.interfaces := by
  refine hd.congr (h.interfaces.imp fun n n' hn => ?_)
  split at hn
  · exact hn.name_eq
  · rw [hn]

theorem labelled_effect {want : Bool} {nics : List Azure.Interface}
    (h : VMsEffect S P name prefixID pool want nics c c') (hl : ∀ nic ∈ c.interfaces, LabelledNIC S P name nic) :
    ∀ nic ∈ c'.interfaces, LabelledNIC S P name nic := by
  intro nic' hm'
  have ⟨nic, hm, hn⟩ := forall₂_right h.interfaces hm'
  split at hn
  · exact hn.labelled (hl nic hm)
  · exact hn ▸ hl nic hm

-- With a managed prefix, each node has an address of its own afterwards.
theorem Accounted.provide (h : Accounted S P name a N c) {p : PublicIPPrefix}
    (hc : ∃ ps n, c₁ = { c with prefixes := ps, writes := n }) (hp : managedPrefix S c₁ name = some p)
    (hprops : p.properties.isSome = true) (hid : val p.id = managedPrefixID S P c name)
    (he : VMsEffect S P name (val p.id) pool true (c₁.interfaces.filter (isGatewayNIC a)) c₁ c') :
    Accounted S P name a (N ∪ nodeIPs S P (val p.id) a c) c' := by
  obtain ⟨ps, n, rfl⟩ := hc
  refine ⟨distinct_effect he h.distinct, labelled_effect he h.labelled, fun nm hm q hq hn => ?_⟩
  rcases he.publicIPs q hq with ⟨hold, hother⟩ | ⟨nic, hnic, hipq⟩
  case inl =>
    -- An address that has not been written again does not have any of the names.
    exfalso
    rcases hm with hm | ⟨nic, hnic, hg, r, hr, hrn⟩
    case inl =>
      have ⟨p', hp', _, nic, hnic, hg, hipq, _⟩ := h.held nm hm q hold hn
      have hid' : val p'.id = val p.id := by rw [hid, managedPrefixID, hp']; rfl
      have ⟨nm', _, hqn, _⟩ := labelled_publicIPOf hipq
      have hf := hother nic (List.mem_filter.mpr ⟨hnic, hg⟩) q (hid' ▸ hipq)
      rw [hqn] at hf
      exact Bool.false_ne_true (hf.symm.trans (publicIPNamed_self hqn))
    case inr =>
      have hf := hother nic (List.mem_filter.mpr ⟨hnic, hg⟩) r hr
      rw [hrn] at hf
      exact Bool.false_ne_true (hf.symm.trans hn)
  case inr =>
    have ⟨hm, hg⟩ := List.mem_filter.mp hnic
    have ⟨nic', hm', hedit⟩ := forall₂_left he.interfaces hm
    rw [if_pos hnic] at hedit
    refine ⟨p, (managedPrefix_effect he).trans hp, hprops, nic', hm', ?_, ?_, ?_⟩
    · exact (isGatewayNIC_eq hedit.tags_eq).trans hg
    · exact (publicIPOf_congr hedit.name_eq).trans hipq
    · exact hedit.refersTo (h.labelled nic hm) hipq

theorem takenFrom_publicIPOf {want : Bool} {nic : Azure.Interface} {q : PublicIPAddress}
    (h : publicIPOf S P prefixID want nic = some q) : Cloud.takenFrom prefixID q = true := by
  unfold publicIPOf at h
  split at h
  case isFalse => nomatch h
  case isTrue =>
    obtain ⟨nm, _, rfl⟩ := Option.map_eq_some_iff.mp h
    exact equalFold_refl prefixID

-- Without a prefix, the addresses that were taken from the managed one do not survive it.
theorem Accounted.withdraw (h : Accounted S P name a N c) {want : Bool} {nics : List Azure.Interface}
    (hS : Parses S P)
    (he : VMsEffect S P name "" pool want nics c c₁) (hi : c'.interfaces = c₁.interfaces)
    (hsub : ∀ q ∈ c'.publicIPs, q ∈ c₁.publicIPs)
    (hgone : ∀ p, managedPrefix S c₁ name = some p → p.properties.isSome = true →
      ∀ q ∈ c₁.publicIPs, Cloud.takenFrom (val p.id) q = true → ∀ id ∈ q.id,
        ∀ nm, S.resourceName id = some nm → ∀ q' ∈ c'.publicIPs, publicIPNamed nm q' = false) :
    Accounted S P name a N c' ∧ ∀ nm ∈ N, ∀ q ∈ c'.publicIPs, publicIPNamed nm q = false := by
  have hnone : ∀ nm ∈ N, ∀ q ∈ c'.publicIPs, publicIPNamed nm q = false := by
    intro nm hm q hq
    by_contra hn
    rw [Bool.not_eq_false] at hn
    rcases he.publicIPs q (hsub q hq) with ⟨hold, _⟩ | ⟨nic, _, hipq⟩
    case inr => nomatch publicIPOf_none.symm.trans hipq
    case inl =>
      have ⟨p, hp, hprops, nic, _, _, hipq, _⟩ := h.held nm hm q hold hn
      have ⟨nm', _, hqn, hqi⟩ := labelled_publicIPOf hipq
      have hf := hgone p ((managedPrefix_effect he).trans hp) hprops q (hsub q hq) (takenFrom_publicIPOf hipq)
        _ hqi nm' (hS.publicIPOf hipq hqn) q hq
      exact Bool.false_ne_true (hf.symm.trans (publicIPNamed_self hqn))
  refine ⟨⟨hi ▸ distinct_effect he h.distinct, hi ▸ labelled_effect he h.labelled, ?_⟩, hnone⟩
  intro nm hm q hq hn
  exact absurd (hn.symm.trans (hnone nm hm q hq)) (by simp)

end Accounted

section Reconcile

variable {s : State} {vmConfig : GatewayVMConfiguration} {a : String} {N : Set String} {length : Int}

-- A call that only creates public IP addresses with names among `N`.
def Creates (N : Set String) : Call → State → Prop
  | .createOrUpdatePublicIP _ nm _, _ => nm ∈ N
  | _,                              _ => True

omit [CaseFold] in
theorem creates_of_plain {c : Call} (h : c.plain = true) (s : State) : Creates N c s := by
  cases c
  case createOrUpdatePublicIP => nomatch h
  all_goals trivial

theorem owes_plain {α : Type} {p : M α} (h : Plain p) : Owes (world P S.az) (Creates N) p s :=
  owes_of_uses (h.mono fun _ => creates_of_plain)

-- The ID of the prefix from which the addresses of the nodes are taken, for a configuration that does not
-- name one itself.
def egressPrefixID (S : Settings) (P : Platform) (c : Cloud) (vmConfig : GatewayVMConfiguration) : String :=
  if vmConfig.spec.provisionPublicIps then managedPrefixID S P c (managedSubresourceName vmConfig) else ""

-- The configuration names a prefix of the user, and addresses are taken from it.
def UsesProvidedPrefix (vmConfig : GatewayVMConfiguration) : Prop :=
  vmConfig.spec.provisionPublicIps = true ∧ vmConfig.spec.publicIpPrefixId ≠ ""

theorem returns_loadVMPool {spec : GatewaySpec} :
    Returns (world P S.az) (loadVMPool spec) s fun r s' => s' = s ∧ resolveVMPool S s.cloud spec = some r :=
  wp_mono wp_loadVMPool fun r s' h a ha => ⟨h.left, by
    have hr := h.right
    rwa [ha] at hr⟩

omit [CaseFold] in
theorem spec_revise (clock : Nat) (old new : GatewayVMConfiguration) :
    (Store.revise clock old new).spec = new.spec ∧ (Store.revise clock old new).meta_.uid = new.meta_.uid := by
  have ⟨v, hv, _⟩ := Store.revise_eq clock old new
  rw [hv]
  exact ⟨rfl, rfl⟩

omit [CaseFold] in
theorem uid_addFinalizer (m : ObjectMeta) (finalizer : String) : (addFinalizer m finalizer).uid = m.uid := by
  unfold addFinalizer
  split <;> rfl

theorem returns_ensureFinalizer_spec {finalizer : String} :
    Returns (world P S.az) (ensureFinalizer .vmConfig finalizer vmConfig) s fun existing s' =>
      existing.spec = vmConfig.spec ∧ existing.meta_.uid = vmConfig.meta_.uid ∧ s'.cloud = s.cloud := by
  unfold ensureFinalizer
  split
  case isTrue => exact returns_ret ⟨rfl, rfl, rfl⟩
  case isFalse =>
    refine returns_perform fun existing he => ?_
    simp only [world, State.serve, State.commit] at he ⊢
    split at he
    case h_1 => cases he
    case h_2 hw =>
      cases he
      obtain ⟨old, _, _, _, hnew, _⟩ := Store.update_ok hw
      rw [hnew]
      exact ⟨(spec_revise ..).left, (spec_revise ..).right.trans (uid_addFinalizer ..), rfl⟩

-- The public IP addresses that are written for an interface.
theorem uses_reconcileNIC {nic : Azure.Interface} {prefixID pool : String} {want : Bool}
    (h : ∀ r, publicIPOf S P prefixID want nic = some r → ∀ nm, r.name = some nm → nm ∈ N) :
    (reconcileNIC S vmConfig nic prefixID pool want).Uses fun c => ∀ s, Creates N c s := by
  unfold reconcileNIC
  dsimp only
  split
  · exact uses_throw _
  · split
    · exact uses_throw _
    · refine uses_bind ?_ fun pip => uses_bind ?_ fun (nicName, ipCfg) => ?_
      · unfold ensurePublicIP
        split
        case isFalse => exact uses_ret _
        case isTrue hp =>
          refine uses_ofExcept fun nm hn => uses_bind (uses_guarded fun s => ?_) fun _ => uses_ret _
          refine h (storedPublicIP S P prefixID nm) ?_ nm rfl
          simp [publicIPOf, hp, hn, Except.toOption]
      · unfold storeNIC
        split
        · refine uses_bind (uses_mapError (uses_guarded fun _ => trivial)) fun nic => ?_
          split
          · exact uses_throw _
          · exact uses_ret _
        · exact uses_ret _
      · dsimp only
        split <;> exact uses_ret _

theorem owes_reconcileVMs {prefixID : String} {want : Bool}
    (h : ∀ nic ∈ s.cloud.interfaces, isGatewayNIC vmConfig.spec.gatewayNodepoolName nic = true →
      ∀ r, publicIPOf S P prefixID want nic = some r → ∀ nm, r.name = some nm → nm ∈ N) :
    Owes (world P S.az) (Creates N) (reconcileVMs S a vmConfig prefixID want) s := by
  refine Owes.bind (owes_plain (uses_perform rfl)) (P := fun nics s' => s' = s ∧
    nics.filterMap id = s.cloud.interfaces) (returns_perform fun nics hn => ?_) ?_
  case refine_1 =>
    obtain rfl := Except.ok.inj hn
    exact ⟨rfl, by simp⟩
  case refine_2 =>
    rintro nics s' ⟨rfl, hn⟩
    refine owes_of_uses (uses_forFold fun (ips, vc) nic hm => ?_)
    rw [hn, List.mem_filter] at hm
    exact uses_bind (uses_reconcileNIC (h nic hm.left hm.right)) fun _ => uses_ret _

-- The configuration is on the pool `a` of virtual machines.
structure OnVMs (S : Settings) (uid a : String) (vmConfig : GatewayVMConfiguration) (c : Cloud) : Prop where
  uid      : vmConfig.meta_.uid = uid
  nodepool : vmConfig.spec.gatewayNodepoolName = a
  resolves : ∃ length, resolveVMPool S c vmConfig.spec = some (.vms a, length)

theorem OnVMs.resolve {uid : String} {c : Cloud} {r : GatewayPool × Int} (h : OnVMs S uid a vmConfig c)
    (hr : resolveVMPool S c vmConfig.spec = some r) : r.1 = .vms a := by
  have ⟨_, hl⟩ := h.resolves
  rw [Option.some.inj (hr.symm.trans hl)]

-- What the first half of a reconcile makes of the prefix.
theorem returns_ensurePublicIPPrefix (hp : ¬UsesProvidedPrefix vmConfig) :
    Returns (world P S.az) (VMController.ensurePublicIPPrefix S length vmConfig) s fun egress s' =>
      egress.ipPrefixID = egressPrefixID S P s.cloud vmConfig ∧
      (∃ ps n, s'.cloud = { s.cloud with prefixes := ps, writes := n }) ∧
      if egress.isManaged then
        vmConfig.spec.provisionPublicIps = true ∧
        ∃ p, managedPrefix S s'.cloud (managedSubresourceName vmConfig) = some p ∧
          p.properties.isSome = true ∧ val p.id = egress.ipPrefixID
      else vmConfig.spec.provisionPublicIps = false ∧ s' = s := by
  unfold VMController.ensurePublicIPPrefix egressPrefixID
  split
  case isTrue hpub =>
    have hpub : vmConfig.spec.provisionPublicIps = false := by simpa using hpub
    exact returns_ret ⟨by simp [hpub], ⟨_, _, rfl⟩, hpub, rfl⟩
  case isFalse hpub =>
    have hpub : vmConfig.spec.provisionPublicIps = true := by simpa using hpub
    rw [if_neg fun hne => hp ⟨hpub, hne⟩]
    refine returns_useManagedPrefix.mono ?_
    rintro egress s' ⟨hm, hid, ⟨p, hp, hprops, hpid⟩, hc⟩
    rw [if_pos hpub, if_pos hm]
    exact ⟨hid, hc, hpub, p, hp, hprops, hpid.trans hid.symm⟩

theorem Accounted.reconcile {uid : String}
    (hS : Parses S P)
    (h : Accounted S P (managedResourcePrefix ++ uid) a N s.cloud) (hv : OnVMs S uid a vmConfig s.cloud)
    (hp : ¬UsesProvidedPrefix vmConfig) :
    Returns (world P S.az) (VMController.compute S vmConfig) s fun _ s' =>
      Accounted S P (managedResourcePrefix ++ uid) a
        (N ∪ nodeIPs S P (egressPrefixID S P s.cloud vmConfig) a s.cloud) s'.cloud := by
  refine returns_ensureFinalizer_spec.bind ?_
  rintro existing s₁ ⟨hspec, huid, hs₁⟩
  have hname : managedSubresourceName existing = managedResourcePrefix ++ uid := by
    rw [managedSubresourceName, huid, hv.uid]
  refine returns_loadVMPool.bind ?_
  rintro ⟨pool, length⟩ s₂ ⟨rfl, hr⟩
  rw [hs₁, hspec] at hr
  obtain rfl : pool = .vms a := hv.resolve hr
  have hp' : ¬UsesProvidedPrefix existing := by rwa [UsesProvidedPrefix, hspec]
  refine (returns_ensurePublicIPPrefix hp').bind ?_
  rintro egress s₃ ⟨hid, hc, hegress⟩
  have hegressID : egressPrefixID S P s₂.cloud existing = egressPrefixID S P s.cloud vmConfig := by
    rw [egressPrefixID, hspec, hs₁, hname, egressPrefixID, managedSubresourceName, hv.uid]
  rw [hegressID] at hid
  have hi : s₃.cloud.interfaces = s.cloud.interfaces := by
    obtain ⟨_, _, hc⟩ := hc
    rw [hc, hs₁]
  refine (returns_reconcileVMs (hi ▸ h.distinct)).bind ?_
  rintro ⟨ips, vc⟩ s₄ ⟨⟨hmeta, _⟩, _, heff⟩
  rw [hname, hid, hspec, hv.nodepool] at heff
  refine Returns.bind (P := fun _ s₅ => Accounted S P (managedResourcePrefix ++ uid) a
    (N ∪ nodeIPs S P (egressPrefixID S P s.cloud vmConfig) a s.cloud) s₅.cloud) ?_
    fun _ _ h₅ => returns_ret h₅
  cases hm : egress.isManaged
  case true =>
    rw [hm, if_pos rfl, hname, hid] at hegress
    obtain ⟨hpub, p, hp, hprops, hpid⟩ := hegress
    refine returns_ret ?_
    have hpid' : val p.id = managedPrefixID S P s.cloud (managedResourcePrefix ++ uid) := by
      rw [hpid, egressPrefixID, ← hspec, if_pos hpub, managedSubresourceName, hv.uid]
    rw [← hpid] at heff ⊢
    exact h.provide (hs₁ ▸ hc) hp hprops hpid' heff
  case false =>
    rw [hm, if_neg (by simp)] at hegress
    obtain ⟨hpub, rfl⟩ := hegress
    have hempty : egressPrefixID S P s.cloud vmConfig = "" := by
      rw [egressPrefixID, ← hspec, hpub]
      rfl
    rw [hempty] at heff ⊢
    have hnone : N ∪ nodeIPs S P "" a s.cloud ⊆ N := fun nm hm =>
      hm.resolve_right fun h => by obtain ⟨_, _, _, _, hr, _⟩ := h; cases publicIPOf_none.symm.trans hr
    refine returns_ensurePublicIPPrefixDeleted.mono ?_
    rintro _ s₅ ⟨hi₅, hsub, hgone⟩
    have hname' : managedSubresourceName vc = managedResourcePrefix ++ uid := by
      rw [← hname, managedSubresourceName, hmeta, managedSubresourceName]
    rw [hname'] at hgone
    rw [hs₁] at heff
    exact (h.withdraw hS heff hi₅ hsub hgone).left.mono hnone

-- After a deletion, none of the public IP addresses exists.
theorem Accounted.delete {uid : String}
    (hS : Parses S P)
    (h : Accounted S P (managedResourcePrefix ++ uid) a N s.cloud) (hv : OnVMs S uid a vmConfig s.cloud)
    (hf : containsFinalizer vmConfig.meta_ VMController.vmConfigFinalizerName = true) :
    Returns (world P S.az) (VMController.ensureDeleted S vmConfig) s fun _ s' =>
      ∀ nm ∈ N, ∀ q ∈ s'.cloud.publicIPs, publicIPNamed nm q = false := by
  have hname : managedSubresourceName vmConfig = managedResourcePrefix ++ uid := by
    rw [managedSubresourceName, hv.uid]
  unfold VMController.ensureDeleted
  rw [if_neg (by simp [hf])]
  refine returns_loadVMPool.bind ?_
  rintro ⟨pool, length⟩ s₁ ⟨rfl, hr⟩
  obtain rfl : pool = .vms a := hv.resolve hr
  refine (returns_reconcileVMs h.distinct).bind ?_
  rintro ⟨ips, vc⟩ s₂ ⟨⟨hmeta, _⟩, _, heff⟩
  have hname' : managedSubresourceName vc = managedResourcePrefix ++ uid := by
    rw [← hname, managedSubresourceName, hmeta, managedSubresourceName]
  rw [hname] at heff
  refine returns_ensurePublicIPPrefixDeleted.bind ?_
  rintro _ s₃ ⟨hi, hsub, hgone⟩
  rw [hname'] at hgone
  have hnone := (h.withdraw hS heff hi hsub hgone).right
  refine Returns.bind (P := fun _ s₄ => s₄.cloud = s₃.cloud) (returns_perform fun _ _ => ?_) ?_
  · exact serve_cloud (by simp [Call.writes])
  · rintro _ s₄ hs₄
    exact returns_ret (hs₄ ▸ hnone)

theorem owes_compute {uid : String} (hv : OnVMs S uid a vmConfig s.cloud) (hp : ¬UsesProvidedPrefix vmConfig) :
    Owes (world P S.az) (Creates (nodeIPs S P (egressPrefixID S P s.cloud vmConfig) a s.cloud))
      (VMController.compute S vmConfig) s := by
  have hfin : ∀ {s : State} {N : Set String}, Owes (world P S.az) (Creates N)
      (ensureFinalizer .vmConfig VMController.vmConfigFinalizerName vmConfig) s := by
    intro s N
    unfold ensureFinalizer
    split
    · exact owes_ret
    · exact owes_of_uses (uses_perform fun _ => trivial)
  refine hfin.bind returns_ensureFinalizer_spec ?_
  rintro existing s₁ ⟨hspec, huid, hs₁⟩
  refine (owes_plain plain_loadVMPool).bind returns_loadVMPool ?_
  rintro ⟨pool, length⟩ s₂ ⟨rfl, hr⟩
  rw [hs₁, hspec] at hr
  obtain rfl : pool = .vms a := hv.resolve hr
  have hp' : ¬UsesProvidedPrefix existing := by rwa [UsesProvidedPrefix, hspec]
  refine (owes_plain plain_ensurePublicIPPrefix).bind (returns_ensurePublicIPPrefix hp') ?_
  rintro egress s₃ ⟨hid, ⟨_, _, hc⟩, _⟩
  have hid' : egress.ipPrefixID = egressPrefixID S P s.cloud vmConfig := by
    rw [hid, egressPrefixID, hspec, hs₁, managedSubresourceName, huid]
    rfl
  refine Owes.bind (owes_reconcileVMs ?_) returns_any fun _ s₄ _ => ?_
  case refine_1 =>
    intro nic hm hg r hr nm hn
    rw [hc, hs₁] at hm
    exact ⟨nic, hm, hv.nodepool ▸ hspec ▸ hg, r, hid' ▸ hr, hn⟩
  case refine_2 =>
    refine Owes.bind ?_ returns_any fun _ _ _ => owes_ret
    exact owes_plain (uses_when plain_ensurePublicIPPrefixDeleted)

-- The names of the public IP addresses that were created in the course of a run.
def createdIn (log : List (Issued Sig State)) : List String :=
  log.filterMap fun
    | ⟨.createOrUpdatePublicIP _ nm _, _, fault⟩ => if fault = .lost then none else some nm
    | _ => none

omit [CaseFold] in
theorem mem_createdIn {log : List (Issued Sig State)} {nm : String} (h : nm ∈ createdIn log) :
    ∃ e ∈ log, ∃ rg pip, e.call = .createOrUpdatePublicIP rg nm pip := by
  obtain ⟨⟨c, s, f⟩, he, hc⟩ := List.mem_filterMap.mp h
  refine ⟨_, he, ?_⟩
  split at hc
  case h_1 rg nm' pip _ _ heq =>
    split at hc
    · nomatch hc
    · cases heq
      obtain rfl := Option.some.inj hc
      exact ⟨rg, pip, rfl⟩
  case h_2 => nomatch hc

end Reconcile

-- A reconcile that returns no error.
def ErrorFree {α : Type} (o : Outcome Sig State (Observed α)) : Bool :=
  o.result.toOption.any (·.result.isOk)

omit [CaseFold] in
theorem exists_of_errorFree {α : Type} {o : Outcome Sig State (Observed α)} (h : ErrorFree o = true) :
    ∃ r computed, o.result = .ok r ∧ r.result = .ok computed := by
  unfold ErrorFree at h
  cases hr : o.result
  case error => simp [hr, Except.toOption] at h
  case ok r  =>
    have ⟨computed, hc⟩ := ok_of_isOk (r := r.result) (by simpa [hr, Except.toOption] using h)
    exact ⟨r, computed, rfl, hc⟩

section Run

variable (S : Settings) (P : Platform) (uid a : String) (may : GatewayVMConfiguration → Prop)

-- A run of error-free reconciles of a configuration on the pool `a`. In between, the object and anything
-- else that the API server holds may be edited. `N` are the public IP addresses created so far.
inductive VMRun (s₀ : State) : Set String → State → Prop
  | init : VMRun s₀ ∅ s₀
  | edit {N s s'} (h : VMRun s₀ N s) (hc : s'.cloud = s.cloud) : VMRun s₀ N s'
  | reconcile {N s} (h : VMRun s₀ N s) (vmConfig : GatewayVMConfiguration) (hm : may vmConfig)
      (hv : OnVMs S uid a vmConfig s.cloud) (φ : Oracle Sig) (o : Outcome Sig State (Observed GatewayVMConfiguration))
      (hr : run (world P S.az) φ 0 (VMController.reconcile S vmConfig) s = o)
      (hok : ErrorFree o = true) :
      VMRun s₀ (N ∪ { nm | nm ∈ createdIn o.log }) o.state

variable {S P uid a may} {s₀ s : State} {N : Set String}

-- No interface carries an IP configuration of the gateway yet.
def Unprovisioned (name : String) (c : Cloud) : Prop :=
  ∀ nic ∈ c.interfaces, ∀ ipConfig ∈ configsOf nic, isTarget name ipConfig = false

theorem VMRun.accounted (hS : Parses S P)
    (hd : Distinct s₀.cloud.interfaces) (hu : Unprovisioned (managedResourcePrefix ++ uid) s₀.cloud)
    (h : VMRun S P uid a (¬UsesProvidedPrefix ·) s₀ N s) :
    Accounted S P (managedResourcePrefix ++ uid) a N s.cloud := by
  induction h
  case init =>
    refine ⟨hd, fun nic hm c hc ht => ?_, fun _ hm => nomatch hm⟩
    exact absurd ((hu nic hm c hc).symm.trans ht) Bool.false_ne_true
  case edit hc hi => rwa [hc]
  case reconcile N s _ vmConfig hp hv φ o hr hok hi =>
    have ⟨r, computed, hres, hcomp⟩ := exists_of_errorFree hok
    have hret : Returns (world P S.az) (VMController.reconcile S vmConfig) s fun r s' =>
        ∀ a', r.result = .ok a' → Accounted S P (managedResourcePrefix ++ uid) a
          (N ∪ nodeIPs S P (egressPrefixID S P s.cloud vmConfig) a s.cloud) s'.cloud := by
      refine returns_observed ((hi.reconcile hS hv hp).bind fun (existing, c) s' h' => ?_)
      refine returns_storeStatus.bind fun _ s'' hs => returns_ret fun _ _ => ?_
      rwa [hs]
    refine (hret.outcome hr hres computed hcomp).mono fun nm hm => hm.imp_right ?_
    intro hm
    have ⟨e, he, rg, pip, hcall⟩ := mem_createdIn hm
    have howe : Owes (world P S.az) (Creates (nodeIPs S P (egressPrefixID S P s.cloud vmConfig) a s.cloud))
        (VMController.reconcile S vmConfig) s := by
      refine Owes.bind (Owes.attempt (Owes.bind (owes_compute hv hp) returns_any fun (_, c) _ _ => ?_)) returns_any
        fun _ _ _ => owes_ret
      refine owes_of_uses (uses_bind (uses_when (uses_bind (uses_attempt ?_) fun _ => uses_ret _)) fun _ => uses_ret _)
      exact uses_perform fun _ => trivial
    have hc := howe.log φ 0 e (hr ▸ he)
    rwa [hcall] at hc

-- As long as no prefix of the user is in use, no public IP address outlives its purpose.
theorem vm_publicIPs_released (hS : Parses S P) (hd : Distinct s₀.cloud.interfaces)
    (hu : Unprovisioned (managedResourcePrefix ++ uid) s₀.cloud)
    (h : VMRun S P uid a (¬UsesProvidedPrefix ·) s₀ N s) :
    (∀ nm ∈ N, ∀ q ∈ s.cloud.publicIPs, publicIPNamed nm q = true →
      ∃ nic ∈ s.cloud.interfaces, RefersTo (managedResourcePrefix ++ uid) nic q) ∧
    ∀ vmConfig φ o, OnVMs S uid a vmConfig s.cloud →
      containsFinalizer vmConfig.meta_ VMController.vmConfigFinalizerName = true →
      run (world P S.az) φ 0 (VMController.ensureDeleted S vmConfig) s = o → o.result.isOk = true →
      ∀ nm ∈ N, ∀ q ∈ o.state.cloud.publicIPs, publicIPNamed nm q = false := by
  have ha := h.accounted hS hd hu
  refine ⟨fun nm hm q hq hn => ?_, fun vmConfig φ o hv hf ho hok => ?_⟩
  case refine_1 =>
    have ⟨_, _, _, nic, hm, _, _, hr⟩ := ha.held nm hm q hq hn
    exact ⟨nic, hm, hr⟩
  case refine_2 =>
    have ⟨_, hr⟩ := ok_of_isOk hok
    exact (ha.delete hS hv hf).outcome ho hr

end Run

end Manager

namespace Manager

namespace Sample

def publicIPPath := Platform.simple.publicIPID "rg" ""

-- Parses the IDs of public IP addresses with any name.
def parsing : Settings :=
  { settings with
    resourceName := fun id =>
      if hasPrefix id publicIPPath then some (String.ofList (id.toList.drop publicIPPath.toList.length))
      else settings.resourceName id }

theorem parses : Parses parsing Platform.simple := by
  intro id nicName nm _
  have hid : Platform.simple.publicIPID (parsing.az.orDefault "") nm = publicIPPath ++ nm :=
    congrArg (· ++ nm) (by decide +kernel)
  rw [hid]
  simp [parsing, hasPrefix_append, String.toList_append]

def userPrefix : PublicIPPrefix where
  resourceGroup := "rg"
  name          := "mine"
  id            := some (Platform.simple.prefixID "rg" "mine")
  properties    := some { prefixLength := some 31, ipPrefix := some "20.1.0.0/31" }

-- The object with its finalizer.
def egress (prefixID : String) : GatewayVMConfiguration where
  meta_ := { key := ⟨"default", "a"⟩, uid := "a", finalizers := [VMController.vmConfigFinalizerName] }
  spec  := { gatewayNodepoolName := "gw", publicIpPrefixId := prefixID }

def vmNodes (prefixID : String) : State where
  cloud := {
    virtualMachines := [virtualMachine "gw"]
    interfaces      := [gatewayNIC]
    prefixes        := [userPrefix] }
  api   := {
    items := fun
      | .vmConfig => [egress prefixID]
      | _         => [] }

def reconciled (prefixID : String) : Outcome Sig State (Observed GatewayVMConfiguration) :=
  run (world .simple parsing.az) .calm 0 (VMController.reconcile parsing (egress prefixID)) (vmNodes prefixID)

-- The object as it is stored after the reconcile.
def stored (prefixID : String) : GatewayVMConfiguration :=
  ((reconciled prefixID).state.api.items .vmConfig).headD (egress prefixID)

def deletedAfter (prefixID : String) : Outcome Sig State Unit :=
  run (world .simple parsing.az) .calm 0 (VMController.ensureDeleted parsing (stored prefixID))
    (reconciled prefixID).state

end Sample

open Sample in
-- The address that was taken from the managed prefix goes with it.
theorem vm_publicIPs_released_sample : ∃ nm ∈ createdIn (reconciled "").log,
    ∀ q ∈ (deletedAfter "").state.cloud.publicIPs, publicIPNamed nm q = false := by
  have hd : Distinct (vmNodes "").cloud.interfaces := List.nodup_singleton _
  have hu : Unprovisioned (managedResourcePrefix ++ "a") (vmNodes "").cloud := by
    unfold Unprovisioned
    decide +kernel
  have hv : OnVMs parsing "a" "gw" (egress "") (vmNodes "").cloud := ⟨rfl, rfl, 31, by decide +kernel⟩
  have hv' : OnVMs parsing "a" "gw" (stored "") (reconciled "").state.cloud :=
    ⟨by decide +kernel, by decide +kernel, 31, by decide +kernel⟩
  have hrun : VMRun parsing .simple "a" "gw" (¬UsesProvidedPrefix ·) (vmNodes "")
      (∅ ∪ { nm | nm ∈ createdIn (reconciled "").log }) (reconciled "").state :=
    .reconcile .init (egress "") (by simp [UsesProvidedPrefix, egress]) hv .calm (reconciled "")
      (by rw [reconciled]) (by decide +kernel)
  have h := (vm_publicIPs_released parses hd hu hrun).right (stored "") .calm (deletedAfter "") hv'
    (by decide +kernel) (by rw [deletedAfter]) (by decide +kernel)
  have ⟨nm, hm⟩ := List.exists_mem_of_ne_nil (createdIn (reconciled "").log) (by decide +kernel)
  exact ⟨nm, hm, h nm (.inr hm)⟩

open Sample in
-- The address that was taken from the prefix of the user is still there.
theorem vm_publicIP_leaked :
    let o := reconciled (Platform.simple.prefixID "rg" "mine")
    let o' := deletedAfter (Platform.simple.prefixID "rg" "mine")
    ErrorFree o = true ∧ o'.result.isOk = true ∧
    ∃ nm ∈ createdIn o.log, ∃ q ∈ o'.state.cloud.publicIPs, publicIPNamed nm q = true := by
  decide +kernel

end Manager
