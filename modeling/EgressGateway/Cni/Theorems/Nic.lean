import Mathlib.Data.List.Nodup
import EgressGateway.Cni.Nic

-- A failed `WithWireGuardNic` leaves neither links nor addresses behind.

open Net Program

namespace Cni.Nic

def Call.isRecovery : Call → Bool
  | .linkByName .recovery .. | .linkDel .. | .ipamDel => true
  | _                                                 => false

-- Recovery does not fail, and the IPAM plugin keeps nothing if it fails.
abbrev recovering : Contract Sig State where
  allow c _ f := (c.isRecovery = true → f = .none) ∧ (c = .ipamAdd → f ≠ .applied)
  owe _ _     := True

-- Links have names of their own within a namespace, and indices of their own altogether.
structure State.WellFormed (s : State) : Prop where
  names   : ∀ ns, ((s.links ns).map (·.name)).Nodup
  indices : ((s.host ++ s.links .pod).map (·.index)).Nodup
  below   : ∀ ns, ∀ l ∈ s.links ns, l.index < s.next

-- The links since the index was `n` can be found by one of the two names.
structure Traceable (n : Nat) (wgNameInMain ifName : Name) (s : State) : Prop where
  wellFormed : s.WellFormed
  inHost     : ∀ l ∈ s.host, l.index < n ∨ l.name = wgNameInMain
  inPod      : ∀ l ∈ s.links .pod, l.index < n ∨ l.name = wgNameInMain ∨ l.name = ifName

-- Some calls of the body.
def Call.isSetup (wgNameInMain ifName : Name) : Call → Prop
  | .linkByName ..       => True
  | .linkAdd name        => name = wgNameInMain
  | .linkSetNs _         => True
  | .linkSetDown _       => True
  | .linkSetAlias ..     => True
  | .linkSetName _ name  => name = ifName
  | .linkSetUp _         => True
  | .getNSByPath _       => True
  | .configureIface ..   => True
  | .configFunc _        => True
  | .linkDel .. | .ipamAdd | .ipamDel => False

section Serve

variable {ipam : State → Except String (Option (List IPNet))} {s : State} {n : Nat} {wgNameInMain ifName : Name}

theorem links_setLinks_pod {ls : List Link} (h : s.pod.isSome = true) : (s.setLinks .pod ls).links .pod = ls := by
  have ⟨_, hp⟩ := Option.isSome_iff_exists.mp h
  simp [State.links, State.setLinks, hp]

-- The links of the pod after one of them has been changed.
theorem onLink_cases (s : State) (link : Link) (f : Link → Link) :
    (s.onLink link f).2 = s ∨ s.pod.isSome = true ∧ (s.onLink link f).2 =
      s.setLinks .pod ((s.links .pod).map fun l => if l.index = link.index then f l else l) := by
  unfold State.onLink
  split
  case isFalse => exact .inl rfl
  case isTrue h =>
    refine .inr ⟨?_, rfl⟩
    cases hp : s.pod
    case none => simp [hp] at h
    case some => rfl

theorem Traceable.onLink {link : Link} {f : Link → Link} (h : Traceable n wgNameInMain ifName s)
    (hi : ∀ l, (f l).index = l.index)
    (hn : (((s.links .pod).map fun l => if l.index = link.index then f l else l).map (·.name)).Nodup)
    (hf : ∀ l ∈ s.links .pod, l.index = link.index → (f l).name = l.name ∨ (f l).name = ifName) :
    Traceable n wgNameInMain ifName (s.onLink link f).2 := by
  rcases onLink_cases s link f with hs | ⟨hp, hs⟩
  · rw [hs]
    exact h
  rw [hs]
  have hindex : ((s.links .pod).map fun l => if l.index = link.index then f l else l).map (·.index) =
      (s.links .pod).map (·.index) := by
    rw [List.map_map]
    refine List.map_congr_left fun l _ => ?_
    simp only [Function.comp_apply]
    split
    · exact hi l
    · rfl
  refine ⟨⟨?_, ?_, ?_⟩, h.inHost, ?_⟩
  case refine_1 =>
    rintro (_ | _)
    · exact h.wellFormed.names .host
    · rw [links_setLinks_pod hp]
      exact hn
  case refine_2 =>
    have hw := h.wellFormed.indices
    rw [List.map_append] at hw ⊢
    rw [links_setLinks_pod hp, hindex]
    exact hw
  case refine_3 =>
    rintro (_ | _) l hl
    · exact h.wellFormed.below .host l hl
    · rw [links_setLinks_pod hp] at hl
      have hm : l.index ∈ (s.links .pod).map (·.index) := hindex ▸ List.mem_map.mpr ⟨l, hl, rfl⟩
      obtain ⟨l', hl', he⟩ := List.mem_map.mp hm
      rw [← he]
      exact h.wellFormed.below .pod l' hl'
  case refine_4 =>
    intro l hl
    rw [links_setLinks_pod hp] at hl
    obtain ⟨l', hl', rfl⟩ := List.mem_map.mp hl
    split
    case isFalse => exact h.inPod l' hl'
    case isTrue he =>
      rcases hf l' hl' he with hname | hname
      · rw [hname, hi]
        exact h.inPod l' hl'
      · exact .inr (.inr hname)

-- Only one link has the index, and no other one has the name.
theorem nodup_rename {ls : List Link} {name : Name} {i : Nat} (hn : (ls.map (·.name)).Nodup)
    (hi : (ls.map (·.index)).Nodup) (hfree : ∀ l ∈ ls, l.name = name → l.index = i) :
    ((ls.map fun l => if l.index = i then { l with name := name } else l).map (·.name)).Nodup := by
  rw [List.map_map]
  refine List.pairwise_map.mpr ?_
  have hboth := List.Pairwise.and_mem.mp ((List.pairwise_map.mp hn).and (List.pairwise_map.mp hi))
  refine hboth.imp ?_
  rintro a b ⟨ha, hb, hname, hindex⟩
  simp only [Function.comp_apply]
  split
  case isTrue hai =>
    rw [if_neg fun hbi => hindex (hai.trans hbi.symm)]
    exact fun he => hindex (hai.trans (hfree b hb he.symm).symm)
  case isFalse hai =>
    split
    · exact fun he => hai (hfree a ha he)
    · exact hname

theorem Traceable.linkAdd (h : Traceable n wgNameInMain ifName s) :
    Traceable n wgNameInMain ifName (State.serve ipam (.linkAdd wgNameInMain) s).2 := by
  simp only [State.serve]
  split
  case isTrue => exact h
  case isFalse hf =>
    have hfree : ∀ l ∈ s.host, l.name ≠ wgNameInMain := by
      simpa [State.find, State.links] using hf
    have hnext : ∀ l ∈ s.host ++ s.links .pod, l.index ≠ s.next := by
      intro l hl
      rcases List.mem_append.mp hl with hl | hl
      · exact Nat.ne_of_lt (h.wellFormed.below .host l hl)
      · exact Nat.ne_of_lt (h.wellFormed.below .pod l hl)
    refine ⟨⟨?_, ?_, ?_⟩, ?_, h.inPod⟩
    case refine_1 =>
      rintro (_ | _)
      · have hnames := h.wellFormed.names .host
        simp only [State.links, List.map_append, List.map_cons, List.map_nil] at hnames ⊢
        refine List.nodup_append.mpr ⟨hnames, by simp, ?_⟩
        rintro _ hx _ hy rfl
        obtain ⟨l, hl, he⟩ := List.mem_map.mp hx
        exact hfree l hl (he.trans (List.mem_singleton.mp hy))
      · exact h.wellFormed.names .pod
    case refine_2 =>
      have hi := h.wellFormed.indices
      have hperm : ((s.host ++ [({ index := s.next, name := wgNameInMain } : Link)]) ++ s.links .pod).Perm
          ({ index := s.next, name := wgNameInMain } :: (s.host ++ s.links .pod)) := by
        rw [List.append_assoc]
        exact List.perm_middle
      refine (hperm.map _).nodup_iff.mpr (List.nodup_cons.mpr ⟨fun hm => ?_, hi⟩)
      obtain ⟨l, hl, he⟩ := List.mem_map.mp hm
      exact hnext l hl he
    case refine_3 =>
      rintro (_ | _) l hl
      · rcases List.mem_append.mp hl with hl | hl
        · exact Nat.lt_succ_of_lt (h.wellFormed.below .host l hl)
        · rw [List.mem_singleton.mp hl]
          exact Nat.lt_succ_self _
      · exact Nat.lt_succ_of_lt (h.wellFormed.below .pod l hl)
    case refine_4 =>
      intro l hl
      rcases List.mem_append.mp hl with hl | hl
      · exact h.inHost l hl
      · rw [List.mem_singleton.mp hl]
        exact .inr rfl

theorem Traceable.linkSetNs {link : Link} (h : Traceable n wgNameInMain ifName s) :
    Traceable n wgNameInMain ifName (State.serve ipam (.linkSetNs link) s).2 := by
  simp only [State.serve]
  split
  case h_2 => exact h
  case h_1 l ls hl hp =>
    split
    case isTrue => exact h
    case isFalse hf =>
      have hlinks : s.links .pod = ls := by rw [State.links, hp, Option.getD_some]
      have hmem : l ∈ s.host := List.mem_of_find?_eq_some hl
      have hindex : l.index = link.index := by simpa using List.find?_some hl
      have hfree : ∀ l' ∈ ls, l'.name ≠ l.name := by simpa using hf
      have hw := h.wellFormed
      have hnames := hw.names .pod
      have hindices := hw.indices
      have hinPod := h.inPod
      rw [hlinks] at hnames hindices hinPod
      refine ⟨⟨?_, ?_, ?_⟩, fun l' hl' => h.inHost l' (List.mem_filter.mp hl').left, ?_⟩
      case refine_1 =>
        rintro (_ | _)
        · exact (hw.names .host).sublist (List.filter_sublist.map _)
        · simp only [State.links, Option.getD_some, List.map_append, List.map_cons, List.map_nil]
          refine List.nodup_append.mpr ⟨hnames, by simp, ?_⟩
          rintro _ hx _ hy rfl
          obtain ⟨l', hl', he⟩ := List.mem_map.mp hx
          exact hfree l' hl' (he.trans (List.mem_singleton.mp hy))
      case refine_2 =>
        simp only [State.links, Option.getD_some]
        have hsub : ((s.host.filter (·.index ≠ link.index)) ++ ls).Sublist (s.host ++ ls) :=
          List.filter_sublist.append (List.Sublist.refl _)
        rw [← List.append_assoc, List.map_append]
        refine List.nodup_append.mpr ⟨hindices.sublist (hsub.map _), by simp, ?_⟩
        rintro _ hx _ hy rfl
        have hy : _ = l.index := List.mem_singleton.mp hy
        obtain ⟨l', hl', he⟩ := List.mem_map.mp hx
        rcases List.mem_append.mp hl' with hl' | hl'
        · have hne := of_decide_eq_true (List.mem_filter.mp hl').right
          exact hne (he.trans (hy.trans hindex))
        · rw [List.map_append] at hindices
          exact (List.nodup_append.mp hindices).right.right l.index (List.mem_map.mpr ⟨l, hmem, rfl⟩) l'.index
            (List.mem_map.mpr ⟨l', hl', rfl⟩) (he.trans hy).symm
      case refine_3 =>
        rintro (_ | _) l' hl'
        · exact hw.below .host l' (List.mem_filter.mp hl').left
        · rcases List.mem_append.mp hl' with hl' | hl'
          · exact hw.below .pod l' (hlinks ▸ hl')
          · rw [List.mem_singleton.mp hl']
            exact hw.below .host l hmem
      case refine_4 =>
        intro l' hl'
        rcases List.mem_append.mp hl' with hl' | hl'
        · exact hinPod l' hl'
        · rw [List.mem_singleton.mp hl']
          exact (h.inHost l hmem).imp_right .inl

theorem Traceable.keepName {link : Link} {f : Link → Link} (h : Traceable n wgNameInMain ifName s)
    (hi : ∀ l, (f l).index = l.index) (hf : ∀ l, (f l).name = l.name) :
    Traceable n wgNameInMain ifName (s.onLink link f).2 := by
  refine h.onLink hi ?_ fun l _ _ => .inl (hf l)
  have hname : ((s.links .pod).map fun l => if l.index = link.index then f l else l).map (·.name) =
      (s.links .pod).map (·.name) := by
    rw [List.map_map]
    refine List.map_congr_left fun l _ => ?_
    simp only [Function.comp_apply]
    split
    · exact hf l
    · rfl
  rw [hname]
  exact h.wellFormed.names .pod

theorem Traceable.linkSetName {link : Link} (h : Traceable n wgNameInMain ifName s) :
    Traceable n wgNameInMain ifName (State.serve ipam (.linkSetName link ifName) s).2 := by
  simp only [State.serve]
  split
  case isTrue => exact h
  case isFalse hf =>
    have hfree : ∀ l ∈ s.links .pod, l.name = ifName → l.index = link.index := by
      simpa using hf
    have hindices : ((s.links .pod).map (·.index)).Nodup := by
      have hi := h.wellFormed.indices
      rw [List.map_append] at hi
      exact (List.nodup_append.mp hi).right.left
    exact h.onLink (fun _ => rfl) (nodup_rename (h.wellFormed.names .pod) hindices hfree) fun _ _ _ => .inr rfl

theorem onLink_leases {link : Link} {f : Link → Link} : (s.onLink link f).2.leases = s.leases := by
  rcases onLink_cases s link f with hs | ⟨_, hs⟩
  · rw [hs]
  · rw [hs]
    rfl

-- The calls that set up the link.
theorem Traceable.serve {c : Call} (h : Traceable n wgNameInMain ifName s) (hc : c.isSetup wgNameInMain ifName) :
    Traceable n wgNameInMain ifName (State.serve ipam c s).2 ∧ (State.serve ipam c s).2.leases = s.leases := by
  cases c
  case linkAdd name =>
    obtain rfl : name = wgNameInMain := hc
    refine ⟨h.linkAdd, ?_⟩
    simp only [State.serve]
    split <;> rfl
  case linkSetNs link =>
    refine ⟨h.linkSetNs, ?_⟩
    simp only [State.serve]
    split
    · split <;> rfl
    · rfl
  case linkSetName link name =>
    obtain rfl : name = ifName := hc
    refine ⟨h.linkSetName, ?_⟩
    simp only [State.serve]
    split
    · rfl
    · exact onLink_leases
  case linkSetDown | linkSetAlias | linkSetUp => exact ⟨h.keepName (fun _ => rfl) fun _ => rfl, onLink_leases⟩
  case getNSByPath =>
    simp only [State.serve]
    split <;> exact ⟨h, rfl⟩
  case linkByName =>
    simp only [State.serve]
    split <;> exact ⟨h, rfl⟩
  case configureIface | configFunc => exact ⟨h, rfl⟩
  case linkDel | ipamAdd | ipamDel => exact hc.elim

end Serve

section Fine

variable {ipam : State → Except String (Option (List IPNet))} {s : State} {α β : Type} {J : State → Prop}

-- The errors of the calls are not panics.
theorem code_serve {c : Call} {e : Err} (h : (State.serve ipam c s).1 = .error e) : e.code ≠ .panic := by
  have honLink {link : Link} {f : Link → Link} (h : (s.onLink link f).1 = .error e) : e.code ≠ .panic := by
    unfold State.onLink at h
    split at h
    · nomatch h
    · cases h
      nofun
  cases c
  case linkSetDown | linkSetAlias | linkSetUp => exact honLink h
  case linkSetName =>
    simp only [State.serve] at h
    split at h
    · cases h
      nofun
    · exact honLink h
  case linkSetNs =>
    simp only [State.serve] at h
    split at h
    · split at h
      · cases h
        nofun
      · nomatch h
    · cases h
      nofun
  case ipamDel | configureIface | configFunc => nomatch h
  case getNSByPath | linkAdd | linkDel | linkByName | ipamAdd =>
    simp only [State.serve] at h
    split at h
    all_goals cases h
    all_goals nofun

-- A part of the function that maintains `J` and does not panic.
def Fine (ipam : State → Except String (Option (List IPNet))) (J : State → Prop) (p : M α) : Prop :=
  ∀ s, J s → wp (world ipam) recovering p (fun r s' => J s' ∧ ∀ e, r = .error e → e.code ≠ .panic) s

theorem fine_ret {a : α} : Fine ipam J (ret a : M α) :=
  fun _ h => ⟨h, nofun⟩

theorem fine_throw {e : Err} (h : e.code ≠ .panic) : Fine ipam J (throw e : M α) :=
  fun _ hs => ⟨hs, fun _ he => Except.error.inj he ▸ h⟩

theorem Fine.bind {p : M α} {f : α → M β} (hp : Fine ipam J p) (hf : ∀ a, Fine ipam J (f a)) :
    Fine ipam J (p.bind f) :=
  fun s hs => wp_seq (hp s hs) (fun a s' h => hf a s' h.left) fun e _ h => ⟨h.left, fun _ he =>
    Except.error.inj he ▸ h.right e rfl⟩

theorem Fine.mapError {p : M α} {f : Err → Err} (hp : Fine ipam J p) (hf : ∀ e, e.code ≠ .panic → (f e).code ≠ .panic) :
    Fine ipam J (p.mapError f) := by
  refine fun s hs => wp_mapError.mpr (wp_mono (hp s hs) fun r s' h => ⟨h.left, fun e he => ?_⟩)
  cases r
  case ok       => nomatch he
  case error e' => exact Except.error.inj he ▸ hf e' (h.right e' rfl)

-- A call that maintains the invariant, whether or not its answer arrives.
theorem fine_request {c : Call} (step : ∀ s, J s → J (State.serve ipam c s).2) :
    Fine ipam J (request c) := by
  refine fun s hs => wp_perform.mpr ⟨trivial, fun f _ => ?_⟩
  cases f
  case none    => exact ⟨step s hs, fun e he => code_serve he⟩
  case lost    => exact ⟨hs, fun e he => Except.error.inj he ▸ nofun⟩
  case applied => exact ⟨step s hs, fun e he => Except.error.inj he ▸ nofun⟩

theorem fine_when {b : Bool} {p : M Unit} (hp : Fine ipam J p) : Fine ipam J (when b p) := by
  cases b
  case false => exact fine_ret
  case true  => exact hp

theorem serve_linkByName {phase : Phase} {ns : Space} {name : Name} :
    (State.serve ipam (.linkByName phase ns name) s).2 = s := by
  simp only [State.serve]
  split <;> rfl

theorem fine_configureLink {podNSPath : String} {ifName : Name} {result : Result} {callback : Bool} {ips : List IPNet} :
    Fine ipam J (configureLink podNSPath ifName result callback ips) := by
  unfold configureLink
  split
  case isTrue => exact fine_throw nofun
  case isFalse =>
    refine Fine.bind (Fine.mapError (fine_request fun s hs => ?_) fun _ _ => nofun) fun l => ?_
    · rw [serve_linkByName]
      exact hs
    refine Fine.bind (fine_request fun _ hs => hs) fun _ => ?_
    split
    case isTrue  => exact fine_throw nofun
    case isFalse => exact Fine.bind (fine_when (fine_request fun _ hs => hs)) fun _ => fine_ret

-- What was obtained from the IPAM plugin is given back after an error.
theorem wp_withIP {f : List IPNet → M α} (hf : ∀ ips, Fine ipam J (f ips))
    (hJ : ∀ s ls, J s → J { s with leases := ls }) (hs : J s) :
    wp (world ipam) recovering (withIP f) (fun r s' => J s' ∧
      ∀ e, r = .error e → e.code ≠ .panic ∧ s'.leases ⊆ s.leases) s := by
  have hbody (r : Option (List IPNet)) : Fine ipam J (match r with
      | none     => (throw (Err.errorf "cannot convert the result") : M α)
      | some ips => f ips) := by
    cases r
    case none   => exact fine_throw nofun
    case some a => exact hf a
  refine wp_bind.mpr (wp_perform.mpr ⟨trivial, fun fault ⟨_, hadd⟩ => ?_⟩)
  cases fault
  case applied => exact absurd rfl (hadd rfl)
  case lost    => exact ⟨hs, fun _ he => ⟨Except.error.inj he ▸ nofun, List.Subset.refl _⟩⟩
  case none =>
    simp only [World.answer_none, world, State.serve]
    cases ipam s
    case error text => exact ⟨hs, fun _ he => ⟨Except.error.inj he ▸ nofun, List.Subset.refl _⟩⟩
    case ok r =>
      refine wp_bind.mpr (wp_attempt.mpr (wp_mono (hbody r _ (hJ _ _ hs)) ?_))
      rintro r' s' ⟨hs', herr⟩
      cases r'
      case ok a => exact ⟨hs', nofun⟩
      case error e =>
        refine wp_bind.mpr (wp_attempt.mpr (wp_perform.mpr ⟨trivial, fun fault ⟨hdel, _⟩ => ?_⟩))
        obtain rfl := hdel rfl
        exact ⟨hJ _ _ hs', fun _ he => ⟨Except.error.inj he ▸ herr e rfl, List.nil_subset _⟩⟩

end Fine

section Setup

variable {ipam : State → Except String (Option (List IPNet))} {s : State} {n : Nat} {wgNameInMain ifName : Name}
  {leases : List (Option (List IPNet))}

-- While the link is set up, and nothing has been obtained from the IPAM plugin.
structure SettingUp (n : Nat) (wgNameInMain ifName : Name) (leases : List (Option (List IPNet))) (s : State) : Prop where
  links  : Traceable n wgNameInMain ifName s
  leases : s.leases = leases

theorem SettingUp.serve {c : Call} (hc : c.isSetup wgNameInMain ifName) (h : SettingUp n wgNameInMain ifName leases s) :
    SettingUp n wgNameInMain ifName leases (State.serve ipam c s).2 :=
  have ⟨hl, hs⟩ := h.links.serve hc
  ⟨hl, hs.trans h.leases⟩

theorem fine_createLink :
    Fine ipam (SettingUp n wgNameInMain ifName leases) (createLink wgNameInMain ifName) := by
  have hstep {c : Call} (hc : c.isSetup wgNameInMain ifName) :
      Fine ipam (SettingUp n wgNameInMain ifName leases) (request c) :=
    fine_request fun _ => SettingUp.serve hc
  refine Fine.bind (Fine.mapError (hstep rfl) fun _ h => h) fun _ => ?_
  refine Fine.bind (hstep trivial) fun _ => ?_
  refine Fine.bind (Fine.mapError (hstep trivial) fun _ h => h) fun _ => ?_
  refine Fine.bind (Fine.mapError (hstep trivial) fun _ _ => nofun) fun _ => ?_
  refine Fine.bind (Fine.mapError (hstep trivial) fun _ _ => nofun) fun _ => ?_
  refine Fine.bind (Fine.mapError (hstep trivial) fun _ _ => nofun) fun _ => ?_
  refine Fine.bind (Fine.mapError (hstep rfl) fun _ _ => nofun) fun _ => ?_
  exact Fine.mapError (hstep trivial) fun _ _ => nofun

end Setup

section Recovery

variable {ipam : State → Except String (Option (List IPNet))} {s s' : State} {n : Nat} {wgNameInMain ifName : Name}

theorem links_filter {ns ns' : Space} {keep : Link → Bool} :
    (s.setLinks ns ((s.links ns).filter keep)).links ns' =
      if ns' = ns then (s.links ns).filter keep else s.links ns' := by
  cases ns <;> cases ns'
  case pod.pod =>
    cases hp : s.pod
    case none   => simp [State.setLinks, State.links, hp]
    case some _ => simp [State.setLinks, State.links, hp]
  all_goals rfl

theorem Traceable.mono (h : Traceable n wgNameInMain ifName s) (hsub : ∀ ns, (s'.links ns).Sublist (s.links ns))
    (hn : s'.next = s.next) : Traceable n wgNameInMain ifName s' where
  wellFormed := {
    names ns      := (h.wellFormed.names ns).sublist ((hsub ns).map _)
    indices       := h.wellFormed.indices.sublist (((hsub .host).append (hsub .pod)).map _)
    below ns l hl := hn ▸ h.wellFormed.below ns l ((hsub ns).subset hl) }
  inHost l hl := h.inHost l ((hsub .host).subset hl)
  inPod l hl  := h.inPod l ((hsub .pod).subset hl)

-- Recovery removes the link with the given name.
theorem wp_removeLink (ns : Space) (name : Name) (h : Traceable n wgNameInMain ifName s) :
    wp (world ipam) recovering (removeLink ns name) (fun r s' => r = .ok [] ∧ s'.leases = s.leases ∧
      s'.next = s.next ∧ (∀ ns, (s'.links ns).Sublist (s.links ns)) ∧ ∀ l ∈ s'.links ns, l.name ≠ name) s := by
  refine wp_bind.mpr (wp_attempt.mpr (wp_perform.mpr ⟨trivial, fun f ⟨hf, _⟩ => ?_⟩))
  obtain rfl := hf rfl
  simp only [World.answer_none, world, State.serve]
  cases hl : s.find ns name
  case none =>
    refine ⟨rfl, rfl, rfl, fun _ => List.Sublist.refl _, ?_⟩
    simpa [State.find] using hl
  case some l =>
    have hmem : l ∈ s.links ns := List.mem_of_find?_eq_some hl
    have hname : l.name = name := by simpa using List.find?_some hl
    refine wp_bind.mpr (wp_attempt.mpr (wp_perform.mpr ⟨trivial, fun f ⟨hf, _⟩ => ?_⟩))
    obtain rfl := hf rfl
    have hany : (s.links ns).any (·.index = l.index) = true := List.any_eq_true.mpr ⟨l, hmem, by simp⟩
    simp only [World.answer_none, State.serve, hany, if_true]
    refine ⟨rfl, by cases ns <;> rfl, by cases ns <;> rfl, fun ns' => ?_, fun l' hl' he => ?_⟩
    case refine_1 =>
      rw [links_filter]
      split
      case isTrue h' => exact h' ▸ List.filter_sublist
      case isFalse   => exact List.Sublist.refl _
    case refine_2 =>
      rw [links_filter, if_pos rfl] at hl'
      have ⟨hl', hne⟩ := List.mem_filter.mp hl'
      -- The names in a namespace are distinct, so that this would be the same link.
      have hsame : l' = l := List.inj_on_of_nodup_map (h.wellFormed.names ns) hl' hmem (he.trans hname.symm)
      exact of_decide_eq_true hne (congrArg Link.index hsame)

-- No link is left behind.
theorem wp_recover (h : Traceable n wgNameInMain ifName s) :
    wp (world ipam) recovering (recover wgNameInMain ifName) (fun r s' => r = .ok [] ∧ s'.leases = s.leases ∧
      ∀ ns, ∀ l ∈ s'.links ns, l.index < n) s := by
  refine wp_seq (wp_removeLink .host wgNameInMain h) ?_ (fun _ _ he => nomatch he.left)
  rintro _ s₁ ⟨h₁, hl₁, hn₁, hsub₁, hhost⟩
  have ht₁ := h.mono hsub₁ hn₁
  refine wp_seq (wp_removeLink .pod wgNameInMain ht₁) ?_ (fun _ _ he => nomatch he.left)
  rintro _ s₂ ⟨h₂, hl₂, hn₂, hsub₂, hpod⟩
  have ht₂ := ht₁.mono hsub₂ hn₂
  refine wp_seq (wp_removeLink .pod ifName ht₂) ?_ (fun _ _ he => nomatch he.left)
  rintro _ s₃ ⟨h₃, hl₃, _, hsub₃, hrenamed⟩
  cases h₁
  cases h₂
  cases h₃
  refine ⟨rfl, hl₃.trans (hl₂.trans hl₁), ?_⟩
  rintro (_ | _) l hl
  · have hl₁ := (hsub₂ .host).subset ((hsub₃ .host).subset hl)
    exact (ht₁.inHost l hl₁).resolve_right (hhost l hl₁)
  · have hl₂ := (hsub₃ .pod).subset hl
    exact (ht₂.inPod l hl₂).resolve_right fun he => he.elim (hpod l hl₂) (hrenamed l hl)

end Recovery

-- What an error leaves behind, and what becomes of the link that the pod had before.
def AllOrNothing (s : State) (ifName : Name) (r : Except Err Result) (s' : State) : Prop :=
  (∀ e, r = .error e → e.code ≠ .panic ∧ (∀ ns, ∀ l ∈ s'.links ns, l.index < s.next) ∧ s'.leases ⊆ s.leases) ∧
  ∀ l ∈ s.links .pod, l.name = ifName → l ∈ s'.links .pod

-- The name of the link can be derived from the ID of the container, or it does not have to be.
def Nameable (containerID ifName : Name) (s : State) : Prop :=
  8 ≤ containerID.length ∨ s.pod = none ∨ (s.find .pod ifName).isSome = true

section Main

variable {ipam : State → Except String (Option (List IPNet))} {s : State} {containerID ifName : Name}
  {podNSPath : String} {result : Result} {callback : Bool}

theorem wp_existingLink :
    wp (world ipam) recovering (existingLink ifName) (fun r s' => s' = s ∧
      (∀ l, r = .ok l → l = s.find .pod ifName) ∧ ∀ e, r = .error e → e.code ≠ .panic) s := by
  refine wp_bind.mpr (wp_attempt.mpr (wp_perform.mpr ⟨trivial, fun f _ => ?_⟩))
  cases f
  case lost    => exact ⟨rfl, nofun, fun _ he => Except.error.inj he ▸ nofun⟩
  case applied => exact ⟨serve_linkByName, nofun, fun _ he => Except.error.inj he ▸ nofun⟩
  case none =>
    simp only [World.answer_none, world, State.serve]
    cases hl : s.find .pod ifName
    case none   => exact ⟨rfl, fun _ he => (Except.ok.inj he).symm, nofun⟩
    case some l => exact ⟨rfl, fun _ he => (Except.ok.inj he).symm, nofun⟩

-- With a link of its own, the function does not touch any link.
theorem wp_withExistingLink (hw : s.WellFormed) :
    wp (world ipam) recovering (withIP (configureLink podNSPath ifName result callback)) (AllOrNothing s ifName) s := by
  refine wp_mono (wp_withIP (J := fun t => t.host = s.host ∧ t.pod = s.pod) (fun _ => fine_configureLink)
    (fun _ _ h => h) ⟨rfl, rfl⟩) ?_
  rintro r s' ⟨⟨hhost, hpod⟩, herr⟩
  have hlinks : ∀ ns, s'.links ns = s.links ns := by
    rintro (_ | _)
    · exact hhost
    · rw [State.links, hpod, State.links]
  refine ⟨fun e he => ⟨(herr e he).left, fun ns l hl => ?_, (herr e he).right⟩, fun l hl _ => ?_⟩
  · exact hw.below ns l (hlinks ns ▸ hl)
  · rw [hlinks]
    exact hl

-- The link is created, and removed again after an error.
theorem wp_withNewLink {wgNameInMain : Name} (hw : s.WellFormed) (hl : s.find .pod ifName = none) :
    wp (world ipam) recovering (onFailure (do
        createLink wgNameInMain ifName
        withIP (configureLink podNSPath ifName result callback))
      (recover wgNameInMain ifName)) (AllOrNothing s ifName) s := by
  have hnone : ∀ l ∈ s.links .pod, l.name ≠ ifName := by
    simpa [State.find] using hl
  have hstart : SettingUp s.next wgNameInMain ifName s.leases s :=
    ⟨⟨hw, fun l hl => .inl (hw.below .host l hl), fun l hl => .inl (hw.below .pod l hl)⟩, rfl⟩
  have hbody : wp (world ipam) recovering (do
      createLink wgNameInMain ifName
      withIP (configureLink podNSPath ifName result callback)) (fun r s' => Traceable s.next wgNameInMain ifName s' ∧
        ∀ e, r = .error e → e.code ≠ .panic ∧ s'.leases ⊆ s.leases) s := by
    refine wp_seq (fine_createLink s hstart) (fun _ s' h => ?_) fun e s' h => ?_
    case refine_1 =>
      refine wp_mono (wp_withIP (J := Traceable s.next wgNameInMain ifName) (fun _ => fine_configureLink) ?_
        h.left.links) fun r s'' h' => ?_
      · exact fun _ _ ht => ⟨⟨ht.wellFormed.names, ht.wellFormed.indices, ht.wellFormed.below⟩, ht.inHost, ht.inPod⟩
      · rw [h.left.leases] at h'
        exact h'
    case refine_2 =>
      refine ⟨h.left.links, fun _ he => ?_⟩
      rw [h.left.leases]
      exact ⟨Except.error.inj he ▸ h.right e rfl, List.Subset.refl _⟩
  refine wp_bind.mpr (wp_attempt.mpr (wp_mono hbody ?_))
  rintro r s' ⟨ht, herr⟩
  cases r
  case ok a => exact ⟨nofun, fun l hl he => absurd he (hnone l hl)⟩
  case error e =>
    have ⟨hcode, hleases⟩ := herr e rfl
    refine wp_seq (wp_recover ht) ?_ (fun _ _ he => nomatch he.left)
    rintro errs s'' ⟨hr, hl', hlinks⟩
    cases hr
    refine ⟨fun _ he => ?_, fun l hl he => absurd he (hnone l hl)⟩
    rw [← Except.error.inj he, hl']
    exact ⟨hcode, hlinks, hleases⟩

theorem wp_withWireGuardNic (hw : s.WellFormed) (hn : Nameable containerID ifName s) :
    wp (world ipam) recovering (withWireGuardNic containerID podNSPath ifName result callback)
      (AllOrNothing s ifName) s := by
  have hsame (e : Err) (he : e.code ≠ .panic) : AllOrNothing s ifName (.error e) s :=
    ⟨fun _ h => Except.error.inj h ▸ ⟨he, hw.below, List.Subset.refl _⟩, fun _ hl _ => hl⟩
  have hns : wp (world ipam) recovering (request (.getNSByPath podNSPath)) (fun r s' => s' = s ∧
      (r = .ok () → s.pod.isSome = true) ∧ ∀ e, r = .error e → e.code ≠ .panic) s := by
    have hstate : (State.serve ipam (.getNSByPath podNSPath) s).2 = s := by
      simp only [State.serve]
      split <;> rfl
    refine wp_perform.mpr ⟨trivial, fun f _ => ?_⟩
    cases f
    case lost    => exact ⟨rfl, nofun, fun _ he => Except.error.inj he ▸ nofun⟩
    case applied => exact ⟨hstate, nofun, fun _ he => Except.error.inj he ▸ nofun⟩
    case none =>
      have hcode : ∀ e, (State.serve ipam (.getNSByPath podNSPath) s).1 = .error e → e.code ≠ .panic :=
        fun _ => code_serve
      refine ⟨hstate, fun h => ?_, hcode⟩
      simp only [World.answer_none, world, State.serve] at h
      split at h
      · assumption
      · nomatch h
  refine wp_seq hns ?_ fun e s' ⟨hs, _, he⟩ => hs ▸ hsame e (he e rfl)
  rintro _ s' ⟨rfl, hpod, -⟩
  refine wp_seq wp_existingLink ?_ fun e s' ⟨hs, _, he⟩ => hs ▸ hsame e (he e rfl)
  rintro l s' ⟨rfl, hl, -⟩
  cases hf : s'.find .pod ifName
  case some l' =>
    obtain rfl : l = some l' := (hl l rfl).trans hf
    exact wp_withExistingLink hw
  case none =>
    obtain rfl : l = none := (hl l rfl).trans hf
    have hlen : 8 ≤ containerID.length := by
      refine hn.resolve_right fun h => h.elim (fun h => ?_) fun h => ?_
      · have hp := hpod rfl
        rw [h] at hp
        nomatch hp
      · rw [hf] at h
        nomatch h
    dsimp only
    rw [if_neg (Nat.not_lt.mpr hlen)]
    exact wp_withNewLink hw hf

end Main

namespace Sample

def podLinks : State where
  host := [{ index := 1, name := "eth0".toUTF8.toList }]
  pod  := some [{ index := 2, name := "eth0".toUTF8.toList }]
  next := 3

def answering (_ : State) : Except String (Option (List IPNet)) :=
  .ok (some [⟨.ofV4 0x0a000007, 32, 32⟩])

-- The callback fails.
def callbackFails : Call → Fault
  | .configFunc _ => .lost
  | _             => .none

def nicAdded (containerID : String) : Outcome Sig State Result :=
  run (world answering) (fun _ => callbackFails) 0
    (withWireGuardNic containerID.toUTF8.toList "/var/run/netns/a" "wg0".toUTF8.toList {} true) podLinks

theorem callbackFails_allowed {c : Call} :
    (c.isRecovery = true → callbackFails c = .none) ∧ (c = .ipamAdd → callbackFails c ≠ .applied) := by
  cases c
  case configFunc => exact ⟨nofun, nofun⟩
  all_goals exact ⟨fun _ => rfl, fun _ => nofun⟩

theorem podLinks_wellFormed : podLinks.WellFormed where
  names   := by rintro (_ | _) <;> decide +kernel
  indices := by decide +kernel
  below   := by rintro (_ | _) <;> decide +kernel

end Sample

end Cni.Nic
