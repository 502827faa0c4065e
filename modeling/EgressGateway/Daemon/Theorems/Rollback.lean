import EgressGateway.Daemon.Theorems.Frame

-- What becomes of the host namespace if the pair of links that connects it with the gateways cannot be
-- set up.

open Kubernetes Text Net Program

namespace Daemon

-- The calls that are made to undo others.
def isUndo : Call → Bool
  | .routeDel .. | .linkDel .. => true
  | _                          => false

-- A step that fails has no effect, and undoing a step does not fail.
abbrev failing : Contract Sig Node where
  allow c _ f := f ≠ .applied ∧ (isUndo c = true → f = .none)
  owe _ _     := True

-- Routes have a link, and an end of the pair is not there without the end that stays in the namespace.
structure Coherent (n : Netns) : Prop where
  routes : ∀ r ∈ n.routes, (n.findLink r.link).isSome = true
  peers  : ∀ l ∈ n.links, l.peer = some hostVethLinkName → (n.findLink hostVethLinkName).isSome = true

-- The pair cannot be created at all.
def Blocked (n : Netns) : Prop :=
  n.findLink hostVethLinkName = none ∧ (n.findLink hostLinkName).isSome = true

-- Neither is the route there already nor does another one have to make room for it.
def Vacant (net : IPNet) (n : Netns) : Prop :=
  snatRoute net ∉ n.routes ∧
  (n.routes.any (equalRoute · (snatRoute net)) = true ∨ ∀ r ∈ n.routes, r.dst ≠ some net)

section Steps

variable {s : Node} {n : Netns}

theorem wp_step {c : Call} {Q : Except Err (Reply c) → Node → Prop} (served : Q (s.serve c).1 (s.serve c).2)
    (lost : isUndo c = false → Q (.error world.outage) s) : wp world failing (request c) Q s := by
  refine wp_perform.mpr ⟨trivial, fun f ⟨hf, hu⟩ => ?_⟩
  cases f
  case none    => exact served
  case applied => exact absurd rfl hf
  case lost =>
    refine lost ?_
    cases hc : isUndo c
    case false => rfl
    case true  => nomatch hu hc

-- A step that only reads: either it fails, or the function goes on where it was.
theorem wp_look {α : Type} {c : Call} {context : String} {f : Reply c → M α} {Q : Except Err α → Node → Prop}
    (h : c.reads = true) (next : ∀ a, (s.serve c).1 = .ok a → wp world failing (f a) Q s)
    (failed : ∀ e, Q (.error e) s) : wp world failing ((wrapError context (request c)).bind f) Q s := by
  refine wp_bind.mpr (wp_wrapError.mpr (wp_step ?_ fun _ => failed _))
  rw [Node.serve_reads h]
  cases hr : (s.serve c).1
  case ok a    => exact next a hr
  case error e => exact failed _

-- What is deferred runs after an error.
theorem wp_onFailure {α : Type} {C : Contract Sig Node} {p : M α} {deferred : M Unit} {Q : Except Err α → Node → Prop}
    {P : Except Err α → Node → Prop} (h : wp world C p P s) (ok : ∀ a s, P (.ok a) s → Q (.ok a) s)
    (error : ∀ e s, P (.error e) s → wp world C deferred (fun _ s' => Q (.error e) s') s) :
    wp world C (onFailure p deferred) Q s := by
  refine wp_bind.mpr (wp_attempt.mpr (wp_mono h fun r s' hr => ?_))
  cases r
  case ok a    => exact ok a s' hr
  case error e => exact wp_bind.mpr (wp_attempt.mpr (error e s' hr))

theorem moveLink_error {name : String} {e : Err} (h : (s.moveLink name).1 = .error e) : (s.moveLink name).2 = s := by
  unfold Node.moveLink at h ⊢
  split
  · rfl
  · rfl
  · split
    · rfl
    · simp_all

-- The node with other routes in the host namespace.
def Node.withRoutes (s : Node) (rs : List Route) : Node :=
  { s with host.routes := rs }

theorem serve_routeReplace {r : Route} (h : (s.host.findLink r.link).isSome = true) :
    s.serve (.routeReplace .host r) = (.ok (), s.withRoutes (s.host.routes.filter (·.dst ≠ r.dst) ++ [r])) := by
  simp only [Node.serve, Node.onNetns, Node.netns, h, if_true]
  rfl

theorem serve_routeDel {r : Route} {rs : List Route} (h : r ∈ rs) :
    (s.withRoutes rs).serve (.routeDel .host r) = (.ok (), s.withRoutes (rs.erase r)) := by
  simp only [Node.serve, Node.onNetns, Node.netns, Node.withRoutes, h, if_true]
  rfl

theorem serve_routeDel_of_notMem {r : Route} (h : r ∉ s.host.routes) : (s.serve (.routeDel .host r)).2 = s := by
  simp only [Node.serve, Node.onNetns, Node.netns, h, if_false]

-- The last step: it has no effect if it fails.
theorem wp_movePeer : wp world failing (do
    match ← attempt (request (.linkByName .host hostLinkName)) with
    | .ok _ =>
      wrapError "failed to move veth peer link to gateway namespace: " <|
        request (.linkSetNs hostLinkName)
    | .error e =>
      if e.code = .linkNotFound then ret ()
      else throw (e.wrap "failed to get veth peer link in host namespace: "))
    (fun r s' => ∀ e, r = .error e → s' = s) s := by
  have hfound (e : Err) : wp world failing
      (if e.code = .linkNotFound then ret ()
        else throw (e.wrap "failed to get veth peer link in host namespace: "))
      (fun (r : Except Err Unit) s' => ∀ e, r = .error e → s' = s) s := by
    split
    · exact nofun
    · exact fun _ _ => rfl
  refine wp_bind.mpr (wp_attempt.mpr (wp_step ?_ fun _ => hfound _))
  rw [Node.serve_reads rfl]
  cases (s.serve (.linkByName .host hostLinkName)).1
  case error e => exact hfound e
  case ok l =>
    refine wp_wrapError.mpr (wp_step (fun e he => ?_) fun _ _ _ => rfl)
    cases hm : (s.moveLink hostLinkName).1
    case ok u     => simp [Node.serve, hm, Except.mapError] at he
    case error e' => exact moveLink_error hm

end Steps

section Connect

variable {s : Node} {snatIP : String}

theorem wp_connectVethPair (hl : (s.host.findLink hostVethLinkName).isSome = true)
    (hv : ∀ net, hostNetOf snatIP = some net → Vacant net s.host) :
    wp world failing (connectVethPair snatIP) (fun r s' => ∀ e, r = .error e → s' = s) s := by
  refine wp_look rfl (fun _ _ => ?_) fun _ _ _ => rfl
  refine wp_bind.mpr (wp_orError.mpr ?_)
  cases hn : hostNetOf snatIP
  case none =>
    unfold hostNetOf at hn
    rw [hn]
    exact fun _ _ => rfl
  case some net =>
    obtain ⟨hnot, hroom⟩ := hv net hn
    unfold hostNetOf at hn
    rw [hn]
    -- The route is added unless one that equals it is found.
    have hadd : wp world failing (addOrReplaceRoute .host (snatRoute net)) (fun r s' =>
        (∀ e, r = .error e → s' = s) ∧
        (r = .ok () → s' = s ∨ s' = s.withRoutes (s.host.routes ++ [snatRoute net]))) s := by
      refine wp_bind.mpr (wp_step ?_ fun _ => ⟨fun _ _ => rfl, by simp⟩)
      have hlist : s.serve (.routeList .host none) = (.ok s.host.routes, s) := by
        simp [Node.serve, Node.look, Node.netns]
      rw [hlist]
      simp only [andThen]
      split
      case isTrue  => exact ⟨by simp, fun _ => .inl rfl⟩
      case isFalse hany =>
        have hfree := hroom.resolve_left hany
        have hkeep : s.host.routes.filter (·.dst ≠ (snatRoute net).dst) = s.host.routes :=
          List.filter_eq_self.mpr fun r hr => decide_eq_true (hfree r hr)
        refine wp_step ?_ fun _ => ⟨fun _ _ => rfl, by simp⟩
        rw [serve_routeReplace hl, hkeep]
        exact ⟨by simp, fun _ => .inr rfl⟩
    refine wp_bind.mpr (wp_wrapError.mpr (wp_mono hadd ?_))
    rintro r s' ⟨herr, hok⟩
    cases r
    case error e => exact fun _ _ => herr e rfl
    case ok =>
      refine wp_onFailure wp_movePeer (fun _ _ _ => by simp) fun e s'' hs => ?_
      obtain rfl := hs e rfl
      refine wp_step (fun _ _ => ?_) (by simp [isUndo])
      rcases hok rfl with rfl | rfl
      · exact serve_routeDel_of_notMem hnot
      · have hmem : snatRoute net ∈ s.host.routes ++ [snatRoute net] := by simp
        have herase : (s.host.routes ++ [snatRoute net]).erase (snatRoute net) = s.host.routes := by
          simp [List.erase_append_right _ hnot]
        rw [show Route.mk hostVethLinkName .universe (some net) none = snatRoute net from rfl,
          serve_routeDel hmem, herase]
        rfl

-- The namespace with the pair of links.
def Netns.withPair (n : Netns) : Netns :=
  (n.addLink .hostVeth).addLink .host0

theorem findLink_withPair {n : Netns} : (n.withPair.findLink hostVethLinkName).isSome = true := by
  simp [Netns.withPair, Netns.addLink, Netns.findLink, Link.hostVeth]

theorem notMem_names_of_findLink {n : Netns} {name : String} (h : n.findLink name = none) :
    ∀ l ∈ n.links, l.name ≠ name := by
  simpa [Netns.findLink] using h

-- Deleting the pair restores the namespace that it was added to, apart from the routes.
theorem host_deleteLink {rs : List Route} (hc : Coherent s.host) (hv : s.host.findLink hostVethLinkName = none)
    (h0 : s.host.findLink hostLinkName = none) (hrs : ∀ r ∈ rs, r ∈ s.host.routes) :
    (Node.serve (.linkDel .host hostVethLinkName) (Node.withRoutes { s with host := s.host.withPair } rs)).2.host =
      { s.host with routes := rs } := by
  have hne : hostLinkName ≠ hostVethLinkName := by decide +kernel
  have hveth := notMem_names_of_findLink hv
  have hhost := notMem_names_of_findLink h0
  -- Routes have links that exist, so that none of them goes with the pair.
  have hroutes {name : String} (hn : s.host.findLink name = none) : rs.filter (·.link ≠ name) = rs := by
    refine List.filter_eq_self.mpr fun r hr => decide_eq_true fun he => ?_
    have hsome := hc.routes r (hrs r hr)
    rw [he, hn] at hsome
    nomatch hsome
  have hlinks {name : String} (hn : ∀ l ∈ s.host.links, l.name ≠ name) :
      s.host.links.filter (·.name ≠ name) = s.host.links :=
    List.filter_eq_self.mpr fun l hl => decide_eq_true (hn l hl)
  have hfind : s.host.withPair.findLink hostVethLinkName = some .hostVeth := by
    have hnone : s.host.links.find? (·.name = hostVethLinkName) = none := hv
    simp [Netns.withPair, Netns.addLink, Netns.findLink, hnone, Link.hostVeth]
  have hdrop : Netns.dropLink { s.host.withPair with routes := rs } hostVethLinkName =
      { s.host with links := s.host.links ++ [.host0], routes := rs } := by
    simp only [Netns.dropLink, Netns.withPair, Netns.addLink, List.filter_append, hlinks hveth, hroutes hv]
    simp [Link.hostVeth, Link.host0, hne]
  have hpeer : (s.host.links ++ [Link.host0]).find? (·.peer = some hostVethLinkName) = some .host0 := by
    have hnone : s.host.links.find? (·.peer = some hostVethLinkName) = none := by
      refine List.find?_eq_none.mpr fun l hl hp => ?_
      have hsome := hc.peers l hl (of_decide_eq_true hp)
      rw [hv] at hsome
      nomatch hsome
    simp [List.find?_append, hnone, Link.host0]
  have hdrop' : Netns.dropLink { s.host with links := s.host.links ++ [.host0], routes := rs } hostLinkName =
      { s.host with routes := rs } := by
    simp only [Netns.dropLink, List.filter_append, hlinks hhost, hroutes h0]
    simp [Link.host0]
  have hfind' : Netns.findLink { s.host.withPair with routes := rs } hostVethLinkName = some .hostVeth := hfind
  simp only [Node.serve, Node.deleteLink, Node.netns, Node.withRoutes, hfind', Link.hostVeth, Option.isSome_some,
    if_true, Node.setNetns, hdrop, Node.dropPeer, hpeer]
  exact hdrop'

-- An error leaves the host namespace as it was.
theorem wp_reconcileVethPairInHost (hc : Coherent s.host)
    (h : ∀ net, hostNetOf snatIP = some net → Blocked s.host ∨ Vacant net s.host) :
    wp world failing (reconcileVethPairInHost snatIP) (fun r s' => ∀ e, r = .error e → s'.host = s.host) s := by
  refine wp_bind.mpr (wp_attempt.mpr (wp_step ?_ fun _ _ _ => rfl))
  rw [Node.serve_reads rfl]
  cases hv : s.host.findLink hostVethLinkName
  case some l =>
    have hlink : (s.serve (.linkByName .host hostVethLinkName)).1 = .ok l := by
      simp [Node.serve, Node.lookLink, Node.look, Node.netns, hv]
    rw [hlink]
    refine wp_mono (wp_connectVethPair (by rw [hv]; rfl) fun net hn => ?_) fun r s' hs e he => by rw [hs e he]
    exact (h net hn).resolve_left fun hb => by cases hv.symm.trans hb.left
  case none =>
    have hlink : (s.serve (.linkByName .host hostVethLinkName)).1 = .error (linkNotFound hostVethLinkName) := by
      simp [Node.serve, Node.lookLink, Node.look, Node.netns, hv]
    rw [hlink]
    refine wp_bind.mpr (wp_wrapError.mpr (wp_step ?_ fun _ _ _ => rfl))
    cases h0 : s.host.findLink hostLinkName
    case some l =>
      have hadd : s.serve .vethAdd = (.error (failure "file exists"), s) := by
        simp [Node.serve, Node.onNetns, Node.netns, h0]
      rw [hadd]
      exact fun _ _ => rfl
    case none =>
      have hadd : s.serve .vethAdd = (.ok (), { s with host := s.host.withPair }) := by
        simp only [Node.serve, Node.onNetns, Node.netns, hv, h0]
        rfl
      rw [hadd]
      have hvac : ∀ net, hostNetOf snatIP = some net → Vacant net s.host.withPair := fun net hn =>
        (h net hn).resolve_left fun hb => absurd hb.right (by simp [h0])
      refine wp_onFailure (P := fun r s' => ∀ e, r = .error e → s' = { s with host := s.host.withPair })
        ?_ (fun _ _ _ => by simp) fun e s' hs => ?_
      case refine_1 =>
        refine wp_look rfl (fun _ _ => ?_) fun _ _ _ => rfl
        exact wp_connectVethPair findLink_withPair hvac
      case refine_2 =>
        obtain rfl := hs e rfl
        refine wp_step (fun _ _ => ?_) (by simp [isUndo])
        exact host_deleteLink hc hv h0 fun _ hr => hr

end Connect

section Disturbed

variable {s : Node} {snatIP : String} {net : IPNet}

-- The fate of the calls of a run in which the peer is not found.
def peerLost : Call → Fault
  | .linkByName .host name => if name = hostLinkName then .lost else .none
  | _                      => .none

theorem peerLost_ne_applied {c : Call} : peerLost c ≠ .applied := by
  unfold peerLost
  split
  · split <;> nofun
  · nofun

theorem peerLost_undo {c : Call} (h : isUndo c = true) : peerLost c = .none := by
  cases c
  case routeDel | linkDel => rfl
  all_goals nomatch h

-- A step that is served, and the function goes on.
theorem wp_serve {α : Type} {c : Call} {context : String} {f : Reply c → M α} {Q : Except Err α → Node → Prop}
    {a : Reply c} {s' : Node} (hf : peerLost c = .none) (h : s.serve c = (.ok a, s'))
    (next : wp world (.fixed peerLost) (f a) Q s') :
    wp world (.fixed peerLost) ((wrapError context (request c)).bind f) Q s := by
  refine wp_bind.mpr (wp_wrapError.mpr (wp_perform_fixed.mpr ?_))
  rw [hf, World.answer_none]
  simp only [world, h]
  exact next

-- The route is removed although it was there before, or another one is not put back.
theorem wp_connectVethPair_lost (hl : (s.host.findLink hostVethLinkName).isSome = true)
    (hn : hostNetOf snatIP = some net) (hv : ¬Vacant net s.host) :
    wp world (.fixed peerLost) (connectVethPair snatIP) (fun r s' => (∃ e, r = .error e) ∧
      ∃ rs, s' = s.withRoutes rs ∧ rs.Sublist s.host.routes ∧ rs ≠ s.host.routes) s := by
  obtain ⟨l, hl'⟩ := Option.isSome_iff_exists.mp hl
  have hup : s.serve (.linkSetUp .host hostVethLinkName) = (.ok (), s) := by
    simp [Node.serve, Node.lookLink, Node.look, Node.netns, hl']
  have hlist : s.serve (.routeList .host none) = (.ok s.host.routes, s) := by
    simp [Node.serve, Node.look, Node.netns]
  refine wp_serve rfl hup (wp_bind.mpr (wp_orError.mpr ?_))
  unfold hostNetOf at hn
  rw [hn]
  have hadd : wp world (.fixed peerLost) (addOrReplaceRoute .host (snatRoute net)) (fun r s' => r = .ok () ∧
      ∃ rs, s' = s.withRoutes rs ∧ snatRoute net ∈ rs ∧ (rs.erase (snatRoute net)).Sublist s.host.routes ∧
        rs.erase (snatRoute net) ≠ s.host.routes) s := by
    refine wp_bind.mpr (wp_perform_fixed.mpr ?_)
    simp only [peerLost, World.answer_none, world, hlist, andThen]
    by_cases hmem : snatRoute net ∈ s.host.routes
    case pos =>
      have hany : s.host.routes.any (equalRoute · (snatRoute net)) = true :=
        List.any_eq_true.mpr ⟨_, hmem, by simp [equalRoute]⟩
      rw [if_pos hany]
      refine ⟨rfl, s.host.routes, rfl, hmem, List.erase_sublist, fun he => ?_⟩
      have hlt := List.length_erase_of_mem hmem
      have hpos := List.length_pos_of_mem hmem
      rw [he] at hlt
      omega
    case neg =>
      have hv : ¬(s.host.routes.any (equalRoute · (snatRoute net)) = true ∨ ∀ r ∈ s.host.routes, r.dst ≠ some net) :=
        fun h => hv ⟨hmem, h⟩
      obtain ⟨hany, hdst⟩ := not_or.mp hv
      rw [if_neg hany]
      refine wp_perform_fixed.mpr ?_
      have hreplace : s.serve (.routeReplace .host (snatRoute net)) =
          (.ok (), s.withRoutes (s.host.routes.filter (·.dst ≠ (snatRoute net).dst) ++ [snatRoute net])) :=
        serve_routeReplace hl
      simp only [peerLost, World.answer_none]
      rw [hreplace]
      have hnot : snatRoute net ∉ s.host.routes.filter (·.dst ≠ (snatRoute net).dst) := by simp
      have herase : (s.host.routes.filter (·.dst ≠ (snatRoute net).dst) ++ [snatRoute net]).erase (snatRoute net) =
          s.host.routes.filter (·.dst ≠ (snatRoute net).dst) := by
        rw [List.erase_append_right _ hnot, List.erase_cons_head, List.append_nil]
      refine ⟨rfl, _, rfl, List.mem_append_right _ (List.mem_singleton.mpr rfl), ?_, ?_⟩
      · rw [herase]
        exact List.filter_sublist
      · rw [herase]
        intro he
        refine hdst fun r hr => ?_
        exact of_decide_eq_true (List.filter_eq_self.mp he r hr)
  refine wp_bind.mpr (wp_wrapError.mpr (wp_mono hadd ?_))
  rintro r s' ⟨rfl, rs, rfl, hmem, hsub, hne⟩
  refine wp_onFailure (P := fun r s' => (∃ e, r = .error e) ∧ s' = s.withRoutes rs) ?_ (fun _ _ h => by obtain ⟨⟨_, h⟩, _⟩ := h; cases h) ?_
  case refine_1 =>
    refine wp_bind.mpr (wp_attempt.mpr (wp_perform_fixed.mpr ?_))
    simp only [peerLost, if_true, World.answer_lost, andThen]
    exact ⟨⟨_, rfl⟩, rfl⟩
  case refine_2 =>
    rintro e s' ⟨_, rfl⟩
    refine wp_perform_fixed.mpr ?_
    have hdel : world.exec (.routeDel .host (snatRoute net)) (s.withRoutes rs) =
        (.ok (), s.withRoutes (rs.erase (snatRoute net))) := serve_routeDel hmem
    exact ⟨⟨_, rfl⟩, _, congrArg Prod.snd hdel, hsub, hne⟩

theorem wp_reconcileVethPairInHost_lost (hc : Coherent s.host) (hn : hostNetOf snatIP = some net)
    (hb : ¬Blocked s.host) (hv : ¬Vacant net s.host) :
    wp world (.fixed peerLost) (reconcileVethPairInHost snatIP) (fun r s' => (∃ e, r = .error e) ∧
      s'.host.routes ≠ s.host.routes) s := by
  have hne : hostVethLinkName ≠ hostLinkName := by decide +kernel
  have hfate : peerLost (.linkByName .host hostVethLinkName) = .none := by
    simp [peerLost, hne]
  refine wp_bind.mpr (wp_attempt.mpr (wp_perform_fixed.mpr ?_))
  rw [hfate, World.answer_none]
  cases hl : s.host.findLink hostVethLinkName
  case some l =>
    have hlink : world.exec (.linkByName .host hostVethLinkName) s = (.ok l, s) := by
      simp [world, Node.serve, Node.lookLink, Node.look, Node.netns, hl]
    rw [hlink]
    refine wp_mono (wp_connectVethPair_lost (by rw [hl]; rfl) hn hv) ?_
    rintro r s' ⟨he, rs, rfl, _, hrs⟩
    exact ⟨he, hrs⟩
  case none =>
    have h0 : s.host.findLink hostLinkName = none := by
      by_contra h0
      exact hb ⟨hl, Option.isSome_iff_ne_none.mpr h0⟩
    have hlink : world.exec (.linkByName .host hostVethLinkName) s = (.error (linkNotFound hostVethLinkName), s) := by
      simp [world, Node.serve, Node.lookLink, Node.look, Node.netns, hl]
    have hadd : s.serve .vethAdd = (.ok (), { s with host := s.host.withPair }) := by
      simp only [Node.serve, Node.onNetns, Node.netns, hl, h0]
      rfl
    rw [hlink]
    refine wp_serve rfl hadd ?_
    refine wp_onFailure (P := fun r s' => (∃ e, r = .error e) ∧ ∃ rs,
      s' = Node.withRoutes { s with host := s.host.withPair } rs ∧ rs.Sublist s.host.routes ∧ rs ≠ s.host.routes)
      ?_ (fun _ _ h => by obtain ⟨⟨_, h⟩, _⟩ := h; cases h) ?_
    case refine_1 =>
      obtain ⟨l, hl'⟩ := Option.isSome_iff_exists.mp (findLink_withPair (n := s.host))
      have hlink' : Node.serve (.linkByName .host hostVethLinkName) { s with host := s.host.withPair } =
          (.ok l, { s with host := s.host.withPair }) := by
        simp [Node.serve, Node.lookLink, Node.look, Node.netns, hl']
      exact wp_serve hfate hlink' (wp_connectVethPair_lost findLink_withPair hn hv)
    case refine_2 =>
      rintro e s' ⟨_, rs, rfl, hsub, hrs⟩
      refine wp_perform_fixed.mpr ⟨⟨_, rfl⟩, ?_⟩
      have hdel := host_deleteLink hc hl h0 fun r hr => hsub.subset hr
      exact fun he => hrs ((congrArg Netns.routes hdel).symm.trans he)

end Disturbed

namespace Sample

-- A gateway that works: the pair of links and the route exist.
def connected (routes : List Route) : Node where
  host := {
    links  := [.hostVeth, { name := "eth0" }]
    routes := routes }

def disconnected (routes : List Route) : Outcome Sig Node Unit :=
  run world (fun _ => peerLost) 0 (reconcileVethPairInHost "10.0.0.6") (connected routes)

end Sample

end Daemon
