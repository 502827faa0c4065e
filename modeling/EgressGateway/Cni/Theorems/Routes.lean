import EgressGateway.Cni.Routes
import Mathlib.Data.List.Count

-- Which interface the packets of a pod leave by.

open Net Program

namespace Cni

open Prefixes

section Calls

variable {s : Pod} {c : Call}

theorem returns_request {context : String} {P : Reply c → Pod → Prop}
    (h : ∀ a, (Pod.serve c s).1 = .ok a → P a (Pod.serve c s).2) : Returns world (request context c) s P :=
  (returns_perform h).mapError

-- A call that has nothing to do with routes.
def Call.routing : Call → Bool
  | .routeDel _ | .routeReplace _ => true
  | _                             => false

theorem routes_serve (h : c.routing = false) : (Pod.serve c s).2.routes = s.routes := by
  cases c
  case routeDel | routeReplace => nomatch h
  case linkByName | ruleAdd => simp only [Pod.serve]; split <;> rfl
  all_goals rfl

theorem returns_other {context : String} (h : c.routing = false) :
    Returns world (request context c) s fun _ s' => s'.routes = s.routes :=
  returns_request fun _ _ => routes_serve h

theorem returns_routeReplace {context : String} {r : Route} : Returns world (request context (.routeReplace r)) s
    fun _ s' => s'.routes = replace Route.destination s.routes (Pod.resolved r) :=
  returns_request fun _ _ => rfl

theorem returns_routeList {context link : String} : Returns world (request context (.routeList link)) s
    fun rs s' => rs = s.onLink link ∧ s' = s :=
  returns_request fun _ h => ⟨(Except.ok.inj h).symm, rfl⟩

theorem returns_deleteAll {context : String} {rs : List Route} :
    Returns world (forEach rs fun r => request context (.routeDel r)) s fun _ s' => s'.routes = s.routes.diff rs := by
  induction rs generalizing s
  case nil => exact returns_ret (List.diff_nil _).symm
  case cons r rs hi =>
    refine (returns_request (P := fun _ s' => s'.routes = s.routes.erase r) fun a ha => ?_).bind fun _ s' hs => ?_
    · simp only [Pod.serve] at ha ⊢
      split at ha
      case isTrue h => rw [if_pos h]
      case isFalse  => nomatch ha
    · rw [List.diff_cons, ← hs]
      exact hi

end Calls

section Program

variable {ifName sysctlDir : String} {s : Pod} {dr : Route}

-- The route that marked packets take is in another table.
def ingressRoute (dr : Route) : Route :=
  Pod.resolved { dr with table := eth0Mark }

theorem returns_addRoutingForIngress : Returns world (addRoutingForIngress dr sysctlDir) s
    fun _ s' => s'.routes = replaceAll Route.destination s.routes [ingressRoute dr] := by
  have keep {c : Call} {context : String} {s' : Pod} (hc : c.routing = false) (hs : s'.routes = s.routes) :
      Returns world (request context c) s' fun _ s'' => s''.routes = s.routes :=
    (returns_other hc).mono fun _ _ h => h.trans hs
  refine (keep rfl rfl).bind fun _ _ h => (keep rfl h).bind fun _ _ h => (keep rfl h).bind fun _ _ h =>
    (keep rfl h).bind fun _ _ h => (keep rfl h).bind fun _ s₁ h₁ => ?_
  refine returns_routeReplace.bind fun _ s₂ h₂ => ?_
  rw [h₁] at h₂
  refine (returns_other rfl).bind fun _ s₃ h₃ => (returns_other rfl).mono fun _ s₄ h₄ => ?_
  exact h₄.trans (h₃.trans h₂)

theorem returns_redirectDefault {rs : List Route} : Returns world (redirectDefault ifName rs dr) s
    fun _ s' => ∃ gw, dr.gw = some gw ∧ s'.routes = replaceAll Route.destination (s.routes.diff rs)
      [Pod.resolved (gatewayRoute gw), Pod.resolved (wgRoute ifName anyV4)] := by
  refine returns_deleteAll.bind fun _ s₁ h₁ => ?_
  cases hg : dr.gw
  case none => exact returns_throw
  case some gw =>
    refine returns_routeReplace.bind fun _ s₂ h₂ => returns_routeReplace.bind fun _ s₃ h₃ => returns_ret ?_
    exact ⟨gw, rfl, by rw [h₃, h₂, h₁]; rfl⟩

def exceptionRoute (ifName : String) (defaultToGateway : Bool) (dr : Route) (n : IPNet) : Route :=
  Pod.resolved (if defaultToGateway then eth0Route dr n else wgRoute ifName n)

-- The networks of those exceptions that parse.
def cidrNets (cidrs : List String) : List IPNet :=
  cidrs.filterMap fun x => (parseCIDR x).map (·.2)

theorem returns_exceptions {toGateway : Bool} {cidrs : List String} {acc : List ResultRoute} :
    Returns world (forFold cidrs acc (addException ifName toGateway dr)) s fun _ s' =>
      s'.routes = replaceAll Route.destination s.routes ((cidrNets cidrs).map (exceptionRoute ifName toGateway dr)) := by
  let J (_ : List ResultRoute) (done : List String) (s' : Pod) : Prop :=
    s'.routes = replaceAll Route.destination s.routes ((cidrNets done).map (exceptionRoute ifName toGateway dr))
  refine returns_forFold (J := J) [] rfl fun acc done x _ s' hs => ?_
  unfold addException
  cases hx : parseCIDR x
  case none => exact returns_throw
  case some n =>
    refine returns_routeReplace.bind fun _ s₁ h₁ => returns_ret ?_
    have hn : cidrNets (done ++ [x]) = cidrNets done ++ [n.2] := by simp [cidrNets, hx]
    simp only [J] at hs ⊢
    rw [h₁, hs, hn, List.map_append, replaceAll, replaceAll, List.foldl_append]
    rfl

theorem returns_finish {toGateway : Bool} {cidrs : List String} {acc : List ResultRoute} :
    Returns world ((forFold cidrs acc (addException ifName toGateway dr)).bind fun result =>
        (addRoutingForIngress dr sysctlDir).bind fun _ => ret result) s fun _ s' =>
      s'.routes = replaceAll Route.destination s.routes
        ((cidrNets cidrs).map (exceptionRoute ifName toGateway dr) ++ [ingressRoute dr]) := by
  refine returns_exceptions.bind fun result s₁ h₁ => ?_
  refine returns_addRoutingForIngress.bind fun _ s₂ h₂ => returns_ret ?_
  rw [h₂, h₁, replaceAll, replaceAll, replaceAll, List.foldl_append]

-- Everything before the routes are touched.
theorem returns_prepare {α : Type} {f : List Route → Route → M α} {P : α → Pod → Prop}
    (h : ∀ dr s', findDefaultRoute (s.onLink "eth0") = some dr → s'.routes = s.routes →
      Returns world (f (s.onLink "eth0") dr) s' P) :
    Returns world (do
      request "failed to retrieve eth0 interface: " (.linkByName "eth0")
      request "failed to retrieve wireguard interface: " (.linkByName ifName)
      let routes ← request "failed to list all routes on eth0: " (.routeList "eth0")
      match findDefaultRoute routes with
      | none              => throw (.errorf "failed to find default route")
      | some defaultRoute => f routes defaultRoute) s P := by
  refine (returns_other rfl).bind fun _ s₁ h₁ => (returns_other rfl).bind fun _ s₂ h₂ => ?_
  refine returns_routeList.bind fun rs s₃ h₃ => ?_
  obtain ⟨rfl, rfl⟩ := h₃
  have hroutes : s₃.routes = s.routes := h₂.trans h₁
  have hlist : s₃.onLink "eth0" = s.onLink "eth0" := by rw [Pod.onLink, hroutes, Pod.onLink]
  rw [hlist]
  cases hd : findDefaultRoute (s.onLink "eth0")
  case none    => exact returns_throw
  case some dr => exact h dr s₃ hd hroutes

-- The two modes, once everything has succeeded.

theorem returns_toGateway {nic : NicSettings} {excluded : List String} {result : List ResultRoute}
    (hm : nic.defaultRoute = .staticEgressGateway) :
    Returns world (setPodRoutes ifName nic excluded sysctlDir result) s fun _ s' =>
      ∃ dr gw, findDefaultRoute (s.onLink "eth0") = some dr ∧ dr.gw = some gw ∧
        s'.routes = replaceAll Route.destination
          (replaceAll Route.destination (s.routes.diff (s.onLink "eth0"))
            [Pod.resolved (gatewayRoute gw), Pod.resolved (wgRoute ifName anyV4)])
          ((cidrNets (nic.exceptionCidrs ++ excluded)).map (exceptionRoute ifName true dr) ++
            [ingressRoute dr]) := by
  refine returns_prepare fun dr s₁ hdr h₁ => ?_
  rw [decide_eq_true hm, if_pos rfl, if_pos rfl, ← h₁]
  refine returns_redirectDefault.bind fun acc s₂ h₂ => ?_
  obtain ⟨gw, hgw, h₂⟩ := h₂
  refine returns_finish.mono fun _ s₃ h₃ => ⟨dr, gw, hdr, hgw, ?_⟩
  rw [h₃, h₂]

theorem returns_toNetwork {nic : NicSettings} {excluded : List String} {result : List ResultRoute}
    (hm : nic.defaultRoute ≠ .staticEgressGateway) :
    Returns world (setPodRoutes ifName nic excluded sysctlDir result) s fun _ s' =>
      ∃ dr, findDefaultRoute (s.onLink "eth0") = some dr ∧
        s'.routes = replaceAll Route.destination s.routes
          ((cidrNets nic.exceptionCidrs).map (exceptionRoute ifName false dr) ++ [ingressRoute dr]) := by
  refine returns_prepare fun dr s₁ hdr h₁ => ?_
  rw [decide_eq_false hm, if_neg Bool.false_ne_true, if_neg Bool.false_ne_true, ← h₁]
  exact returns_finish.mono fun _ s₂ h₂ => ⟨dr, hdr, h₂⟩

end Program

-- Packets.

def leavesBy (s : Pod) (d : IP) (link : String) : Prop :=
  ∃ r, s.lookup d = some r ∧ r.link = link

def inCidrs (cidrs : List String) (d : IP) : Prop :=
  ∃ n ∈ cidrNets cidrs, contains n d = true

def originalGateway (s : Pod) : Option IP :=
  (findDefaultRoute (s.onLink "eth0")).bind (·.gw)

-- What the routes of a pod look like before.
structure Prepared (s : Pod) : Prop where
  eth0    : ∀ r ∈ s.routes, r.table = mainTable → r.net.bits = 32 → r.link = "eth0"
  default : ∃ r ∈ s.onLink "eth0", isDefaultV4 r = true ∧ r.gw.isSome = true

-- The route of the pod that covers an address.
def Route.covers (r : Route) (d : IP) : Bool :=
  mainPrefixes.covers r.destination d

section Cover

variable {r : Route} {d : IP} {n : IPNet} {ifName : String} {dr : Route} {toGateway : Bool}

theorem covers_iff : r.covers d = true ↔ r.table = mainTable ∧ contains r.net d = true := by
  simp only [Route.covers, mainPrefixes, contains, decide_eq_true_eq]
  rfl

theorem covers_of_dst (ht : r.table = mainTable) (hd : r.dst = some n) :
    (Pod.resolved r).covers d = contains n d := by
  refine Bool.eq_iff_iff.mpr (covers_iff.trans ?_)
  unfold Pod.resolved
  split <;> simp [Route.net, ht, hd]

theorem link_resolved : (Pod.resolved r).link = r.link := by
  unfold Pod.resolved
  split <;> rfl

theorem covers_exception : (exceptionRoute ifName toGateway dr n).covers d = contains n d := by
  unfold exceptionRoute
  cases toGateway <;> exact covers_of_dst rfl rfl

theorem not_covers_ingress : (ingressRoute dr).covers d = false := by
  refine Bool.eq_false_iff.mpr fun h => ?_
  have ht := (covers_iff.mp h).left
  have hne : eth0Mark ≠ mainTable := by decide
  unfold ingressRoute Pod.resolved at ht
  split at ht <;> exact hne ht

theorem contains_any (hd : d.isV4 = true) : contains anyV4 d = true := by
  have hv : d.value / 2 ^ 32 = 0xffff := of_decide_eq_true hd
  exact decide_eq_true ⟨rfl, hv⟩

theorem contains_host {gw : IP} : contains ⟨gw, 32, 32⟩ d = true ↔ gw = d := by
  simp only [contains, networkNumber, decide_eq_true_eq, true_and, Nat.sub_self, Nat.pow_zero, Nat.div_one]
  constructor
  · intro h
    cases gw
    cases d
    exact congrArg _ h.symm
  · exact fun h => congrArg _ h.symm

end Cover

section Modes

variable {s : Pod} {d : IP} {dr : Route} {ifName : String} {ns : List IPNet}

-- Without the routes on `eth0` there is no IPv4 route left in the main table.
theorem Prepared.not_covers (hs : Prepared s) {r : Route} (hr : r ∈ s.routes.diff (s.onLink "eth0")) :
    r.covers d = false := by
  refine Bool.eq_false_iff.mpr fun hc => ?_
  have ⟨ht, hn⟩ := covers_iff.mp hc
  have hlink := hs.eth0 r (List.diff_subset _ _ hr) ht (of_decide_eq_true hn).left
  have hcount : (s.onLink "eth0").count r = s.routes.count r :=
    List.count_filter (decide_eq_true ⟨hlink, ht⟩)
  have hpos := List.count_pos_iff.mpr hr
  rw [List.count_diff, hcount] at hpos
  omega

-- The table in the static gateway mode, apart from the ingress route.
def gatewayTable (ifName : String) (s : Pod) (gw : IP) : List Route :=
  replaceAll Route.destination (s.routes.diff (s.onLink "eth0"))
    [Pod.resolved (gatewayRoute gw), Pod.resolved (wgRoute ifName anyV4)]

def exceptions (ifName : String) (toGateway : Bool) (dr : Route) (ns : List IPNet) : List Route :=
  ns.map (exceptionRoute ifName toGateway dr) ++ [ingressRoute dr]

theorem mem_exceptions {toGateway : Bool} {r : Route} (hr : r ∈ exceptions ifName toGateway dr ns)
    (hc : r.covers d = true) : ∃ n ∈ ns, contains n d = true ∧ r = exceptionRoute ifName toGateway dr n := by
  rcases List.mem_append.mp hr with hr | hr
  · have ⟨n, hn, he⟩ := List.mem_map.mp hr
    exact ⟨n, hn, covers_exception.symm.trans (he ▸ hc), he.symm⟩
  · rw [List.mem_singleton.mp hr, not_covers_ingress] at hc
    nomatch hc

-- The routes in that mode that cover an address.
theorem mem_gatewayTable {gw : IP} {r : Route} (hs : Prepared s) (hr : r ∈ gatewayTable ifName s gw)
    (hc : r.covers d = true) :
    gw = d ∧ r.link = "eth0" ∨ r = Pod.resolved (wgRoute ifName anyV4) := by
  rcases mem_replaceAll hr with hr | ⟨hr, _⟩
  · rcases List.mem_pair.mp hr with rfl | rfl
    · have he : contains ⟨gw, 32, 32⟩ d = true := (covers_of_dst rfl rfl).symm.trans hc
      exact .inl ⟨contains_host.mp he, link_resolved⟩
    · exact .inr rfl
  · exact absurd hc (Bool.eq_false_iff.mp (hs.not_covers hr))

theorem toGateway_lookup (ifName : String) (dr : Route) (gw : IP) (ns : List IPNet) (hs : Prepared s) (hd : d.isV4 = true) :
    ∃ r, mainPrefixes.lookup Route.destination
        (replaceAll Route.destination (gatewayTable ifName s gw) (exceptions ifName true dr ns)) d = some r ∧
      (gw = d ∨ (∃ n ∈ ns, contains n d = true) → r.link = "eth0") ∧
      (¬(gw = d ∨ ∃ n ∈ ns, contains n d = true) → r.link = ifName) := by
  let wgR := Pod.resolved (wgRoute ifName anyV4)
  let table := replaceAll Route.destination (gatewayTable ifName s gw) (exceptions ifName true dr ns)
  have hwg : wgR.covers d = true := (covers_of_dst rfl rfl).trans (contains_any hd)
  have hold {x : Route} (hx : x ∈ [Pod.resolved (gatewayRoute gw), wgR]) :
      ∃ y ∈ table, y.destination = x.destination := by
    have ⟨y, hy, he⟩ := exists_replaceAll Route.destination (s.routes.diff (s.onLink "eth0")) _ (.inr hx)
    have ⟨z, hz, he'⟩ := exists_replaceAll Route.destination _ (exceptions ifName true dr ns) (.inl hy)
    exact ⟨z, hz, he'.trans he⟩
  have ⟨y, hy, hye⟩ := hold (x := wgR) (by simp)
  have hcov : y.covers d = true := (congrArg (mainPrefixes.covers · d) hye).trans hwg
  have ⟨r, hr⟩ := lookup_isSome (D := mainPrefixes) ⟨y, hy, hcov⟩
  have ⟨hmem, hbest⟩ := best_of_lookup hr
  refine ⟨r, hr, fun h => ?_, fun h => ?_⟩
  case refine_1 =>
    rcases mem_replaceAll hmem with hx | ⟨ht, hn⟩
    · obtain ⟨n, _, _, rfl⟩ := mem_exceptions hx hbest.covers
      exact link_resolved
    · rcases mem_gatewayTable hs ht hbest.covers with ⟨_, hl⟩ | rfl
      · exact hl
      -- the default route has length zero, but a longer or equal one has replaced or outranked it
      · rcases h with rfl | ⟨n, hn', hc⟩
        · have ⟨z, hz, hze⟩ := hold List.mem_cons_self
          have hzc : z.covers gw = true := by
            refine (congrArg (mainPrefixes.covers · gw) hze).trans ?_
            exact (covers_of_dst rfl rfl).trans (contains_host.mpr rfl)
          have hle := hbest.longest z hz hzc
          rw [hze] at hle
          exact absurd hle (Nat.not_succ_le_zero 31)
        · have hx : exceptionRoute ifName true dr n ∈ exceptions ifName true dr ns :=
            List.mem_append_left _ (List.mem_map_of_mem hn')
          have hxc : (exceptionRoute ifName true dr n).covers d = true := covers_exception.trans hc
          have ⟨z, hz, hze⟩ := exists_replaceAll Route.destination (gatewayTable ifName s gw) _ (.inr hx)
          have hle := hbest.longest z hz ((congrArg (mainPrefixes.covers · d) hze).trans hxc)
          rw [hze] at hle
          have heq := mainPrefixes.unique hwg hxc (Nat.le_antisymm (Nat.zero_le _) hle)
          exact absurd (heq ▸ List.mem_map_of_mem hx) hn
  case refine_2 =>
    rcases mem_replaceAll hmem with hx | ⟨ht, _⟩
    · have ⟨n, hn, hc, _⟩ := mem_exceptions hx hbest.covers
      exact absurd (.inr ⟨n, hn, hc⟩) h
    · rcases mem_gatewayTable hs ht hbest.covers with ⟨he, _⟩ | rfl
      · exact absurd (.inl he) h
      · exact link_resolved

-- Whether an exception is at least as long as every route that is there before.
def Preferred (s : Pod) (ns : List IPNet) (d : IP) : Prop :=
  ∃ n ∈ ns, contains n d = true ∧
    ∀ r ∈ s.routes, r.table = mainTable → contains r.net d = true → r.net.ones ≤ n.ones

theorem ones_exception (ifName : String) (dr : Route) {toGateway : Bool} {n : IPNet} :
    mainPrefixes.length (exceptionRoute ifName toGateway dr n).destination = n.ones := by
  unfold exceptionRoute Pod.resolved
  cases toGateway <;> rfl

theorem toNetwork_preferred (ifName : String) (dr : Route) (h : Preferred s ns d) : ∃ r, mainPrefixes.lookup Route.destination
    (replaceAll Route.destination s.routes (exceptions ifName false dr ns)) d = some r ∧ r.link = ifName := by
  have ⟨n, hn, hc, hmax⟩ := h
  have hx : exceptionRoute ifName false dr n ∈ exceptions ifName false dr ns :=
    List.mem_append_left _ (List.mem_map_of_mem hn)
  have hmax' : ∀ r ∈ s.routes, r.covers d = true →
      r.net.ones ≤ mainPrefixes.length (exceptionRoute ifName false dr n).destination := by
    intro r hr hcr
    have ⟨ht, hcr⟩ := covers_iff.mp hcr
    rw [ones_exception]
    exact hmax r hr ht hcr
  have ⟨r, hr, hl⟩ := lookup_replaceAll_new (D := mainPrefixes) hx (covers_exception.trans hc) hmax'
  have ⟨_, _, _, he⟩ := mem_exceptions hr (best_of_lookup hl).right.covers
  exact ⟨r, hl, he ▸ link_resolved⟩

theorem toNetwork_kept (h : ¬Preferred s ns d) : mainPrefixes.lookup Route.destination
    (replaceAll Route.destination s.routes (exceptions ifName false dr ns)) d = s.lookup d := by
  refine lookup_replaceAll_old fun x hx hc => ?_
  obtain ⟨n, hn, hcn, rfl⟩ := mem_exceptions hx hc
  by_contra hno
  refine h ⟨n, hn, hcn, fun r hr ht hcr => Nat.le_of_not_lt fun hlt => hno ?_⟩
  exact ⟨r, hr, covers_iff.mpr ⟨ht, hcr⟩, ones_exception ifName dr ▸ hlt⟩

-- Every packet has a route on `eth0` to begin with.
theorem Prepared.lookup (hs : Prepared s) (hd : d.isV4 = true) :
    ∃ r, s.lookup d = some r ∧ r.link = "eth0" := by
  have ⟨r, hr, hdef, _⟩ := hs.default
  have ⟨hmem, hon⟩ := List.mem_filter.mp hr
  have ⟨_, ht⟩ := of_decide_eq_true hon
  have hnet : r.net = anyV4 := by
    have ⟨hf, hdst⟩ := of_decide_eq_true hdef
    rcases hdst with h | h
    · simp [Route.net, h, hf]
    · simp [Route.net, h]
  have hc : r.covers d = true := covers_iff.mpr ⟨ht, hnet ▸ contains_any hd⟩
  have ⟨r', hr'⟩ := lookup_isSome (D := mainPrefixes) ⟨r, hmem, hc⟩
  have ⟨hm', hb⟩ := best_of_lookup hr'
  have ⟨ht', hn'⟩ := covers_iff.mp hb.covers
  exact ⟨r', hr', hs.eth0 r' hm' ht' (of_decide_eq_true hn').left⟩

end Modes

section Splits

variable {ifName sysctlDir : String} {nic : NicSettings} {excluded : List String} {result : List ResultRoute}
  {s : Pod} {φ : Oracle Sig} {n : Nat} {o : Outcome Sig Pod (List ResultRoute)} {d : IP}

theorem toGateway_leaves (hif : ifName ≠ "eth0") (hs : Prepared s)
    (ho : run world φ n (setPodRoutes ifName nic excluded sysctlDir result) s = o)
    (hok : o.result.isOk = true) (hd : d.isV4 = true) (hm : nic.defaultRoute = .staticEgressGateway) :
    (leavesBy o.state d "eth0" ↔
      originalGateway s = some d ∨ inCidrs (nic.exceptionCidrs ++ excluded) d) ∧
    (leavesBy o.state d ifName ↔
      ¬(originalGateway s = some d ∨ inCidrs (nic.exceptionCidrs ++ excluded) d)) := by
  have ⟨a, ha⟩ := ok_of_isOk hok
  have ⟨dr, gw, hdr, hgw, hroutes⟩ := (returns_toGateway hm).outcome ho ha
  have hog : originalGateway s = some d ↔ gw = d := by simp [originalGateway, hdr, hgw]
  have ⟨r, hr, hin, hout⟩ :=
    toGateway_lookup ifName dr gw (cidrNets (nic.exceptionCidrs ++ excluded)) hs hd
  have hlook : o.state.lookup d = some r := by
    rw [Pod.lookup, hroutes]
    exact hr
  have hby (link : String) : leavesBy o.state d link ↔ r.link = link :=
    ⟨fun ⟨r', hr', hl⟩ => Option.some.inj (hlook.symm.trans hr') ▸ hl, fun hl => ⟨r, hlook, hl⟩⟩
  rw [hby, hby, hog]
  refine ⟨⟨fun hl => by_contra fun h => hif ((hout h).symm.trans hl), hin⟩, fun hl h => ?_, hout⟩
  exact hif (hl.symm.trans (hin h))

theorem toNetwork_leaves (hif : ifName ≠ "eth0") (hs : Prepared s)
    (ho : run world φ n (setPodRoutes ifName nic excluded sysctlDir result) s = o)
    (hok : o.result.isOk = true) (hd : d.isV4 = true) (hm : nic.defaultRoute ≠ .staticEgressGateway) :
    (leavesBy o.state d ifName ↔ Preferred s (cidrNets nic.exceptionCidrs) d) ∧
    (¬Preferred s (cidrNets nic.exceptionCidrs) d →
      o.state.lookup d = s.lookup d ∧ leavesBy o.state d "eth0") := by
  have ⟨a, ha⟩ := ok_of_isOk hok
  have ⟨dr, hdr, hroutes⟩ := (returns_toNetwork hm).outcome ho ha
  have hlook : o.state.lookup d = mainPrefixes.lookup Route.destination
      (replaceAll Route.destination s.routes (exceptions ifName false dr (cidrNets nic.exceptionCidrs))) d := by
    rw [Pod.lookup, hroutes]
    rfl
  have hkept (h : ¬Preferred s (cidrNets nic.exceptionCidrs) d) :
      o.state.lookup d = s.lookup d ∧ leavesBy o.state d "eth0" := by
    have he : o.state.lookup d = s.lookup d := hlook.trans (toNetwork_kept h)
    have ⟨r, hr, hl⟩ := hs.lookup hd
    exact ⟨he, r, he.trans hr, hl⟩
  refine ⟨⟨fun ⟨r, hr, hl⟩ => by_contra fun h => ?_, fun h => ?_⟩, hkept⟩
  · have ⟨_, r', hr', hl'⟩ := hkept h
    exact hif (hl.symm.trans (Option.some.inj (hr.symm.trans hr') ▸ hl'))
  · have ⟨r, hr, hl⟩ := toNetwork_preferred ifName dr h
    exact ⟨r, hlook.trans hr, hl⟩

-- With the static gateway as default, exactly the exceptions and the original gateway are reached through
-- `eth0`. Otherwise exactly those addresses are reached through the gateway for which an exception is the
-- longest prefix, and all others keep their route.
theorem setPodRoutes_splits (hif : ifName ≠ "eth0") (hs : Prepared s)
    (ho : run world φ n (setPodRoutes ifName nic excluded sysctlDir result) s = o)
    (hok : o.result.isOk = true) (d : IP) (hd : d.isV4 = true) :
    (nic.defaultRoute = .staticEgressGateway →
      (leavesBy o.state d "eth0" ↔
        originalGateway s = some d ∨ inCidrs (nic.exceptionCidrs ++ excluded) d) ∧
      (leavesBy o.state d ifName ↔
        ¬(originalGateway s = some d ∨ inCidrs (nic.exceptionCidrs ++ excluded) d))) ∧
    (nic.defaultRoute ≠ .staticEgressGateway →
      (leavesBy o.state d ifName ↔ Preferred s (cidrNets nic.exceptionCidrs) d) ∧
      (¬Preferred s (cidrNets nic.exceptionCidrs) d →
        o.state.lookup d = s.lookup d ∧ leavesBy o.state d "eth0")) :=
  ⟨toGateway_leaves hif hs ho hok hd, toNetwork_leaves hif hs ho hok hd⟩

end Splits

instance {cidrs : List String} {d : IP} : Decidable (inCidrs cidrs d) :=
  inferInstanceAs (Decidable (∃ n ∈ cidrNets cidrs, contains n d = true))

namespace Sample

def pod : Pod where
  links  := ["eth0", "wg0"]
  routes := [
    { family := .v4, dst := some anyV4, link := "eth0", gw := some (IP.ofV4 0x0af40001) },
    { family := .v4, dst := some ⟨IP.ofV4 0x0af40000, 24, 32⟩, link := "eth0" }]

theorem prepared : Prepared pod where
  eth0    := by decide +kernel
  default := by decide +kernel

def outcome (mode : DefaultRoute) (exceptions excluded : List String) : Outcome Sig Pod (List ResultRoute) :=
  run world .calm 0 (setPodRoutes "wg0" ⟨exceptions, mode⟩ excluded "/proc/sys" []) pod

end Sample

-- 8.8.8.8 is reached through the gateway, 172.17.3.4 is not.
theorem setPodRoutes_splits_sample :
    Prepared Sample.pod ∧
    leavesBy (Sample.outcome .staticEgressGateway ["172.17.0.4/16"] []).state (IP.ofV4 0x08080808) "wg0" ∧
    leavesBy (Sample.outcome .staticEgressGateway ["172.17.0.4/16"] []).state (IP.ofV4 0xac110304) "eth0" := by
  have h := setPodRoutes_splits (o := Sample.outcome .staticEgressGateway ["172.17.0.4/16"] []) (by decide)
    Sample.prepared rfl (by decide +kernel)
  refine ⟨Sample.prepared, ?_, ?_⟩
  · exact (((h (IP.ofV4 0x08080808) (by decide +kernel)).left rfl).right).mpr (by decide +kernel)
  · exact (((h (IP.ofV4 0xac110304) (by decide +kernel)).left rfl).left).mpr (by decide +kernel)

-- No exception takes an excluded address away from a longer route of the pod's network.
def Compatible (s : Pod) (exceptions excluded : List String) : Prop :=
  ∀ e ∈ cidrNets excluded, ∀ c ∈ cidrNets exceptions, ∀ d : IP, d.isV4 = true →
    contains e d = true → contains c d = true →
    ∃ r ∈ s.routes, r.table = mainTable ∧ contains r.net d = true ∧ c.ones < r.net.ones

theorem compatible_iff {s : Pod} {exceptions excluded : List String} : Compatible s exceptions excluded ↔
    ∀ d : IP, d.isV4 = true → inCidrs excluded d → ¬Preferred s (cidrNets exceptions) d := by
  constructor
  case mp =>
    rintro h d hd ⟨e, he, hed⟩ ⟨c, hc, hcd, hmax⟩
    have ⟨r, hr, ht, hrd, hlt⟩ := h e he c hc d hd hed hcd
    exact Nat.not_le_of_lt hlt (hmax r hr ht hrd)
  case mpr =>
    intro h e he c hc d hd hed hcd
    by_contra hno
    refine h d hd ⟨e, he, hed⟩ ⟨c, hc, hcd, fun r hr ht hrd => Nat.le_of_not_lt fun hlt => ?_⟩
    exact hno ⟨r, hr, ht, hrd, hlt⟩

theorem inCidrs_append_right (cidrs : List String) {cidrs' : List String} {d : IP} (h : inCidrs cidrs' d) :
    inCidrs (cidrs ++ cidrs') d := by
  have ⟨n, hn, hc⟩ := h
  refine ⟨n, ?_, hc⟩
  rw [cidrNets, List.filterMap_append]
  exact List.mem_append_right _ hn

-- The excluded networks bypass the gateway if it is the default, or if the exceptions leave them alone.
theorem excluded_bypass_iff {ifName sysctlDir : String} {nic : NicSettings} {excluded : List String}
    {result : List ResultRoute} {s : Pod} {φ : Oracle Sig} {n : Nat} {o : Outcome Sig Pod (List ResultRoute)}
    (hif : ifName ≠ "eth0") (hs : Prepared s)
    (ho : run world φ n (setPodRoutes ifName nic excluded sysctlDir result) s = o)
    (hok : o.result.isOk = true) :
    (∀ d : IP, d.isV4 = true → inCidrs excluded d →
      leavesBy o.state d "eth0" ∧ ¬leavesBy o.state d ifName) ↔
    nic.defaultRoute = .staticEgressGateway ∨ Compatible s nic.exceptionCidrs excluded := by
  by_cases hm : nic.defaultRoute = .staticEgressGateway
  case pos =>
    refine iff_of_true (fun d hd hin => ?_) (.inl hm)
    have ⟨heth0, hwg⟩ := toGateway_leaves hif hs ho hok hd hm
    have hin' := inCidrs_append_right nic.exceptionCidrs hin
    exact ⟨heth0.mpr (.inr hin'), fun h => hwg.mp h (.inr hin')⟩
  case neg =>
    rw [or_iff_right hm, compatible_iff]
    refine forall₃_congr fun d hd hin => ?_
    have ⟨hwg, hkept⟩ := toNetwork_leaves hif hs ho hok hd hm
    exact ⟨fun h hp => h.right (hwg.mpr hp), fun h => ⟨(hkept h).right, fun hl => h (hwg.mp hl)⟩⟩

theorem excluded_bypass_sample :
    Prepared Sample.pod ∧
    ∀ d : IP, d.isV4 = true → inCidrs ["10.245.0.0/16"] d →
      leavesBy (Sample.outcome .staticEgressGateway ["10.244.0.0/16"] ["10.245.0.0/16"]).state d "eth0" ∧
      ¬leavesBy (Sample.outcome .staticEgressGateway ["10.244.0.0/16"] ["10.245.0.0/16"]).state d "wg0" :=
  ⟨Sample.prepared, (excluded_bypass_iff (by decide) Sample.prepared rfl (by decide +kernel)).mpr (.inl rfl)⟩

-- With the other default, an exception sends the same excluded network through the gateway.
theorem excluded_not_bypassed :
    (Sample.outcome .azureNetworking ["10.244.0.0/16"] ["10.244.0.0/16"]).result.isOk = true ∧
    inCidrs ["10.244.0.0/16"] (IP.ofV4 0x0af40102) ∧
    leavesBy (Sample.outcome .azureNetworking ["10.244.0.0/16"] ["10.244.0.0/16"]).state
      (IP.ofV4 0x0af40102) "wg0" := by
  refine ⟨by decide +kernel, by decide +kernel, wgRoute "wg0" ⟨IP.ofV4 0x0af40000, 16, 32⟩, ?_, rfl⟩
  decide +kernel

end Cni
