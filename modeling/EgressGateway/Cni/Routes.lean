import EgressGateway.Base.Net
import EgressGateway.Base.Program
import EgressGateway.Base.Routing
import EgressGateway.Objects.Error

-- `pkg/cni/routes`: the routes of a pod that uses a gateway.

open Net Program

namespace Cni

inductive Family
  | unspec
  | v4
  | v6
  deriving DecidableEq

inductive Scope
  | universe
  | link
  deriving DecidableEq

-- `link` stands for the index of a link, and table 254 is the main one.
structure Route where
  family   : Family := .unspec
  dst      : Option IPNet := none
  link     : String
  gw       : Option IP := none
  via      : Option IP := none
  scope    : Scope := .universe
  static   : Bool := false
  table    : Nat := 254
  deriving DecidableEq

def mainTable : Nat := 254

def anyV4 : IPNet := ⟨IP.ofV4 0, 0, 32⟩
def anyV6 : IPNet := ⟨⟨0⟩, 0, 128⟩

-- A route without a destination is a default route of its family.
def Route.net (r : Route) : IPNet :=
  r.dst.getD (if r.family = .v6 then anyV6 else anyV4)

-- The kernel tells the destinations of the routes in a table apart by their network numbers.
structure Destination where
  table  : Nat
  bits   : Nat
  ones   : Nat
  number : Nat
  deriving DecidableEq

def networkNumber (n : IPNet) : Nat :=
  n.ip.value / 2 ^ (n.bits - n.ones)

def Route.destination (r : Route) : Destination where
  table  := r.table
  bits   := r.net.bits
  ones   := r.net.ones
  number := networkNumber r.net

-- `IPNet.Contains` for IPv4 addresses.
def contains (n : IPNet) (d : IP) : Bool :=
  n.bits = 32 ∧ d.value / 2 ^ (32 - n.ones) = networkNumber n

-- The prefixes of the main table that cover an IPv4 address.
def mainPrefixes : Prefixes IP Destination where
  covers p d := p.table = mainTable ∧ p.bits = 32 ∧ d.value / 2 ^ (32 - p.ones) = p.number
  length p   := p.ones
  unique {d p q} hp hq h := by
    have hp := of_decide_eq_true hp
    have hq := of_decide_eq_true hq
    cases p
    cases q
    simp_all

-- A rule of the `mangle` table, by its chain and its arguments.
structure MangleRule where
  chain : String
  args  : List String
  deriving DecidableEq

-- The network namespace of a pod. `rules` are the routing rules that select a table by mark, `files`
-- those below the directory of the kernel parameters.
structure Pod where
  links  : List String
  routes : List Route := []
  mangle : List MangleRule := []
  rules  : List (Nat × Nat) := []
  files  : List (String × String) := []

inductive Call
  | linkByName (name : String)
  | routeList (link : String)
  | routeDel (route : Route)
  | routeReplace (route : Route)
  | newIPTables
  | appendUnique (rule : MangleRule)
  | ruleAdd (mark table : Nat)
  | writeFile (path content : String)

abbrev Reply : Call → Type
  | .routeList _ => List Route
  | _            => Unit

abbrev Sig : Signature where
  Call  := Call
  Reply := Reply
  Error := Err

abbrev M := Program Sig

def request (context : String) (c : Call) : M (Reply c) :=
  mapError (I := Sig) (·.wrap context) (Program.perform (I := Sig) c)

namespace Pod

-- `RouteList` only shows the main table.
def onLink (s : Pod) (link : String) : List Route :=
  s.routes.filter fun r => r.link = link ∧ r.table = mainTable

-- The family of a route follows from its destination if it is not given.
def resolved (r : Route) : Route :=
  if r.family = .unspec then { r with family := if r.net.bits = 128 then .v6 else .v4 } else r

def serve : (c : Call) → Pod → Except Err (Reply c) × Pod
  | .linkByName name, s =>
    if name ∈ s.links then (.ok (), s) else (.error ⟨.linkNotFound, "Link not found: " ++ name⟩, s)
  | .routeList link, s => (.ok (s.onLink link), s)
  | .routeDel r, s =>
    if r ∈ s.routes then (.ok (), { s with routes := s.routes.erase r })
    else (.error (.errorf "no such process"), s)
  | .routeReplace r, s =>
    (.ok (), { s with routes := Prefixes.replace Route.destination s.routes (resolved r) })
  | .newIPTables, s => (.ok (), s)
  | .appendUnique r, s =>
    (.ok (), { s with mangle := if r ∈ s.mangle then s.mangle else s.mangle ++ [r] })
  | .ruleAdd mark table, s =>
    if (mark, table) ∈ s.rules then (.error (.errorf "file exists"), s)
    else (.ok (), { s with rules := s.rules ++ [(mark, table)] })
  | .writeFile path content, s => (.ok (), { s with files := s.files ++ [(path, content)] })

-- The route of a packet without a mark.
def lookup (s : Pod) (d : IP) : Option Route :=
  mainPrefixes.lookup Route.destination s.routes d

end Pod

def world : World Sig Pod where
  exec   := Pod.serve
  outage := .errorf "transient failure"

inductive DefaultRoute
  | unspecified
  | staticEgressGateway
  | azureNetworking
  deriving DecidableEq

structure NicSettings where
  exceptionCidrs : List String
  defaultRoute   : DefaultRoute

-- `types.Route` of the CNI result.
structure ResultRoute where
  dst : IPNet
  gw  : Option IP := none
  deriving DecidableEq

def eth0Mark : Nat := 8738

-- `fe80::1`
def gatewayLinkLocal : IP := ⟨0xfe80 * 2 ^ 112 + 1⟩

def isDefaultV4 (r : Route) : Bool :=
  r.family = .v4 ∧ (r.dst = none ∨ r.dst = some anyV4)

-- The last one counts.
def findDefaultRoute (routes : List Route) : Option Route :=
  (routes.filter isDefaultV4).getLast?

def eth0Route (defaultRoute : Route) (dst : IPNet) : Route where
  dst    := some dst
  gw     := defaultRoute.gw
  link   := "eth0"
  static := true

def wgRoute (ifName : String) (dst : IPNet) : Route where
  family := .v4
  dst    := some dst
  via    := some gatewayLinkLocal
  link   := ifName

def gatewayRoute (gw : IP) : Route where
  dst   := some ⟨gw, 32, 32⟩
  link  := "eth0"
  scope := .link

def addRoutingForIngress (defaultRoute : Route) (sysctlDir : String) : M Unit := do
  request "failed to create iptable: " .newIPTables
  request "failed to append iptables set-mark rule: " <|
    .appendUnique ⟨"PREROUTING", ["-i", "eth0", "-j", "MARK", "--set-mark", toString eth0Mark]⟩
  request "failed to append iptables save-mark rule: " <|
    .appendUnique ⟨"PREROUTING", ["-j", "CONNMARK", "--save-mark"]⟩
  request "failed to append iptables restore-mark rule: " <|
    .appendUnique ⟨"OUTPUT",
      ["-m", "connmark", "--mark", toString eth0Mark, "-j", "CONNMARK", "--restore-mark"]⟩
  request "failed to add routing rule: " (.ruleAdd eth0Mark eth0Mark)
  request "failed to add default route via eth0: " (.routeReplace { defaultRoute with table := eth0Mark })
  request "failed to write net.ipv4.conf.all.rp_filter: " <|
    .writeFile (sysctlDir ++ "/net/ipv4/conf/all/rp_filter") "2"
  request "failed to write net.ipv4.conf.eth0.rp_filter: " <|
    .writeFile (sysctlDir ++ "/net/ipv4/conf/eth0/rp_filter") "2"

-- The first part of the static gateway mode. A destination without an address is refused.
def redirectDefault (ifName : String) (routes : List Route) (defaultRoute : Route) :
    M (List ResultRoute) := do
  forEach routes fun route => request "failed to delete route: " (.routeDel route)
  match defaultRoute.gw with
  | none    => throw (.errorf "failed to add original gateway route: either Dst.IP, Src.IP or Gw must be set")
  | some gw => do
    request "failed to add original gateway route: " (.routeReplace (gatewayRoute gw))
    request "failed to add default wireguard route: " (.routeReplace (wgRoute ifName anyV4))
    ret [{ dst := ⟨gw, 32, 32⟩ }, { dst := anyV4, gw := some gatewayLinkLocal }]

-- The body of the loop over the exceptions.
def addException (ifName : String) (defaultToGateway : Bool) (defaultRoute : Route)
    (acc : List ResultRoute) (exception : String) : M (List ResultRoute) :=
  match parseCIDR exception with
  | none         => throw (.errorf ("failed to parse cidr (" ++ exception ++ ")"))
  | some (_, cidr) => do
    let route := if defaultToGateway then eth0Route defaultRoute cidr else wgRoute ifName cidr
    let gwIP := if defaultToGateway then defaultRoute.gw else some gatewayLinkLocal
    request "failed to add route: " (.routeReplace route)
    ret (acc ++ [{ dst := cidr, gw := gwIP }])

-- The result is the list of routes that is reported to the runtime, given the one before.
def setPodRoutes (ifName : String) (nic : NicSettings) (excludedCIDRs : List String)
    (sysctlDir : String) (result : List ResultRoute) : M (List ResultRoute) := do
  let defaultToGateway : Bool := nic.defaultRoute = .staticEgressGateway
  let exceptionCidrs :=
    if defaultToGateway then nic.exceptionCidrs ++ excludedCIDRs else nic.exceptionCidrs
  request "failed to retrieve eth0 interface: " (.linkByName "eth0")
  request "failed to retrieve wireguard interface: " (.linkByName ifName)
  let routes ← request "failed to list all routes on eth0: " (.routeList "eth0")
  match findDefaultRoute routes with
  | none              => throw (.errorf "failed to find default route")
  | some defaultRoute => do
    let result ← if defaultToGateway then redirectDefault ifName routes defaultRoute else ret result
    let result ← forFold exceptionCidrs result (addException ifName defaultToGateway defaultRoute)
    addRoutingForIngress defaultRoute sysctlDir
    ret result

end Cni
