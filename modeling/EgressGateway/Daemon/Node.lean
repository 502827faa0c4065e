import EgressGateway.Base.Base64
import EgressGateway.Base.Iptables
import EgressGateway.Base.Net
import EgressGateway.Base.Program
import EgressGateway.Objects.Error
import EgressGateway.Objects.Kubernetes

-- A gateway node as the daemon sees it: the network namespaces of the host and of the gateways, the
-- probe server inside of the daemon, and the objects of the API server.

open Kubernetes Net

namespace Daemon

-- `wgtypes.Key`
structure Key where
  bytes     : List Base64.Byte
  length_eq : bytes.length = 32
  deriving DecidableEq

namespace Key

def text (k : Key) : String :=
  Base64.encode k.bytes

-- The private key of a device that has not been configured.
def zero : Key :=
  ⟨List.replicate 32 Base64.zero, by simp⟩

-- `wgtypes.ParseKey`
def parse (s : String) : Option Key :=
  (Base64.decode s).bind fun bs => if h : bs.length = 32 then some ⟨bs, h⟩ else none

end Key

structure Addr where
  net   : IPNet
  label : String := ""
  deriving DecidableEq

-- `Addr.Equal` ignores the label.
def Addr.same (a b : Addr) : Bool :=
  a.net.ip = b.net.ip ∧ a.net.ones = b.net.ones

structure Peer where
  publicKey  : Key
  allowedIPs : List IPNet
  deriving DecidableEq

structure Device where
  privateKey : Key := .zero
  listenPort : Int := 0
  peers      : List Peer := []
  deriving DecidableEq

def wireguardLinkNamePrefix := "wg-"
def hostVethLinkName := "host-gateway"
def hostLinkName := "host0"

theorem unpaired_none (name : String) :
    Text.hasPrefix name wireguardLinkNamePrefix = true → (none : Option String) = none :=
  fun _ => rfl

-- `peer` is the other end of a pair of virtual Ethernet devices. The names of WireGuard devices are
-- reserved.
structure Link where
  name     : String
  alias_   : String := ""
  peer     : Option String := none
  addrs    : List Addr := []
  device   : Option Device := none
  unpaired : Text.hasPrefix name wireguardLinkNamePrefix = true → peer = none := by exact unpaired_none _
  deriving DecidableEq

-- The two ends of the pair that connects the host with the gateways.

def Link.hostVeth : Link where
  name     := hostVethLinkName
  peer     := some hostLinkName
  unpaired := by decide +kernel

def Link.host0 : Link where
  name     := hostLinkName
  peer     := some hostVethLinkName
  unpaired := by decide +kernel

inductive Scope
  | universe
  | link
  deriving DecidableEq

-- Routes refer to their link by name, which is unique within a namespace.
structure Route where
  link  : String
  scope : Scope
  dst   : Option IPNet
  gw    : Option IP := none
  deriving DecidableEq

structure Netns where
  links  : List Link := []
  routes : List Route := []
  nat    : Iptables.Table := .empty
  deriving DecidableEq

structure Api where
  gwConfigs    : List StaticGatewayConfiguration := []
  vmConfigs    : List GatewayVMConfiguration := []
  secrets      : List Secret := []
  podEndpoints : List PodEndpoint := []
  status       : Option GatewayStatus := none
  hasNode      : Bool := true

-- `gateway` is none until the namespace has been created.
structure Node where
  host           : Netns := {}
  gateway        : Option Netns := none
  activeGateways : List String := []
  api            : Api := {}

inductive Space
  | host
  | gateway
  deriving DecidableEq

structure PeerConfig where
  publicKey  : Key
  remove     : Bool := false
  allowedIPs : List IPNet := []
  deriving DecidableEq

-- What `ConfigureDevice` is given. Allowed IPs are always replaced.
structure DeviceConfig where
  privateKey : Option Key := none
  listenPort : Option Int := none
  peers      : List PeerConfig := []
  deriving DecidableEq

inductive Call
  -- API server
  | listGwConfigs
  | getGwConfig (key : NamespacedName)
  | getVMConfig (key : NamespacedName)
  | getSecret (key : NamespacedName)
  | listPodEndpoints
  | getPodEndpoint (key : NamespacedName)
  | getStatus
  | createStatus (st : GatewayStatus)
  | updateStatus (st : GatewayStatus)
  | getNode
  -- netlink
  | getNS
  | linkList (ns : Space)
  | linkByName (ns : Space) (name : String)
  | linkAdd (link : Link)
  | vethAdd
  | linkDel (ns : Space) (name : String)
  | linkSetNs (name : String)
  | linkSetUp (ns : Space) (name : String)
  | addrList (ns : Space) (link : String)
  | addrAdd (ns : Space) (link : String) (addr : Addr)
  | addrDel (ns : Space) (link : String) (addr : Addr)
  | routeList (ns : Space) (link : Option String)
  | routeReplace (ns : Space) (route : Route)
  | routeDel (ns : Space) (route : Route)
  -- iptables
  | ensureChain (ns : Space) (chain : String)
  | ensureRule (ns : Space) (chain : String) (rule : Iptables.Rule)
  | restoreAll (ns : Space) (chain : String) (rules : List Iptables.Rule)
  | saveInto (ns : Space)
  | deleteRule (ns : Space) (chain : String) (rule : Iptables.Rule)
  | removeChain (ns : Space) (chain : String)
  -- WireGuard, always in the namespace of the gateways
  | wgNew
  | device (link : String)
  | configureDevice (link : String) (config : DeviceConfig)
  -- probe server
  | addGateway (uid : String)
  | removeGateway (uid : String)

abbrev Reply : Call → Type
  | .listGwConfigs => List StaticGatewayConfiguration
  | .getGwConfig _ => StaticGatewayConfiguration
  | .getVMConfig _ => GatewayVMConfiguration
  | .getSecret _ => Secret
  | .listPodEndpoints => List PodEndpoint
  | .getPodEndpoint _ => PodEndpoint
  | .getStatus => GatewayStatus
  | .linkList _ => List Link
  | .linkByName .. => Link
  | .addrList .. => List Addr
  | .routeList .. => List Route
  | .saveInto _ => List String
  | .device _ => Device
  | _ => Unit

abbrev Sig : Signature where
  Call  := Call
  Reply := Reply
  Error := Err

abbrev M := Program Sig

abbrev request (c : Call) : M (Reply c) :=
  Program.perform (I := Sig) c

namespace Netns

def findLink (n : Netns) (name : String) : Option Link :=
  n.links.find? (·.name = name)

def modifyLink (n : Netns) (name : String) (f : Link → Link) : Netns :=
  { n with links := n.links.map fun l => if l.name = name then f l else l }

-- Without its link a route is gone as well.
def dropLink (n : Netns) (name : String) : Netns :=
  { n with
    links  := n.links.filter (·.name ≠ name)
    routes := n.routes.filter (·.link ≠ name) }

def addLink (n : Netns) (l : Link) : Netns :=
  { n with links := n.links ++ [l] }

end Netns

namespace Device

-- The cryptokey routing table of a device maps each allowed IP to one peer.
def takeIPs (ips : List IPNet) (p : Peer) : Peer :=
  { p with allowedIPs := p.allowedIPs.filter (· ∉ ips) }

def configurePeer (ps : List Peer) (c : PeerConfig) : List Peer :=
  if c.remove then ps.filter (·.publicKey ≠ c.publicKey)
  else if ps.any (·.publicKey = c.publicKey) then
    ps.map fun p =>
      if p.publicKey = c.publicKey then { p with allowedIPs := c.allowedIPs }
      else takeIPs c.allowedIPs p
  else ps.map (takeIPs c.allowedIPs) ++ [⟨c.publicKey, c.allowedIPs⟩]

def configure (d : Device) (c : DeviceConfig) : Device where
  privateKey := c.privateKey.getD d.privateKey
  listenPort := c.listenPort.getD d.listenPort
  peers      := c.peers.foldl configurePeer d.peers

end Device

def failure (text : String) : Err :=
  .errorf text

def missing (text : String) : Err where
  code := .notFound
  text := text

def linkNotFound (name : String) : Err where
  code := .linkNotFound
  text := "Link not found: " ++ name

namespace Node

def netns (s : Node) : Space → Option Netns
  | .host    => some s.host
  | .gateway => s.gateway

def setNetns (s : Node) : Space → Netns → Node
  | .host,    n => { s with host := n }
  | .gateway, n => { s with gateway := some n }

-- A call that only looks at a namespace, or at a link.

def look {α : Type} (s : Node) (ns : Space) (f : Netns → Except Err α) : Except Err α × Node :=
  match s.netns ns with
  | none   => (.error (failure "no such namespace"), s)
  | some n => (f n, s)

def lookLink {α : Type} (s : Node) (ns : Space) (name : String) (f : Link → Except Err α) :
    Except Err α × Node :=
  s.look ns fun n =>
    match n.findLink name with
    | none   => .error (linkNotFound name)
    | some l => f l

-- A call that changes a namespace.
def onNetns (s : Node) (ns : Space) (f : Netns → Except Err Netns) : Except Err Unit × Node :=
  match s.netns ns with
  | none   => (.error (failure "no such namespace"), s)
  | some n =>
    match f n with
    | .error e => (.error e, s)
    | .ok n'   => (.ok (), s.setNetns ns n')

-- A call that changes a link.
def onLink (s : Node) (ns : Space) (name : String) (f : Link → Except Err Link) :
    Except Err Unit × Node :=
  s.onNetns ns fun n =>
    match n.findLink name with
    | none   => .error (linkNotFound name)
    | some l => (f l).map fun l' => n.modifyLink name fun _ => l'

-- A call that changes a `nat` table.
def onNat (s : Node) (ns : Space) (text : String) (f : Iptables.Table → Option Iptables.Table) :
    Except Err Unit × Node :=
  s.onNetns ns fun n =>
    match f n.nat with
    | none   => .error (failure text)
    | some t => .ok { n with nat := t }

def reply {α : Type} (s : Node) (missingText : String) : Option α → Except Err α × Node
  | none   => (.error (missing missingText), s)
  | some a => (.ok a, s)

def dropPeer (n : Netns) (name : String) : Netns :=
  match n.links.find? (·.peer = some name) with
  | none   => n
  | some l => n.dropLink l.name

-- Both ends of a pair of virtual Ethernet devices disappear together.
def deleteLink (s : Node) (ns : Space) (name : String) : Except Err Unit × Node :=
  match s.netns ns with
  | none   => (.error (failure "no such namespace"), s)
  | some n =>
    match n.findLink name with
    | none   => (.error (linkNotFound name), s)
    | some l =>
      let s := s.setNetns ns (n.dropLink name)
      if l.peer.isSome then
        (.ok (), { s with host := dropPeer s.host name, gateway := s.gateway.map (dropPeer · name) })
      else (.ok (), s)

-- A link loses its addresses and routes when it changes its namespace.
def moveLink (s : Node) (name : String) : Except Err Unit × Node :=
  match s.host.findLink name, s.gateway with
  | none,   _      => (.error (linkNotFound name), s)
  | _,      none   => (.error (failure "no such namespace"), s)
  | some l, some g =>
    if (g.findLink name).isSome then (.error (failure "file exists"), s)
    else
      (.ok (), { s with
        host    := s.host.dropLink name
        gateway := some (g.addLink { l with addrs := [] }) })

-- How an undisturbed call is served.
def serve : (c : Call) → Node → Except Err (Reply c) × Node
  | .listGwConfigs, s => (.ok s.api.gwConfigs, s)
  | .getGwConfig k, s => s.reply "gateway configuration" (s.api.gwConfigs.find? (·.meta_.key = k))
  | .getVMConfig k, s => s.reply "vm configuration" (s.api.vmConfigs.find? (·.meta_.key = k))
  | .getSecret k, s => s.reply "secret" (s.api.secrets.find? (·.meta_.key = k))
  | .listPodEndpoints, s => (.ok s.api.podEndpoints, s)
  | .getPodEndpoint k, s => s.reply "pod endpoint" (s.api.podEndpoints.find? (·.key = k))
  | .getStatus, s => s.reply "gateway status" s.api.status
  | .createStatus st, s =>
    match s.api.status with
    | some _ => (.error { code := .alreadyExists, text := "gateway status" }, s)
    | none   => (.ok (), { s with api.status := some st })
  | .updateStatus st, s =>
    match s.api.status with
    | none   => (.error (missing "gateway status"), s)
    | some _ => (.ok (), { s with api.status := some st })
  | .getNode, s => if s.api.hasNode then (.ok (), s) else (.error (missing "node"), s)
  | .getNS, s => if s.gateway.isSome then (.ok (), s) else (.error (failure "no such namespace"), s)
  | .linkList ns, s => s.look ns fun n => .ok n.links
  | .linkByName ns name, s => s.lookLink ns name .ok
  | .linkAdd l, s =>
    s.onNetns .host fun n =>
      if (n.findLink l.name).isSome then .error (failure "file exists") else .ok (n.addLink l)
  | .vethAdd, s =>
    s.onNetns .host fun n =>
      if (n.findLink hostVethLinkName).isSome ∨ (n.findLink hostLinkName).isSome then
        .error (failure "file exists")
      else .ok ((n.addLink .hostVeth).addLink .host0)
  | .linkDel ns name, s => s.deleteLink ns name
  | .linkSetNs name, s => s.moveLink name
  | .linkSetUp ns name, s => s.lookLink ns name fun _ => .ok ()
  | .addrList ns link, s => s.lookLink ns link fun l => .ok l.addrs
  | .addrAdd ns link a, s =>
    s.onLink ns link fun l =>
      if l.addrs.any (·.same a) then .error (failure "file exists")
      else .ok { l with addrs := l.addrs ++ [a] }
  | .addrDel ns link a, s =>
    s.onLink ns link fun l =>
      if a ∈ l.addrs then .ok { l with addrs := l.addrs.erase a }
      else .error (failure "cannot assign requested address")
  | .routeList ns link, s =>
    s.look ns fun n => .ok (n.routes.filter fun r => link.elim true (r.link = ·))
  | .routeReplace ns r, s =>
    s.onNetns ns fun n =>
      if (n.findLink r.link).isSome then
        .ok { n with routes := n.routes.filter (·.dst ≠ r.dst) ++ [r] }
      else .error (failure "no such device")
  | .routeDel ns r, s =>
    s.onNetns ns fun n =>
      if r ∈ n.routes then .ok { n with routes := n.routes.erase r }
      else .error (failure "no such process")
  | .ensureChain ns c, s => s.onNat ns "error creating chain" fun t => some (t.ensureChain c)
  | .ensureRule ns c r, s => s.onNat ns "error appending rule" (·.ensureRule c r)
  | .restoreAll ns c rs, s => s.onNat ns "iptables-restore failed" fun t => some (t.restoreAll c rs)
  | .saveInto ns, s => s.look ns fun n => .ok (n.nat.map (·.name))
  | .deleteRule ns c r, s => s.onNat ns "error deleting rule" fun t => some (t.deleteRule c r)
  | .removeChain ns c, s => s.onNat ns "iptables-restore failed" (·.removeChain c)
  | .wgNew, s => (.ok (), s)
  | .device link, s =>
    s.lookLink .gateway link fun l =>
      match l.device with
      | none   => .error (missing "device")
      | some d => .ok d
  | .configureDevice link c, s =>
    s.onLink .gateway link fun l =>
      match l.device with
      | none   => .error (missing "device")
      | some d => .ok { l with device := some (d.configure c) }
  | .addGateway uid, s =>
    (.ok (), { s with
      activeGateways := if uid ∈ s.activeGateways then s.activeGateways else s.activeGateways ++ [uid] })
  | .removeGateway uid, s =>
    (.ok (), { s with activeGateways := s.activeGateways.filter (· ≠ uid) })

end Node

def world : World Sig Node where
  exec   := Node.serve
  outage := failure "transient failure"

end Daemon
