import EgressGateway.Base.Net
import EgressGateway.Base.Program
import EgressGateway.Cni.Conf

-- `pkg/cni/wireguard` and `pkg/cni/ipam`: the WireGuard interface of a pod and the address that the IPAM
-- plugin gives to it.

open Net Program

namespace Cni.Nic

-- A Go string is a sequence of bytes.
abbrev Name := List UInt8

-- The name as it is shown in messages.
def Name.text (n : Name) : String :=
  String.ofList (n.map fun b => Char.ofNat b.toNat)

-- `%q`
def Name.quote (n : Name) : String :=
  n.text.quote

structure Link where
  index  : Nat
  name   : Name
  alias_ : Name := []
  up     : Bool := false
  mac    : String := ""
  deriving DecidableEq

inductive Space
  | host
  | pod
  deriving DecidableEq

-- Whether a call is issued by the function itself or by what it has deferred. The outside world does
-- not know.
inductive Phase
  | body
  | recovery
  deriving DecidableEq

inductive Call
  | getNSByPath (path : String)
  -- netlink
  | linkByName (phase : Phase) (ns : Space) (name : Name)
  | linkAdd (name : Name)
  | linkDel (ns : Space) (link : Link)
  | linkSetNs (link : Link)
  | linkSetDown (link : Link)
  | linkSetAlias (link : Link) (alias_ : Name)
  | linkSetName (link : Link) (name : Name)
  | linkSetUp (link : Link)
  -- IPAM
  | ipamAdd
  | ipamDel
  | configureIface (name : Name) (ips : List IPNet)
  -- the callback
  | configFunc (allowedIPNet : String)

-- The result of the IPAM plugin is none if it cannot be converted.
abbrev Reply : Call → Type
  | .linkByName .. => Link
  | .ipamAdd       => Option (List IPNet)
  | _              => Unit

abbrev Sig : Signature where
  Call  := Call
  Reply := Reply
  Error := Err

abbrev M := Program Sig

abbrev request (c : Call) : M (Reply c) :=
  Program.perform (I := Sig) c

-- The result of the plugin, as far as it is filled in here. Addresses come with the index of their interface.
structure Interface where
  mac     : String
  name    : Name
  sandbox : String
  deriving DecidableEq

structure Result where
  interfaces : List Interface := []
  ips        : List (Nat × IPNet) := []
  deriving DecidableEq

-- `multierr.Append`
def append (e e' : Err) : Err :=
  { e with text := e.text ++ "; " ++ e'.text }

-- `fmt.Errorf` with a `%v` verb: what is wrapped cannot be found any more.
def describe (context : String) (e : Err) : Err :=
  Err.errorf (context ++ e.text)

-- Deletes the link with the given name, if there is one.
def removeLink (ns : Space) (name : Name) : M (List Err) := do
  match ← attempt (request (.linkByName .recovery ns name)) with
  | .error e => ret (if e.code = .linkNotFound then [] else [e])
  | .ok link =>
    match ← attempt (request (.linkDel ns link)) with
    | .ok _    => ret []
    | .error e => ret [e]

-- What is deferred once the link is about to be created.
def recover (wgNameInMain ifName : Name) : M (List Err) := do
  let inHost ← removeLink .host wgNameInMain
  let inPod ← removeLink .pod wgNameInMain
  let renamed ← removeLink .pod ifName
  ret (inHost ++ inPod ++ renamed)

def onFailure {α : Type} (p : M α) (deferred : M (List Err)) : M α := do
  match ← attempt p with
  | .ok a    => ret a
  | .error e => do
    let errs ← deferred
    throw (errs.foldl append e)

def createLink (wgNameInMain ifName : Name) : M Unit := do
  mapError (Err.wrap "failed to add WireGuard link: ") (request (.linkAdd wgNameInMain))
  let wgLink ← request (.linkByName .body .host wgNameInMain)
  mapError (Err.wrap "failed to move wireguard link to pod namespace: ") (request (.linkSetNs wgLink))
  let wgLink ← mapError (describe ("failed to find " ++ wgNameInMain.quote ++ ": ")) <|
    request (.linkByName .body .pod wgNameInMain)
  mapError (describe ("failed to set " ++ wgLink.name.quote ++ " down: ")) (request (.linkSetDown wgLink))
  mapError (describe ("failed to set alias to " ++ wgLink.name.quote ++ ": ")) <|
    request (.linkSetAlias wgLink wgLink.name)
  mapError (describe ("failed to rename device " ++ wgLink.name.quote ++ " to " ++ ifName.quote ++ ": ")) <|
    request (.linkSetName wgLink ifName)
  mapError (describe ("failed to set " ++ ifName.quote ++ " up: ")) (request (.linkSetUp wgLink))

-- `IPWrapper.WithIP`
def withIP {α : Type} (configFunc : List IPNet → M α) : M α := do
  let r ← request .ipamAdd
  match ← attempt (match r with
    | none     => throw (Err.errorf "cannot convert the result")
    | some ips => configFunc ips) with
  | .ok a    => ret a
  | .error e => do
    match ← attempt (request .ipamDel) with
    | .ok _             => throw e
    | .error recoverErr =>
      throw { e with text := "error occurred " ++ e.text ++ " and failed to delete ip: " ++ recoverErr.text }

-- IPv6 addresses belong to the result, and the last IPv4 address is the allowed one.
def sortIPs (interface_ : Nat) : List IPNet → Result × String → Result × String
  | [],        acc => acc
  | ip :: ips, (result, allowedIPNet) =>
    if ip.ip.isV4 then sortIPs interface_ ips (result, ip.ip.text ++ "/32")
    else sortIPs interface_ ips ({ result with ips := result.ips ++ [(interface_, ip)] }, allowedIPNet)

-- Whether there is a callback is up to the caller.
def configureLink (podNSPath : String) (ifName : Name) (result : Result) (callback : Bool) (ips : List IPNet) :
    M Result := do
  if ips = [] then
    throw (Err.errorf "ipam result is empty")
  else do
    let wgLink ← mapError (describe ("failed to find " ++ ifName.quote ++ ": ")) <|
      request (.linkByName .body .pod ifName)
    let result := { result with
      interfaces := result.interfaces ++ [{ mac := wgLink.mac, name := wgLink.name, sandbox := podNSPath }] }
    let (result, allowedIPNet) := sortIPs (result.interfaces.length - 1) ips (result, "")
    request (.configureIface ifName ips)
    if allowedIPNet = "" then
      throw (Err.errorf "failed to find pod ipv4 ip")
    else do
      when callback (request (.configFunc allowedIPNet))
      ret result

-- The link with the given name in the namespace of the pod.
def existingLink (ifName : Name) : M (Option Link) := do
  match ← attempt (request (.linkByName .body .pod ifName)) with
  | .ok link => ret (some link)
  | .error e =>
    if e.code = .linkNotFound then ret none
    else throw (e.wrap "failed to retrieve new WireGuard link: ")

-- `WithWireGuardNic`
def withWireGuardNic (containerID : Name) (podNSPath : String) (ifName : Name) (result : Result) (callback : Bool) :
    M Result := do
  request (.getNSByPath podNSPath)
  match ← existingLink ifName with
  | some _ => withIP (configureLink podNSPath ifName result callback)
  | none   =>
    if containerID.length < 8 then
      throw sliceOutOfRange
    else
      let wgNameInMain := "wg".toUTF8.toList ++ containerID.take 8
      onFailure (do
        createLink wgNameInMain ifName
        withIP (configureLink podNSPath ifName result callback))
        (recover wgNameInMain ifName)

-- The namespaces of the host and of the pod, and the results of the IPAM plugin that the container has not
-- given back. Every link gets an index of its own.
structure State where
  host   : List Link := []
  pod    : Option (List Link) := none
  next   : Nat := 0
  leases : List (Option (List IPNet)) := []

namespace State

def links (s : State) : Space → List Link
  | .host => s.host
  | .pod  => s.pod.getD []

def setLinks (s : State) : Space → List Link → State
  | .host, ls => { s with host := ls }
  | .pod,  ls => { s with pod := s.pod.map fun _ => ls }

def find (s : State) (ns : Space) (name : Name) : Option Link :=
  (s.links ns).find? (·.name = name)

def missing : Err where
  code := .linkNotFound
  text := "Link not found"

-- A change of a link in the namespace of the pod.
def onLink (s : State) (link : Link) (f : Link → Link) : Except Err Unit × State :=
  if s.pod.any (·.any (·.index = link.index)) then
    (.ok (), s.setLinks .pod ((s.links .pod).map fun l => if l.index = link.index then f l else l))
  else (.error (Err.errorf "no such device"), s)

-- How an undisturbed call is served. What the IPAM plugin answers is up to it.
def serve (ipam : State → Except String (Option (List IPNet))) : (c : Call) → State → Except Err (Reply c) × State
  | .getNSByPath _, s => if s.pod.isSome then (.ok (), s) else (.error (Err.errorf "no such file or directory"), s)
  | .linkByName _ ns name, s =>
    match s.find ns name with
    | some l => (.ok l, s)
    | none   => (.error missing, s)
  | .linkAdd name, s =>
    if (s.find .host name).isSome then (.error (Err.errorf "file exists"), s)
    else (.ok (), { s with host := s.host ++ [{ index := s.next, name := name }], next := s.next + 1 })
  | .linkDel ns link, s =>
    if (s.links ns).any (·.index = link.index) then
      (.ok (), s.setLinks ns ((s.links ns).filter (·.index ≠ link.index)))
    else (.error (Err.errorf "no such device"), s)
  | .linkSetNs link, s =>
    match s.host.find? (·.index = link.index), s.pod with
    | some l, some ls =>
      if ls.any (·.name = l.name) then (.error (Err.errorf "file exists"), s)
      else
        (.ok (), { s with
          host := s.host.filter (·.index ≠ link.index)
          pod  := some (ls ++ [{ l with up := false }]) })
    | _, _ => (.error (Err.errorf "no such device"), s)
  | .linkSetDown link, s => s.onLink link ({ · with up := false })
  | .linkSetAlias link a, s => s.onLink link ({ · with alias_ := a })
  | .linkSetName link name, s =>
    if (s.links .pod).any fun l => l.name = name ∧ l.index ≠ link.index then (.error (Err.errorf "file exists"), s)
    else s.onLink link ({ · with name := name })
  | .linkSetUp link, s => s.onLink link ({ · with up := true })
  | .ipamAdd, s =>
    match ipam s with
    | .ok r       => (.ok r, { s with leases := s.leases ++ [r] })
    | .error text => (.error (Err.errorf text), s)
  | .ipamDel, s => (.ok (), { s with leases := [] })
  | .configureIface .., s => (.ok (), s)
  | .configFunc _, s => (.ok (), s)

end State

def world (ipam : State → Except String (Option (List IPNet))) : World Sig State where
  exec   := State.serve ipam
  outage := Err.errorf "transient failure"

end Cni.Nic
