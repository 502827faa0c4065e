import EgressGateway.Base.Program
import EgressGateway.Objects.Azure
import EgressGateway.Objects.Error
import EgressGateway.Objects.Store
import Mathlib.Logic.Function.Basic

-- The outside world of the three manager controllers: one Azure subscription and one API server.

open Kubernetes Azure Text

namespace Manager

variable [CaseFold]

structure CloudConfig where
  subscriptionID            : String
  resourceGroup             : String
  location                  : String
  loadBalancerName          : String
  loadBalancerResourceGroup : String
  deriving DecidableEq

namespace CloudConfig

def defaultGatewayLBName := "kubeegressgateway-ilb"

def lbName (az : CloudConfig) : String :=
  if az.loadBalancerName = "" then defaultGatewayLBName else az.loadBalancerName

def lbID (az : CloudConfig) : String :=
  "/subscriptions/" ++ az.subscriptionID ++ "/resourceGroups/" ++ az.loadBalancerResourceGroup ++
  "/providers/Microsoft.Network/loadBalancers/" ++ az.lbName

def getLBFrontendIPConfigurationID (az : CloudConfig) (name : String) : String :=
  az.lbID ++ "/frontendIPConfigurations/" ++ name

def getLBBackendAddressPoolID (az : CloudConfig) (name : String) : String :=
  az.lbID ++ "/backendAddressPools/" ++ name

def getLBProbeID (az : CloudConfig) (name : String) : String :=
  az.lbID ++ "/probes/" ++ name

-- Most calls use the default resource group if none is given.
def orDefault (az : CloudConfig) (resourceGroup : String) : String :=
  if resourceGroup = "" then az.resourceGroup else resourceGroup

end CloudConfig

structure Node where
  name   : String
  labels : List (String × String)
  deriving DecidableEq

-- `interfaces`, `prefixes` and `publicIPs` are those of the subscription that the manager can see,
-- `writes` counts the changes made so far.
structure Cloud where
  loadBalancer    : Option LoadBalancer := none
  scaleSets       : List VirtualMachineScaleSet := []
  virtualMachines : List VirtualMachine := []
  interfaces      : List Azure.Interface := []
  prefixes        : List PublicIPPrefix := []
  publicIPs       : List PublicIPAddress := []
  subnet          : Option Subnet := none
  writes          : Nat := 0

inductive Kind
  | gwConfig
  | lbConfig
  | vmConfig
  | secret
  deriving DecidableEq

abbrev Obj : Kind → Type
  | .gwConfig => StaticGatewayConfiguration
  | .lbConfig => GatewayLBConfiguration
  | .vmConfig => GatewayVMConfiguration
  | .secret   => Secret

instance : (k : Kind) → Resource (Obj k)
  | .gwConfig => inferInstanceAs (Resource StaticGatewayConfiguration)
  | .lbConfig => inferInstanceAs (Resource GatewayLBConfiguration)
  | .vmConfig => inferInstanceAs (Resource GatewayVMConfiguration)
  | .secret   => inferInstanceAs (Resource Secret)

instance : (k : Kind) → DecidableEq (Obj k)
  | .gwConfig => inferInstanceAs (DecidableEq StaticGatewayConfiguration)
  | .lbConfig => inferInstanceAs (DecidableEq GatewayLBConfiguration)
  | .vmConfig => inferInstanceAs (DecidableEq GatewayVMConfiguration)
  | .secret   => inferInstanceAs (DecidableEq Secret)

structure ApiServer where
  items : (k : Kind) → List (Obj k) := fun _ => []
  nodes : List Node := []
  clock : Nat := 0

-- `keys` counts the wireguard keys generated so far.
structure State where
  cloud : Cloud := {}
  api   : ApiServer := {}
  keys  : Nat := 0

inductive Call
  -- Azure
  | getLB
  | createOrUpdateLB (lb : LoadBalancer)
  | deleteLB
  | listVMSS
  | getVMSS (resourceGroup name : String)
  | listVMs
  | createOrUpdateVMSS (resourceGroup name : String) (interfaces : List NetworkConfiguration)
  | listVMSSInstances (resourceGroup name : String)
  | updateVMSSInstance
      (resourceGroup name instanceID : String) (interfaces : List NetworkConfiguration)
  | getVMSSInterface (resourceGroup name instanceID interfaceName : String)
  | getPublicIPPrefix (resourceGroup name : String)
  | createOrUpdatePublicIPPrefix (resourceGroup name : String) (prefixLength : Int)
  | deletePublicIPPrefix (resourceGroup name : String)
  | createOrUpdatePublicIP (resourceGroup name : String) (pip : PublicIPAddress)
  | deletePublicIP (resourceGroup name : String)
  | listNetworkInterfaces (resourceGroup : String)
  | createOrUpdateNetworkInterface (resourceGroup name : String) (nic : Azure.Interface)
  | getSubnet
  -- API server
  | get (k : Kind) (key : NamespacedName)
  | list (k : Kind)
  | update (k : Kind) (o : Obj k)
  | updateStatus (k : Kind) (o : Obj k)
  | create (k : Kind) (o : Obj k)
  | patch (k : Kind) (before after : Obj k)
  | patchStatus (k : Kind) (before after : Obj k)
  | delete (k : Kind) (key : NamespacedName)
  | getNode (name : String)
  -- `wgtypes.GeneratePrivateKey`
  | generateKey

-- The texts of a private key and of the public key that belongs to it.
structure KeyPair where
  privateKey : String
  publicKey  : String

abbrev Reply : Call → Type
  | .getLB | .createOrUpdateLB _ => LoadBalancer
  | .listVMSS => List VirtualMachineScaleSet
  | .getVMSS .. => VirtualMachineScaleSet
  | .listVMs => List VirtualMachine
  | .listVMSSInstances .. => List ScaleSetVM
  | .getVMSSInterface .. => Interface
  | .getPublicIPPrefix .. | .createOrUpdatePublicIPPrefix .. => PublicIPPrefix
  | .createOrUpdatePublicIP .. => PublicIPAddress
  | .listNetworkInterfaces _ => List (Option Interface)
  | .createOrUpdateNetworkInterface .. => Interface
  | .getSubnet => Subnet
  | .get k _ | .update k _ | .updateStatus k _ | .create k _ | .patch k .. | .patchStatus k .. => Obj k
  | .list k => List (Obj k)
  | .getNode _ => Node
  | .generateKey => KeyPair
  | .deleteLB | .createOrUpdateVMSS .. | .updateVMSSInstance .. | .deletePublicIPPrefix ..
  | .deletePublicIP .. | .delete .. => Unit

abbrev Sig : Signature where
  Call  := Call
  Reply := Reply
  Error := Err

abbrev M := Program Sig

abbrev request (c : Call) : M (Reply c) :=
  Program.perform (I := Sig) c

-- What Azure and the API server decide on their own. Addresses may depend on when they are
-- assigned, and a public IP address may be shown in full or only by its ID.
structure Platform where
  uid             : Nat → String
  uid_inj         : ∀ {m n}, foldKey (uid m) = foldKey (uid n) → m = n
  frontendIP      : Nat → String → String
  frontendIP_ne   : ∀ n name, frontendIP n name ≠ ""
  prefixID        : String → String → String
  prefixCIDR      : Nat → String
  publicIPID      : String → String → String
  readPublicIP    : PublicIPAddress → PublicIPAddress
  readPublicIP_eq : ∀ p, readPublicIP p = p ∨ readPublicIP p = ⟨none, p.id, none⟩
  interfaceIP     : Nat → String → String → Option String
  scaleSetNIC     : ScaleSetVM → String → Option Azure.Interface
  keyPair         : Nat → KeyPair
  keyPair_ne      : ∀ n, (keyPair n).publicKey ≠ ""

namespace Platform

variable (P : Platform) (az : CloudConfig)

def provisionFrontend (now : Nat) (f : FrontendIPConfiguration) : FrontendIPConfiguration where
  name := f.name
  id   := some (az.getLBFrontendIPConfigurationID f.name)
  properties := f.properties.map fun p => { p with
    privateIPAddressVersion := some (p.privateIPAddressVersion.getD .ipv4)
    privateIPAddress        := some (p.privateIPAddress.getD (P.frontendIP now f.name)) }

def provisionBackend (b : BackendAddressPool) : BackendAddressPool :=
  { b with id := some (az.getLBBackendAddressPoolID b.name) }

def provisionLB (now : Nat) (lb : LoadBalancer) : LoadBalancer :=
  let p := lb.properties.getD {}
  { lb with
    properties := some { p with
      frontendIPConfigurations := p.frontendIPConfigurations.map (P.provisionFrontend az now)
      backendAddressPools      := p.backendAddressPools.map (provisionBackend az) } }

def provisionIPConfiguration (now : Nat) (nicName : String) (c : InterfaceIPConfiguration) :
    InterfaceIPConfiguration :=
  { c with
    properties := c.properties.map fun p => { p with
      privateIPAddress :=
        p.privateIPAddress.or (P.interfaceIP now nicName (val c.name))
      publicIPAddress := p.publicIPAddress.map P.readPublicIP } }

def provisionNIC (now : Nat) (nic : Azure.Interface) : Azure.Interface :=
  { nic with
    properties := nic.properties.map fun p => { p with
      provisioningState := some .succeeded
      ipConfigurations := p.ipConfigurations.map
        (·.map (Option.map (P.provisionIPConfiguration now (val nic.name)))) } }

def provisionPrefix (now : Nat) (resourceGroup name : String) (prefixLength : Int) :
    PublicIPPrefix where
  resourceGroup := resourceGroup
  name          := name
  id            := some (P.prefixID resourceGroup name)
  properties    := some { prefixLength := some prefixLength, ipPrefix := some (P.prefixCIDR now) }

end Platform

-- Azure compares the names of resources and resource groups ignoring case.

def scaleSetNamed (resourceGroup name : String) (v : VirtualMachineScaleSet) : Bool :=
  equalFold v.resourceGroup resourceGroup && equalFold (val v.name) name

def prefixNamed (resourceGroup name : String) (p : PublicIPPrefix) : Bool :=
  equalFold p.resourceGroup resourceGroup && equalFold p.name name

def publicIPNamed (name : String) (p : PublicIPAddress) : Bool :=
  equalFold (val p.name) name

namespace Cloud

def listVMSS (c : Cloud) (resourceGroup : String) : List VirtualMachineScaleSet :=
  c.scaleSets.filter (equalFold ·.resourceGroup resourceGroup)

def listVMs (c : Cloud) (resourceGroup : String) : List VirtualMachine :=
  c.virtualMachines.filter (equalFold ·.resourceGroup resourceGroup)

def findVMSS (c : Cloud) (resourceGroup name : String) : Option VirtualMachineScaleSet :=
  c.scaleSets.find? (scaleSetNamed resourceGroup name)

def modifyVMSS (c : Cloud) (resourceGroup name : String)
    (f : VirtualMachineScaleSet → VirtualMachineScaleSet) : Cloud :=
  { c with
    scaleSets := c.scaleSets.map fun v =>
      if scaleSetNamed resourceGroup name v then f v else v
    writes := c.writes + 1 }

def findPrefix (c : Cloud) (resourceGroup name : String) : Option PublicIPPrefix :=
  c.prefixes.find? (prefixNamed resourceGroup name)

-- A public IP address that is taken from the prefix with the given ID.
def takenFrom (prefixID : String) (pip : PublicIPAddress) : Bool :=
  (pip.properties.bind (·.publicIPPrefix)).any fun p => equalFold (val p.id) prefixID

-- A prefix is shown together with the addresses that are taken from it.
def showPrefix (c : Cloud) (p : PublicIPPrefix) : PublicIPPrefix :=
  { p with
    properties := p.properties.map fun q => { q with
      publicIPAddresses :=
        (c.publicIPs.filter (takenFrom (val p.id))).map fun pip => some ⟨pip.id⟩ } }

end Cloud

namespace Call

def missing (what : String) : Err where
  code := .notFound
  text := what ++ " not found"

def refused : Store.Refusal → Err
  | .notFound      => { code := .notFound,      text := "not found" }
  | .conflict      => { code := .conflict,      text := "the object has been modified" }
  | .alreadyExists => { code := .alreadyExists, text := "already exists" }
  | .invalid       => { code := .other,         text := "invalid" }

end Call

open Call

namespace State

def store (s : State) (k : Kind) (xs : List (Obj k)) : State :=
  { s with
    api.items := Function.update s.api.items k xs
    api.clock := s.api.clock + 1 }

def commit (s : State) (k : Kind) : Store.Write (Obj k) → Except Err (Obj k) × State
  | .error e    => (.error (refused e), s)
  | .ok (o, xs) => (.ok o, s.store k xs)

variable (P : Platform) (az : CloudConfig)

-- How an undisturbed call is served.
def serve : (c : Call) → State → Except Err (Reply c) × State
  | .getLB, s =>
    match s.cloud.loadBalancer with
    | none    => (.error (missing "load balancer"), s)
    | some lb => (.ok lb, s)
  | .createOrUpdateLB lb, s =>
    let lb := P.provisionLB az s.cloud.writes lb
    (.ok lb, { s with
      cloud.loadBalancer := some lb
      cloud.writes       := s.cloud.writes + 1 })
  | .deleteLB, s =>
    (.ok (), { s with
      cloud.loadBalancer := none
      cloud.writes       := s.cloud.writes + 1 })
  | .listVMSS, s => (.ok (s.cloud.listVMSS az.resourceGroup), s)
  | .getVMSS rg name, s =>
    match s.cloud.findVMSS (az.orDefault rg) name with
    | none   => (.error (missing "vmss"), s)
    | some v => (.ok v, s)
  | .listVMs, s => (.ok (s.cloud.listVMs az.resourceGroup), s)
  | .createOrUpdateVMSS rg name nics, s =>
    match s.cloud.findVMSS (az.orDefault rg) name with
    | none   => (.error (missing "vmss"), s)
    | some _ =>
      (.ok (), { s with
        cloud := s.cloud.modifyVMSS (az.orDefault rg) name fun v =>
          { v with networkInterfaceConfigurations := some nics } })
  | .listVMSSInstances rg name, s =>
    match s.cloud.findVMSS (az.orDefault rg) name with
    | none   => (.error (missing "vmss"), s)
    | some v => (.ok v.instances, s)
  | .updateVMSSInstance rg name id nics, s =>
    match s.cloud.findVMSS (az.orDefault rg) name with
    | none   => (.error (missing "vmss"), s)
    | some _ =>
      (.ok (), { s with
        cloud := s.cloud.modifyVMSS (az.orDefault rg) name fun v =>
          { v with instances := v.instances.map fun i =>
              if val i.instanceID = id then
                { i with networkInterfaceConfigurations := some nics }
              else i } })
  | .getVMSSInterface rg name id nic, s =>
    match s.cloud.findVMSS (az.orDefault rg) name with
    | none   => (.error (missing "vmss"), s)
    | some v =>
      match (v.instances.find? (val ·.instanceID = id)).bind (P.scaleSetNIC · nic) with
      | none   => (.error (missing "network interface"), s)
      | some n => (.ok n, s)
  | .getPublicIPPrefix rg name, s =>
    match s.cloud.findPrefix (az.orDefault rg) name with
    | none   => (.error (missing "public ip prefix"), s)
    | some p => (.ok (s.cloud.showPrefix p), s)
  | .createOrUpdatePublicIPPrefix rg name length, s =>
    let p := P.provisionPrefix s.cloud.writes (az.orDefault rg) name length
    (.ok p, { s with
      cloud.prefixes :=
        s.cloud.prefixes.filter (!prefixNamed (az.orDefault rg) name ·) ++ [p]
      cloud.writes := s.cloud.writes + 1 })
  | .deletePublicIPPrefix rg name, s =>
    (.ok (), { s with
      cloud.prefixes :=
        s.cloud.prefixes.filter (!prefixNamed (az.orDefault rg) name ·)
      cloud.writes := s.cloud.writes + 1 })
  | .createOrUpdatePublicIP rg name pip, s =>
    let pip := { pip with name := some name, id := some (P.publicIPID (az.orDefault rg) name) }
    (.ok pip, { s with
      cloud.publicIPs := s.cloud.publicIPs.filter (!publicIPNamed name ·) ++ [pip]
      cloud.writes    := s.cloud.writes + 1 })
  | .deletePublicIP _ name, s =>
    if s.cloud.publicIPs.any (publicIPNamed name) then
      (.ok (), { s with
        cloud.publicIPs := s.cloud.publicIPs.filter (!publicIPNamed name ·)
        cloud.writes    := s.cloud.writes + 1 })
    else (.error (missing "public ip"), s)
  | .listNetworkInterfaces _, s =>
    (.ok (s.cloud.interfaces.map some), s)
  | .createOrUpdateNetworkInterface _ name nic, s =>
    let nic := P.provisionNIC s.cloud.writes nic
    (.ok nic, { s with
      cloud.interfaces := s.cloud.interfaces.map fun n =>
        if equalFold (val n.name) name then nic else n
      cloud.writes := s.cloud.writes + 1 })
  | .getSubnet, s =>
    match s.cloud.subnet with
    | none   => (.error (missing "subnet"), s)
    | some n => (.ok n, s)
  | .get k key, s =>
    match Store.find (s.api.items k) key with
    | none   => (.error (refused .notFound), s)
    | some o => (.ok o, s)
  | .list k, s => (.ok (s.api.items k), s)
  | .update k o, s => s.commit k (Store.update s.api.clock (s.api.items k) o)
  | .updateStatus k o, s => s.commit k (Store.updateStatus s.api.clock (s.api.items k) o)
  | .create k o, s =>
    s.commit k (Store.create (P.uid s.api.clock) s.api.clock (s.api.items k) o)
  | .patch k before after, s => s.commit k (Store.patch s.api.clock (s.api.items k) before after)
  | .patchStatus k before after, s =>
    s.commit k (Store.patchStatus s.api.clock (s.api.items k) before after)
  | .delete k key, s =>
    match Store.delete s.api.clock (s.api.items k) key with
    | .error e => (.error (refused e), s)
    | .ok xs   => (.ok (), s.store k xs)
  | .getNode name, s =>
    match s.api.nodes.find? (·.name = name) with
    | none   => (.error (refused .notFound), s)
    | some n => (.ok n, s)
  | .generateKey, s => (.ok (P.keyPair s.keys), { s with keys := s.keys + 1 })

end State

def world (P : Platform) (az : CloudConfig) : World Sig State where
  exec   := State.serve P az
  outage := Err.errorf "the service is not available"

end Manager

-- A platform that meets all of these assumptions, with ASCII names.
def Manager.Platform.simple : Manager.Platform where
  uid n           := String.ofList (List.replicate n 'u')
  uid_inj h       := by simpa [Text.foldKey] using congrArg List.length h
  frontendIP _ _  := "10.0.0.4"
  frontendIP_ne   := by simp
  prefixID rg name :=
    "/subscriptions/sub/resourceGroups/" ++ rg ++ "/providers/Microsoft.Network/publicIPPrefixes/" ++ name
  prefixCIDR _    := "20.0.0.0/31"
  publicIPID rg name :=
    "/subscriptions/sub/resourceGroups/" ++ rg ++ "/providers/Microsoft.Network/publicIPAddresses/" ++ name
  readPublicIP    := id
  readPublicIP_eq := fun _ => .inl rfl
  interfaceIP _ _ _ := some "10.0.0.5"
  scaleSetNIC _ _ := none
  keyPair _       := { privateKey := "cHJpdmF0ZQ==", publicKey := "cHVibGlj" }
  keyPair_ne      := by simp
