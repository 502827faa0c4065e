import EgressGateway.Daemon.Node

-- What the daemon knows about its own node, and what it derives from it for a configuration.

open Kubernetes Text

namespace Daemon

-- The fields of `imds.InstanceMetadata` that are used. `subnetPrefix` is the prefix of the first
-- subnet of the first network interface.
structure Metadata where
  computerName      : String
  tags              : String
  vmScaleSetName    : String
  resourceGroupName : String
  subnetPrefix      : Option String

def aksNodepoolTagKey := "aks-managed-poolName"
def aksNodeNICTagKey := "aks-managed-nic-name"
def gatewayIP := "fe80::1/64"
def ilbIPLabel := "eth0:egress"
def wireguardPrivateKeyName := "PrivateKey"

def parseNodeTags (m : Metadata) : List (String × String) :=
  (split ';' m.tags).filterMap fun tag =>
    match split ':' tag with
    | [k, v] => some (trimSpace k, trimSpace v)
    | _      => none

-- The last tag of a name counts.
def nodeTag (m : Metadata) (name : String) : Option String :=
  (parseNodeTags m).reverse.lookup name

def nicName (m : Metadata) : String :=
  (((split ';' m.tags).filterMap fun tag =>
    match split ':' tag with
    | [k, v] => if k = aksNodeNICTagKey then some v else none
    | _      => none).getLast?).getD ""

def isReady (gwConfig : StaticGatewayConfiguration) : Bool :=
  let wgProfile := gwConfig.status.gatewayServerProfile
  gwConfig.status.egressIpPrefix ≠ "" ∧ wgProfile.ip ≠ "" ∧ wgProfile.port ≠ 0 ∧
  wgProfile.publicKey ≠ "" ∧ wgProfile.privateKeySecretRef.isSome

def applyToNode [CaseFold] (m : Metadata) (gwConfig : StaticGatewayConfiguration) : Bool :=
  if gwConfig.spec.gatewayNodepoolName ≠ "" then
    match nodeTag m aksNodepoolTagKey with
    | none      => false
    | some name => equalFold name gwConfig.spec.gatewayNodepoolName
  else
    let vmssProfile := gwConfig.spec.gatewayVmssProfile
    equalFold vmssProfile.vmssName m.vmScaleSetName &&
    equalFold vmssProfile.vmssResourceGroup m.resourceGroupName

def port (gwConfig : StaticGatewayConfiguration) : Int :=
  gwConfig.status.gatewayServerProfile.port

def linkNameOf (port : Int) : String :=
  wireguardLinkNamePrefix ++ toString port

def getWireguardInterfaceName (gwConfig : StaticGatewayConfiguration) : String :=
  linkNameOf (port gwConfig)

def getPacketMark (linkName : String) : Except Err Int :=
  match atoi (trimPrefix linkName wireguardLinkNamePrefix) with
  | some mark => .ok mark
  | none      => .error (.errorf ("failed to parse mark from link name (" ++ linkName ++ ")"))

-- The part of `getVMIP` after the object has been fetched.
def vmIPOf (m : Metadata) (vmConfig : GatewayVMConfiguration) : Except Err (String × String) :=
  match vmConfig.status with
  | none        => .error <| .errorf <|
      "status is nil for GatewayVMConfiguration " ++ vmConfig.meta_.key.text
  | some status =>
    let profile := status.gatewayVMProfiles.find? fun p =>
      p.nodeName = m.computerName ∨ p.nodeName = nicName m
    let primaryIP := profile.elim "" (·.primaryIP)
    let secondaryIP := profile.elim "" (·.secondaryIP)
    if primaryIP = "" ∨ secondaryIP = "" then
      .error (.errorf ("failed to find primary or secondary IP for node " ++ m.computerName))
    else
      .ok (primaryIP, secondaryIP)

end Daemon
