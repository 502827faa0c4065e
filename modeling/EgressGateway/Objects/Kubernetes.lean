import EgressGateway.Base.Text

-- The custom resources of the `egressgateway.kubernetes.azure.com` API group, together with the
-- parts of their metadata that the controllers look at.

namespace Kubernetes

structure NamespacedName where
  namespace_ : String
  name       : String
  deriving DecidableEq, Inhabited

-- The `<namespace>/<name>` pattern.
def NamespacedName.text (k : NamespacedName) : String :=
  k.namespace_ ++ "/" ++ k.name

-- The kind of the owner is left out, the objects of one kind only have owners of one other kind.
structure OwnerReference where
  name       : String
  uid        : String
  controller : Bool := true
  deriving DecidableEq

structure ObjectMeta where
  key             : NamespacedName
  uid             : String
  deleting        : Bool := false
  finalizers      : List String := []
  ownerReferences : List OwnerReference := []
  resourceVersion : Nat := 0
  deriving DecidableEq

def containsFinalizer (m : ObjectMeta) (f : String) : Bool :=
  m.finalizers.contains f

def addFinalizer (m : ObjectMeta) (f : String) : ObjectMeta :=
  if containsFinalizer m f then m else { m with finalizers := m.finalizers ++ [f] }

def removeFinalizer (m : ObjectMeta) (f : String) : ObjectMeta :=
  { m with finalizers := m.finalizers.filter (· ≠ f) }

structure GatewayVmssProfile where
  vmssResourceGroup  : String := ""
  vmssName           : String := ""
  publicIpPrefixSize : Int := 0
  deriving DecidableEq

-- The fields that are handed down from a static gateway configuration to its load balancer
-- configuration, and from there to its virtual machine configuration.
structure GatewaySpec where
  gatewayNodepoolName : String := ""
  gatewayVmssProfile  : GatewayVmssProfile := {}
  provisionPublicIps  : Bool := true
  publicIpPrefixId    : String := ""
  deriving DecidableEq

structure ObjectReference where
  namespace_ : String
  name       : String
  deriving DecidableEq

structure GatewayServerProfile where
  ip                  : String := ""
  port                : Int := 0
  publicKey           : String := ""
  privateKeySecretRef : Option ObjectReference := none
  deriving DecidableEq

structure StaticGatewayConfigurationStatus where
  egressIpPrefix       : String := ""
  gatewayServerProfile : GatewayServerProfile := {}
  deriving DecidableEq

inductive RouteType
  | staticEgressGateway
  | azureNetworking
  deriving DecidableEq

-- The rest of the specification is for the pods.
structure StaticGatewayConfiguration where
  meta_        : ObjectMeta
  spec         : GatewaySpec
  defaultRoute : RouteType := .staticEgressGateway
  excludeCidrs : List String := []
  status       : StaticGatewayConfigurationStatus := {}
  deriving DecidableEq

structure GatewayLBConfigurationStatus where
  frontendIp     : String := ""
  serverPort     : Int := 0
  egressIpPrefix : String := ""
  deriving DecidableEq

structure GatewayLBConfiguration where
  meta_  : ObjectMeta
  spec   : GatewaySpec
  status : Option GatewayLBConfigurationStatus := none
  deriving DecidableEq

structure GatewayVMProfile where
  nodeName    : String
  primaryIP   : String
  secondaryIP : String
  deriving DecidableEq

structure GatewayVMConfigurationStatus where
  egressIpPrefix    : String := ""
  gatewayVMProfiles : List GatewayVMProfile := []
  deriving DecidableEq

structure GatewayVMConfiguration where
  meta_  : ObjectMeta
  spec   : GatewaySpec
  status : Option GatewayVMConfigurationStatus := none
  deriving DecidableEq

structure PodEndpoint where
  meta_                      : ObjectMeta
  staticGatewayConfiguration : String
  podIpAddress               : String
  podPublicKey               : String
  deriving DecidableEq

abbrev PodEndpoint.key (e : PodEndpoint) : NamespacedName :=
  e.meta_.key

structure Pod where
  meta_       : ObjectMeta
  annotations : List (String × String) := []
  deriving DecidableEq

structure GatewayConfiguration where
  staticGatewayConfiguration : String := ""
  interfaceName              : String
  deriving DecidableEq

structure PeerConfiguration where
  podEndpoint   : String := ""
  interfaceName : String := ""
  publicKey     : String
  deriving DecidableEq

-- The status object of a gateway node.
structure GatewayStatus where
  readyGatewayConfigurations : List GatewayConfiguration := []
  readyPeerConfigurations    : List PeerConfiguration := []
  deriving DecidableEq

structure Secret where
  meta_  : ObjectMeta
  data   : List (String × String)
  labels : List (String × String) := []
  deriving DecidableEq

end Kubernetes
