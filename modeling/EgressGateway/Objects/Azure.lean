import EgressGateway.Base.Text

-- The Azure resources that the manager reads and writes. Pointers of the SDK are options, and `val`
-- is the dereference with a default that the source writes as `to.Val`.

namespace Azure

def val {α : Type} [Inhabited α] (v : Option α) : α :=
  v.getD default

@[simp]
theorem val_some {α : Type} [Inhabited α] (a : α) : val (some a) = a := rfl

inductive IPVersion
  | ipv4
  | ipv6
  deriving DecidableEq, Inhabited

inductive TransportProtocol
  | unset
  | udp
  | tcp
  | all
  deriving DecidableEq, Inhabited

inductive ProbeProtocol
  | http
  | https
  | tcp
  deriving DecidableEq, Inhabited

inductive IPAllocationMethod
  | dynamic
  | static
  deriving DecidableEq

structure SubResource where
  id : Option String
  deriving DecidableEq

-- Load balancers.

structure FrontendIPConfigurationProperties where
  privateIPAddressVersion   : Option IPVersion
  privateIPAllocationMethod : Option IPAllocationMethod
  subnet                    : Option SubResource
  privateIPAddress          : Option String
  deriving DecidableEq

structure FrontendIPConfiguration where
  name       : String
  id         : Option String
  properties : Option FrontendIPConfigurationProperties
  deriving DecidableEq

structure BackendAddressPool where
  name : String
  id   : Option String
  deriving DecidableEq

structure LoadBalancingRuleProperties where
  protocol                : Option TransportProtocol
  enableFloatingIP        : Option Bool
  frontendIPConfiguration : Option SubResource
  backendAddressPool      : Option SubResource
  probe                   : Option SubResource
  frontendPort            : Option Int
  backendPort             : Option Int
  deriving DecidableEq

structure LoadBalancingRule where
  name       : String
  properties : Option LoadBalancingRuleProperties
  deriving DecidableEq

structure ProbeProperties where
  requestPath : Option String
  protocol    : Option ProbeProtocol
  port        : Option Int
  deriving DecidableEq

structure Probe where
  name       : String
  properties : Option ProbeProperties
  deriving DecidableEq

structure LoadBalancerProperties where
  frontendIPConfigurations : List FrontendIPConfiguration := []
  backendAddressPools      : List BackendAddressPool := []
  loadBalancingRules       : List LoadBalancingRule := []
  probes                   : List Probe := []
  deriving DecidableEq

-- The SKU is left out: the manager always writes the same one and never reads it.
structure LoadBalancer where
  name       : String
  location   : String
  properties : Option LoadBalancerProperties
  deriving DecidableEq

-- Virtual machine scale sets and virtual machines.

abbrev Tags := List (String × Option String)

structure PublicIPAddressConfigurationProperties where
  publicIPPrefix : Option SubResource
  deriving DecidableEq

structure PublicIPAddressConfiguration where
  name       : Option String
  properties : Option PublicIPAddressConfigurationProperties
  deriving DecidableEq

structure IPConfigurationProperties where
  primary                         : Option Bool
  privateIPAddressVersion         : Option IPVersion
  publicIPAddressConfiguration    : Option PublicIPAddressConfiguration
  subnet                          : Option SubResource
  loadBalancerBackendAddressPools : List SubResource := []
  deriving DecidableEq

structure IPConfiguration where
  name       : Option String
  properties : Option IPConfigurationProperties
  deriving DecidableEq

structure NetworkConfigurationProperties where
  primary          : Option Bool
  ipConfigurations : List IPConfiguration
  deriving DecidableEq

-- A network interface of a scale set's model or of one of its instances.
structure NetworkConfiguration where
  name       : Option String
  properties : Option NetworkConfigurationProperties
  deriving DecidableEq

-- The IP configurations of an interface without properties are never looked at.
def NetworkConfiguration.configs (nic : NetworkConfiguration) : List IPConfiguration :=
  nic.properties.elim [] (·.ipConfigurations)

def NetworkConfiguration.setConfigs (nic : NetworkConfiguration) (cs : List IPConfiguration) :
    NetworkConfiguration :=
  { nic with properties := nic.properties.map ({ · with ipConfigurations := cs }) }

structure OSProfile where
  computerName : Option String
  deriving DecidableEq

structure ScaleSetVM where
  id                             : Option String
  instanceID                     : Option String
  networkInterfaceConfigurations : Option (List NetworkConfiguration)
  osProfile                      : Option OSProfile
  provisioningState              : Option String
  deriving DecidableEq

-- `uniqueID` and `networkInterfaceConfigurations` are fields of the scale set's properties, the
-- latter below its virtual machine profile: they are absent if any of their parents is.
structure VirtualMachineScaleSet where
  name                           : Option String
  resourceGroup                  : String
  tags                           : Tags
  uniqueID                       : Option String
  networkInterfaceConfigurations : Option (List NetworkConfiguration)
  instances                      : List ScaleSetVM := []
  deriving DecidableEq

structure VirtualMachine where
  resourceGroup : String
  tags          : Tags
  deriving DecidableEq

structure Subnet where
  id : Option String
  deriving DecidableEq

-- Public IP addresses and prefixes.

structure PublicIPAddressProperties where
  publicIPPrefix : Option SubResource
  deriving DecidableEq

structure PublicIPAddress where
  name       : Option String
  id         : Option String
  properties : Option PublicIPAddressProperties
  deriving DecidableEq

structure PublicIPPrefixProperties where
  prefixLength      : Option Int
  ipPrefix          : Option String
  publicIPAddresses : List (Option SubResource) := []
  deriving DecidableEq

structure PublicIPPrefix where
  resourceGroup : String
  name          : String
  id            : Option String
  properties    : Option PublicIPPrefixProperties
  deriving DecidableEq

-- Network interfaces as the network API shows them. Their IP configurations carry the addresses
-- that Azure has assigned, unlike those of a scale set's network profile.

structure InterfaceIPConfigurationProperties where
  primary                         : Option Bool
  privateIPAddressVersion         : Option IPVersion
  privateIPAddress                : Option String
  subnet                          : Option SubResource
  publicIPAddress                 : Option PublicIPAddress
  loadBalancerBackendAddressPools : List (Option SubResource) := []
  deriving DecidableEq

structure InterfaceIPConfiguration where
  name       : Option String
  properties : Option InterfaceIPConfigurationProperties
  deriving DecidableEq

inductive ProvisioningState
  | unset
  | succeeded
  | failed
  | updating
  deriving DecidableEq, Inhabited

structure InterfaceProperties where
  provisioningState : Option ProvisioningState
  ipConfigurations  : Option (List (Option InterfaceIPConfiguration))
  deriving DecidableEq

structure Interface where
  name       : Option String
  id         : Option String
  tags       : Tags
  properties : Option InterfaceProperties
  deriving DecidableEq

end Azure
