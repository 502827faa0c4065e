import EgressGateway.Manager.Platform

open Kubernetes Azure Text Program

namespace Manager

variable [CaseFold]

def aksNodepoolTagKey := "aks-managed-poolName"
def aksNodepoolIPPrefixSizeTagKey := "aks-managed-gatewayIPPrefixSize"

-- The settings of the controllers and the parts of third-party packages that they call: `newMD5` is
-- `uuid.NewMD5` in the namespace of agent pools, `resourceName` the name of a parsed resource ID.
structure Settings where
  az              : CloudConfig
  lbProbePort     : Int
  secretNamespace : String
  newMD5          : String → String
  resourceName    : String → Option String

variable (S : Settings)

inductive GatewayPool
  | vmss (vmss : VirtualMachineScaleSet)
  | vms  (agentPoolName : String)
  deriving DecidableEq

def GatewayPool.getUniqueID : GatewayPool → String
  | vmss v => val v.uniqueID
  | vms n  => S.newMD5 n

def taggedWith (tags : Tags) (nodepool : String) : Bool :=
  match tags.lookup aksNodepoolTagKey with
  | none   => false
  | some v => equalFold (val v) nodepool

def getVMSS (resourceGroup vmssName : String) : M VirtualMachineScaleSet :=
  if vmssName = "" then
    throw (Err.errorf "vmss name is empty")
  else
    request (.getVMSS resourceGroup vmssName)

-- `GatewayLBConfigurationReconciler.loadPool`: scale sets take precedence over virtual machines.
def loadLBPool (spec : GatewaySpec) : M GatewayPool :=
  if spec.gatewayNodepoolName ≠ "" then do
    let vmssList ← request .listVMSS
    match vmssList.find? (taggedWith ·.tags spec.gatewayNodepoolName) with
    | some vmss => ret (.vmss vmss)
    | none      => do
      let vmsList ← request .listVMs
      if vmsList.any (taggedWith ·.tags spec.gatewayNodepoolName) then
        ret (.vms spec.gatewayNodepoolName)
      else
        throw (Err.errorf "gateway agent pool not found")
  else do
    let vmss ← getVMSS spec.gatewayVmssProfile.vmssResourceGroup spec.gatewayVmssProfile.vmssName
    ret (.vmss vmss)

-- The size of the public IP prefix that a node pool announces in its tags. It has to fit an `int32`.
def nodepoolIPPrefixSize (tags : Tags) : Except Err Int :=
  match tags.lookup aksNodepoolIPPrefixSizeTagKey with
  | none              => .error (Err.errorf "nodepool does not have IP prefix size")
  | some prefixLenStr =>
    match atoi (val prefixLenStr) with
    | none           => .error (invalid prefixLenStr)
    | some prefixLen =>
      if prefixLen > 0 ∧ prefixLen ≤ 2 ^ 31 - 1 then .ok prefixLen else .error (invalid prefixLenStr)
where
  invalid (prefixLenStr : Option String) : Err :=
    Err.errorf ("failed to parse nodepool IP prefix size: " ++ val prefixLenStr)

-- `GatewayVMConfigurationReconciler.loadPool`: here virtual machines take precedence over scale sets,
-- and the pool comes with the length of its public IP prefix.
def loadVMPool (spec : GatewaySpec) : M (GatewayPool × Int) :=
  if spec.gatewayNodepoolName ≠ "" then do
    let vmsList ← request .listVMs
    match vmsList.find? (taggedWith ·.tags spec.gatewayNodepoolName) with
    | some vm => do
      let prefixLen ← ofExcept (nodepoolIPPrefixSize vm.tags)
      ret (.vms spec.gatewayNodepoolName, prefixLen)
    | none    => do
      let vmssList ← request .listVMSS
      match vmssList.find? (taggedWith ·.tags spec.gatewayNodepoolName) with
      | some vmss => do
        let prefixLen ← ofExcept (nodepoolIPPrefixSize vmss.tags)
        ret (.vmss vmss, prefixLen)
      | none      => throw (Err.errorf "gateway VMSS not found")
  else do
    let vmss ← getVMSS spec.gatewayVmssProfile.vmssResourceGroup spec.gatewayVmssProfile.vmssName
    ret (.vmss vmss, spec.gatewayVmssProfile.publicIpPrefixSize)

namespace Sample

omit [CaseFold]

def settings : Settings where
  az := {
    subscriptionID            := "sub"
    resourceGroup             := "rg"
    location                  := "eastus"
    loadBalancerName          := ""
    loadBalancerResourceGroup := "rg" }
  lbProbePort     := 8082
  secretNamespace := "kube-egress-gateway-system"
  newMD5 n        := "md5-" ++ n
  resourceName id := (id.toList.splitOn '/').getLast?.map String.ofList

def poolSpec : GatewaySpec := { gatewayNodepoolName := "gw" }

def scaleSet (uniqueID nodepool : String) : VirtualMachineScaleSet where
  name                           := some ("aks-" ++ nodepool)
  resourceGroup                  := "rg"
  tags                           :=
    [(aksNodepoolTagKey, some nodepool), (aksNodepoolIPPrefixSizeTagKey, some "31")]
  uniqueID                       := some uniqueID
  networkInterfaceConfigurations := some []

def virtualMachine (nodepool : String) : VirtualMachine where
  resourceGroup := "rg"
  tags          :=
    [(aksNodepoolTagKey, some nodepool), (aksNodepoolIPPrefixSizeTagKey, some "31")]

end Sample

end Manager
