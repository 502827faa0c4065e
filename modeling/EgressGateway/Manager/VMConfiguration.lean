import EgressGateway.Base.Pattern
import EgressGateway.Manager.AgentPoolVMs
import EgressGateway.Manager.Client

-- `GatewayVMConfigurationReconciler`

open Kubernetes Azure Text Program

namespace Manager

variable [CaseFold] (S : Settings)

namespace VMController

def vmConfigFinalizerName := "gateway-vm-configuration-controller.microsoft.com"
def aksNodepoolNameLabel := "kubernetes.azure.com/agentpool"

def publicIPPrefixRE : Pattern := [
  .gap 0 false, Pattern.lit "/subscriptions/",
  .gap 1 true, Pattern.lit "/resourceGroups/",
  .gap 1 true, Pattern.lit "/providers/Microsoft.Network/publicIPPrefixes/",
  .gap 1 true]

def getPublicIPPrefix (rg prefixName : String) : M PublicIPPrefix :=
  guarded [("public ip prefix name", prefixName)] (.getPublicIPPrefix rg prefixName)

def createOrUpdatePublicIPPrefix (prefixName : String) (prefixLength : Int) : M PublicIPPrefix :=
  guarded [("public ip prefix name", prefixName)] (.createOrUpdatePublicIPPrefix "" prefixName prefixLength)

def deletePublicIPPrefix (prefixName : String) : M Unit :=
  guarded [("public ip prefix name", prefixName)] (.deletePublicIPPrefix "" prefixName)

def deletePublicIP (name : String) : M Unit :=
  guarded [("public ip name", name)] (.deletePublicIP "" name)

-- The CIDR and the ID of the prefix, and whether the controller owns it.
structure EgressPrefix where
  ipPrefix   : String := ""
  ipPrefixID : String := ""
  isManaged  : Bool := false

-- The prefix that the user has asked for.
def useProvidedPrefix (ipPrefixLength : Int) (id : String) : M EgressPrefix :=
  match publicIPPrefixRE.findSubmatch id with
  | some [subscriptionID, resourceGroupName, publicIpPrefixName] =>
    if subscriptionID ≠ S.az.subscriptionID then
      throw (Err.errorf ("public ip prefix subscription(" ++ subscriptionID ++
        ") is not in the same subscription(" ++ S.az.subscriptionID ++ ")"))
    else do
      let ipPrefix ← mapError (Err.wrap ("failed to get public ip prefix(" ++ id ++ "): ")) <|
        getPublicIPPrefix resourceGroupName publicIpPrefixName
      match ipPrefix.properties with
      | none   => throw (Err.errorf ("public ip prefix(" ++ id ++ ") has empty properties"))
      | some p =>
        if val p.prefixLength ≠ ipPrefixLength then
          throw (Err.errorf ("provided public ip prefix has invalid length(" ++
            toString (val p.prefixLength) ++ "), required(" ++ toString ipPrefixLength ++ ")"))
        else
          ret { ipPrefix := val p.ipPrefix, ipPrefixID := val ipPrefix.id, isManaged := false }
  | _ => throw (Err.errorf ("failed to parse public ip prefix id: " ++ id))

def useManagedPrefix (ipPrefixLength : Int) (publicIpPrefixName : String) : M EgressPrefix := do
  match ← attempt (getPublicIPPrefix "" publicIpPrefixName) with
  | .ok ipPrefix =>
    match ipPrefix.properties with
    | none   => throw (Err.errorf "managed public ip prefix has empty properties")
    | some p => ret { ipPrefix := val p.ipPrefix, ipPrefixID := val ipPrefix.id, isManaged := true }
  | .error e =>
    if !e.isNotFound then
      throw (e.wrap "failed to get managed public ip prefix: ")
    else do
      let ipPrefix ← mapError (Err.wrap "failed to create managed public ip prefix: ") <|
        createOrUpdatePublicIPPrefix publicIpPrefixName ipPrefixLength
      match ipPrefix.properties with
      | none   => throw Err.nilDereference
      | some p => ret { ipPrefix := val p.ipPrefix, ipPrefixID := val ipPrefix.id, isManaged := true }

-- A gateway without public addresses does not own a prefix, so that an earlier one is deleted.
def ensurePublicIPPrefix (ipPrefixLength : Int) (vmConfig : GatewayVMConfiguration) : M EgressPrefix :=
  if !vmConfig.spec.provisionPublicIps then
    ret {}
  else if vmConfig.spec.publicIpPrefixId ≠ "" then
    useProvidedPrefix S ipPrefixLength vmConfig.spec.publicIpPrefixId
  else
    useManagedPrefix ipPrefixLength (managedSubresourceName vmConfig)

-- One of the public IP addresses that are taken from the managed prefix.
def releasePublicIP (pip : Option SubResource) : M Unit :=
  match pip.bind (·.id) with
  | none       => ret ()
  | some pipID =>
    match S.resourceName pipID with
    | none      => throw (Err.errorf ("failed to parse managed public ip prefix(" ++ pipID ++ ")"))
    | some name => do
      match ← attempt (deletePublicIP name) with
      | .ok _    => ret ()
      | .error e =>
        if e.isNotFound then ret ()
        else throw (e.wrap ("failed to delete managed public ip prefix(" ++ pipID ++ "): "))

def ensurePublicIPPrefixDeleted (vmConfig : GatewayVMConfiguration) : M Unit := do
  let publicIpPrefixName := managedSubresourceName vmConfig
  match ← attempt (getPublicIPPrefix "" publicIpPrefixName) with
  | .error e  =>
    if e.isNotFound then ret ()
    else throw (e.wrap ("failed to get public ip prefix(" ++ publicIpPrefixName ++ "): "))
  | .ok found =>
    forEach (found.properties.elim [] (·.publicIPAddresses)) (releasePublicIP S)
    mapError (Err.wrap ("failed to delete public ip prefix(" ++ publicIpPrefixName ++ "): ")) <|
      deletePublicIPPrefix publicIpPrefixName

def withEgressIpPrefix (vmConfig : GatewayVMConfiguration) (egress : EgressPrefix)
    (privateIPs : List String) : GatewayVMConfiguration :=
  { vmConfig with
    status := some { vmConfig.status.getD {} with
      egressIpPrefix :=
        if vmConfig.spec.provisionPublicIps then egress.ipPrefix else ",".intercalate privateIPs } }

-- Everything up to the final write: the object at the beginning, and as it should be then.
def compute (vmConfig : GatewayVMConfiguration) :
    M (GatewayVMConfiguration × GatewayVMConfiguration) := do
  let existing ← ensureFinalizer .vmConfig vmConfigFinalizerName vmConfig
  let (pool, ipPrefixLength) ← loadVMPool existing.spec
  let egress ← ensurePublicIPPrefix S ipPrefixLength existing
  let (privateIPs, vmConfig) ← pool.reconcile S existing egress.ipPrefixID true
  when (!egress.isManaged) (ensurePublicIPPrefixDeleted S vmConfig)
  ret (existing, withEgressIpPrefix vmConfig egress privateIPs)

def reconcile (vmConfig : GatewayVMConfiguration) : M (Observed GatewayVMConfiguration) :=
  observed do
    let (existing, vmConfig) ← compute S vmConfig
    storeStatus .vmConfig existing vmConfig
    ret (.ok vmConfig)

def ensureDeleted (vmConfig : GatewayVMConfiguration) : M Unit :=
  if !containsFinalizer vmConfig.meta_ vmConfigFinalizerName then
    ret ()
  else do
    let (pool, _) ← loadVMPool vmConfig.spec
    let (_, vmConfig) ← pool.reconcile S vmConfig "" false
    ensurePublicIPPrefixDeleted S vmConfig
    let _ ← releaseFinalizer .vmConfig vmConfigFinalizerName vmConfig
    ret ()

-- The configurations that a node event concerns.
def concerns (node : Node) (vmConfig : GatewayVMConfiguration) : Bool :=
  !vmConfig.meta_.deleting &&
  match node.labels.lookup aksNodepoolNameLabel with
  | none   => true
  | some v => vmConfig.spec.gatewayNodepoolName = "" || equalFold v vmConfig.spec.gatewayNodepoolName

-- `errors.Join`
def joinErrors : Option Err → Err → Option Err
  | none,   e => some e
  | some d, e => some { d with text := d.text ++ "\n" ++ e.text }

def reconcileNode (name : String) : M Unit := do
  match ← attempt (request (.getNode name)) with
  | .error e => if e.isNotFound then ret () else throw e
  | .ok node =>
    let vmConfigs ← request (.list .vmConfig)
    let aggregateError ← forFold (vmConfigs.filter (concerns node)) none fun errs vmConfig => do
      let o ← reconcile S vmConfig
      match o.result with
      | .ok _    => ret errs
      | .error e => ret (joinErrors errs e)
    match aggregateError with
    | none   => ret ()
    | some e => throw e

-- A request without a namespace is a node event.
def Reconcile (req : NamespacedName) : M Unit := do
  if req.namespace_ = "" ∧ req.name ≠ "" then
    reconcileNode S req.name
  else
    match ← attempt (request (.get .vmConfig req)) with
    | .error e     => if e.isNotFound then ret () else throw e
    | .ok vmConfig =>
      let _ ← request (.get .gwConfig req)
      if vmConfig.meta_.deleting then
        ensureDeleted S vmConfig
      else do
        let o ← reconcile S vmConfig
        let _ ← ofExcept o.result
        ret ()

end VMController

end Manager
