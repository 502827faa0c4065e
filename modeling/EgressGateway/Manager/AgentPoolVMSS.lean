import EgressGateway.Manager.Pool

-- `agentPoolVMSS`: the nodes of a gateway are the instances of a scale set. The IP configurations of a
-- gateway are kept in the network profile of the scale set, and in that of each of its instances.

open Kubernetes Azure Text Program

namespace Manager

variable [CaseFold]

def managedResourcePrefix := "egressgateway-"

def managedSubresourceName (vmConfig : GatewayVMConfiguration) : String :=
  managedResourcePrefix ++ vmConfig.meta_.uid

def isPrimaryNIC (nic : NetworkConfiguration) : Bool :=
  nic.properties.any (val ·.primary)

def isPrimaryConfig (ipConfig : IPConfiguration) : Bool :=
  ipConfig.properties.any (val ·.primary)

-- The subnet of the primary IP configuration, the last one if there are several.
def primarySubnetID (interfaces : List NetworkConfiguration) : Except Err (Option String) :=
  (((interfaces.filter isPrimaryNIC).flatMap (·.configs)).filter isPrimaryConfig).foldlM
    (fun _ ipConfig =>
      match ipConfig.properties.bind (·.subnet) with
      | none        => .error Err.nilDereference
      | some subnet => .ok subnet.id)
    none

def expectedIPConfig (ipConfigName ipPrefixID : String) (subnetID : Option String) : IPConfiguration where
  name := some ipConfigName
  properties := some {
    primary                      := some false
    privateIPAddressVersion      := some .ipv4
    publicIPAddressConfiguration :=
      if ipPrefixID = "" then none
      else some { name := some ipConfigName, properties := some ⟨some ⟨some ipPrefixID⟩⟩ }
    subnet                       := some ⟨subnetID⟩ }

def getExpectedIPConfig (ipConfigName ipPrefixID : String) (interfaces : List NetworkConfiguration) :
    Except Err IPConfiguration :=
  (primarySubnetID interfaces).map (expectedIPConfig ipConfigName ipPrefixID)

-- Whether two optional values differ, given how present ones are compared.
def differs {α : Type} (diff : α → α → Bool) : Option α → Option α → Bool
  | none,   none   => false
  | some a, some b => diff a b
  | _,      _      => true

def differentID (a b : SubResource) : Bool :=
  !equalFold (val a.id) (val b.id)

def different (ipConfig₁ ipConfig₂ : IPConfiguration) : Bool :=
  differs (fun prop₁ prop₂ =>
      val prop₁.primary ≠ val prop₂.primary ||
      val prop₁.privateIPAddressVersion ≠ val prop₂.privateIPAddressVersion ||
      differs differentID prop₁.subnet prop₂.subnet ||
      differs (fun pip₁ pip₂ =>
          val pip₁.name ≠ val pip₂.name ||
          differs (fun p q => differs differentID p.publicIPPrefix q.publicIPPrefix)
            pip₁.properties pip₂.properties)
        prop₁.publicIPAddressConfiguration prop₂.publicIPAddressConfiguration)
    ipConfig₁.properties ipConfig₂.properties

def getVMSSResourceGroup (vmConfig : GatewayVMConfiguration) : String :=
  vmConfig.spec.gatewayVmssProfile.vmssResourceGroup

-- Adds or removes the membership of the primary IP configuration in the backend pool.
def toggleBackendPool (lbBackendpoolID : String) (needBackendPool : Bool) (ipConfig : IPConfiguration) :
    IPConfiguration × Bool :=
  match ipConfig.properties with
  | none   => (ipConfig, false)
  | some p =>
    let backendPools := p.loadBalancerBackendAddressPools
    if backendPools.any (isPool ·) then
      if needBackendPool then
        (ipConfig, false)
      else
        (set p (backendPools.eraseP (isPool ·)), true)
    else if needBackendPool then
      (set p (backendPools ++ [⟨some lbBackendpoolID⟩]), true)
    else
      (ipConfig, false)
where
  isPool (backend : SubResource) : Bool := equalFold lbBackendpoolID (val backend.id)
  set (p : IPConfigurationProperties) (pools : List SubResource) : IPConfiguration :=
    { ipConfig with properties := some { p with loadBalancerBackendAddressPools := pools } }

-- Applies `f` to the first element that satisfies `p`, if there is one.
def modifyFirst {α β : Type} (p : α → Bool) (f : α → α × β) : List α → Option (List α × β)
  | []      => none
  | x :: xs =>
    if p x then
      let (y, b) := f x
      some (y :: xs, b)
    else (modifyFirst p f xs).map fun (ys, b) => (x :: ys, b)

def reconcileLbBackendPool (lbBackendpoolID : String) (primaryNic : NetworkConfiguration) :
    Except Err (NetworkConfiguration × Bool) :=
  let needBackendPool := primaryNic.configs.any fun c => hasPrefix (val c.name) managedResourcePrefix
  match modifyFirst isPrimaryConfig (toggleBackendPool lbBackendpoolID needBackendPool)
    primaryNic.configs with
  | none               => .error (Err.errorf "vmss(vm) primary ipConfig not found")
  | some (cs, changed) => .ok (primaryNic.setConfigs cs, changed)

-- The last element that satisfies `p`, with what comes before and after it.
def splitLast {α : Type} (p : α → Bool) : List α → Option (List α × α × List α)
  | []      => none
  | x :: xs =>
    match splitLast p xs with
    | some (pre, y, post) => some (x :: pre, y, post)
    | none                => if p x then some ([], x, xs) else none

-- What becomes of the IP configurations of one interface when the target is looked for: whether the
-- target is kept, and whether it is dropped.
structure Sweep where
  nic     : NetworkConfiguration
  found   : Bool
  dropped : Bool

def sweepNIC (expectedConfig : IPConfiguration) (ipConfigName : String) (wantIPConfig : Bool)
    (nic : NetworkConfiguration) : Sweep :=
  if isPrimaryNIC nic then
    match nic.configs.find? (val ·.name = ipConfigName) with
    | none          => ⟨nic, false, false⟩
    | some ipConfig =>
      if wantIPConfig && !different ipConfig expectedConfig then
        ⟨nic, true, false⟩
      else
        ⟨nic.setConfigs (nic.configs.eraseP (val ·.name = ipConfigName)), false, true⟩
  else ⟨nic, false, false⟩

-- Returns the interfaces as they should be, and whether this is a change.
def reconcileVMSSNetworkInterface (ipConfigName ipPrefixID lbBackendpoolID : String)
    (wantIPConfig : Bool) (interfaces : List NetworkConfiguration) :
    Except Err (List NetworkConfiguration × Bool) := do
  let expectedConfig ← getExpectedIPConfig ipConfigName ipPrefixID interfaces
  let swept := interfaces.map (sweepNIC expectedConfig ipConfigName wantIPConfig)
  let missing := wantIPConfig && !swept.any (·.found)
  match splitLast isPrimaryNIC (swept.map (·.nic)) with
  | none => .error (Err.errorf "vmss(vm) primary network interface not found")
  | some (pre, primaryNic, post) =>
    let primaryNic :=
      if missing then primaryNic.setConfigs (primaryNic.configs ++ [expectedConfig]) else primaryNic
    let (primaryNic, changed) ← reconcileLbBackendPool lbBackendpoolID primaryNic
    .ok (pre ++ primaryNic :: post, swept.any (·.dropped) || missing || changed)

-- The addresses of the primary and of the target IP configuration, the last ones if there are several.
def interfaceIPs (ipConfigName : String) (ipConfigs : List (Option InterfaceIPConfiguration)) :
    String × String → String × String :=
  fun ips => ipConfigs.foldl (fun (primaryIP, secondaryIP) ipConfig =>
    match ipConfig.bind fun c => c.properties.map (c.name, ·) with
    | none           => (primaryIP, secondaryIP)
    | some (name, p) =>
      if equalFold (val name) ipConfigName then
        (primaryIP, val p.privateIPAddress)
      else if val p.primary then
        (val p.privateIPAddress, secondaryIP)
      else
        (primaryIP, secondaryIP)) ips

-- Enters the addresses of a node into the status.
def recordProfile (vmConfig : GatewayVMConfiguration) (vmprofile : GatewayVMProfile) :
    GatewayVMConfiguration :=
  let status := vmConfig.status.getD {}
  let profiles := status.gatewayVMProfiles
  { vmConfig with
    status := some { status with
      gatewayVMProfiles :=
        match modifyFirst (·.nodeName = vmprofile.nodeName) (fun _ => (vmprofile, ())) profiles with
        | some (profiles, _) => profiles
        | none               => profiles ++ [vmprofile] } }

section Instance

variable (S : Settings)

-- The names that `AzureManager` insists on.
def guarded (names : List (String × String)) (c : Call) : M (Reply c) :=
  match names.find? (·.2 = "") with
  | some (what, _) => throw (Err.errorf (what ++ " is empty"))
  | none           => request c

def createOrUpdateVMSS (rg vmssName : String) (interfaces : List NetworkConfiguration) : M Unit :=
  guarded [("vmss name", vmssName)] (.createOrUpdateVMSS rg vmssName interfaces)

def listVMSSInstances (rg vmssName : String) : M (List ScaleSetVM) :=
  guarded [("vmss name", vmssName)] (.listVMSSInstances rg vmssName)

def updateVMSSInstance (rg vmssName instanceID : String) (interfaces : List NetworkConfiguration) :
    M Unit :=
  guarded [("vmss name", vmssName), ("vmss instanceID", instanceID)]
    (.updateVMSSInstance rg vmssName instanceID interfaces)

def getVMSSInterface (rg vmssName instanceID interfaceName : String) : M Interface :=
  guarded [("vmss name", vmssName), ("instanceID", instanceID), ("interface name", interfaceName)]
    (.getVMSSInterface rg vmssName instanceID interfaceName)

-- The check of the addresses before the update ends with the first interface that cannot be read.
def checkIPs (rg vmssName instanceID ipConfigName : String) :
    List NetworkConfiguration → String × String → M (String × String)
  | [],          ips => ret ips
  | nic :: nics, ips =>
    if isPrimaryNIC nic then do
      match ← attempt (getVMSSInterface rg vmssName instanceID (val nic.name)) with
      | .error _  => ret ips
      | .ok vmNic =>
        match vmNic.properties.bind (·.ipConfigurations) with
        | none           => ret ips
        | some ipConfigs =>
          checkIPs rg vmssName instanceID ipConfigName nics (interfaceIPs ipConfigName ipConfigs ips)
    else checkIPs rg vmssName instanceID ipConfigName nics ips

-- After the update every primary interface has to be readable.
def fetchIPs (rg vmssName instanceID ipConfigName : String) (nics : List NetworkConfiguration) :
    M (String × String) :=
  forFold nics ("", "") fun ips nic =>
    if isPrimaryNIC nic then do
      let vmNic ← mapError (Err.wrap <| "failed to get vmss(" ++ vmssName ++ ") instance(" ++
          instanceID ++ ") nic(" ++ val nic.name ++ "): ") <|
        getVMSSInterface rg vmssName instanceID (val nic.name)
      match vmNic.properties.bind (·.ipConfigurations) with
      | none           =>
        throw (Err.errorf ("vmss(" ++ vmssName ++ ") instance(" ++ instanceID ++ ") nic(" ++
          val nic.name ++ ") has empty ip configurations"))
      | some ipConfigs => ret (interfaceIPs ipConfigName ipConfigs ips)
    else ret ips

def knownIPs (rg vmssName instanceID ipConfigName : String) (nics : List NetworkConfiguration)
    (check : Bool) : M (String × String) :=
  if check then checkIPs rg vmssName instanceID ipConfigName nics ("", "") else ret ("", "")

def currentIPs (rg vmssName instanceID ipConfigName : String) (nics : List NetworkConfiguration)
    (ips : String × String) (fetch : Bool) : M (String × String) :=
  if fetch then fetchIPs rg vmssName instanceID ipConfigName nics else ret ips

def incomplete (ips : String × String) : Bool :=
  ips.1 = "" || ips.2 = ""

-- Returns the secondary address of the node, and the object with its profile.
def reconcileVMSSVM (vmConfig : GatewayVMConfiguration) (vmssName : String) (vm : ScaleSetVM)
    (ipPrefixID lbBackendpoolID : String) (wantIPConfig : Bool) :
    M (String × GatewayVMConfiguration) := do
  let ipConfigName := managedSubresourceName vmConfig
  let vmssRG := getVMSSResourceGroup vmConfig
  let id := val vm.instanceID
  match vm.networkInterfaceConfigurations, vm.osProfile with
  | none,            _              =>
    throw (Err.errorf ("vmss vm(" ++ id ++ ") has empty network profile"))
  | some _,          none           =>
    throw (Err.errorf ("vmss vm(" ++ id ++ ") has empty os profile"))
  | some interfaces, some osProfile =>
    let failed := vm.provisioningState.any (equalFold · "Failed")
    let ips ← knownIPs vmssRG vmssName id ipConfigName interfaces (!failed && wantIPConfig)
    let forceUpdate := failed || wantIPConfig && incomplete ips
    let (interfaces, needUpdate) ← mapError
        (Err.wrap ("failed to reconcile vm interface(" ++ id ++ "): ")) <| ofExcept <|
      reconcileVMSSNetworkInterface ipConfigName ipPrefixID lbBackendpoolID wantIPConfig interfaces
    when (needUpdate || forceUpdate) <|
      mapError (Err.wrap ("failed to update vmss instance(" ++ id ++ "): ")) <|
        updateVMSSInstance vmssRG vmssName id interfaces
    if !wantIPConfig then
      ret ("", vmConfig)
    else
      let (primaryIP, secondaryIP) ← currentIPs vmssRG vmssName id ipConfigName interfaces ips
        (needUpdate || forceUpdate || incomplete ips)
      if incomplete (primaryIP, secondaryIP) then
        throw (Err.errorf ("failed to find private IP from vmss(" ++ vmssName ++ "), instance(" ++
          id ++ "), ipConfig(" ++ ipConfigName ++ ")"))
      else
        ret (secondaryIP, recordProfile vmConfig {
          nodeName := val osProfile.computerName, primaryIP := primaryIP, secondaryIP := secondaryIP })

-- The profiles of nodes that do not exist any more are dropped.
def pruneProfiles (instances : List ScaleSetVM) (vmConfig : GatewayVMConfiguration) :
    GatewayVMConfiguration :=
  { vmConfig with
    status := vmConfig.status.map fun status => { status with
      gatewayVMProfiles := status.gatewayVMProfiles.filter fun profile =>
        instances.any fun vm => profile.nodeName = val (vm.osProfile.bind (·.computerName)) } }

-- Returns the private addresses of the nodes if the gateway has no public ones, and the object as it is
-- stored at the end.
def reconcileVMSS (vmConfig : GatewayVMConfiguration) (vmss : VirtualMachineScaleSet)
    (ipPrefixID : String) (wantIPConfig : Bool) : M (List String × GatewayVMConfiguration) := do
  let ipConfigName := managedSubresourceName vmConfig
  let vmssRG := getVMSSResourceGroup vmConfig
  let vmssName := val vmss.name
  match vmss.networkInterfaceConfigurations with
  | none            => throw (Err.errorf "vmss has empty network profile")
  | some interfaces =>
    let lbBackendpoolID := S.az.getLBBackendAddressPoolID (val vmss.uniqueID)
    let (interfaces, needUpdate) ← mapError
        (Err.wrap ("failed to reconcile vmss interface(" ++ vmssName ++ "): ")) <| ofExcept <|
      reconcileVMSSNetworkInterface ipConfigName ipPrefixID lbBackendpoolID wantIPConfig interfaces
    when needUpdate <|
      mapError (Err.wrap ("failed to update vmss(" ++ vmssName ++ "): ")) <|
        createOrUpdateVMSS vmssRG vmssName interfaces
    let instances ← mapError
        (Err.wrap ("failed to get vm instances from vmss(" ++ vmssName ++ "): ")) <|
      listVMSSInstances vmssRG vmssName
    let (privateIPs, vmConfig) ← forFold instances ([], vmConfig) fun (privateIPs, vmConfig) vm => do
      let (privateIP, vmConfig) ←
        reconcileVMSSVM vmConfig vmssName vm ipPrefixID lbBackendpoolID wantIPConfig
      ret (if wantIPConfig && ipPrefixID = "" then privateIPs ++ [privateIP] else privateIPs, vmConfig)
    let vmConfig ← mapError (Err.wrap "failed to update vm config status: ") <|
      request (.updateStatus .vmConfig (pruneProfiles instances vmConfig))
    ret (privateIPs, vmConfig)

end Instance

end Manager
