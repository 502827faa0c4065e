import EgressGateway.Manager.AgentPoolVMSS

-- `agentPoolVMs`: the nodes of a gateway are virtual machines, which are only known by their network
-- interfaces.

open Kubernetes Azure Text Program

namespace Manager

variable [CaseFold]

def aksStaticGatewayNICTagKey := "aks-managed-static-gateway-nic"

structure GatewayIPConfig where
  primaryIP   : String := ""
  secondaryIP : String := ""
  subnetID    : String := ""

-- The interfaces of gateway nodes of a node pool.
def isGatewayNIC (nodepool : String) (nic : Azure.Interface) : Bool :=
  (nic.tags.lookup aksStaticGatewayNICTagKey).isSome && taggedWith nic.tags nodepool

abbrev Config := Option InterfaceIPConfiguration

namespace Config

-- The loops over the IP configurations of an interface skip those without properties.
def present (c : Config) : Option (Option String × InterfaceIPConfigurationProperties) :=
  c.bind fun d => d.properties.map (d.name, ·)

def isTarget (name : String) (c : Config) : Bool :=
  (present c).any fun (n, _) => equalFold (val n) name

def isPrimary (c : Config) : Bool :=
  (present c).any fun (_, p) => val p.primary

def inPool (lbBackendpoolID : String) (c : Config) : Bool :=
  (present c).any fun (_, p) => p.loadBalancerBackendAddressPools.any fun pool =>
    pool.any fun b => equalFold (val b.id) lbBackendpoolID

def addPool (lbBackendpoolID : String) (c : Config) : Config :=
  c.map fun d => { d with
    properties := d.properties.map fun p => { p with
      loadBalancerBackendAddressPools :=
        p.loadBalancerBackendAddressPools ++ [some ⟨some lbBackendpoolID⟩] } }

end Config

open Config

def nicConfigs (p : InterfaceProperties) : List Config :=
  p.ipConfigurations.getD []

def gatewayIPStep (name : String) (result : GatewayIPConfig) (ipConfig : Config) : GatewayIPConfig :=
  match present ipConfig with
  | none        => result
  | some (n, p) =>
    if equalFold (val n) name then
      { result with secondaryIP := val p.privateIPAddress }
    else if val p.primary then
      { result with
        primaryIP := val p.privateIPAddress
        subnetID  := p.subnet.elim result.subnetID (val ·.id) }
    else result

def getGatewayIPConfig (p : InterfaceProperties) (name : String) : GatewayIPConfig :=
  (nicConfigs p).foldl (gatewayIPStep name) {}

def differentNIC (a b : InterfaceIPConfiguration) : Bool :=
  differs (fun prop₁ prop₂ =>
      val prop₁.primary ≠ val prop₂.primary ||
      val prop₁.privateIPAddressVersion ≠ val prop₂.privateIPAddressVersion ||
      differs differentID prop₁.subnet prop₂.subnet ||
      differs (fun pip₁ pip₂ =>
          val pip₁.name ≠ val pip₂.name ||
          differs (fun p q => differs differentID p.publicIPPrefix q.publicIPPrefix)
            pip₁.properties pip₂.properties)
        prop₁.publicIPAddress prop₂.publicIPAddress)
    a.properties b.properties

structure SearchResult where
  configs : List Config
  found   : Bool
  dropped : Bool

-- The search for the target. The loop does not look at what follows a dropped IP configuration, which
-- has moved to the current index when the index is advanced.
def searchConfigs (ipConfigName : String) (wantIPConfig : Bool) (expected : InterfaceIPConfiguration) :
    List Config → SearchResult
  | []      => ⟨[], false, false⟩
  | c :: cs =>
    if isTarget ipConfigName c then
      if !wantIPConfig || c.any (differentNIC · expected) then
        match cs with
        | []      => ⟨[], false, true⟩
        | d :: ds =>
          let r := searchConfigs ipConfigName wantIPConfig expected ds
          ⟨d :: r.configs, r.found, true⟩
      else ⟨c :: cs, true, false⟩
    else
      let r := searchConfigs ipConfigName wantIPConfig expected cs
      ⟨c :: r.configs, r.found, r.dropped⟩

-- The loop over the primary IP configurations, which shares `missingLB` between them.
def joinBackendPool (lbBackendpoolID : String) : Bool → List Config → List Config × Bool
  | missingLB, []      => ([], missingLB)
  | missingLB, c :: cs =>
    if isPrimary c then
      let missingLB := missingLB && !inPool lbBackendpoolID c
      let c := if missingLB then addPool lbBackendpoolID c else c
      let (cs, missingLB) := joinBackendPool lbBackendpoolID missingLB cs
      (c :: cs, missingLB)
    else
      let (cs, missingLB) := joinBackendPool lbBackendpoolID missingLB cs
      (c :: cs, missingLB)

variable (S : Settings)

-- `fnv.New64a`
def fnv64a (s : String) : BitVec 64 :=
  s.toUTF8.toList.foldl (fun h b => (h ^^^ b.toBitVec.setWidth 64) * 1099511628211#64)
    14695981039346656037#64

-- `%x` does not print leading zeros.
def hex (n : Nat) : String :=
  String.ofList (Nat.toDigits 16 n)

def buildPublicIPName (id nicName : String) : Except Err String :=
  match S.resourceName id with
  | none      => .error (Err.errorf ("failed to parse resource id: " ++ id))
  | some name => .ok (name ++ "-" ++ hex (fnv64a nicName).toNat)

def createOrUpdatePublicIP (name : String) (pip : PublicIPAddress) : M PublicIPAddress :=
  guarded [("public ip name", name)] (.createOrUpdatePublicIP "" name pip)

def createOrUpdateNetworkInterface (name : String) (nic : Azure.Interface) : M Azure.Interface :=
  guarded [("nic name", name)] (.createOrUpdateNetworkInterface "" name nic)

def expectedPublicIP (ipPrefixID : String) : PublicIPAddress where
  name       := none
  id         := none
  properties := some ⟨some ⟨some ipPrefixID⟩⟩

def expectedNICConfig (ipConfigName subnetID : String) (pip : Option PublicIPAddress) :
    InterfaceIPConfiguration where
  name       := some ipConfigName
  properties := some {
    primary                 := some false
    privateIPAddressVersion := some .ipv4
    privateIPAddress        := none
    subnet                  := some ⟨some subnetID⟩
    publicIPAddress         := pip }

-- The public IP address of a node, which is named after the prefix and the interface.
def ensurePublicIP (ipPrefixID : String) (nic : Azure.Interface) (wantIPConfig : Bool) :
    M (Option PublicIPAddress) := do
  if ipPrefixID ≠ "" ∧ wantIPConfig then
    let pipName ← ofExcept (buildPublicIPName S ipPrefixID (val nic.name))
    let pip ← createOrUpdatePublicIP pipName (expectedPublicIP ipPrefixID)
    ret (some pip)
  else ret none

-- The interface as it should be, and whether it has to be updated for that.
def editNIC (ipConfigName lbBackendpoolID : String) (wantIPConfig : Bool)
    (expected : InterfaceIPConfiguration) (p : InterfaceProperties) : InterfaceProperties × Bool :=
  let r := searchConfigs ipConfigName wantIPConfig expected (nicConfigs p)
  let missing := wantIPConfig && !r.found
  let configs := if missing then r.configs ++ [some expected] else r.configs
  let (configs, missingLB) := joinBackendPool lbBackendpoolID true configs
  ({ p with ipConfigurations := some configs }, r.dropped || missing || missingLB)

-- Returns the name of the interface and its addresses as they are then.
def storeNIC (ipConfigName : String) (nic : Azure.Interface) (ipCfg : GatewayIPConfig) (update : Bool) :
    M (String × GatewayIPConfig) := do
  if update then
    let nic ← mapError (Err.wrap ("failed to update nic(" ++ val nic.id ++ "): ")) <|
      createOrUpdateNetworkInterface (val nic.name) nic
    match nic.properties with
    | none   => throw Err.nilDereference
    | some p => ret (val nic.name, getGatewayIPConfig p ipConfigName)
  else ret (val nic.name, ipCfg)

-- Returns the secondary address of the node, and the object with its profile.
def reconcileNIC (vmConfig : GatewayVMConfiguration) (nic : Azure.Interface)
    (ipPrefixID lbBackendpoolID : String) (wantIPConfig : Bool) :
    M (String × GatewayVMConfiguration) := do
  let ipConfigName := managedSubresourceName vmConfig
  match nic.properties with
  | none   => throw (Err.errorf ("nic(" ++ val nic.id ++ ") has empty properties"))
  | some p =>
    let failed := val p.provisioningState = .failed
    let ipCfg := getGatewayIPConfig p ipConfigName
    let forceUpdate := failed || wantIPConfig && incomplete (ipCfg.primaryIP, ipCfg.secondaryIP)
    if ipCfg.subnetID = "" then
      throw (Err.errorf ("no subnetID found for NIC(" ++ val nic.id ++ ")"))
    else
      let pip ← ensurePublicIP S ipPrefixID nic wantIPConfig
      let (p, needUpdate) := editNIC ipConfigName lbBackendpoolID wantIPConfig
        (expectedNICConfig ipConfigName ipCfg.subnetID pip) p
      let (nicName, ipCfg) ←
        storeNIC ipConfigName { nic with properties := some p } ipCfg (needUpdate || forceUpdate)
      if !wantIPConfig then
        ret ("", vmConfig)
      else
        ret (ipCfg.secondaryIP, recordProfile vmConfig {
          nodeName := nicName, primaryIP := ipCfg.primaryIP, secondaryIP := ipCfg.secondaryIP })

-- Returns the secondary addresses of the nodes, and the object with their profiles.
def reconcileVMs (agentPoolName : String) (vmConfig : GatewayVMConfiguration) (ipPrefixID : String)
    (wantIPConfig : Bool) : M (List String × GatewayVMConfiguration) := do
  let backendLBPoolID := S.az.getLBBackendAddressPoolID (S.newMD5 agentPoolName)
  let nics ← request (.listNetworkInterfaces "")
  let gatewayNICs := (nics.filterMap id).filter (isGatewayNIC vmConfig.spec.gatewayNodepoolName)
  forFold gatewayNICs ([], vmConfig) fun (secondaryIPs, vmConfig) nic => do
    let (ip, vmConfig) ← reconcileNIC S vmConfig nic ipPrefixID backendLBPoolID wantIPConfig
    ret (secondaryIPs ++ [ip], vmConfig)

-- `GatewayPool.Reconcile`
def GatewayPool.reconcile (pool : GatewayPool) (vmConfig : GatewayVMConfiguration)
    (ipPrefixID : String) (wantIPConfig : Bool) : M (List String × GatewayVMConfiguration) :=
  match pool with
  | .vmss v   => reconcileVMSS S vmConfig v ipPrefixID wantIPConfig
  | .vms name => reconcileVMs S name vmConfig ipPrefixID wantIPConfig

end Manager
