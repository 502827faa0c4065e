import EgressGateway.Daemon.Metadata

-- `StaticGatewayConfigurationReconciler` of the daemon.

open Kubernetes Text Net Program

namespace Daemon

-- `fmt.Errorf` around the error of a call.
def wrapError {α : Type} (context : String) (p : M α) : M α := do
  match ← attempt p with
  | .ok a    => ret a
  | .error e => throw (e.wrap context)

-- A deferred function that only acts if the remainder of the function fails.
def onFailure {α : Type} (p : M α) (deferred : M Unit) : M α := do
  match ← attempt p with
  | .ok a    => ret a
  | .error e => do
    let _ ← attempt deferred
    throw e

def orError {α : Type} (e : Err) : Option α → M α
  | some a => ret a
  | none   => throw e

namespace Chains

-- The chains of the two `nat` tables, and the comments of the rules that jump to them.

def snat := "EGRESS-GATEWAY-SNAT"

def noSNAT (ip : String) : String :=
  "EGRESS-" ++ replaceAll ip '.' '-'

def mark (mark : Int) : String :=
  "EGRESS-GATEWAY-MARK-" ++ toString mark

def snatOf (mark : Int) : String :=
  "EGRESS-GATEWAY-SNAT-" ++ toString mark

def noMasqueradeComment := "kube-egress-gateway no MASQUERADE"

def noSNATComment (ip : String) : String :=
  "kube-egress-gateway no sNAT packet from ip " ++ ip

def markComment (linkName : String) : String :=
  "kube-egress-gateway mark packets from gateway link " ++ linkName

def snatComment (linkName : String) : String :=
  "kube-egress-gateway sNAT packets from gateway link " ++ linkName

def jumpRule (comment target : String) : Iptables.Rule where
  matches_ := [.comment comment]
  target   := .jump target

def noSNATRule (ip : String) : Iptables.Rule where
  matches_ := [.source (ip ++ "/32")]
  target   := .accept

def markRule (linkName : String) (mark : Int) : Iptables.Rule where
  matches_ := [.inInterface linkName]
  target   := .setMark mark

def snatRule (mark : Int) (ip : String) : Iptables.Rule where
  matches_ := [.outInterface hostLinkName, .connmark mark]
  target   := .snat ip

end Chains

def ensureIPTablesChain (ns : Space) (targetChain sourceChain jumpRuleComment : String)
    (chainRules : List Iptables.Rule) : M Unit := do
  wrapError ("failed to ensure chain " ++ targetChain ++ " in table nat: ") <|
    request (.ensureChain ns targetChain)
  wrapError ("failed to ensure jump rule from chain " ++ sourceChain ++ " to chain " ++ targetChain ++
      " in table nat: ") <|
    request (.ensureRule ns sourceChain (Chains.jumpRule jumpRuleComment targetChain))
  if chainRules = [] then
    ret ()
  else
    wrapError ("failed to restore rules in chain " ++ targetChain ++ " in table nat: ") <|
      request (.restoreAll ns targetChain chainRules)

-- A target chain with its source chain and the comment of the jump rule.
structure ChainRef where
  target  : String
  source  : String
  comment : String

def removeIPTablesChain (ns : Space) (existingChains : List String) (c : ChainRef) : M Unit :=
  if c.target ∈ existingChains then do
    wrapError ("failed to delete jump rule from chain " ++ c.source ++ " to chain " ++ c.target ++
        " in table nat: ") <|
      request (.deleteRule ns c.source (Chains.jumpRule c.comment c.target))
    wrapError "failed to restore iptables table nat: " <|
      request (.removeChain ns c.target)
  else
    ret ()

def removeIPTablesChains (ns : Space) (chains : List ChainRef) : M Unit := do
  let existingChains ← wrapError "failed to save iptables data for table nat: " <|
    request (.saveInto ns)
  forEach chains (removeIPTablesChain ns existingChains)

-- What `updateGatewayNodeStatus` makes of an existing status, or none if it need not be changed.

def addGatewayConfiguration (g : GatewayConfiguration) (st : GatewayStatus) : Option GatewayStatus :=
  if st.readyGatewayConfigurations.any (·.interfaceName = g.interfaceName) then none
  else some { st with readyGatewayConfigurations := st.readyGatewayConfigurations ++ [g] }

def removeGatewayConfiguration (interfaceName : String) (st : GatewayStatus) :
    Option GatewayStatus :=
  if st.readyGatewayConfigurations.any (·.interfaceName = interfaceName) ∨
      st.readyPeerConfigurations.any (·.interfaceName = interfaceName) then
    some {
      readyGatewayConfigurations :=
        st.readyGatewayConfigurations.eraseP (·.interfaceName = interfaceName)
      readyPeerConfigurations :=
        st.readyPeerConfigurations.filter (·.interfaceName ≠ interfaceName) }
  else none

def writeStatus : Option GatewayStatus → M Unit
  | none    => ret ()
  | some st => wrapError "failed to update gwStatus object: " (request (.updateStatus st))

def createStatus (st : GatewayStatus) : M Unit := do
  wrapError "failed to get current node: " (request .getNode)
  wrapError "failed to create gwStatus object: " (request (.createStatus st))

def updateGatewayNodeStatus (gwConfig : GatewayConfiguration) (add : Bool) : M Unit := do
  match ← attempt (request .getStatus) with
  | .error e =>
    if !e.isNotFound then throw e
    else if !add then ret ()
    else createStatus { readyGatewayConfigurations := [gwConfig] }
  | .ok st =>
    if add then writeStatus (addGatewayConfiguration gwConfig st)
    else writeStatus (removeGatewayConfiguration gwConfig.interfaceName st)

variable (m : Metadata)

def getWireguardPrivateKey (gwConfig : StaticGatewayConfiguration) : M Key := do
  let ref ← orError Err.nilDereference gwConfig.status.gatewayServerProfile.privateKeySecretRef
  let secret ← wrapError "failed to retrieve wireguard private key secret: " <|
    request (.getSecret ⟨ref.namespace_, ref.name⟩)
  let wgPrivateKey ← orError
    (.errorf ("failed to retrieve private key from secret " ++ ref.namespace_ ++ "/" ++ ref.name))
    (secret.data.lookup wireguardPrivateKeyName)
  orError (.errorf "wgtypes: failed to parse base64-encoded key") (Key.parse wgPrivateKey)

def getVMIP (gwConfig : StaticGatewayConfiguration) : M (String × String) := do
  let vmConfig ← request (.getVMConfig gwConfig.meta_.key)
  ofExcept (vmIPOf m vmConfig)

def eth0Addresses : M (List Addr) := do
  let _ ← wrapError "failed to retrieve link eth0: " (request (.linkByName .host "eth0"))
  wrapError "failed to retrieve IP addresses for eth0: " (request (.addrList .host "eth0"))

def removeIlbIP (addresses : List Addr) : M Unit :=
  forEach addresses fun address =>
    if address.label = ilbIPLabel then
      wrapError "failed to delete ILB IP from eth0: " (request (.addrDel .host "eth0" address))
    else ret ()

def addIlbIP (ilbIP : String) (subnetPrefix : Int) (addresses : List Addr) : M Unit := do
  let ilbIpCidr := ilbIP ++ "/" ++ toString subnetPrefix
  let ilbIpNet ← orError (.errorf ("failed to parse ILB IP address: " ++ ilbIpCidr))
    (parseIPNet ilbIpCidr)
  if addresses.any (·.net.ip = ilbIpNet.ip) then
    ret ()
  else
    wrapError "failed to add ILB IP to eth0: " <|
      request (.addrAdd .host "eth0" { net := ilbIpNet, label := ilbIPLabel })

def reconcileIlbIPOnHost (ilbIP : String) : M Unit := do
  let _ ← wrapError "failed to retrieve link eth0: " (request (.linkByName .host "eth0"))
  let subnetPrefix ← orError (.errorf "imds does not provide subnet information about the node")
    m.subnetPrefix
  let subnetPrefix ← orError (.errorf "failed to retrieve and parse prefix: ") (atoi subnetPrefix)
  let addresses ← wrapError "failed to retrieve IP addresses for eth0: " <|
    request (.addrList .host "eth0")
  if ilbIP = "" then removeIlbIP addresses else addIlbIP ilbIP subnetPrefix addresses

def removeSecondaryIpFromHost (ip : String) : M Unit := do
  let addresses ← eth0Addresses
  forEach addresses fun address =>
    if address.net.ip.text = ip then
      wrapError "failed to remove secondary ip from eth0: " <|
        request (.addrDel .host "eth0" address)
    else ret ()

def createWireguardLink (linkName linkAlias : String) : M Unit := do
  wrapError "failed to create wireguard link: " <|
    request (.linkAdd { name := linkName, alias_ := linkAlias, device := some {} })
  onFailure (do
    let _ ← wrapError "failed to get wireguard link in host namespace: " <|
      request (.linkByName .host linkName)
    wrapError "failed to move wireguard link to gateway namespace: " <|
      request (.linkSetNs linkName))
    (request (.linkDel .host linkName))

-- The address that every gateway link has.
def gwLinkAddr : Addr where
  net := (parseIPNet gatewayIP).getD default

-- Adds an address unless the link has it.
def ensureAddr (linkName : String) (addr : Addr) (listContext addContext : String) : M Unit := do
  let addrs ← wrapError listContext (request (.addrList .gateway linkName))
  if addrs.any (·.same addr) then ret ()
  else wrapError addContext (request (.addrAdd .gateway linkName addr))

def configureWireguardLink (linkName : String) (port : Int) (privateKey : Key) : M Unit := do
  let _ ← wrapError "failed to get wireguard link in gateway namespace after creation: " <|
    request (.linkByName .gateway linkName)
  ensureAddr linkName gwLinkAddr "failed to retrieve address list from wireguard link: "
    "failed to add wireguard link address: "
  wrapError "failed to set wireguard link up: " (request (.linkSetUp .gateway linkName))
  wrapError "failed to create wgctrl client: " (request .wgNew)
  let device ← wrapError "failed to get wireguard link configuration: " (request (.device linkName))
  if device.privateKey.text ≠ privateKey.text ∨ device.listenPort ≠ port then
    wrapError "failed to add peer to wireguard link: " <|
      request (.configureDevice linkName { privateKey := some privateKey, listenPort := some port })
  else
    ret ()

def reconcileWireguardLink (gwConfig : StaticGatewayConfiguration) (privateKey : Key) : M Unit := do
  let linkName := getWireguardInterfaceName gwConfig
  match ← attempt (request (.linkByName .gateway linkName)) with
  | .ok _    => ret ()
  | .error e =>
    if e.code = .linkNotFound then
      wrapError "failed to create wireguard link: " <|
        createWireguardLink linkName gwConfig.meta_.uid
    else
      throw (e.wrap "failed to get wireguard link in gateway namespace: ")
  configureWireguardLink linkName (port gwConfig) privateKey

def equalRoute (r₁ r₂ : Route) : Bool :=
  r₁.link = r₂.link ∧ r₁.scope = r₂.scope ∧
  r₁.dst.map (fun d => (d.ip, d.ones)) = r₂.dst.map (fun d => (d.ip, d.ones)) ∧ r₁.gw = r₂.gw

def addOrReplaceRoute (ns : Space) (route : Route) : M Unit := do
  let routes ← request (.routeList ns none)
  if routes.any (equalRoute · route) then ret () else request (.routeReplace ns route)

-- The network of a single address.
def hostNet (context ip : String) : M IPNet :=
  orError (.errorf context) ((parseCIDR (ip ++ "/32")).map (·.2))

-- Everything after the pair of links exists.
def connectVethPair (snatIP : String) : M Unit := do
  wrapError "failed to set veth link in host namespace up: " <|
    request (.linkSetUp .host hostVethLinkName)
  let snatIPNet ← hostNet ("failed to parse SNAT IP " ++ snatIP ++ "/32: ") snatIP
  let route : Route := { link := hostVethLinkName, scope := .universe, dst := some snatIPNet }
  wrapError ("failed to create route to SNAT IP " ++ snatIP ++ " via gateway interface: ") <|
    addOrReplaceRoute .host route
  onFailure (do
    match ← attempt (request (.linkByName .host hostLinkName)) with
    | .ok _ =>
      wrapError "failed to move veth peer link to gateway namespace: " <|
        request (.linkSetNs hostLinkName)
    | .error e =>
      if e.code = .linkNotFound then ret ()
      else throw (e.wrap "failed to get veth peer link in host namespace: "))
    (request (.routeDel .host route))

def reconcileVethPairInHost (snatIP : String) : M Unit := do
  match ← attempt (request (.linkByName .host hostVethLinkName)) with
  | .ok _    => connectVethPair snatIP
  | .error e =>
    if e.code = .linkNotFound then do
      wrapError "failed to add veth pair: " (request .vethAdd)
      onFailure (do
        let _ ← wrapError "failed to get veth link in host namespace after creation: " <|
          request (.linkByName .host hostVethLinkName)
        connectVethPair snatIP)
        (request (.linkDel .host hostVethLinkName))
    else
      throw (e.wrap "failed to get veth link in host namespace: ")

def reconcileVethPair (vmPrimaryIP vmSecondaryIP : String) : M Unit := do
  wrapError "failed to reconcile veth pair in host namespace: " <|
    reconcileVethPairInHost vmSecondaryIP
  let _ ← wrapError "failed to get host link in gateway namespace: " <|
    request (.linkByName .gateway hostLinkName)
  let snatIPNet ← hostNet
    ("failed to parse SNAT IP(" ++ vmSecondaryIP ++ "/32) for host interface: ") vmSecondaryIP
  ensureAddr hostLinkName { net := snatIPNet } "failed to retrieve address list from wireguard link: "
    "failed to add host link address in gateway namespace: "
  wrapError "failed to set host link up: " (request (.linkSetUp .gateway hostLinkName))
  let vmSnatCidr ← hostNet ("failed to parse CIDR " ++ vmPrimaryIP ++ "/32/32: ") vmPrimaryIP
  wrapError ("failed to create route to VM primary IP " ++ vmPrimaryIP ++ " via gateway interface: ") <|
    addOrReplaceRoute .gateway { link := hostLinkName, scope := .link, dst := some vmSnatCidr }
  wrapError ("failed to create default route via " ++ vmPrimaryIP ++ ": ") <|
    addOrReplaceRoute .gateway {
      link  := hostLinkName
      scope := .universe
      dst   := none
      gw    := (Parse.addr? vmPrimaryIP.toList).map (·.1) }

def configureGatewayNamespace (gwConfig : StaticGatewayConfiguration) (privateKey : Key)
    (vmPrimaryIP vmSecondaryIP : String) : M Unit := do
  wrapError "failed to get network namespace ns-static-egress-gateway: " (request .getNS)
  reconcileWireguardLink gwConfig privateKey
  reconcileVethPair vmPrimaryIP vmSecondaryIP
  let _ ← wrapError "failed to retrieve link lo: " (request (.linkByName .gateway "lo"))
  wrapError "failed to set lo up: " (request (.linkSetUp .gateway "lo"))
  let linkName := getWireguardInterfaceName gwConfig
  let mark ← ofExcept (getPacketMark linkName)
  ensureIPTablesChain .gateway (Chains.mark mark) Iptables.prerouting (Chains.markComment linkName)
    [Chains.markRule linkName mark]
  ensureIPTablesChain .gateway (Chains.snatOf mark) Iptables.postrouting (Chains.snatComment linkName)
    [Chains.snatRule mark vmSecondaryIP]

def reconcile (gwConfig : StaticGatewayConfiguration) : M Unit := do
  let privateKey ← getWireguardPrivateKey gwConfig
  reconcileIlbIPOnHost m gwConfig.status.gatewayServerProfile.ip
  let (vmPrimaryIP, vmSecondaryIP) ← getVMIP m gwConfig
  removeSecondaryIpFromHost vmSecondaryIP
  ensureIPTablesChain .host Chains.snat Iptables.postrouting Chains.noMasqueradeComment []
  ensureIPTablesChain .host (Chains.noSNAT vmSecondaryIP) Chains.snat
    (Chains.noSNATComment vmSecondaryIP) [Chains.noSNATRule vmSecondaryIP]
  configureGatewayNamespace gwConfig privateKey vmPrimaryIP vmSecondaryIP
  updateGatewayNodeStatus {
    staticGatewayConfiguration := gwConfig.meta_.key.text
    interfaceName              := getWireguardInterfaceName gwConfig } true
  request (.addGateway gwConfig.meta_.uid)

-- Everything after the link itself has been deleted.
def forgetLink (link : Link) : M Unit := do
  let mark ← ofExcept (getPacketMark link.name)
  wrapError ("failed to cleanup iptables rules for link " ++ link.name ++ " and mark " ++
      toString mark ++ ": ") <|
    removeIPTablesChains .gateway [
      ⟨Chains.mark mark, Iptables.prerouting, Chains.markComment link.name⟩,
      ⟨Chains.snatOf mark, Iptables.postrouting, Chains.snatComment link.name⟩]
  updateGatewayNodeStatus { interfaceName := link.name } false
  request (.removeGateway link.alias_)

def ensureDeleteLink (link : Link) : M Unit := do
  wrapError ("failed to delete link " ++ link.name ++ ": ") (request (.linkDel .gateway link.name))
  forgetLink link

-- Everything after the address itself has been deleted.
def forgetIP (ipNet : IPNet) : M Unit := do
  let ip := ipNet.ip.text
  let routes ← wrapError "failed to list routes in host namespace: " <|
    request (.routeList .host none)
  forEach routes fun route =>
    if route.dst.any (·.ip = ipNet.ip) then
      wrapError ("failed to delete route to " ++ ip ++ ": ") (request (.routeDel .host route))
    else ret ()
  wrapError ("failed to clean up no-sNAT rule for vmSecondaryIP " ++ ip ++ ": ") <|
    removeIPTablesChains .host [⟨Chains.noSNAT ip, Chains.snat, Chains.noSNATComment ip⟩]

def ensureDeleteIP (addr : Addr) : M Unit := do
  let _ ← wrapError "failed to get host link in gateway namespace: " <|
    request (.linkByName .gateway hostLinkName)
  wrapError ("failed to delete IP " ++ addr.net.ip.text ++ ": ") <|
    request (.addrDel .gateway hostLinkName addr)
  forgetIP addr.net

section CleanUp

variable [CaseFold]

def isActive (gwConfig : StaticGatewayConfiguration) : Bool :=
  applyToNode m gwConfig && !gwConfig.meta_.deleting

-- The names of the links and the addresses to be kept. They are both empty without any active
-- gateway. A configuration whose addresses cannot be determined is skipped.
structure Existing where
  wgLinks : List String := []
  ips     : List String := []

def collectExisting (acc : Existing) (gwConfig : StaticGatewayConfiguration) : M Existing :=
  if isActive m gwConfig then do
    match ← attempt (getVMIP m gwConfig) with
    | .error _              => ret acc
    | .ok (_, vmSecondaryIP) => ret {
        wgLinks := acc.wgLinks ++ [getWireguardInterfaceName gwConfig]
        ips     := acc.ips ++ [vmSecondaryIP] }
  else ret acc

def isOrphanedLink (existing : Existing) (link : Link) : Bool :=
  hasPrefix link.name wireguardLinkNamePrefix && link.name ∉ existing.wgLinks

def isOrphanedIP (existing : Existing) (addr : Addr) : Bool :=
  addr.net.ip.text ∉ existing.ips

-- A failed removal is logged, and the loop continues.
def removeOrphans {α : Type} (isOrphaned : α → Bool) (remove : α → M Unit) (xs : List α) : M Unit :=
  forEach xs fun x => if isOrphaned x then do let _ ← attempt (remove x); ret () else ret ()

def removeLeftovers : M Unit := do
  wrapError "failed to cleanup ILB IP on host: " (reconcileIlbIPOnHost m "")
  wrapError "failed to delete iptables chain EGRESS-GATEWAY-SNAT: " <|
    removeIPTablesChains .host [⟨Chains.snat, Iptables.postrouting, Chains.noMasqueradeComment⟩]

def removeOrphaned (existing : Existing) (links : List Link) (ips : List Addr) : M Unit := do
  removeOrphans (isOrphanedIP existing) ensureDeleteIP ips
  removeOrphans (isOrphanedLink existing) ensureDeleteLink links
  if existing.wgLinks = [] then removeLeftovers m else ret ()

def cleanUp : M Unit := do
  let gwConfigs ← wrapError "failed to list staticGatewayConfigurations: " (request .listGwConfigs)
  let existing ← forFold gwConfigs {} (collectExisting m)
  wrapError "failed to get network namespace ns-static-egress-gateway: " (request .getNS)
  let links ← wrapError "failed to list links in gateway namespace: " (request (.linkList .gateway))
  let _ ← wrapError "failed to get host link in gateway namespace: " <|
    request (.linkByName .gateway hostLinkName)
  let ips ← wrapError "failed to list addresses on host0 in gateway namespace: " <|
    request (.addrList .gateway hostLinkName)
  removeOrphaned m existing links ips

-- `Reconcile`. An empty key is an event of the clean-up ticker.
def reconcileRequest (key : NamespacedName) : M Unit :=
  if key.namespace_ = "" ∧ key.name = "" then
    wrapError "failed to clean up orphaned network configurations: " (cleanUp m)
  else do
    match ← attempt (request (.getGwConfig key)) with
    | .error e     => if e.isNotFound then ret () else throw e
    | .ok gwConfig =>
      if !isReady gwConfig || !applyToNode m gwConfig then ret ()
      else if gwConfig.meta_.deleting then
        wrapError ("failed to clean up deleted StaticGatewayConfiguration " ++
          gwConfig.meta_.key.text ++ ": ") (cleanUp m)
      else reconcile m gwConfig

end CleanUp

namespace Sample

-- Gateways on a node whose gateway namespace has just been created.

def metadata : Metadata where
  computerName      := "node0"
  tags              := "aks-managed-poolName:gateway"
  vmScaleSetName    := "vmss"
  resourceGroupName := "rg"
  subnetPrefix      := some "24"

def gwConfig (name uid : String) (port : Int) : StaticGatewayConfiguration where
  meta_  := { key := ⟨"default", name⟩, uid := uid }
  spec   := { gatewayNodepoolName := "gateway" }
  status := {
    egressIpPrefix       := "20.0.0.0/31"
    gatewayServerProfile := {
      ip                  := "10.0.0.9"
      port                := port
      publicKey           := "key"
      privateKeySecretRef := some ⟨"default", name⟩ } }

def vmConfig (name ip : String) : GatewayVMConfiguration where
  meta_  := { key := ⟨"default", name⟩, uid := "vm-" ++ name }
  spec   := { gatewayNodepoolName := "gateway" }
  status := some { gatewayVMProfiles := [⟨"node0", "10.0.0.4", ip⟩] }

def secret (name : String) : Secret where
  meta_ := { key := ⟨"default", name⟩, uid := "secret-" ++ name }
  data  := [(wireguardPrivateKeyName, Key.zero.text)]

def node (api : Api) : Node where
  host    := { links := [{ name := "eth0" }] }
  gateway := some { links := [{ name := "lo" }] }
  api     := api

end Sample

end Daemon
