import EgressGateway.Daemon.StaticGateway

-- `PodEndpointReconciler`. Go's maps are lists of entries here, and a loop over a map is a loop over
-- that list.

open Kubernetes Text Net Program

namespace Daemon

namespace PodEndpoints

-- Assigns a value to a key of a map.
def assign {κ α : Type} [DecidableEq κ] (k : κ) (a : α) (entries : List (κ × α)) : List (κ × α) :=
  entries.filter (·.1 ≠ k) ++ [(k, a)]

-- The peers of a status by their public keys.
def peerMapOf (ps : List PeerConfiguration) : List (String × PeerConfiguration) :=
  ps.foldl (fun entries p => assign p.publicKey p entries) []

def addPeers (ps : List PeerConfiguration) (st : GatewayStatus) : Option GatewayStatus :=
  let new := ps.filter fun p => !(peerMapOf st.readyPeerConfigurations).any (·.1 = p.publicKey)
  if new = [] then none
  else some { st with
    readyPeerConfigurations :=
      (new.foldl (fun entries p =>
        if entries.any (·.1 = p.publicKey) then entries else assign p.publicKey p entries)
        (peerMapOf st.readyPeerConfigurations)).map (·.2) }

def removePeers (ps : List PeerConfiguration) (st : GatewayStatus) : Option GatewayStatus :=
  let entries := peerMapOf st.readyPeerConfigurations
  if entries.any (fun e => ps.any (·.publicKey = e.1)) then
    some { st with
      readyPeerConfigurations :=
        (entries.filter fun e => !ps.any (·.publicKey = e.1)).map (·.2) }
  else none

def updateGatewayNodeStatus (peerConfigs : List PeerConfiguration) (add : Bool) : M Unit := do
  match ← attempt (request .getStatus) with
  | .error e =>
    if !e.isNotFound then throw e
    else if !add then ret ()
    else createStatus { readyPeerConfigurations := peerConfigs }
  | .ok st =>
    if add then writeStatus (addPeers peerConfigs st) else writeStatus (removePeers peerConfigs st)

def addWireguardPeerRoutes (linkName podIpAddress : String) : M Unit := do
  let _ ← wrapError "failed to retrieve wireguard device: " <|
    request (.linkByName .gateway linkName)
  let (_, dst) ← orError (.errorf ("failed to parse pod ip net " ++ podIpAddress ++ ": "))
    (parseCIDR podIpAddress)
  wrapError "failed to add route: " <|
    request (.routeReplace .gateway { link := linkName, scope := .link, dst := some dst })

def reconcile (gwConfig : StaticGatewayConfiguration) (podEndpoint : PodEndpoint) : M Unit := do
  let linkName := getWireguardInterfaceName gwConfig
  wrapError "failed to get gateway network namespace ns-static-egress-gateway: " (request .getNS)
  wrapError "failed to create wgctrl client: " (request .wgNew)
  let podPublicKey ← orError (.errorf "failed to parse pod wireguard public key: ")
    (Key.parse podEndpoint.podPublicKey)
  let (_, podIPNet) ← orError (.errorf "failed to parse pod IPv4 address: ")
    (parseCIDR podEndpoint.podIpAddress)
  wrapError "failed to add peer to wireguard device: " <|
    request (.configureDevice linkName {
      peers := [{ publicKey := podPublicKey, allowedIPs := [podIPNet] }] })
  wrapError "failed to add pod route: " (addWireguardPeerRoutes linkName podEndpoint.podIpAddress)
  updateGatewayNodeStatus [{
    podEndpoint   := podEndpoint.key.text
    interfaceName := linkName
    publicKey     := podEndpoint.podPublicKey }] true

-- The routes are compared by the text of their address only. A route without destination is
-- dereferenced.
def deleteWireguardPeerRoute (podIPToDel : List String) (route : Route) : M Unit :=
  match route.dst with
  | none     => throw Err.nilDereference
  | some dst =>
    if dst.ip.text ∈ podIPToDel then
      wrapError "failed to delete route: " (request (.routeDel .gateway route))
    else ret ()

def deleteWireguardPeerRoutes (wglinkName : String) (podIPToDel : List String) : M Unit := do
  let _ ← wrapError ("failed to get wglink " ++ wglinkName ++ ": ") <|
    request (.linkByName .gateway wglinkName)
  let routes ← wrapError ("failed to list routes on wglink " ++ wglinkName ++ ": ") <|
    request (.routeList .gateway (some wglinkName))
  forEach routes (deleteWireguardPeerRoute podIPToDel)

-- The peers of a device that are in no entry of the map.
def orphanedPeers (keys : List String) (device : Device) : List Peer :=
  device.peers.filter (·.publicKey.text ∉ keys)

def cleanUpWgLink (wglinkName : String) (keys : List String) : M (List PeerConfiguration) := do
  wrapError "failed to get gateway network namespace ns-static-egress-gateway: " (request .getNS)
  wrapError "failed to create wgctrl client: " (request .wgNew)
  let device ← wrapError "failed to get wireguard link configuration: " <|
    request (.device wglinkName)
  let peers := orphanedPeers keys device
  if peers = [] then ret []
  else
    wrapError ("failed to delete pod route on wglink " ++ wglinkName ++ ": ") <|
      deleteWireguardPeerRoutes wglinkName (peers.flatMap (·.allowedIPs.map (·.ip.text)))
    wrapError ("failed to remove peers from wireguard device " ++ wglinkName ++ ": ") <|
      request (.configureDevice wglinkName {
        peers := peers.map fun p => { publicKey := p.publicKey, remove := true } })
    ret (peers.map fun p => { publicKey := p.publicKey.text })

section CleanUp

variable [CaseFold] (m : Metadata)

def gatewayKey (namespace_ name : String) : String :=
  toLower (namespace_ ++ "/" ++ name)

-- The links of the configurations that are not being deleted. The links of the others are deleted
-- by the other reconciler.
def gwConfigMap (gwConfigs : List StaticGatewayConfiguration) : List (String × String) :=
  (gwConfigs.filter (isActive m)).foldl (fun entries c =>
    assign (gatewayKey c.meta_.key.namespace_ c.meta_.key.name) (getWireguardInterfaceName c) entries)
    []

-- The public keys, as they are written in the endpoints, that belong to a link.
def peerKeys (gwConfigs : List (String × String)) (podEndpoints : List PodEndpoint)
    (wglinkName : String) : List String :=
  (podEndpoints.filter fun e =>
    gwConfigs.lookup (gatewayKey e.key.namespace_ e.staticGatewayConfiguration) = some wglinkName).map
    (·.podPublicKey)

def cleanUp : M Unit := do
  let podEndpoints ← wrapError "failed to list PodEndpoints: " (request .listPodEndpoints)
  let gwConfigs ← wrapError "failed to list staticGatewayConfigurations: " (request .listGwConfigs)
  let gwConfigs := gwConfigMap m gwConfigs
  let peersToDelete ← forFold gwConfigs [] fun peersToDelete (_, wglinkName) => do
    match ← attempt (cleanUpWgLink wglinkName (peerKeys gwConfigs podEndpoints wglinkName)) with
    | .error _  => ret peersToDelete
    | .ok peers => ret (peersToDelete ++ peers)
  wrapError "failed to update gateway node status: " (updateGatewayNodeStatus peersToDelete false)

-- `Reconcile`. After a clean-up the source goes on with the empty key, which no object has.
def reconcileRequest (key : NamespacedName) : M Unit := do
  if key.namespace_ = "" ∧ key.name = "" then
    wrapError "failed to clean up orphaned wireguard peers: " (cleanUp m)
  match ← attempt (request (.getPodEndpoint key)) with
  | .error e        => if e.isNotFound then ret () else throw e
  | .ok podEndpoint =>
    let gwConfig ← wrapError ("failed to fetch StaticGatewayConfiguration(" ++
        podEndpoint.key.namespace_ ++ "/" ++ podEndpoint.staticGatewayConfiguration ++ "): ") <|
      request (.getGwConfig ⟨podEndpoint.key.namespace_, podEndpoint.staticGatewayConfiguration⟩)
    if applyToNode m gwConfig then reconcile gwConfig podEndpoint else ret ()

end CleanUp

end PodEndpoints

end Daemon
