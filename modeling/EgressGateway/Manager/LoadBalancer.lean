import EgressGateway.Manager.Pool

open Kubernetes Azure Text Program

namespace Manager

variable [CaseFold]

def wireguardPortStart : Int := 6000
def wireguardPortEnd   : Int := 7000
def gatewayHealthProbeEndpoint := "/gw/"

structure LBPropertyNames where
  frontendName : String
  backendName  : String
  lbRuleName   : String
  probeName    : String

variable (S : Settings)

def getLBPropertyName (lbConfig : GatewayLBConfiguration) (ap : GatewayPool) :
    Except Err LBPropertyNames :=
  if ap.getUniqueID S = "" then
    .error <| Err.errorf <| "gateway node pool does not have UID. gatewayPoolName=" ++
      lbConfig.spec.gatewayNodepoolName ++
      ", vmssName=" ++ lbConfig.spec.gatewayVmssProfile.vmssName ++
      ", vmssResourceGroup=" ++ lbConfig.spec.gatewayVmssProfile.vmssResourceGroup
  else
    .ok {
      frontendName := ap.getUniqueID S
      backendName  := ap.getUniqueID S
      lbRuleName   := lbConfig.meta_.uid
      probeName    := lbConfig.meta_.uid }

def getGatewayLB : M (Option LoadBalancer) := do
  match ← attempt (request .getLB) with
  | .ok lb   => ret (some lb)
  | .error e => if e.isNotFound then ret none else throw e

def findFrontendIP (frontends : List FrontendIPConfiguration) (frontendName : String) :
    Except Err String :=
  match frontends.find? (equalFold ·.name frontendName) with
  | none   => .ok ""
  | some f =>
    match f.properties with
    | some ⟨some .ipv4, _, _, some ip⟩ => .ok ip
    | _ => .error <| Err.errorf <|
        "found frontend(" ++ frontendName ++ ") with unexpected configuration"

def getExpectedLBRule (lbRuleName frontendID backendID probeID : String) : LoadBalancingRule where
  name := lbRuleName
  properties := some {
    protocol                := some .udp
    enableFloatingIP        := some true
    frontendIPConfiguration := some ⟨some frontendID⟩
    backendAddressPool      := some ⟨some backendID⟩
    probe                   := some ⟨some probeID⟩
    frontendPort            := none
    backendPort             := none }

def getExpectedLBProbe (probeName : String) (lbProbePort : Int) (lbConfig : GatewayLBConfiguration) :
    Probe where
  name := probeName
  properties := some {
    requestPath := some (gatewayHealthProbeEndpoint ++ gatewayUID)
    protocol    := some .http
    port        := some lbProbePort }
where
  -- There should be only one owner reference.
  gatewayUID := (lbConfig.meta_.ownerReferences.find? (·.name = lbConfig.meta_.key.name)).elim "" (·.uid)

def getExpectedFrontendConfig (frontendName : String) (subnetID : Option String) :
    FrontendIPConfiguration where
  name := frontendName
  id   := none
  properties := some {
    privateIPAddressVersion   := some .ipv4
    privateIPAllocationMethod := some .dynamic
    subnet                    := some ⟨subnetID⟩
    privateIPAddress          := none }

def getExpectedBackendPool (backendPoolName : String) : BackendAddressPool where
  name := backendPoolName
  id   := none

def equalSubResource : Option SubResource → Option SubResource → Bool
  | none,   none   => true
  | some s, some t => equalFold (val s.id) (val t.id)
  | _,      _      => false

def sameLBRuleConfig (lbRule₁ lbRule₂ : LoadBalancingRule) : Bool :=
  match lbRule₁.properties, lbRule₂.properties with
  | none,   none   => true
  | some p, some q =>
    equalSubResource p.frontendIPConfiguration q.frontendIPConfiguration &&
    equalSubResource p.backendAddressPool q.backendAddressPool &&
    equalSubResource p.probe q.probe &&
    val p.protocol == val q.protocol &&
    val p.enableFloatingIP == val q.enableFloatingIP
  | _, _ => false

-- The index into the occupancy array if `rule` belongs to the backend pool of the target rule.
def occupiedIndex (backendID : String) (rule : LoadBalancingRule) : Except Err (Option Nat) :=
  match rule.properties with
  | some ⟨_, _, _, some backend, _, frontendPort, backendPort⟩ =>
    if equalFold (val backend.id) backendID then
      match frontendPort, backendPort with
      | some p, some q =>
        if p ≠ q ∨ q < wireguardPortStart ∨ q ≥ wireguardPortEnd then
          .error (Err.errorf "selectPortForLBRule: found rule with invalid LB port")
        else
          .ok (some (q - wireguardPortStart).toNat)
      | _, _ => .error (Err.errorf "selectPortForLBRule: found rule with invalid LB port")
    else .ok none
  | _ => .ok none

def markPorts (backendID : String) : List LoadBalancingRule → List Bool → Except Err (List Bool)
  | [], ports => .ok ports
  | rule :: rules, ports =>
    match occupiedIndex backendID rule with
    | .error e       => .error e
    | .ok none       => markPorts backendID rules ports
    | .ok (some i)   =>
      if i < ports.length then
        markPorts backendID rules (ports.set i true)
      else
        .error { code := .panic, text := "index out of range" }

def selectPortForLBRule (targetRule : LoadBalancingRule) (lbRules : List LoadBalancingRule) :
    Except Err Int :=
  match targetRule.properties.bind (·.backendAddressPool) with
  | none         => .error Err.nilDereference
  | some backend =>
    match markPorts (val backend.id) lbRules
      (List.replicate (wireguardPortEnd - wireguardPortStart).toNat false) with
    | .error e  => .error e
    | .ok ports =>
      match ports.findIdx? (!·) with
      | some i => .ok (i + wireguardPortStart)
      | none   => .error (Err.errorf "selectPortForLBRule: No available ports")

-- The stages of `reconcileLBRule`. Each returns what becomes of its list and whether the load
-- balancer has to be updated.

def reconcileFrontend (names : LBPropertyNames) (needLB : Bool) (p : LoadBalancerProperties) :
    M (String × List FrontendIPConfiguration × Bool) := do
  let frontendIP ← ofExcept (findFrontendIP p.frontendIPConfigurations names.frontendName)
  if frontendIP = "" ∧ needLB then
    let subnet ← request .getSubnet
    let frontend := getExpectedFrontendConfig names.frontendName subnet.id
    ret (frontendIP, p.frontendIPConfigurations ++ [frontend], true)
  else
    ret (frontendIP, p.frontendIPConfigurations, false)

def findBackend (backendName backendID : String) : List BackendAddressPool → Except Err Bool
  | []            => .ok false
  | pool :: pools =>
    if equalFold pool.name backendName then
      match pool.id with
      | none    => .error Err.nilDereference
      | some id => if equalFold id backendID then .ok true else findBackend backendName backendID pools
    else findBackend backendName backendID pools

def reconcileBackend (names : LBPropertyNames) (needLB : Bool) (p : LoadBalancerProperties) :
    Except Err (List BackendAddressPool × Bool) :=
  match findBackend names.backendName (S.az.getLBBackendAddressPoolID names.backendName)
    p.backendAddressPools with
  | .error e  => .error e
  | .ok found =>
    if !found && needLB then
      .ok (p.backendAddressPools ++ [getExpectedBackendPool names.backendName], true)
    else
      .ok (p.backendAddressPools, false)

def withPort (rule : LoadBalancingRule) (port : Int) : LoadBalancingRule :=
  { rule with
    properties := rule.properties.map fun p =>
      { p with frontendPort := some port, backendPort := some port } }

def createRule (expected : LoadBalancingRule) (lbRules : List LoadBalancingRule) :
    Except Err (List LoadBalancingRule × Int × Bool) :=
  match selectPortForLBRule expected lbRules with
  | .error e => .error e
  | .ok port => .ok (lbRules ++ [withPort expected port], port, true)

def ensureRule (expected : LoadBalancingRule) (lbRules : List LoadBalancingRule) :
    Except Err (List LoadBalancingRule × Int × Bool) :=
  match lbRules.find? (equalFold ·.name expected.name) with
  | none      => createRule expected lbRules
  | some rule =>
    match rule.properties with
    | none   => createRule expected (lbRules.eraseP (equalFold ·.name expected.name))
    | some p =>
      if sameLBRuleConfig rule expected then
        .ok (lbRules, val p.frontendPort, false)
      else
        createRule expected (lbRules.eraseP (equalFold ·.name expected.name))

-- The source iterates backwards, so the tail is dealt with first. The counter only sees the rules
-- that stay.
def dropRules (lbRuleName frontendID : String) :
    List LoadBalancingRule → Except Err (List LoadBalancingRule × Nat × Bool)
  | []            => .ok ([], 0, false)
  | rule :: rules =>
    match dropRules lbRuleName frontendID rules with
    | .error e                         => .error e
    | .ok (rules, ruleRefCnt, dropped) =>
      if equalFold rule.name lbRuleName then
        .ok (rules, ruleRefCnt, true)
      else
        match rule.properties.bind (·.frontendIPConfiguration) with
        | none          => .error Err.nilDereference
        | some frontend =>
          if equalFold (val frontend.id) frontendID then
            .ok (rule :: rules, ruleRefCnt + 1, dropped)
          else
            .ok (rule :: rules, ruleRefCnt, dropped)

-- A probe without properties is dropped and then dereferenced.
def ensureProbe (expected : Probe) (probes : List Probe) : Except Err (List Probe × Bool) :=
  match probes.find? (equalFold ·.name expected.name) with
  | none       => .ok (probes ++ [expected], true)
  | some probe =>
    match probe.properties, expected.properties with
    | some p, some q =>
      if val p.requestPath ≠ val q.requestPath ∨ val p.port ≠ val q.port then
        .ok (replaced, true)
      else
        match p.protocol, q.protocol with
        | some p, some q => if p ≠ q then .ok (replaced, true) else .ok (probes, false)
        | _,      _      => .error Err.nilDereference
    | _, _ => .error Err.nilDereference
where
  replaced := probes.eraseP (equalFold ·.name expected.name) ++ [expected]

-- Removes the first match, and reports whether there was one.
def dropFirst {α : Type} (p : α → Bool) (xs : List α) : List α × Bool :=
  (xs.eraseP p, xs.any p)

def dropProbe (probeName : String) : List Probe → List Probe × Bool :=
  dropFirst fun probe => equalFold probe.name probeName

def dropFrontend (frontendID : String) :
    List FrontendIPConfiguration → List FrontendIPConfiguration × Bool :=
  dropFirst fun frontend => equalFold (val frontend.id) frontendID

def dropBackend (backendID : String) : List BackendAddressPool → List BackendAddressPool × Bool :=
  dropFirst fun backend => equalFold (val backend.id) backendID

-- The load balancer as `reconcileLBRule` edits it before it is written back.
structure Draft where
  lb         : LoadBalancer
  properties : LoadBalancerProperties
  updateLB   : Bool
  frontendIP : String

def newLB : LoadBalancer where
  name       := S.az.lbName
  location   := S.az.location
  properties := some {}

-- Everything up to the treatment of the rules, which is the same for both values of `needLB`.
def openDraft (lbConfig : GatewayLBConfiguration) (needLB : Bool) (lb : LoadBalancer)
    (updateLB : Bool) : M (LBPropertyNames × Draft) := do
  let agentPool ← loadLBPool lbConfig.spec
  let names ← ofExcept (getLBPropertyName S lbConfig agentPool)
  match lb.properties with
  | none   => throw (Err.errorf "lb property is empty")
  | some p =>
    let (frontendIP, frontends, newFrontend) ← reconcileFrontend names needLB p
    let (backends, newBackend) ← ofExcept (reconcileBackend S names needLB p)
    ret (names, {
      lb         := lb
      properties := { p with frontendIPConfigurations := frontends, backendAddressPools := backends }
      updateLB   := updateLB || newFrontend || newBackend
      frontendIP := frontendIP })

def expectedLBRule (names : LBPropertyNames) : LoadBalancingRule :=
  getExpectedLBRule names.lbRuleName
    (S.az.getLBFrontendIPConfigurationID names.frontendName)
    (S.az.getLBBackendAddressPoolID names.backendName)
    (S.az.getLBProbeID names.probeName)

def expectedLBProbe (names : LBPropertyNames) (lbConfig : GatewayLBConfiguration) : Probe :=
  getExpectedLBProbe names.probeName S.lbProbePort lbConfig

-- The load balancer that is sent to Azure.
def Draft.toLB (d : Draft) : LoadBalancer :=
  { d.lb with properties := some d.properties }

-- `needLB` is true.
def addRule (lbConfig : GatewayLBConfiguration) (names : LBPropertyNames) (d : Draft) :
    Except Err (Draft × Int) :=
  match ensureRule (expectedLBRule S names) d.properties.loadBalancingRules with
  | .error e                    => .error e
  | .ok (rules, lbPort, newRule) =>
    match ensureProbe (expectedLBProbe S names lbConfig) d.properties.probes with
    | .error e            => .error e
    | .ok (probes, newProbe) =>
      .ok ({ d with
        properties := { d.properties with loadBalancingRules := rules, probes := probes }
        updateLB   := d.updateLB || newRule || newProbe }, lbPort)

-- `needLB` is false.
def removeRule (names : LBPropertyNames) (d : Draft) : Except Err (Draft × Bool) :=
  match dropRules names.lbRuleName (S.az.getLBFrontendIPConfigurationID names.frontendName)
    d.properties.loadBalancingRules with
  | .error e                         => .error e
  | .ok (rules, ruleRefCnt, dropped) =>
    let (probes, droppedProbe) := dropProbe names.probeName d.properties.probes
    let d := { d with
      properties := { d.properties with loadBalancingRules := rules, probes := probes }
      updateLB   := d.updateLB || dropped || droppedProbe }
    .ok (d, ruleRefCnt == 0)

def removeFrontend (names : LBPropertyNames) (d : Draft) : Draft :=
  let (frontends, droppedFrontend) :=
    dropFrontend (S.az.getLBFrontendIPConfigurationID names.frontendName)
      d.properties.frontendIPConfigurations
  let (backends, droppedBackend) :=
    dropBackend (S.az.getLBBackendAddressPoolID names.backendName) d.properties.backendAddressPools
  { d with
    properties := { d.properties with
      frontendIPConfigurations := frontends
      backendAddressPools      := backends }
    updateLB := d.updateLB || droppedFrontend || droppedBackend }

def writeRule (names : LBPropertyNames) (d : Draft) (lbPort : Int) : M (String × Int) := do
  if d.updateLB then
    let updatedLB ← request (.createOrUpdateLB d.toLB)
    if d.frontendIP = "" then
      match updatedLB.properties with
      | none   => throw Err.nilDereference
      | some p =>
        let frontendIP ← ofExcept (findFrontendIP p.frontendIPConfigurations names.frontendName)
        if frontendIP = "" then
          throw (Err.errorf "frontend ip not found even after updating lb")
        else
          ret (frontendIP, lbPort)
    else
      ret (d.frontendIP, lbPort)
  else
    ret (d.frontendIP, lbPort)

def writeRemoval (d : Draft) : M (String × Int) := do
  if d.updateLB then
    let _ ← request (.createOrUpdateLB d.toLB)
    ret (d.frontendIP, 0)
  else
    ret (d.frontendIP, 0)

def reconcileLBRuleOn (lbConfig : GatewayLBConfiguration) (needLB : Bool) (lb : LoadBalancer)
    (updateLB : Bool) : M (String × Int) := do
  let (names, d) ← openDraft S lbConfig needLB lb updateLB
  if needLB then
    let (d, lbPort) ← ofExcept (addRule S lbConfig names d)
    writeRule names d lbPort
  else
    let (d, deleteFrontend) ← ofExcept (removeRule S names d)
    if deleteFrontend then
      let d := removeFrontend S names d
      -- Without frontends there is nothing left that the load balancer could serve.
      if d.properties.frontendIPConfigurations.length = 0 then
        request .deleteLB
        ret ("", 0)
      else
        writeRemoval d
    else
      writeRemoval d

-- Returns the IP of the frontend and the port of the rule.
def reconcileLBRule (lbConfig : GatewayLBConfiguration) (needLB : Bool) : M (String × Int) := do
  match ← getGatewayLB with
  | some lb => reconcileLBRuleOn S lbConfig needLB lb false
  | none    =>
    if needLB then
      reconcileLBRuleOn S lbConfig needLB (newLB S) true
    else
      ret ("", 0)

end Manager
