import EgressGateway.Manager.Client
import EgressGateway.Manager.LoadBalancer

-- `GatewayLBConfigurationReconciler`

open Kubernetes Program

namespace Manager

variable [CaseFold] (S : Settings)

namespace LBController

def lbConfigFinalizerName := "gateway-lb-configuration-controller.microsoft.com"

-- The owner hands its specification down.
def adoptVMConfig (lbConfig : GatewayLBConfiguration) (vmConfig : GatewayVMConfiguration) :
    M GatewayVMConfiguration := do
  let owned ← ofExcept (setControllerReference lbConfig.meta_ vmConfig.meta_)
  ret { vmConfig with meta_ := owned, spec := lbConfig.spec }

-- A configuration that is about to be deleted has nothing to report any more.
def collectVMStatus (vmConfig : GatewayVMConfiguration) (lbConfig : GatewayLBConfiguration) :
    GatewayLBConfiguration :=
  match vmConfig.meta_.deleting, vmConfig.status with
  | false, some status =>
    { lbConfig with
      status := some { lbConfig.status.getD {} with egressIpPrefix := status.egressIpPrefix } }
  | _,     _           => lbConfig

def reconcileGatewayVMConfig (lbConfig : GatewayLBConfiguration) : M GatewayLBConfiguration := do
  let (_, vmConfig) ← createOrPatch .vmConfig { meta_ := named lbConfig.meta_.key, spec := {} }
    (adoptVMConfig lbConfig)
  ret (collectVMStatus vmConfig lbConfig)

def withFrontend (lbConfig : GatewayLBConfiguration) (frontend : String × Int) : GatewayLBConfiguration :=
  { lbConfig with
    status := some { lbConfig.status.getD {} with
      frontendIp := frontend.1
      serverPort := frontend.2 } }

-- Everything up to the final write: the object at the beginning, and as it should be then.
def compute (lbConfig : GatewayLBConfiguration) :
    M (GatewayLBConfiguration × GatewayLBConfiguration) := do
  let existing ← ensureFinalizer .lbConfig lbConfigFinalizerName lbConfig
  let frontend ← reconcileLBRule S existing true
  let lbConfig ← reconcileGatewayVMConfig existing
  ret (existing, withFrontend lbConfig frontend)

def reconcile (lbConfig : GatewayLBConfiguration) : M (Observed GatewayLBConfiguration) :=
  observed do
    let (existing, lbConfig) ← compute S lbConfig
    storeStatus .lbConfig existing lbConfig
    ret (.ok lbConfig)

-- The load balancer is only touched once the virtual machine configuration is gone.
def ensureDeleted (lbConfig : GatewayLBConfiguration) : M Unit :=
  if !containsFinalizer lbConfig.meta_ lbConfigFinalizerName then
    ret ()
  else do
    match ← attempt (request (.delete .vmConfig lbConfig.meta_.key)) with
    | .ok _    => ret ()
    | .error e =>
      if !e.isNotFound then
        throw e
      else do
        let _ ← reconcileLBRule S lbConfig false
        let _ ← releaseFinalizer .lbConfig lbConfigFinalizerName lbConfig
        ret ()

def Reconcile (req : NamespacedName) : M Unit := do
  match ← attempt (request (.get .lbConfig req)) with
  | .error e     => if e.isNotFound then ret () else throw e
  | .ok lbConfig =>
    let _ ← request (.get .gwConfig req)
    if lbConfig.meta_.deleting then
      ensureDeleted S lbConfig
    else do
      let o ← reconcile S lbConfig
      let _ ← ofExcept o.result
      ret ()

end LBController

end Manager
