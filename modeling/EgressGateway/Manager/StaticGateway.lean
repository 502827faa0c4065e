import EgressGateway.Manager.Client
import EgressGateway.Manager.Pool

-- `StaticGatewayConfigurationReconciler`

open Kubernetes Program

namespace Manager

variable [CaseFold] (S : Settings)

namespace GwController

def sgcFinalizerName := "static-gateway-configuration-controller.microsoft.com"
def wireguardPrivateKeyName := "PrivateKey"
def wireguardPublicKeyName := "PublicKey"
def owningSGCNamespaceLabel := "egressgateway.kubernetes.azure.com/owning-gateway-config-namespace"
def owningSGCNameLabel := "egressgateway.kubernetes.azure.com/owning-gateway-config-name"

-- `field.Invalid`, where the value is given as it is printed.
structure FieldError where
  path   : List String
  value  : String
  detail : String
  deriving DecidableEq

def FieldError.text (e : FieldError) : String :=
  ".".intercalate e.path ++ ": Invalid value: " ++ e.value ++ ": " ++ e.detail

-- The `%#v` of a profile.
def goSyntax (profile : GatewayVmssProfile) : String :=
  "v1alpha1.GatewayVmssProfile\x7bVmssResourceGroup:" ++ profile.vmssResourceGroup.quote ++
  ", VmssName:" ++ profile.vmssName.quote ++
  ", PublicIpPrefixSize:" ++ toString profile.publicIpPrefixSize ++ "\x7d"

def vmssProfileIsEmpty (spec : GatewaySpec) : Bool :=
  spec.gatewayVmssProfile.vmssResourceGroup = "" &&
  spec.gatewayVmssProfile.vmssName = "" &&
  spec.gatewayVmssProfile.publicIpPrefixSize = 0

def nodepoolError (spec : GatewaySpec) (detail : String) : FieldError where
  path   := ["spec", "gatewaynodepoolname"]
  value  := ("GatewayNodepoolName: " ++ spec.gatewayNodepoolName ++
    ", GatewayVmssProfile: " ++ goSyntax spec.gatewayVmssProfile).quote
  detail := detail

def profileError (field value detail : String) : FieldError where
  path   := ["spec", "gatewayvmssprofile", field]
  value  := value
  detail := detail

def validateProfile (profile : GatewayVmssProfile) : List FieldError :=
  (if profile.vmssResourceGroup = "" then
    [profileError "vmssresourcegroup" profile.vmssResourceGroup.quote
      "Gateway vmss resource group is empty"]
  else []) ++
  (if profile.vmssName = "" then
    [profileError "vmssname" profile.vmssName.quote "Gateway vmss name is empty"]
  else []) ++
  (if profile.publicIpPrefixSize < 0 ∨ profile.publicIpPrefixSize > 31 then
    [profileError "publicipprefixsize" (toString profile.publicIpPrefixSize)
      "Gateway vmss public ip prefix size should be between 0 and 31 inclusively"]
  else [])

def fieldErrors (spec : GatewaySpec) : List FieldError :=
  (if spec.gatewayNodepoolName = "" && vmssProfileIsEmpty spec then
    [nodepoolError spec "Either GatewayNodepoolName or GatewayVmssProfile must be provided"]
  else []) ++
  (if spec.gatewayNodepoolName ≠ "" && !vmssProfileIsEmpty spec then
    [nodepoolError spec "Only one of GatewayNodepoolName and GatewayVmssProfile should be provided"]
  else []) ++
  (if !vmssProfileIsEmpty spec then validateProfile spec.gatewayVmssProfile else []) ++
  (if !spec.provisionPublicIps && spec.publicIpPrefixId ≠ "" then
    [{ path   := ["spec", "publicipprefixid"]
       value  := spec.publicIpPrefixId.quote
       detail := "PublicIpPrefixId should be empty when ProvisionPublicIps is false" }]
  else [])

def aggregate : List FieldError → String
  | [e]  => e.text
  | errs => "[" ++ ", ".intercalate (errs.map (·.text)) ++ "]"

def validate (gwConfig : StaticGatewayConfiguration) : Except Err Unit :=
  match fieldErrors gwConfig.spec with
  | []   => .ok ()
  | errs => .error (Err.errorf ("StaticGatewayConfiguration.egressgateway.kubernetes.azure.com " ++
      gwConfig.meta_.key.name.quote ++ " is invalid: " ++ aggregate errs))

-- Writes an entry of a map.
def setEntry (key value : String) (m : List (String × String)) : List (String × String) :=
  m.filter (·.1 ≠ key) ++ [(key, value)]

-- An entry that is up to date is left alone.
def ensureEntry (key value : String) (m : List (String × String)) : List (String × String) :=
  if m.lookup key = some value then m else setEntry key value m

def secretKey (gwConfig : StaticGatewayConfiguration) : NamespacedName where
  namespace_ := S.secretNamespace
  name       := "sgw-" ++ gwConfig.meta_.uid

def labelSecret (gwConfig : StaticGatewayConfiguration) (secret : Secret) : Secret :=
  { secret with
    labels :=
      ensureEntry owningSGCNameLabel gwConfig.meta_.key.name <|
        ensureEntry owningSGCNamespaceLabel gwConfig.meta_.key.namespace_ secret.labels }

-- A secret that has a private key keeps both of its keys.
def provideKeys (gwConfig : StaticGatewayConfiguration) (secret : Secret) : M Secret :=
  let secret := labelSecret gwConfig secret
  match secret.data.lookup wireguardPrivateKeyName with
  | some _ => ret secret
  | none   => do
    let wgKey ← request .generateKey
    ret { secret with
      data :=
        setEntry wireguardPublicKeyName wgKey.publicKey <|
          setEntry wireguardPrivateKeyName wgKey.privateKey secret.data }

def withKeys (gwConfig : StaticGatewayConfiguration) (secret : Secret) : StaticGatewayConfiguration :=
  if secret.meta_.deleting then
    gwConfig
  else
    { gwConfig with
      status.gatewayServerProfile.privateKeySecretRef :=
        some ⟨secret.meta_.key.namespace_, secret.meta_.key.name⟩
      status.gatewayServerProfile.publicKey :=
        (secret.data.lookup wireguardPublicKeyName).getD "" }

def reconcileWireguardKey (gwConfig : StaticGatewayConfiguration) : M StaticGatewayConfiguration := do
  let secret ← createOrUpdate .secret { meta_ := named (secretKey S gwConfig), data := [] }
    (provideKeys gwConfig)
  ret (withKeys gwConfig secret)

-- The owner hands its specification down.
def adoptLBConfig (gwConfig : StaticGatewayConfiguration) (lbConfig : GatewayLBConfiguration) :
    M GatewayLBConfiguration := do
  let owned ← ofExcept (setControllerReference gwConfig.meta_ lbConfig.meta_)
  ret { lbConfig with meta_ := owned, spec := gwConfig.spec }

-- A configuration that is about to be deleted has nothing to report any more.
def collectLBStatus (lbConfig : GatewayLBConfiguration) (gwConfig : StaticGatewayConfiguration) :
    StaticGatewayConfiguration :=
  match lbConfig.meta_.deleting, lbConfig.status with
  | false, some status =>
    { gwConfig with
      status.gatewayServerProfile.ip   := status.frontendIp
      status.gatewayServerProfile.port := status.serverPort
      status.egressIpPrefix            := status.egressIpPrefix }
  | _,     _           => gwConfig

def reconcileGatewayLBConfig (gwConfig : StaticGatewayConfiguration) : M StaticGatewayConfiguration := do
  let (_, lbConfig) ← createOrPatch .lbConfig { meta_ := named gwConfig.meta_.key, spec := {} }
    (adoptLBConfig gwConfig)
  ret (collectLBStatus lbConfig gwConfig)

-- What the call to `CreateOrPatch` does to the object.
def mutate (gwConfig : StaticGatewayConfiguration) : M StaticGatewayConfiguration := do
  let gwConfig ← reconcileWireguardKey S gwConfig
  reconcileGatewayLBConfig gwConfig

def prepare (gwConfig : StaticGatewayConfiguration) : M StaticGatewayConfiguration := do
  ofExcept (validate gwConfig)
  ensureFinalizer .gwConfig sgcFinalizerName gwConfig

def publish (gwConfig : StaticGatewayConfiguration) :
    M (StaticGatewayConfiguration × StaticGatewayConfiguration) :=
  createOrPatch .gwConfig gwConfig (mutate S)

-- The metric is reported as a success whatever becomes of `CreateOrPatch`.
def reconcile (gwConfig : StaticGatewayConfiguration) : M (Observed StaticGatewayConfiguration) :=
  observed do
    let gwConfig ← prepare gwConfig
    let r ← attempt (publish S gwConfig)
    ret (r.map (·.1))

-- Whether there was nothing to be deleted any more.
def deleted (k : Kind) (key : NamespacedName) : M Bool := do
  match ← attempt (request (.delete k key)) with
  | .ok _    => ret false
  | .error e => if e.isNotFound then ret true else throw e

def ensureDeleted (gwConfig : StaticGatewayConfiguration) : M Unit :=
  if !containsFinalizer gwConfig.meta_ sgcFinalizerName then
    ret ()
  else do
    let secretDeleted ← deleted .secret (secretKey S gwConfig)
    let lbConfigDeleted ← deleted .lbConfig gwConfig.meta_.key
    when (secretDeleted && lbConfigDeleted) do
      let _ ← releaseFinalizer .gwConfig sgcFinalizerName gwConfig
      ret ()

def Reconcile (req : NamespacedName) : M Unit := do
  match ← attempt (request (.get .gwConfig req)) with
  | .error e     => if e.isNotFound then ret () else throw e
  | .ok gwConfig =>
    if gwConfig.meta_.deleting then
      ensureDeleted S gwConfig
    else do
      let o ← reconcile S gwConfig
      let _ ← ofExcept o.result
      ret ()

end GwController

end Manager
