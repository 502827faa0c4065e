import EgressGateway.Base.Program
import EgressGateway.Manager.Client

-- `NicService`: what a CNI plugin asks for when a pod is added to or removed from a gateway.

open Kubernetes Program

namespace CniManager

-- The gRPC codes that the service answers with.
inductive Code
  | unknown
  | failedPrecondition
  deriving DecidableEq

-- An error of the API server, or the one that is sent to the plugin.
inductive Failure
  | api    (e : Err)
  | status (code : Code) (message : String)
  deriving DecidableEq

structure State where
  gwConfigs    : List StaticGatewayConfiguration := []
  pods         : List Pod := []
  podEndpoints : List PodEndpoint := []
  clock        : Nat := 0

inductive Call
  | getGwConfig       (key : NamespacedName)
  | getPod            (key : NamespacedName)
  | getPodEndpoint    (key : NamespacedName)
  | createPodEndpoint (o : PodEndpoint)
  | updatePodEndpoint (o : PodEndpoint)
  | deletePodEndpoint (key : NamespacedName)

abbrev Reply : Call → Type
  | .getGwConfig _ => StaticGatewayConfiguration
  | .getPod _ => Pod
  | .getPodEndpoint _ | .createPodEndpoint _ | .updatePodEndpoint _ => PodEndpoint
  | .deletePodEndpoint _ => Unit

abbrev Sig : Signature where
  Call  := Call
  Reply := Reply
  Error := Failure

abbrev M := Program Sig

abbrev request (c : Call) : M (Reply c) :=
  Program.perform (I := Sig) c

namespace State

def reply {α : Type} (s : State) : Option α → Except Failure α × State
  | none   => (.error (.api (Manager.Call.refused .notFound)), s)
  | some o => (.ok o, s)

def commit (s : State) : Store.Write PodEndpoint → Except Failure PodEndpoint × State
  | .error e    => (.error (.api (Manager.Call.refused e)), s)
  | .ok (o, xs) => (.ok o, { s with podEndpoints := xs, clock := s.clock + 1 })

def serve (uid : Nat → String) : (c : Call) → State → Except Failure (Reply c) × State
  | .getGwConfig key, s => s.reply (Store.find s.gwConfigs key)
  | .getPod key, s => s.reply (s.pods.find? (·.meta_.key = key))
  | .getPodEndpoint key, s => s.reply (Store.find s.podEndpoints key)
  | .createPodEndpoint o, s => s.commit (Store.create (uid s.clock) s.clock s.podEndpoints o)
  | .updatePodEndpoint o, s => s.commit (Store.update s.clock s.podEndpoints o)
  | .deletePodEndpoint key, s =>
    match Store.delete s.clock s.podEndpoints key with
    | .error e => (.error (.api (Manager.Call.refused e)), s)
    | .ok xs   => (.ok (), { s with podEndpoints := xs, clock := s.clock + 1 })

end State

def world (uid : Nat → String) : World Sig State where
  exec   := State.serve uid
  outage := .api (Err.errorf "the service is not available")

structure PodInfo where
  podName      : String
  podNamespace : String

def PodInfo.key (pod : PodInfo) : NamespacedName where
  namespace_ := pod.podNamespace
  name       := pod.podName

structure NicAddRequest where
  podConfig   : PodInfo
  gatewayName : String
  allowedIp   : String
  publicKey   : String

structure NicAddResponse where
  endpointIp     : String
  listenPort     : Int
  publicKey      : String
  exceptionCidrs : List String
  defaultRoute   : RouteType
  deriving DecidableEq

-- `status.Errorf` with the code `Unknown` and an error at the end.
def unknown (context : String) : Failure → Failure
  | .api e => .status .unknown (context ++ e.text)
  | e      => e

def isNotFound : Failure → Bool
  | .api e => e.isNotFound
  | _      => false

def adopt (in_ : NicAddRequest) (pod : Pod) (podEndpoint : PodEndpoint) : M PodEndpoint :=
  match Manager.setControllerReference pod.meta_ podEndpoint.meta_ with
  | .error e   => throw (.api e)
  | .ok owned =>
    ret {
      meta_                      := owned
      podIpAddress               := in_.allowedIp
      staticGatewayConfiguration := in_.gatewayName
      podPublicKey               := in_.publicKey }

def createOrUpdate (podEndpoint : PodEndpoint) (mutate : PodEndpoint → M PodEndpoint) : M PodEndpoint := do
  match ← attempt (request (.getPodEndpoint podEndpoint.key)) with
  | .error e   =>
    if isNotFound e then do
      let podEndpoint ← mutate podEndpoint
      request (.createPodEndpoint podEndpoint)
    else throw e
  | .ok before => do
    let after ← mutate before
    if after ≠ before then request (.updatePodEndpoint after) else ret after

def NicAdd (in_ : NicAddRequest) : M NicAddResponse := do
  let gwKey := ⟨in_.podConfig.podNamespace, in_.gatewayName⟩
  let gwConfig ← mapError (unknown ("failed to retrieve StaticGatewayConfiguration " ++ gwKey.text ++ ": ")) <|
    request (.getGwConfig gwKey)
  if gwConfig.status.egressIpPrefix = "" then
    throw (.status .failedPrecondition "the egress IP prefix is not ready yet.")
  else do
    let podKey := in_.podConfig.key
    let pod ← mapError (unknown ("failed to retrieve pod " ++ podKey.text ++ ": ")) <|
      request (.getPod podKey)
    let _ ← mapError (unknown ("failed to update PodEndpoint " ++ podKey.text ++ ": ")) <|
      createOrUpdate
        { meta_ := Manager.named podKey, staticGatewayConfiguration := "", podIpAddress := "", podPublicKey := "" }
        (adopt in_ pod)
    ret {
      endpointIp     := gwConfig.status.gatewayServerProfile.ip
      listenPort     := gwConfig.status.gatewayServerProfile.port
      publicKey      := gwConfig.status.gatewayServerProfile.publicKey
      exceptionCidrs := gwConfig.excludeCidrs
      defaultRoute   := gwConfig.defaultRoute }

def NicDel (podConfig : PodInfo) : M Unit := do
  match ← attempt (request (.deletePodEndpoint podConfig.key)) with
  | .ok _    => ret ()
  | .error e =>
    if isNotFound e then ret ()
    else throw (unknown ("failed to delete PodEndpoint " ++ podConfig.key.text ++ ": ") e)

-- Returns the annotations of the pod.
def PodRetrieve (podConfig : PodInfo) : M (List (String × String)) := do
  let pod ← mapError (unknown ("failed to retrieve pod " ++ podConfig.key.text ++ ": ")) <|
    request (.getPod podConfig.key)
  ret pod.annotations

end CniManager
