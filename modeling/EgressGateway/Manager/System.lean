import EgressGateway.Base.Concurrent
import EgressGateway.Manager.LBConfiguration
import EgressGateway.Manager.StaticGateway
import EgressGateway.Manager.VMConfiguration

-- The three controllers side by side, each with a single worker.

open Kubernetes

namespace Manager

variable [CaseFold] (P : Platform) (S : Settings)

inductive Controller
  | gw
  | lb
  | vm
  deriving DecidableEq

-- The rules of the gateway load balancer.
def Cloud.rules (c : Cloud) : List Azure.LoadBalancingRule :=
  (c.loadBalancer.bind (·.properties)).elim [] (·.loadBalancingRules)

-- What users and Azure do in the meantime. The finalizers, the secrets, the status of an object and the
-- rules of the load balancer belong to the controllers.
inductive Outside : State → State → Prop
  | create {s} (k : Kind) (hk : k ≠ .secret) (o : Obj k) : Outside s (State.serve P S.az (.create k o) s).2
  | update {s} (k : Kind) (hk : k ≠ .secret) (o : Obj k)
      (hf : ∀ stored, Store.find (s.api.items k) (Store.key o) = some stored →
        (meta_ stored).finalizers ⊆ (meta_ o).finalizers) :
      Outside s (State.serve P S.az (.update k o) s).2
  | delete {s} (k : Kind) (key : NamespacedName) : Outside s (State.serve P S.az (.delete k key) s).2
  | azure {s s'} (hr : s'.cloud.rules ⊆ s.cloud.rules) (ha : s'.api = s.api) : Outside s s'
  | nodes {s} (nodes : List Node) : Outside s { s with api.nodes := nodes }

-- Any request may be due at any time.
def system : Processes Sig Controller State where
  world := world P S.az
  jobs i p :=
    match i with
    | .gw => ∃ req, p = GwController.Reconcile S req
    | .lb => ∃ req, p = LBController.Reconcile S req
    | .vm => ∃ req, p = VMController.Reconcile S req
  outside := Outside P S

end Manager
