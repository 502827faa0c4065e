import EgressGateway.Daemon.Node

-- `LBProbeServer`: how the daemon answers the health probes of the load balancer.

open Text

namespace Daemon

-- The codes that a request is answered with.
inductive HealthStatus
  | ok
  | badRequest
  | serviceUnavailable
  deriving DecidableEq

-- The path of a request has exactly two slashes, and what follows the second one is the UID of a gateway.
def Node.serveHTTP (s : Node) (reqPath : String) : HealthStatus :=
  match split '/' reqPath with
  | [_, _, gatewayUID] => if gatewayUID ∈ s.activeGateways then .ok else .serviceUnavailable
  | _                  => .badRequest

end Daemon
