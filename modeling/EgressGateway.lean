import EgressGateway.Base.Text
import EgressGateway.Base.Program
import EgressGateway.Base.Iptables
import EgressGateway.Base.Concurrent
import EgressGateway.Base.Dispatch
import EgressGateway.Base.Net
import EgressGateway.Base.Base64
import EgressGateway.Base.Lease
import EgressGateway.Base.Keyed
import EgressGateway.Objects.Azure
import EgressGateway.Objects.Kubernetes
import EgressGateway.Objects.Error
import EgressGateway.Objects.Store
import EgressGateway.Manager.Platform
import EgressGateway.Manager.Pool
import EgressGateway.Manager.LoadBalancer
import EgressGateway.Manager.Registry
import EgressGateway.Manager.Theorems.Platform
import EgressGateway.Manager.Theorems.Pool
import EgressGateway.Manager.Theorems.Convergence
import EgressGateway.Manager.Theorems.Incomplete
import EgressGateway.Manager.Theorems.Repair
import EgressGateway.Manager.Theorems.Rules
import EgressGateway.Manager.Theorems.Stages
import EgressGateway.Manager.Theorems.Interfaces
import EgressGateway.Manager.Theorems.LoadBalancer
import EgressGateway.Manager.Theorems.Allocation
import EgressGateway.Manager.Theorems.References
import EgressGateway.Daemon.Node
import EgressGateway.CniManager.Server
import EgressGateway.Daemon.Metadata
import EgressGateway.Daemon.StaticGateway
import EgressGateway.Daemon.PodEndpoint
import EgressGateway.Daemon.Theorems.Frame
import EgressGateway.Daemon.Theorems.Nat
import EgressGateway.Daemon.Theorems.Isolation
import EgressGateway.Daemon.Theorems.CleanUp
import EgressGateway.Daemon.Theorems.Sparing
import EgressGateway.Base.Routing
import EgressGateway.Cni.Routes
import EgressGateway.Cni.Theorems.Routes
import EgressGateway.Manager.AgentPoolVMSS
import EgressGateway.Manager.Theorems.AgentPoolVMSS
import EgressGateway.Manager.AgentPoolVMs
import EgressGateway.Manager.Theorems.AgentPoolVMs
import EgressGateway.Manager.Theorems.Backends
import EgressGateway.Base.Pattern
import EgressGateway.Manager.Client
import EgressGateway.Manager.VMConfiguration
import EgressGateway.Manager.LBConfiguration
import EgressGateway.Manager.StaticGateway
import EgressGateway.Manager.System
import EgressGateway.Objects.Theorems.Store
import EgressGateway.Manager.Theorems.Client
import EgressGateway.Manager.Theorems.Reports
import EgressGateway.Manager.Theorems.PublicIPs
import EgressGateway.Manager.Theorems.Readiness
import EgressGateway.Base.Trace
import EgressGateway.Manager.Theorems.Profiles
import EgressGateway.Manager.Theorems.Ports
import EgressGateway.Daemon.Theorems.Tags
import EgressGateway.Cni.Conf
import EgressGateway.Cni.Theorems.Conf
import EgressGateway.Manager.Theorems.Names
import EgressGateway.Daemon.Theorems.Ilb
import EgressGateway.Manager.Theorems.Keys
import EgressGateway.Manager.Theorems.PrefixDeletion
import EgressGateway.Daemon.Theorems.Chains
import EgressGateway.Manager.Theorems.Prefixes
import EgressGateway.Daemon.Theorems.Rollback
import EgressGateway.Cni.Nic
import EgressGateway.Cni.Theorems.Nic
import EgressGateway.Manager.Theorems.NICProfiles
import EgressGateway.Manager.Theorems.NICConvergence
import EgressGateway.Objects.Theorems.Finalizers
import EgressGateway.Manager.Theorems.Custody
import EgressGateway.Manager.Theorems.Finalizers
import EgressGateway.Daemon.Health
import EgressGateway.Daemon.Theorems.Links
import EgressGateway.Daemon.Theorems.Health
