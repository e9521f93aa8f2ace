import Infrastructure.Client
import Infrastructure.Cluster.Presence
import Infrastructure.Controllers.ComputePass
import Infrastructure.Controllers.Lease
import Infrastructure.Controllers.Manager
import Infrastructure.Controllers.Teardown
import Infrastructure.Controllers.WarmPool
import Infrastructure.FunctionPool.Ports
import Infrastructure.Httpsec.Limits
import Infrastructure.Httpsrv.InvokeChecks
import Infrastructure.Hypervisor.AddressMap
import Infrastructure.Hypervisor.Frames
import Infrastructure.Hypervisor.LoadGuest
import Infrastructure.Hypervisor.QueueSetup
import Infrastructure.Hypervisor.Registers
import Infrastructure.Hypervisor.RingRuns
import Infrastructure.Iam.Decisions
import Infrastructure.Idp.Authenticate
import Infrastructure.Idp.DeviceGrants
import Infrastructure.Lbproxy.Health
import Infrastructure.Lbproxy.Picks
import Infrastructure.Lbproxy.Reload
import Infrastructure.Lbproxy.Routing
import Infrastructure.Lifecycle.Removal
import Infrastructure.Manager.Allocation
import Infrastructure.Manager.DNSAnswers
import Infrastructure.Manager.DNSStatus
import Infrastructure.Manager.Disks
import Infrastructure.Manager.EgressFilter
import Infrastructure.Manager.EntryScript
import Infrastructure.Manager.ExecDisks
import Infrastructure.Manager.GroupFailures
import Infrastructure.Manager.InstanceRules
import Infrastructure.Manager.Peering
import Infrastructure.Manager.Teardown
import Infrastructure.Manager.Trust
import Infrastructure.Replication.Auth
import Infrastructure.State.Agreement
