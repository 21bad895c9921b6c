import Kiac.Cluster.Create
import Kiac.Krunkit.Recovery
import Kiac.Krunkit.Tracking
import Kiac.Cluster.Retried
import Kiac.WebUI.ClusterNode
import Kiac.Kubeconfig.Interleaved
import Kiac.Gpu.Readback
import Kiac.Gpu.Admission
import Kiac.Krunkit.Refusal
import Kiac.ExternalWorker.RoundTrip
import Kiac.Cluster.Refreshed
import Kiac.Cluster.Retargeted
import Kiac.LoadBalancer.Advertised
import Kiac.LoadBalancer.Converges
import Kiac.EdgeProxy.Choice
import Kiac.EdgeProxy.Token
import Kiac.EdgeProxy.Owners
import Kiac.EdgeProxy.Relayed
import Kiac.Cluster.Deletion
import Kiac.Krunkit.Legacy
import Kiac.Krunkit.Freshness
import Kiac.Cluster.Pinned
import Kiac.Cluster.Repointed
import Kiac.Cluster.Ordered
import Kiac.Kubeconfig.Mapping
import Kiac.ExternalWorker.Routing
import Kiac.ExternalWorker.Panics
import Kiac.Cluster.Boot
import Kiac.Gpu.Published
import Kiac.Gpu.Wakeup
import Kiac.Krunkit.Sockets
import Kiac.WebUI.Jobs
import Kiac.Krunkit.Size
import Kiac.Krunkit.Mounts
import Kiac.Cluster.RegistryGate
