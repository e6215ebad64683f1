import Nexad.Base.Text
import Nexad.Base.Offset
import Nexad.Laws.Base.Relational
import Nexad.Base.Migration
import Nexad.Laws.Network.Subnet
import Nexad.Laws.Dns.RecordStore
import Nexad.Laws.Proxy.Nginx
import Nexad.Laws.Proxy.Traefik
import Nexad.State.Schema
import Nexad.State.Sqlite
import Nexad.Core.Models
import Nexad.Laws.Base.Migration
import Nexad.Laws.State.Migration
import Nexad.Laws.State.Sqlite
import Nexad.Cluster.Store
import Nexad.Api.Handlers
import Nexad.Cluster.Heartbeat
import Nexad.Cluster.System
import Nexad.Laws.Cluster.System
import Nexad.Laws.Cluster.Token
import Nexad.Laws.Cluster.Drain
import Nexad.Laws.Cluster.LastHeartbeat
import Nexad.Runtime.Containerd
import Nexad.Runtime.Docker
import Nexad.Runtime.EventWatcher
import Nexad.Transport.AssignPod
import Nexad.Laws.Core.Uuid
import Nexad.Laws.Runtime.EventWatcher
import Nexad.Laws.Runtime.Exit
import Nexad.Laws.Cluster.Origin
import Nexad.Laws.Cluster.Registration
import Nexad.Cluster.Placement
import Nexad.Laws.Cluster.Removal
import Nexad.Laws.Cluster.Placement
import Nexad.Laws.Cluster.Handover
import Nexad.Laws.Cluster.IssuedToken
import Nexad.Base.Directory
import Nexad.Base.Runs
import Nexad.Runtime.Cni
import Nexad.Base.Lines
import Nexad.Base.Utf8
import Nexad.Laws.Runtime.Cni
import Nexad.Runtime.LogTailer
import Nexad.Laws.Runtime.LogTailer
import Nexad.Base.BigEndian
import Nexad.Base.DomainMessage
import Nexad.Base.Slice
import Nexad.Base.Lowercase
import Nexad.Dns.Hickory
import Nexad.Laws.Dns.Hickory
import Nexad.Laws.Dns.Isolation
import Nexad.Laws.Dns.Replica
import Nexad.Laws.Dns.CaseVariants
import Nexad.Laws.Dns.Packets
import Nexad.Laws.Dns.Questions
import Nexad.Runtime.Host
import Nexad.Laws.Transport.Machine
import Nexad.Laws.Transport.Converge
import Nexad.Laws.Transport.Networks
import Nexad.Proxy.Caddy
import Nexad.Proxy.NexaProxy
import Nexad.Proxy.Backend
import Nexad.Cluster.PodRequests
import Nexad.Laws.Cluster.PodRequests
import Nexad.Laws.Proxy.Rendering
import Nexad.Laws.Proxy.Removal
import Nexad.Laws.Proxy.UpstreamNames
import Nexad.Secrets.Encrypted
import Nexad.Laws.Secrets.Encrypted
import Nexad.Laws.Secrets.Copied
import Nexad.Laws.Base.Upsert
import Nexad.Base.Aead
import Nexad.Api.Scheduler
import Nexad.Laws.Api.Scheduler
import Nexad.Base.Since
import Nexad.Laws.Dns.Registrations
import Nexad.Laws.Proxy.Applying
import Nexad.Laws.Proxy.CaddyLines
import Nexad.Laws.Proxy.NexaProxy
import Nexad.Laws.Runtime.LogLines
import Nexad.Laws.Cluster.Pass
import Nexad.Laws.Runtime.LogSplits
import Nexad.State.Nodes
import Nexad.Laws.State.Rows
import Nexad.Laws.State.ReadBack
import Nexad.Laws.State.Cluster
import Nexad.Laws.Runtime.Subnets
import Nexad.Laws.State.MemoryRouteStore
import Nexad.Laws.State.RowEncoding
import Nexad.Base.Calendar
import Nexad.Base.Rfc3339
import Nexad.Laws.State.Chronological
import Nexad.Api.NodeStats
import Nexad.Laws.Api.NodeStats
import Nexad.Runtime.Tasks
import Nexad.Laws.Runtime.ExitEvents
import Nexad.Laws.Runtime.Tasks
import Nexad.Base.ImageRef
import Nexad.Laws.Runtime.ImageRefs
import Nexad.Runtime.Images
import Nexad.Laws.Runtime.Pulls
import Nexad.Laws.Runtime.Normalized
import Nexad.Crypto.MasterKey
import Nexad.Laws.Crypto.MasterKey
import Nexad.Daemon.Secrets
import Nexad.Laws.Base.ForeignKeys
import Nexad.Laws.Daemon.Secrets
import Nexad.Laws.State.Inventory
import Nexad.Cluster.Installation
import Nexad.Laws.Runtime.Announcements
import Nexad.Laws.Cluster.Installation
import Nexad.Daemon.Store
import Nexad.Dns.Server
import Nexad.Laws.Cluster.Restarts
import Nexad.Laws.Daemon.Store
import Nexad.Laws.Dns.Server
import Nexad.Base.Handlers
import Nexad.Laws.Runtime.Engine
import Nexad.Laws.Transport.Concurrent
import Nexad.Laws.Runtime.Ctr
import Nexad.Laws.Transport.OnContainerd
import Nexad.Base.Remote
import Nexad.Laws.Transport.Remote
