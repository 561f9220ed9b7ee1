import Rmnet.Client.Indications
import Rmnet.Client.Lifetime
import Rmnet.Client.Setup
import Rmnet.Client.Shutout
import Rmnet.Client.Teardown
import Rmnet.Coalesce.Loop
import Rmnet.Coalesce.PktId
import Rmnet.Coalesce.Plan
import Rmnet.Coalesce.Reach
import Rmnet.Coalesce.Trace
import Rmnet.Ctl.Buffers
import Rmnet.Ctl.Debugfs
import Rmnet.Ctl.Endpoint
import Rmnet.Ctl.Reclaim
import Rmnet.DlInd
import Rmnet.Endpoint.FlowControl
import Rmnet.Endpoint.Frames
import Rmnet.Endpoint.Index
import Rmnet.Errno
import Rmnet.Frag.AllocSkb
import Rmnet.Frag.ByteString
import Rmnet.Frag.Command
import Rmnet.Frag.Deaggregate
import Rmnet.Frag.DeliveredCsum
import Rmnet.Frag.Descriptor
import Rmnet.Frag.ExtHeaders
import Rmnet.Frag.FastPath
import Rmnet.Frag.Flatten
import Rmnet.Frag.Gro
import Rmnet.Frag.HeaderPtr
import Rmnet.Frag.Ingress
import Rmnet.Frag.Pool
import Rmnet.Frag.PoolRun
import Rmnet.Frag.Segment
import Rmnet.Frag.SegmentFail
import Rmnet.Frag.SegmentLoop
import Rmnet.Frag.SegmentSafe
import Rmnet.Frag.Uncoalesce
import Rmnet.Frag.ValidateCsum
import Rmnet.Genl.PidRate
import Rmnet.Genl.PidStats
import Rmnet.Lib.Alloc
import Rmnet.Lib.Bucket
import Rmnet.Lib.Chained
import Rmnet.Lib.Checksum
import Rmnet.Lib.Credit
import Rmnet.Lib.Field
import Rmnet.Lib.Fuel
import Rmnet.Lib.Grace
import Rmnet.Lib.Ledger
import Rmnet.Lib.Mailbox
import Rmnet.Lib.Owner
import Rmnet.Lib.Pairing
import Rmnet.Lib.Probe
import Rmnet.Lib.Refcount
import Rmnet.Lib.Sections
import Rmnet.Lib.Transition
import Rmnet.Lib.Word
import Rmnet.Lib.Worker
import Rmnet.Linear.Agree
import Rmnet.Linear.Bounds
import Rmnet.Linear.Command
import Rmnet.Linear.Control
import Rmnet.Linear.Deaggregate
import Rmnet.Linear.Emission
import Rmnet.Linear.HeaderCheck
import Rmnet.Linear.Headers
import Rmnet.Linear.Ingress
import Rmnet.Linear.IpId
import Rmnet.Linear.Padding
import Rmnet.Linear.Segment
import Rmnet.Linear.Trailer
import Rmnet.Link.Bridge
import Rmnet.Link.Config
import Rmnet.Link.Info
import Rmnet.Link.MuxId
import Rmnet.Link.MuxTable
import Rmnet.Link.Newlink
import Rmnet.Link.Tables
import Rmnet.Map
import Rmnet.Power.Worker
import Rmnet.Qos.Activation
import Rmnet.Qos.Blocked
import Rmnet.Qos.Broadcast
import Rmnet.Qos.Charge
import Rmnet.Qos.Cleanup
import Rmnet.Qos.Credit
import Rmnet.Qos.Dfc
import Rmnet.Qos.EndMarker
import Rmnet.Qos.Entries
import Rmnet.Qos.Event
import Rmnet.Qos.Exit
import Rmnet.Qos.Integrity
import Rmnet.Qos.Qmap
import Rmnet.Qos.QueueState
import Rmnet.Qos.Select
import Rmnet.Qos.Stranded
import Rmnet.Qos.Table
import Rmnet.Qos.Watchdog
import Rmnet.Skb
import Rmnet.Uplink.Aggregate
import Rmnet.Uplink.Conservation
import Rmnet.Uplink.Egress
import Rmnet.Uplink.Framing
import Rmnet.Uplink.Overrun
import Rmnet.Uplink.Pages
import Rmnet.Uplink.PendingFlush
import Rmnet.Uplink.Recycle
import Rmnet.Uplink.RoundTrip
