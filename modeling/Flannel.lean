import Flannel.Lib.Results
import Flannel.Lib.Run
import Flannel.Lib.KeyedList
import Flannel.Lib.SortedMap
import Flannel.Lib.Fields
import Flannel.Lib.Json
import Flannel.Lib.Table
import Flannel.Lib.Replay
import Flannel.Lib.Channel
import Flannel.Lib.Text
import Flannel.Lib.Pieces
import Flannel.Lib.Search
import Flannel.Lib.Framing
import Flannel.Lib.Words
import Flannel.Lib.Bytes
import Flannel.Lib.Base64
import Flannel.Lib.Utf8
import Flannel.Lib.Tlv
import Flannel.Lib.OnesComplement
import Flannel.Lib.Checked
import Flannel.Lib.PrefixMask
import Flannel.Lib.Gregorian
import Flannel.Ip.StdAddr
import Flannel.Ip.Digits
import Flannel.Ip.Net
import Flannel.Ip.Display
import Flannel.Ip.SocketAddr
import Flannel.Ip.CidrSets
import Flannel.Lease.Basic
import Flannel.Lease.Keyed
import Flannel.Lease.Emitted
import Flannel.Lease.OwnLease
import Flannel.Lease.Consumer
import Flannel.Subnet.Config
import Flannel.Subnet.ConfigCheck
import Flannel.Subnet.File
import Flannel.Subnet.FileReaders
import Flannel.Subnet.CidrText
import Flannel.Subnet.WatchLeases
import Flannel.Kube.Queue
import Flannel.Kube.QueueCustody
import Flannel.Kube.QueueOrder
import Flannel.Kube.Hub
import Flannel.Kube.HubDelivery
import Flannel.Kube.HubReplay
import Flannel.Kube.WatchOps
import Flannel.Kube.Events
import Flannel.Kube.AnnotationPrefix
import Flannel.Kube.NodeView
import Flannel.Kube.Informer
import Flannel.Kube.Relist
import Flannel.Kube.Frames
import Flannel.Kube.Watch
import Flannel.Kube.WatchStream
import Flannel.Kube.InformerRun
import Flannel.Kube.Acquire
import Flannel.Kube.OwnSubnet
import Flannel.Kube.Publish
import Flannel.Kube.PublishRead
import Flannel.Kube.Timestamps
import Flannel.Traffic.Rules
import Flannel.Traffic.Filter
import Flannel.Traffic.MasqDecision
import Flannel.Traffic.IPTables
import Flannel.Traffic.IPTablesManager
import Flannel.Traffic.RestorePayload
import Flannel.Traffic.CniMasq
import Flannel.Backend.RouteNetwork
import Flannel.Backend.RouteTracking
import Flannel.Backend.VxlanEvents
import Flannel.Backend.VxlanAtomic
import Flannel.Backend.VxlanTables
import Flannel.Backend.VtepMac
import Flannel.Backend.VxlanDevice
import Flannel.Backend.VtepIdentity
import Flannel.Backend.VxlanRecreate
import Flannel.Backend.Wireguard
import Flannel.Backend.WireguardKeys
import Flannel.Backend.WireguardPorts
import Flannel.Backend.WireguardPeers
import Flannel.Backend.WireguardNetlink
import Flannel.Backend.WireguardCodec
import Flannel.Backend.ConfigFields
import Flannel.Backend.Ipsec
import Flannel.Backend.IpsecPolicies
import Flannel.Backend.IpsecConnections
import Flannel.Backend.Vici
import Flannel.Backend.ViciCodec
import Flannel.Backend.ViciInverse
import Flannel.Backend.XfrmNetlink
import Flannel.Backend.XfrmCodec
import Flannel.Backend.XfrmReply
import Flannel.Backend.NetlinkSafety
import Flannel.Backend.UdpProxy
import Flannel.Backend.UdpRoutes
import Flannel.Backend.UdpPacket
import Flannel.Backend.UdpChecksum
import Flannel.Backend.UdpUnreachable
import Flannel.Backend.UdpOverlay
import Flannel.Backend.TencentVpc
import Flannel.Backend.ExtensionExpand
import Flannel.Backend.ExtensionTokens
import Flannel.IpMatch.Iface
import Flannel.IpMatch.Lookup
import Flannel.IpMatch.RegexMatch
import Flannel.IpMatch.AddressConfig
import Flannel.Cni.DelegateConf
import Flannel.Cli.Flags
import Flannel.Cli.FlagsParse
import Flannel.Cli.IntLiterals
import Flannel.Backend.RouteCheck
import Flannel.Backend.RouteInterleaving
import Flannel.Cni.Commands
