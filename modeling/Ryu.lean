import Ryu.Lib.Dict
import Ryu.Lib.Python
import Ryu.Lib.Run
import Ryu.Lib.Framing
import Ryu.Controller.Datapath
import Ryu.Lib.Display
import Ryu.Controller.Hello
import Ryu.Lib.Replay
import Ryu.Controller.Ports
import Ryu.Lib.Ring
import Ryu.Lib.Outcome
import Ryu.Lib.Alternation
import Ryu.Topology.PortData
import Ryu.Controller.RecvLoop
import Ryu.Controller.DPSet
import Ryu.Base.AppManager
import Ryu.Qos.Switch
import Ryu.Qos.Queue
import Ryu.Lib.Selection
import Ryu.Bgp.Path
import Ryu.Bgp.Processor
import Ryu.Bgp.Destination
import Ryu.Lib.Outbox
import Ryu.Lib.Numeral
import Ryu.Bgp.Advertise
import Ryu.Lib.Groups
import Ryu.Ofproto.Match
import Ryu.Ofproto.Address
import Ryu.Ofctl.Match
import Ryu.Ofctl.Flow
import Ryu.Qos.Match
import Ryu.Qos.Rule
import Ryu.Qos.Delete
import Ryu.Qos.Listing
import Ryu.Qos.Vlan
import Ryu.Lib.Carry
import Ryu.Qos.Shared
import Ryu.Bgp.Stream
import Ryu.Bgp.AsPath
import Ryu.Bgp.InFilter
import Ryu.Bgp.Update
import Ryu.Lib.Bytes
import Ryu.Bgp.AddrPrefix
import Ryu.Lib.Heap
import Ryu.Bgp.ConstructUpdate
import Ryu.Lib.WorkQueue
import Ryu.Bgp.Cleanup
import Ryu.Bgp.Vrf
import Ryu.Bgp.VrfExport
import Ryu.Bgp.VrfImport
import Ryu.Lib.Duplex
import Ryu.Bgp.Session
import Ryu.Bgp.Collision
import Ryu.Lib.Codec
import Ryu.Bgp.AsPathValue
import Ryu.Lib.Netmask
import Ryu.Router.Address
import Ryu.Router.Flow
import Ryu.Router.VlanRouter
import Ryu.Router.Switch
import Ryu.Router.Select
import Ryu.Router.Routes
import Ryu.Router.Spelling
import Ryu.Lib.Struct
import Ryu.Bgp.ExtendedCommunity
import Ryu.Bgp.PathAttribute
import Ryu.Bgp.UpdateMessage
import Ryu.Bgp.ClassState
import Ryu.Lib.Table
import Ryu.Lib.Grouping
import Ryu.Ofctl.Version
import Ryu.RestFirewall.Rule
import Ryu.RestFirewall.Table
import Ryu.RestFirewall.Log
import Ryu.RestFirewall.Listing
import Ryu.RestFirewall.Vlan
import Ryu.Lib.Scan
import Ryu.Ofproto13.Match
import Ryu.Ofproto13.NxAction
import Ryu.Ofproto13.Action
import Ryu.Ofproto13.Property
import Ryu.Ofproto13.Stats
import Ryu.Ofproto13.Message
import Ryu.Topology.LinkState
import Ryu.Topology.Registry
import Ryu.Topology.Switches
import Ryu.Topology.Steps
import Ryu.Topology.Links
import Ryu.Topology.Hosts
import Ryu.Topology.Ports
import Ryu.Lib.Layout
import Ryu.Ofproto13.OxmFields
import Ryu.Ofproto.FieldTables
import Ryu.Ofproto.OxxFields
import Ryu.Lib.Changes
import Ryu.Lacp.Slaves
import Ryu.Rtconf.VrfsConf
import Ryu.Controller.SendLoop
import Ryu.Lib.Timer
import Ryu.Vrrp.Router
import Ryu.Vrrp.Consistent
import Ryu.Vrrp.Takeover
import Ryu.Vrrp.Election
import Ryu.Lib.Stages
import Ryu.Rtconf.Validate
import Ryu.Rtconf.VrfConf
import Ryu.Rtconf.VrfUpdate
import Ryu.Bgp.RtTable
import Ryu.Bgp.RtFilter
import Ryu.Igmp.Snooper
import Ryu.Igmp.Entries
import Ryu.Igmp.Membership
import Ryu.Bgp.RtLinks
import Ryu.Bgp.VrfRemoval
import Ryu.Bgp.VrfChange
import Ryu.App.SimpleSwitch13
import Ryu.App.OfctlService
import Ryu.Actions.Written
import Ryu.Stp.Bpdu
import Ryu.Stp.Link
import Ryu.Bfd.Detection
import Ryu.Bgp.Communicate
import Ryu.Bgp.RtFilterChange
import Ryu.Bgp.RouteDistinguisher
import Ryu.Bgp.LabelledPrefix
import Ryu.Bgp.MpReach
import Ryu.Bgp.OptParam
import Ryu.Bgp.StreamParser
import Ryu.Bgp.LoopingCall
import Ryu.Bgp.CircList
import Ryu.Bgp.VrfWithdrawals
import Ryu.Bgp.RtIndex
import Ryu.Bgp.DestQueues
import Ryu.Router.LongestMatch
import Ryu.Ofctl.Wildcards
import Ryu.Topology.LldpLoop
import Ryu.Bfd.Authentication
import Ryu.Packet.Sctp
import Ryu.Packet.Checksum
import Ryu.Packet.Tcp
import Ryu.Packet.Dhcp
import Ryu.Stp.Defaults
import Ryu.Lib.Counted
import Ryu.Packet.ReportGroup
import Ryu.Packet.MembershipReport
import Ryu.Lib.EndAround
import Ryu.Packet.InternetChecksum
import Ryu.Lib.Fletcher
import Ryu.Packet.Fletcher
import Ryu.Packet.StreamParser
import Ryu.Stp.RstBpdu
import Ryu.Ofctl.StatsRequest
import Ryu.Stp.PortRun
import Ryu.Packet.NdOption
import Ryu.Packet.Icmpv6
import Ryu.Packet.BmpTlv
import Ryu.Packet.Bmp
import Ryu.Lib.BitFields
import Ryu.Lib.Span
import Ryu.Packet.Ipv6Header
import Ryu.Lib.Pipe
import Ryu.Rpc.EndPoint
import Ryu.Rpc.Session
import Ryu.Lib.Layers
import Ryu.Packet.Ipv4
import Ryu.Packet.Ipv6
import Ryu.Packet.Packet
import Ryu.Packet.Lldp
import Ryu.Topology.LldpPacket
import Ryu.Packet.Vrrp
import Ryu.Packet.VrrpPacket
import Ryu.Vrrp.Monitor
