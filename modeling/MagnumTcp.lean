import MagnumTcp.Lib.Runs
import MagnumTcp.Lib.Simulation
import MagnumTcp.Lib.Serial
import MagnumTcp.Lib.Slices
import MagnumTcp.Lib.RingBuffer
import MagnumTcp.Lib.SortedMap
import MagnumTcp.Lib.OnesComplement
import MagnumTcp.Lib.CheckedWord
import MagnumTcp.Lib.FrontQueue
import MagnumTcp.Lib.Search
import MagnumTcp.Lib.Records
import MagnumTcp.Tcp.Header
import MagnumTcp.Tcp.SendBuffer
import MagnumTcp.Tcp.RecvBuffer
import MagnumTcp.Tcp.Script
import MagnumTcp.Tcp.SendScript
import MagnumTcp.Tcp.Retransmit
import MagnumTcp.Tcp.Checked
import MagnumTcp.Tcp.Session
import MagnumTcp.Tcp.Exchange
import MagnumTcp.Tcp.Task
import MagnumTcp.Tcp.Handler
import MagnumTcp.Tcp.Http
import MagnumTcp.Tcp.Stack
import MagnumTcp.Tcp.Service
import MagnumTcp.Net.Ipv4
import MagnumTcp.Net.Ethernet
import MagnumTcp.Net.Arp
import MagnumTcp.Net.Inbound
import MagnumTcp.Net.Checked
import MagnumTcp.Net.Chaos
import MagnumTcp.Net.Pcap
import MagnumTcp.Net.Host
import MagnumTcp.Proof.Wire
import MagnumTcp.Proof.Layers
import MagnumTcp.Proof.Corruption
import MagnumTcp.Proof.Bounds
import MagnumTcp.Proof.Accepts
import MagnumTcp.Proof.Inbound
import MagnumTcp.Proof.Sequence
import MagnumTcp.Proof.Reassembly
import MagnumTcp.Proof.Script
import MagnumTcp.Proof.RightEdge
import MagnumTcp.Proof.SendScript
import MagnumTcp.Proof.Placement
import MagnumTcp.Proof.Staging
import MagnumTcp.Proof.Tiling
import MagnumTcp.Proof.Shift
import MagnumTcp.Proof.Core
import MagnumTcp.Proof.Frame
import MagnumTcp.Proof.Refinement
import MagnumTcp.Proof.Sender
import MagnumTcp.Proof.Diagram
import MagnumTcp.Proof.Congestion
import MagnumTcp.Proof.Window
import MagnumTcp.Proof.Sync
import MagnumTcp.Proof.Handshake
import MagnumTcp.Proof.Established
import MagnumTcp.Proof.Recovery
import MagnumTcp.Proof.FastRetransmit
import MagnumTcp.Proof.Karn
import MagnumTcp.Proof.Queue
import MagnumTcp.Proof.QueueOrder
import MagnumTcp.Proof.Flush
import MagnumTcp.Proof.Acknowledgement
import MagnumTcp.Proof.Close
import MagnumTcp.Proof.Lifecycle
import MagnumTcp.Proof.Receiver
import MagnumTcp.Proof.AckSoundness
import MagnumTcp.Proof.Network
import MagnumTcp.Proof.Agreement
import MagnumTcp.Proof.Quiescence
import MagnumTcp.Proof.Task
import MagnumTcp.Proof.EarlyData
import MagnumTcp.Proof.CloseSignal
import MagnumTcp.Proof.EndOfStream
import MagnumTcp.Proof.Dispatch
import MagnumTcp.Proof.Demux
import MagnumTcp.Proof.Chaos
import MagnumTcp.Proof.Segmentation
import MagnumTcp.Proof.HandOver
import MagnumTcp.Proof.Service
import MagnumTcp.Proof.Response
import MagnumTcp.Proof.Pcap
import MagnumTcp.Proof.SegmentSize
import MagnumTcp.Proof.Accounts
import MagnumTcp.Proof.Host
import MagnumTcp.Proof.RetransmitRound
import MagnumTcp.Proof.Transfer
import MagnumTcp.Proof.Release
import MagnumTcp.Proof.Establish
import MagnumTcp.Proof.LateCall
import MagnumTcp.Proof.Conversation
import MagnumTcp.Proof.Canonical
import MagnumTcp.Proof.Healing
