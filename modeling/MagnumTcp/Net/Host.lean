import MagnumTcp.Net.Chaos
import MagnumTcp.Net.Inbound
import MagnumTcp.Net.Pcap

/-!
# The event loop

`run` of `main.rs` as it is built for Linux, and next to it the tasks that it has spawned. An event is
what the loop or one task does between two of its `await`s. The outbound channel is bounded: a task
waits until there is room for what it sends, and goes on only when all segments of its round are sent.
-/

namespace MagnumTcp

open Tcp

def mtu : Nat := 1500
def outboundCapacity : Nat := 256

def received (raw : Bytes) : Bytes := raw.take (mtu * 2)

structure Link where
  etherSrc : Mac
  etherDst : Mac
  sent : Nat

structure Host where
  ourIp : Ip
  ourMac : Mac
  dispatch : AsyncDispatch
  links : List Link
  outbound : List OutboundMsg
  pcap : PcapWriter
  chaos : Option ChaosMiddleware
  written : List Bytes

inductive HostEvent where
  -- The device has a frame.
  | readable (raw : Bytes) (moment : Moment) (time : SystemTime)
  | outbound (now : Instant) (time : SystemTime)
  -- The task sends its next segment.
  | send (id : Nat)
  -- The task goes on, with its inbox or with another arm of its loop.
  | receive (id : Nat) (clock : Clock)
  | own (id : Nat) (event : TaskEvent)

namespace Host

def start (ports : List U16) (ourIp : Ip) (ourMac : Mac) (config : ChaosConfig) : Host where
  ourIp := ourIp
  ourMac := ourMac
  dispatch := .start ports
  links := []
  outbound := []
  pcap := .new linktypeEthernet
  chaos :=
    if config.dropRate > 0 || config.reorderRate > 0 || config.maxJitterMs > 0#64 then
      some (.new config)
    else none
  written := []

-- What `inbound_dispatch` passes on to a new task: the frame goes back where it has come from.
def linkOf (raw : Bytes) : List Link :=
  match EthernetFrame.parse raw with
  | .ok frame => [⟨frame.dstMac, frame.srcMac, 0⟩]
  | .error _ => []

def message (s : Spawned) (link : Link) (tcpBytes : Bytes) : OutboundMsg where
  srcIp := s.task.session.conn.tcb.localIp
  dstIp := s.task.session.conn.tcb.remoteIp
  tcpBytes := tcpBytes
  etherSrc := link.etherSrc
  etherDst := link.etherDst

def settled (h : Host) (id : Nat) : Bool :=
  match h.dispatch.tasks[id]?, h.links[id]? with
  | some s, some link => link.sent == s.task.session.emitted.length
  | _, _ => false

def read (h : Host) (raw : Bytes) (moment : Moment) (time : SystemTime) : Host :=
  let inbound := inboundDispatch raw h.dispatch h.ourIp h.ourMac moment
  { h with
    pcap := h.pcap.writePacket time raw
    dispatch := inbound.dispatch
    links := if inbound.spawned.isSome then h.links ++ linkOf raw else h.links
    written := h.written ++ inbound.reply.toList }

-- The message that leaves the channel is framed, captured and written, unless the middleware keeps it.
def transmit (h : Host) (msg : OutboundMsg) (rest : List OutboundMsg) (now : Instant)
    (time : SystemTime) : Host :=
  let framed := frameOutbound msg
  let h := { h with outbound := rest, pcap := h.pcap.writePacket time framed }
  match h.chaos with
  | some chaos =>
      let (chaos, packets) := chaos.intercept framed now
      { h with chaos := some chaos, written := h.written ++ packets }
  | none => { h with written := h.written ++ [framed] }

def send (h : Host) (id : Nat) : Host :=
  match h.dispatch.tasks[id]?, h.links[id]? with
  | some s, some link =>
      match s.task.session.emitted[link.sent]? with
      | some tcpBytes =>
          if h.outbound.length < outboundCapacity then
            { h with
              outbound := h.outbound ++ [message s link tcpBytes]
              links := h.links.set id { link with sent := link.sent + 1 } }
          else h
      | none => h
  | _, _ => h

def step (h : Host) : HostEvent → Host
  | .readable raw moment time =>
      if (received raw).isEmpty then h else h.read (received raw) moment time
  | .outbound now time =>
      match h.outbound with
      | msg :: rest => h.transmit msg rest now time
      | [] => h
  | .send id => h.send id
  | .receive id clock =>
      if h.settled id then { h with dispatch := h.dispatch.step (.receive id clock) } else h
  | .own id event =>
      if h.settled id then { h with dispatch := h.dispatch.step (.own id event) } else h

end Host

/-- The run of a host, with what was sent on its channel and by which task, how much of that was taken,
and the packets of the capture. -/
structure HostRun where
  host : Host
  sent : List (Nat × OutboundMsg)
  taken : Nat
  captured : List (SystemTime × Bytes)

namespace HostRun

def start (ports : List U16) (ourIp : Ip) (ourMac : Mac) (config : ChaosConfig) : HostRun :=
  ⟨.start ports ourIp ourMac config, [], 0, []⟩

def step (r : HostRun) (event : HostEvent) : HostRun :=
  let after := r.host.step event
  match event with
  | .readable raw _ time =>
      { r with
        host := after
        captured :=
          if (received raw).isEmpty then r.captured else r.captured ++ [(time, received raw)] }
  | .outbound _ time =>
      match r.host.outbound with
      | msg :: _ =>
          { r with
            host := after
            taken := r.taken + 1
            captured := r.captured ++ [(time, frameOutbound msg)] }
      | [] => { r with host := after }
  | .send id =>
      { r with
        host := after
        sent := r.sent ++ (after.outbound.drop r.host.outbound.length).map fun msg => (id, msg) }
  | .receive _ _ | .own _ _ => { r with host := after }

end HostRun

end MagnumTcp
