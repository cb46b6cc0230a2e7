import MagnumTcp.Tcp.Header
import MagnumTcp.Tcp.SendBuffer
import MagnumTcp.Tcp.RecvBuffer
import MagnumTcp.Tcp.Retransmit

/-!
# A connection

`connection.rs`: the state machine of one connection with its buffers. A method of the source is a
function from the connection to the connection after the call and what the call returns; segments
are returned as the bytes that go on the wire. The clock is read once for each call, as `now`. No
handler of `process_segment` ever returns an `Err`, so the reply is an option.
-/

namespace MagnumTcp.Tcp

def twoMsl : Duration := .fromSecs 60

structure Connection where
  tcb : Tcb
  sendBuf : SendBuffer
  recvBuf : Option RecvBuffer
  retransmitQueue : RetransmitQueue
  timeWaitStart : Option Instant

def saturatingAdd {w : Nat} (a b : BitVec w) : BitVec w :=
  BitVec.ofNat w (min (a.toNat + b.toNat) (2 ^ w - 1))

def minU32 (a b : U32) : U32 := if a ≤ b then a else b
def maxU32 (a b : U32) : U32 := if a ≤ b then b else a

namespace Connection

def new (tcb : Tcb) : Connection where
  tcb := tcb
  sendBuf := .new tcb.snd.iss
  recvBuf := none
  retransmitQueue := .new
  timeWaitStart := none

def withState (c : Connection) (state : TcbState) : Connection :=
  { c with tcb := { c.tcb with state := state } }

def withSnd (c : Connection) (snd : SendSequence) : Connection :=
  { c with tcb := { c.tcb with snd := snd } }

def currentWindow (c : Connection) : U16 :=
  match c.recvBuf with
  | none => 65535#16
  | some rb => rb.window

/-! ## Segments the connection builds -/

def builder (c : Connection) : SegmentBuilder where
  srcIp := c.tcb.localIp
  dstIp := c.tcb.remoteIp
  srcPort := c.tcb.localPort
  dstPort := c.tcb.remotePort

def reply (c : Connection) (seq : U32) (flags : TcpFlags) (payload : Bytes) : Bytes :=
  { c.builder with
    seq := seq
    ackNum := c.tcb.rcv.nxt
    flags := flags
    window := c.currentWindow
    payload := payload }.build

def buildSyn (c : Connection) : Bytes :=
  { c.builder with seq := c.tcb.snd.iss, flags := { syn := true } }.build

def buildSynAck (c : Connection) : Bytes := c.reply c.tcb.snd.iss { syn := true, ack := true } []

def buildAck (c : Connection) : Bytes := c.reply c.tcb.snd.nxt { ack := true } []

def buildFinAck (c : Connection) : Bytes := c.reply c.tcb.snd.nxt { fin := true, ack := true } []

def buildRst (c : Connection) (seq : U32) : Bytes :=
  { c.builder with seq := seq, flags := { rst := true } }.build

def buildData (c : Connection) (seq : U32) (payload : Bytes) : Bytes :=
  c.reply seq { ack := true, psh := true } payload

/-! ## Calls of the application and of the timers -/

def writeData (c : Connection) (data : Bytes) : Connection × Nat :=
  let (sendBuf, n) := c.sendBuf.write data
  ({ c with sendBuf := sendBuf }, n)

def inflight (c : Connection) : Nat := (c.tcb.snd.nxt - c.tcb.snd.una).toNat

def effectiveWindow (c : Connection) : Nat := min c.tcb.cwnd.toNat c.tcb.snd.wnd.toNat

def nextSegmentToSend (c : Connection) (now : Instant) (maxPayload : Nat) :
    Connection × Option Bytes :=
  if c.inflight ≥ c.effectiveWindow then (c, none)
  else
    let windowAvail := c.effectiveWindow - c.inflight
    let maxLen := min maxPayload windowAvail
    match c.sendBuf.nextSegment maxLen with
    | none => (c, none)
    | some (seq, payload) =>
        let sendBuf := c.sendBuf.advanceNxt payload.length
        let c :=
          { c with
            sendBuf := sendBuf
            retransmitQueue := c.retransmitQueue.push now seq payload
            tcb := { c.tcb with snd := { c.tcb.snd with nxt := sendBuf.nxt } } }
        (c, some (c.buildData seq payload))

def readReceived (c : Connection) (bufLen : Nat) : Connection × Bytes :=
  match c.recvBuf with
  | none => (c, [])
  | some rb =>
      let (rb, bytes) := rb.read bufLen
      ({ c with recvBuf := some rb }, bytes)

def receivedAvailable (c : Connection) : Nat :=
  match c.recvBuf with
  | none => 0
  | some rb => rb.available

def halvedWindow (c : Connection) : U32 := maxU32 (c.tcb.cwnd / 2#32) (2#32 * mss)

def takeRetransmits (c : Connection) (now : Instant) : Connection × List Bytes :=
  let (queue, expired) := c.retransmitQueue.expiredSegments now
  let c := { c with retransmitQueue := queue }
  let c :=
    if expired.isEmpty then c
    else { c with tcb := { c.tcb with ssthresh := c.halvedWindow, cwnd := mss } }
  (c, expired.map fun (seq, payload) => c.buildData seq payload)

def initiateClose (c : Connection) : Connection × Option Bytes :=
  let sent := c.withSnd { c.tcb.snd with nxt := c.tcb.snd.nxt + 1#32 }
  match c.tcb.state with
  | .established => (sent.withState .finWait1, some c.buildFinAck)
  | .closeWait => (sent.withState .lastAck, some c.buildFinAck)
  | _ => (c, none)

def tickTimeWait (c : Connection) (now : Instant) : Connection × Bool :=
  if c.tcb.state ≠ .timeWait then (c, false)
  else
    match c.timeWaitStart with
    | none => (c, false)
    | some start =>
        if now - start ≥ twoMsl then (c.withState .closed, true) else (c, false)

def connect (c : Connection) : Connection × Option Bytes :=
  if c.tcb.state ≠ .closed then (c, none)
  else
    ((c.withSnd { c.tcb.snd with nxt := c.tcb.snd.iss + 1#32 }).withState .synSent, some c.buildSyn)

def zeroWindowProbe (c : Connection) : Connection × Option Bytes :=
  if c.tcb.state ≠ .established ∨ c.tcb.snd.wnd ≠ 0#16 then (c, none)
  else
    match c.sendBuf.nextSegment 1 with
    | none => (c, none)
    | some (seq, payload) =>
        let sendBuf := c.sendBuf.advanceNxt 1
        let c :=
          { c with
            sendBuf := sendBuf
            tcb := { c.tcb with snd := { c.tcb.snd with nxt := sendBuf.nxt } } }
        (c, some (c.reply seq { ack := true } payload))

/-! ## Inbound segments -/

def acceptable (c : Connection) (seg : TcpSegment) : Bool :=
  ackAcceptable c.tcb.snd.una seg.header.ackNum c.tcb.snd.nxt

def acceptSyn (c : Connection) (seg : TcpSegment) : Connection :=
  { c with
    recvBuf := some (.new seg.header.seq)
    tcb := { c.tcb with rcv := { c.tcb.rcv with irs := seg.header.seq, nxt := seg.header.seq + 1#32 } } }

def acceptFin (c : Connection) (seg : TcpSegment) (state : TcbState) : Connection :=
  let nxt := seg.header.seq + BitVec.ofNat 32 seg.payload.length + 1#32
  { c with tcb := { c.tcb with rcv := { c.tcb.rcv with nxt := nxt }, state := state } }

def handleListen (c : Connection) (seg : TcpSegment) : Connection × Option Bytes :=
  let flags := seg.header.flags
  if flags.rst then (c, none)
  else if flags.ack then (c, some (c.buildRst seg.header.ackNum))
  else if !flags.syn then (c, none)
  else
    let c := c.acceptSyn seg
    let c :=
      { c with
        tcb :=
          { c.tcb with
            rcv := { c.tcb.rcv with wnd := seg.header.window }
            snd := { c.tcb.snd with nxt := c.tcb.snd.iss + 1#32 }
            state := .synReceived } }
    (c, some c.buildSynAck)

def handleSynSent (c : Connection) (seg : TcpSegment) : Connection × Option Bytes :=
  let flags := seg.header.flags
  if flags.rst then (c.withState .closed, none)
  else if flags.syn && flags.ack then
    if !c.acceptable seg then (c, some (c.buildRst seg.header.ackNum))
    else
      let c := c.acceptSyn seg
      let c :=
        (c.withSnd { c.tcb.snd with una := seg.header.ackNum, wnd := seg.header.window }).withState
          .established
      (c, some c.buildAck)
  else if flags.syn then
    -- RFC 793: simultaneous open
    let c := c.acceptSyn seg
    let c := (c.withSnd { c.tcb.snd with wnd := seg.header.window }).withState .synReceived
    (c, some c.buildSynAck)
  else (c, none)

def handleSynReceived (c : Connection) (seg : TcpSegment) : Connection × Option Bytes :=
  let flags := seg.header.flags
  if flags.rst then (c.withState .listen, none)
  -- RFC 793: retransmitted SYN, re-send SYN-ACK
  else if flags.syn && !flags.ack && seg.header.seq == c.tcb.rcv.irs then (c, some c.buildSynAck)
  else if !flags.ack then (c, none)
  else if !c.acceptable seg then (c, some (c.buildRst seg.header.ackNum))
  else
    let c := c.withSnd { c.tcb.snd with una := seg.header.ackNum, wnd := seg.header.window }
    let c := { c with sendBuf := c.sendBuf.acknowledge seg.header.ackNum }
    (c.withState .established, none)

def acknowledge (c : Connection) (now : Instant) (seg : TcpSegment) : Connection :=
  { c with
    tcb :=
      { c.tcb with
        snd := { c.tcb.snd with una := seg.header.ackNum, wnd := seg.header.window } }
    sendBuf := c.sendBuf.acknowledge seg.header.ackNum
    retransmitQueue := c.retransmitQueue.acknowledgeAndSampleRtt now seg.header.ackNum }

-- RFC 5681 §3.1: slow start or congestion avoidance
def grownWindow (c : Connection) (seg : TcpSegment) : U32 :=
  let bytesAcked := seg.header.ackNum - c.tcb.snd.una
  if c.tcb.cwnd < c.tcb.ssthresh then saturatingAdd c.tcb.cwnd (minU32 bytesAcked mss)
  else saturatingAdd c.tcb.cwnd (mss * mss / c.tcb.cwnd)

def fastRetransmitSegment (c : Connection) : Option Bytes :=
  c.retransmitQueue.firstUnacked.map fun (seq, payload) => c.buildData seq payload

def isDupAck (c : Connection) (seg : TcpSegment) : Bool :=
  seg.header.ackNum == c.tcb.snd.una && c.tcb.snd.una != c.tcb.snd.nxt

-- RFC 5681 §3.2: duplicate ACK with data in flight
def countDupAck (c : Connection) : Connection × Option Bytes :=
  let dupAckCount := saturatingAdd c.tcb.dupAckCount 1#8
  let c := { c with tcb := { c.tcb with dupAckCount := dupAckCount } }
  if dupAckCount = 3#8 then
    let ssthresh := c.halvedWindow
    let c := { c with tcb := { c.tcb with ssthresh := ssthresh, cwnd := ssthresh + 3#32 * mss } }
    (c, c.fastRetransmitSegment)
  else if dupAckCount > 3#8 then
    ({ c with tcb := { c.tcb with cwnd := saturatingAdd c.tcb.cwnd mss } }, none)
  else (c, none)

-- The ACK branch of ESTABLISHED; a segment in the second component is an early return.
def establishedAck (c : Connection) (now : Instant) (seg : TcpSegment) :
    Connection × Option Bytes :=
  if !seg.header.flags.ack then (c, none)
  else if c.acceptable seg then
    let cwnd := c.grownWindow seg
    let c := c.acknowledge now seg
    ({ c with tcb := { c.tcb with cwnd := cwnd, dupAckCount := 0#8 } }, none)
  else if c.isDupAck seg then c.countDupAck
  else (c, none)

-- The third duplicate ACK with a segment in the queue: the reply is that segment, and the rest of
-- the handler is skipped.
def fastRetransmits (c : Connection) (seg : TcpSegment) : Bool :=
  c.tcb.state == .established && !seg.header.flags.rst && seg.header.flags.ack && c.isDupAck seg &&
    c.tcb.dupAckCount == 2#8 && !c.retransmitQueue.entries.isEmpty

def insertPayload (c : Connection) (seg : TcpSegment) : Connection :=
  match c.recvBuf with
  | none => c
  | some rb =>
      let rb := rb.insert seg.header.seq seg.payload
      { c with
        recvBuf := some rb
        tcb := { c.tcb with rcv := { c.tcb.rcv with nxt := rb.nextExpected } } }

def establishedReceive (c : Connection) (seg : TcpSegment) : Connection × Option Bytes :=
  let c := if seg.payload.isEmpty then c else c.insertPayload seg
  if !seg.payload.isEmpty && !seg.header.flags.fin then (c, some c.buildAck)
  else if seg.header.flags.fin then
    let c := c.acceptFin seg .closeWait
    (c, some c.buildAck)
  else (c, none)

def handleEstablished (c : Connection) (now : Instant) (seg : TcpSegment) :
    Connection × Option Bytes :=
  if seg.header.flags.rst then (c.withState .closed, none)
  else
    match c.establishedAck now seg with
    | (c, some retransmit) => (c, some retransmit)
    | (c, none) => c.establishedReceive seg

def handleCloseWait (c : Connection) (seg : TcpSegment) : Connection × Option Bytes :=
  if seg.header.flags.rst then (c.withState .closed, none) else (c, none)

def handleFinWait1 (c : Connection) (now : Instant) (seg : TcpSegment) :
    Connection × Option Bytes :=
  let flags := seg.header.flags
  if flags.rst then (c.withState .closed, none)
  else
    let acked := flags.ack && c.acceptable seg
    let finAcked := acked && seqLe c.tcb.snd.nxt seg.header.ackNum
    let c := if acked then c.acknowledge now seg else c
    if finAcked && flags.fin then
      let c := { c.acceptFin seg .timeWait with timeWaitStart := some now }
      (c, some c.buildAck)
    else if finAcked then (c.withState .finWait2, none)
    else if flags.fin then
      let c := c.acceptFin seg .closing
      (c, some c.buildAck)
    else (c, none)

def handleFinWait2 (c : Connection) (now : Instant) (seg : TcpSegment) :
    Connection × Option Bytes :=
  if seg.header.flags.rst then (c.withState .closed, none)
  else if seg.header.flags.fin then
    let c := { c.acceptFin seg .timeWait with timeWaitStart := some now }
    (c, some c.buildAck)
  else (c, none)

def handleClosing (c : Connection) (now : Instant) (seg : TcpSegment) :
    Connection × Option Bytes :=
  if seg.header.flags.rst then (c.withState .closed, none)
  else if seg.header.flags.ack && c.acceptable seg then
    let c := (c.withSnd { c.tcb.snd with una := seg.header.ackNum }).withState .timeWait
    ({ c with timeWaitStart := some now }, none)
  else (c, none)

def handleLastAck (c : Connection) (seg : TcpSegment) : Connection × Option Bytes :=
  if seg.header.flags.rst then (c.withState .closed, none)
  else if seg.header.flags.ack && c.acceptable seg then
    ((c.withSnd { c.tcb.snd with una := seg.header.ackNum }).withState .closed, none)
  else (c, none)

def handleTimeWait (c : Connection) (seg : TcpSegment) : Connection × Option Bytes :=
  if seg.header.flags.fin then (c, some c.buildAck) else (c, none)

def processSegment (c : Connection) (now : Instant) (seg : TcpSegment) :
    Connection × Option Bytes :=
  match c.tcb.state with
  | .listen => c.handleListen seg
  | .synReceived => c.handleSynReceived seg
  | .established => c.handleEstablished now seg
  | .closeWait => c.handleCloseWait seg
  | .finWait1 => c.handleFinWait1 now seg
  | .finWait2 => c.handleFinWait2 now seg
  | .closing => c.handleClosing now seg
  | .lastAck => c.handleLastAck seg
  | .timeWait => c.handleTimeWait seg
  | .synSent => c.handleSynSent seg
  | .closed => (c, none)

end Connection

end MagnumTcp.Tcp
