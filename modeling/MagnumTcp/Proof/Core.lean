import MagnumTcp.Tcp.Session

/-!
# The core of a connection

What a connection does to the byte streams, without congestion control, timers and window updates. A core
keeps the sequence variables, the two buffers and the contents of the retransmit queue;
`CoreStep` says what each event may do to it and which segments it may emit. When a segment is sent and
how much of the buffer goes into it is left open, as is the window every segment advertises.
-/

namespace MagnumTcp.Tcp

structure Core where
  ends : Endpoint
  state : TcbState
  iss : U32
  una : U32
  nxt : U32
  irs : U32
  rcvNxt : U32
  sendBuf : SendBuffer
  recvBuf : Option RecvBuffer
  queue : List (U32 × Bytes)

def RetransmitEntry.segment (e : RetransmitEntry) : U32 × Bytes := (e.seq, e.data)

def Connection.core (c : Connection) : Core where
  ends := ⟨c.tcb.localIp, c.tcb.localPort, c.tcb.remoteIp, c.tcb.remotePort⟩
  state := c.tcb.state
  iss := c.tcb.snd.iss
  una := c.tcb.snd.una
  nxt := c.tcb.snd.nxt
  irs := c.tcb.rcv.irs
  rcvNxt := c.tcb.rcv.nxt
  sendBuf := c.sendBuf
  recvBuf := c.recvBuf
  queue := c.retransmitQueue.entries.map RetransmitEntry.segment

namespace Core

def builder (c : Core) : SegmentBuilder where
  srcIp := c.ends.localIp
  dstIp := c.ends.remoteIp
  srcPort := c.ends.localPort
  dstPort := c.ends.remotePort

def bare (c : Core) (seq : U32) (flags : TcpFlags) : SegmentBuilder :=
  { c.builder with seq := seq, flags := flags }

def reply (c : Core) (seq : U32) (flags : TcpFlags) (payload : Bytes) (window : U16) :
    SegmentBuilder :=
  { c.builder with
    seq := seq, ackNum := c.rcvNxt, flags := flags, window := window, payload := payload }

def synAck (c : Core) (window : U16) : SegmentBuilder :=
  c.reply c.iss { syn := true, ack := true } [] window

def ack (c : Core) (window : U16) : SegmentBuilder := c.reply c.nxt { ack := true } [] window

def finAck (c : Core) (window : U16) : SegmentBuilder :=
  c.reply c.nxt { fin := true, ack := true } [] window

def data (c : Core) (window : U16) (segment : U32 × Bytes) : SegmentBuilder :=
  c.reply segment.1 { ack := true, psh := true } segment.2 window

def acceptSyn (c : Core) (seg : TcpSegment) : Core :=
  { c with
    irs := seg.header.seq
    rcvNxt := seg.header.seq + 1#32
    recvBuf := some (.new seg.header.seq) }

def acceptFin (c : Core) (seg : TcpSegment) (state : TcbState) : Core :=
  { c with
    rcvNxt := seg.header.seq + BitVec.ofNat 32 seg.payload.length + 1#32
    state := state }

def insert (c : Core) (seg : TcpSegment) : Core :=
  match c.recvBuf with
  | none => c
  | some rb =>
      let rb := rb.insert seg.header.seq seg.payload
      { c with recvBuf := some rb, rcvNxt := rb.nextExpected }

def endOf (segment : U32 × Bytes) : U32 := segment.1 + BitVec.ofNat 32 segment.2.length

def acknowledge (c : Core) (seg : TcpSegment) : Core :=
  { c with
    una := seg.header.ackNum
    sendBuf := c.sendBuf.acknowledge seg.header.ackNum
    queue := c.queue.filter fun e => !fullyAcked (endOf e) seg.header.ackNum }

def Acceptable (c : Core) (seg : TcpSegment) : Prop :=
  seg.header.flags.ack = true ∧ ackAcceptable c.una seg.header.ackNum c.nxt = true

def FinAcked (c : Core) (seg : TcpSegment) : Prop :=
  c.Acceptable seg ∧ seqLe c.nxt seg.header.ackNum = true

def Acked (c : Core) (seg : TcpSegment) (c' : Core) : Prop :=
  ¬ c.Acceptable seg ∧ c' = c ∨ c.Acceptable seg ∧ c' = c.acknowledge seg

structure Idle (c : Core) (seg : TcpSegment) : Prop where
  established : c.state ≠ .established
  finWait : c.state = .finWait1 ∨ c.state = .finWait2 → seg.header.flags.fin = false
  unacked : c.state = .finWait1 ∨ c.state = .closing ∨ c.state = .lastAck → ¬ c.Acceptable seg

def push (c : Core) (segment : U32 × Bytes) : List (U32 × Bytes) :=
  if c.queue.length < retransmitQueueMax then c.queue ++ [segment] else c.queue

def sent (c : Core) (segment : U32 × Bytes) : Core :=
  let sendBuf := c.sendBuf.advanceNxt segment.2.length
  { c with sendBuf := sendBuf, nxt := sendBuf.nxt, queue := c.push segment }

def probed (c : Core) : Core :=
  let sendBuf := c.sendBuf.advanceNxt 1
  { c with sendBuf := sendBuf, nxt := sendBuf.nxt }

end Core

open MagnumTcp.Tcp.Core

/-- What one inbound segment may do; `early` tells whether a fast retransmit is the answer to it. -/
inductive SegmentStep (early : Bool) (seg : TcpSegment) : Core → Core → List SegmentBuilder → Prop
  | ignore (c : Core) (idle : c.Idle seg) : SegmentStep early seg c c []
  | refuse (c : Core) (opening : c.state = .listen ∨ c.state = .synSent ∨ c.state = .synReceived) :
      SegmentStep early seg c c [c.bare seg.header.ackNum { rst := true }]
  | reset (c : Core) (rst : seg.header.flags.rst = true) :
      SegmentStep early seg c { c with state := .closed } []
  | relisten (c : Core) (state : c.state = .synReceived) :
      SegmentStep early seg c { c with state := .listen } []
  | listenSyn (c : Core) (w : U16) (state : c.state = .listen) (syn : seg.header.flags.syn = true) :
      SegmentStep early seg c { c.acceptSyn seg with nxt := c.iss + 1#32, state := .synReceived }
        [(c.acceptSyn seg).synAck w]
  | synSentAck (c : Core) (w : U16) (state : c.state = .synSent) (syn : seg.header.flags.syn = true)
      (acceptable : c.Acceptable seg) :
      SegmentStep early seg c
        { c.acceptSyn seg with una := seg.header.ackNum, state := .established }
        [(c.acceptSyn seg).ack w]
  | synSentSyn (c : Core) (w : U16) (state : c.state = .synSent) (syn : seg.header.flags.syn = true) :
      SegmentStep early seg c { c.acceptSyn seg with state := .synReceived }
        [(c.acceptSyn seg).synAck w]
  | repeatSynAck (c : Core) (w : U16) (state : c.state = .synReceived) :
      SegmentStep early seg c c [c.synAck w]
  | synReceivedAck (c : Core) (state : c.state = .synReceived) (acceptable : c.Acceptable seg) :
      SegmentStep early seg c
        { c with
          una := seg.header.ackNum
          sendBuf := c.sendBuf.acknowledge seg.header.ackNum
          state := .established } []
  | fastRetransmit (c : Core) (w : U16) (segment : U32 × Bytes) (state : c.state = .established)
      (third : early = true) (first : c.queue.head? = some segment) :
      SegmentStep early seg c c [c.data w segment]
  | quiet (c c' : Core) (state : c.state = .established) (late : early = false)
      (acked : c.Acked seg c') (payload : seg.payload = []) (fin : seg.header.flags.fin = false) :
      SegmentStep early seg c c' []
  | receive (c c' : Core) (w : U16) (state : c.state = .established) (late : early = false)
      (acked : c.Acked seg c') (payload : seg.payload ≠ []) (fin : seg.header.flags.fin = false) :
      SegmentStep early seg c (c'.insert seg) [(c'.insert seg).ack w]
  | receiveFin (c c' : Core) (w : U16) (state : c.state = .established) (late : early = false)
      (alive : seg.header.flags.rst = false) (acked : c.Acked seg c')
      (fin : seg.header.flags.fin = true) :
      SegmentStep early seg c ((c'.insert seg).acceptFin seg .closeWait)
        [((c'.insert seg).acceptFin seg .closeWait).ack w]
  | finWait1Ack (c : Core) (state : c.state = .finWait1) (acceptable : c.Acceptable seg)
      (unfinished : ¬ c.FinAcked seg) (fin : seg.header.flags.fin = false) :
      SegmentStep early seg c (c.acknowledge seg) []
  | finWait1Done (c : Core) (state : c.state = .finWait1) (acked : c.FinAcked seg)
      (fin : seg.header.flags.fin = false) :
      SegmentStep early seg c { c.acknowledge seg with state := .finWait2 } []
  | finWait1Both (c : Core) (w : U16) (state : c.state = .finWait1)
      (alive : seg.header.flags.rst = false) (acked : c.FinAcked seg)
      (fin : seg.header.flags.fin = true) :
      SegmentStep early seg c ((c.acknowledge seg).acceptFin seg .timeWait)
        [((c.acknowledge seg).acceptFin seg .timeWait).ack w]
  | finWait1Fin (c c' : Core) (w : U16) (state : c.state = .finWait1)
      (alive : seg.header.flags.rst = false) (acked : c.Acked seg c')
      (unfinished : ¬ c.FinAcked seg) (fin : seg.header.flags.fin = true) :
      SegmentStep early seg c (c'.acceptFin seg .closing) [(c'.acceptFin seg .closing).ack w]
  | finWait2Fin (c : Core) (w : U16) (state : c.state = .finWait2)
      (alive : seg.header.flags.rst = false) (fin : seg.header.flags.fin = true) :
      SegmentStep early seg c (c.acceptFin seg .timeWait) [(c.acceptFin seg .timeWait).ack w]
  | closingAck (c : Core) (state : c.state = .closing) (alive : seg.header.flags.rst = false)
      (acceptable : c.Acceptable seg) :
      SegmentStep early seg c { c with una := seg.header.ackNum, state := .timeWait } []
  | lastAckAck (c : Core) (state : c.state = .lastAck) (alive : seg.header.flags.rst = false)
      (acceptable : c.Acceptable seg) :
      SegmentStep early seg c { c with una := seg.header.ackNum, state := .closed } []
  | timeWaitFin (c : Core) (w : U16) (state : c.state = .timeWait) :
      SegmentStep early seg c c [c.ack w]

inductive CoreStep : Event → Core → Core → List SegmentBuilder → Prop
  | segment {now : Instant} {early : Bool} {seg : TcpSegment} {c c' : Core}
      {out : List SegmentBuilder} (step : SegmentStep early seg c c' out) :
      CoreStep (.processSegment now seg) c c' out
  | write (data : Bytes) (c : Core) :
      CoreStep (.writeData data) c { c with sendBuf := (c.sendBuf.write data).1 } []
  | send (now : Instant) (maxPayload maxLen : Nat) (c : Core) (segment : U32 × Bytes) (w : U16)
      (bounded : maxLen ≤ 65535) (next : c.sendBuf.nextSegment maxLen = some segment) :
      CoreStep (.nextSegmentToSend now maxPayload) c (c.sent segment)
        [(c.sent segment).data w segment]
  | sendNothing (now : Instant) (maxPayload : Nat) (c : Core) :
      CoreStep (.nextSegmentToSend now maxPayload) c c []
  | read (bufLen : Nat) (c : Core) :
      CoreStep (.readReceived bufLen) c
        { c with recvBuf := c.recvBuf.map fun rb => (rb.read bufLen).1 } []
  | retransmit (now : Instant) (c : Core) (w : U16) (segments : List (U32 × Bytes))
      (held : ∀ segment ∈ segments, segment ∈ c.queue) :
      CoreStep (.takeRetransmits now) c c (segments.map (c.data w))
  | close (c : Core) (w : U16) (state : TcbState)
      (able : c.state = .established ∧ state = .finWait1 ∨ c.state = .closeWait ∧ state = .lastAck) :
      CoreStep .initiateClose c { c with nxt := c.nxt + 1#32, state := state } [c.finAck w]
  | closeNothing (c : Core) (unable : c.state ≠ .established ∧ c.state ≠ .closeWait) :
      CoreStep .initiateClose c c []
  | expire (now : Instant) (c : Core) (state : c.state = .timeWait) :
      CoreStep (.tickTimeWait now) c { c with state := .closed } []
  | tickNothing (now : Instant) (c : Core) : CoreStep (.tickTimeWait now) c c []
  | connect (c : Core) (state : c.state = .closed) :
      CoreStep .connect c { c with nxt := c.iss + 1#32, state := .synSent }
        [c.bare c.iss { syn := true }]
  | connectNothing (c : Core) (opened : c.state ≠ .closed) : CoreStep .connect c c []
  | probe (c : Core) (segment : U32 × Bytes) (w : U16) (state : c.state = .established)
      (next : c.sendBuf.nextSegment 1 = some segment) :
      CoreStep .zeroWindowProbe c c.probed [c.probed.reply segment.1 { ack := true } segment.2 w]
  | probeNothing (c : Core) : CoreStep .zeroWindowProbe c c []

end MagnumTcp.Tcp
