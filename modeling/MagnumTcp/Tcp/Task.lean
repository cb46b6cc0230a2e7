import MagnumTcp.Tcp.Session

namespace MagnumTcp.Tcp

structure Clock where
  call : Instant
  flush : Nat → Instant
  tick : Instant

inductive TaskEvent where
  | inbound (clock : Clock) (seg : TcpSegment)
  | inboundClosed
  | retransmitTick (clock : Clock)
  | zwpTick (clock : Clock)
  | appSend (clock : Clock) (data : Bytes)
  | close (clock : Clock)

structure Task where
  session : Session
  closeInitiated : Bool
  running : Bool
  chunks : List Bytes

namespace Session

-- The `while let` loop of `flush_send_buf`. Every round but the last sends at least one byte of the
-- buffer, so there are at most as many rounds as it holds bytes, and one.
def flushRounds (clock : Nat → Instant) : (rounds i : Nat) → Session → Session
  | 0, _, s => s
  | rounds + 1, i, s =>
      let event := Event.nextSegmentToSend (clock i) mss.toNat
      if (s.output event).isEmpty then s.step event
      else flushRounds clock rounds (i + 1) (s.step event)

def flushSendBuf (s : Session) (clock : Nat → Instant) : Session :=
  flushRounds clock (s.conn.sendBuf.len + 1) 0 s

def forwardReceivedData (s : Session) : Session :=
  let available := s.conn.receivedAvailable
  if available > 0 then s.step (.readReceived available) else s

end Session

namespace Task

def start (conn : Connection) : Task where
  session :=
    { conn := conn
      written := []
      received := []
      emitted := []
      used := false
      established := conn.tcb.state == .established }
  closeInitiated := false
  running := true
  chunks := []

def finish (t : Task) (now : Instant) : Task :=
  let session := t.session.step (.tickTimeWait now)
  { t with
    session := session
    running := !(t.session.conn.tickTimeWait now).2 && session.conn.tcb.state != .closed }

def handle (t : Task) : TaskEvent → Task
  | .inbound clock seg =>
      let session := t.session.step (.processSegment clock.call seg)
      let session := session.forwardReceivedData.flushSendBuf clock.flush
      { t with session := session }.finish clock.tick
  | .inboundClosed => { t with running := false }
  | .retransmitTick clock =>
      { t with session := t.session.step (.takeRetransmits clock.call) }.finish clock.tick
  | .zwpTick clock => { t with session := t.session.step .zeroWindowProbe }.finish clock.tick
  | .appSend clock data =>
      let session := (t.session.step (.writeData data)).flushSendBuf clock.flush
      { t with session := session, chunks := t.chunks ++ [data] }.finish clock.tick
  | .close clock =>
      -- The arm is disabled after the first time.
      if t.closeInitiated then t
      else
        { t with
          session := t.session.step .initiateClose
          closeInitiated := true }.finish clock.tick

def step (t : Task) (event : TaskEvent) : Task := if t.running then t.handle event else t

abbrev exec : Task → List TaskEvent → Task := Runs.exec step
abbrev Along (C : Task → TaskEvent → Prop) : Task → List TaskEvent → Prop := Runs.Along step C
abbrev Always (P : Task → Prop) : Task → List TaskEvent → Prop := Runs.Always step P

end Task

end MagnumTcp.Tcp
