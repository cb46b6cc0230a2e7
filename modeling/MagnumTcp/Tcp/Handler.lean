import MagnumTcp.Tcp.Task
import Mathlib.Tactic.SplitIfs

/-!
# A connection and its handler

`handle_connection` of `main.rs`, next to the task it talks to. The two share the channels `app_data`,
`app_send` and `close`; an end of a channel is dropped when its owner returns. Each event is what one of
the two does between two of its `await`s, so a task that waits to hand over received data stands in the
middle of its round.
-/

namespace MagnumTcp.Tcp

def appChannelCapacity : Nat := 64

inductive HandlerPhase where
  | reading
  | replying (resp : Bytes)
  | closing
  | returned
deriving DecidableEq, Repr

structure Handler where
  phase : HandlerPhase
  requestBuf : Bytes
  responded : Bool
deriving DecidableEq, Repr

namespace Handler

def start : Handler := ⟨.reading, [], false⟩

-- "GET ", "POST ", "HEAD ", "PUT " and "DELETE "
def httpMethods : List Bytes :=
  [[0x47#8, 0x45#8, 0x54#8, 0x20#8], [0x50#8, 0x4f#8, 0x53#8, 0x54#8, 0x20#8],
    [0x48#8, 0x45#8, 0x41#8, 0x44#8, 0x20#8], [0x50#8, 0x55#8, 0x54#8, 0x20#8],
    [0x44#8, 0x45#8, 0x4c#8, 0x45#8, 0x54#8, 0x45#8, 0x20#8]]

def isHttp (requestBuf : Bytes) : Bool := httpMethods.any fun method => method.isPrefixOf requestBuf

def headersComplete (requestBuf : Bytes) : Bool :=
  requestBuf.tails.any fun rest => [0x0d#8, 0x0a#8, 0x0d#8, 0x0a#8].isPrefixOf rest

-- The body of the loop up to the point where the answer is sent. `respond` is `build_http_response`,
-- which may look at the clock.
def receive (respond : Bytes → Bytes) (h : Handler) (chunk : Bytes) : Handler :=
  let requestBuf := h.requestBuf ++ chunk
  let h := { h with requestBuf := requestBuf }
  if h.responded then h
  else if isHttp requestBuf && headersComplete requestBuf then
    { h with phase := .replying (respond requestBuf) }
  else if !isHttp requestBuf && !requestBuf.isEmpty then { h with phase := .replying requestBuf }
  else h

theorem receive_reading (respond : Bytes → Bytes) {h : Handler} (chunk : Bytes)
    (reading : h.phase = .reading) : (h.receive respond chunk).phase = .reading ∨
      ∃ resp, (h.receive respond chunk).phase = .replying resp := by
  simp only [receive]
  split_ifs <;> simp [reading]

end Handler

namespace Task

-- The inbound arm up to the `await` in `forward_received_data`, with what is to be handed over.
def receive (t : Task) (clock : Clock) (seg : TcpSegment) : Task × Bytes :=
  let session := t.session.step (.processSegment clock.call seg)
  let available := session.conn.receivedAvailable
  ({ t with session := session.forwardReceivedData },
    if available > 0 then (session.conn.readReceived available).2 else [])

-- The rest of that arm and the end of the round.
def resume (t : Task) (clock : Clock) : Task :=
  { t with session := t.session.flushSendBuf clock.flush }.finish clock.tick

theorem receive_resume (t : Task) (clock : Clock) (seg : TcpSegment) :
    (t.receive clock seg).1.resume clock = t.handle (.inbound clock seg) := rfl

end Task

inductive ServedEvent where
  | inbound (clock : Clock) (seg : TcpSegment)
  | forwarded
  | inboundClosed
  | retransmitTick (clock : Clock)
  | zwpTick (clock : Clock)
  | appSend (clock : Clock)
  | close (clock : Clock)
  | handler (now : Instant)

structure Served where
  task : Task
  -- The data that the task waits to hand over, with the clock of its round.
  pending : Option (Clock × Bytes)
  appData : List Bytes
  appSend : List Bytes
  closeSignal : Bool
  handler : Handler

namespace Served

def start (conn : Connection) : Served where
  task := .start conn
  pending := none
  appData := []
  appSend := []
  closeSignal := false
  handler := .start

def idle (s : Served) : Bool := s.task.running && s.pending.isNone

-- `close_rx.recv()` returns with a message or because the sender is gone.
def closeReady (s : Served) : Bool := s.closeSignal || s.handler.phase == .returned

def stepHandler (respond : Instant → Bytes → Bytes) (now : Instant) (s : Served) : Served :=
  match s.handler.phase with
  | .reading =>
      match s.appData with
      | chunk :: rest =>
          { s with appData := rest, handler := s.handler.receive (respond now) chunk }
      | [] =>
          if s.task.running then s else { s with handler := { s.handler with phase := .closing } }
  | .replying resp =>
      let answered := { s.handler with phase := .reading, responded := true }
      if !s.task.running then { s with handler := answered }
      else if s.appSend.length < appChannelCapacity then
        { s with appSend := s.appSend ++ [resp], handler := answered }
      else s
  | .closing =>
      let done := { s.handler with phase := .returned }
      if !s.task.running then { s with handler := done }
      else if !s.closeSignal then { s with closeSignal := true, handler := done }
      else s
  | .returned => s

def step (respond : Instant → Bytes → Bytes) (s : Served) : ServedEvent → Served
  | .inbound clock seg =>
      if s.idle then
        match s.task.receive clock seg with
        | (task, []) => { s with task := task.resume clock }
        | (task, chunk) => { s with task := task, pending := some (clock, chunk) }
      else s
  | .forwarded =>
      match s.pending with
      | none => s
      | some (clock, chunk) =>
          let resumed := { s with task := s.task.resume clock, pending := none }
          if s.handler.phase = .returned then resumed
          else if s.appData.length < appChannelCapacity then
            { resumed with appData := s.appData ++ [chunk] }
          else s
  | .inboundClosed => if s.idle then { s with task := s.task.step .inboundClosed } else s
  | .retransmitTick clock =>
      if s.idle then { s with task := s.task.step (.retransmitTick clock) } else s
  | .zwpTick clock => if s.idle then { s with task := s.task.step (.zwpTick clock) } else s
  | .appSend clock =>
      match s.idle, s.appSend with
      | true, data :: rest =>
          { s with appSend := rest, task := s.task.step (.appSend clock data) }
      | _, _ => s
  | .close clock =>
      if s.idle && !s.task.closeInitiated && s.closeReady then
        { s with closeSignal := false, task := s.task.step (.close clock) }
      else s
  | .handler now => s.stepHandler respond now

abbrev exec (respond : Instant → Bytes → Bytes) : Served → List ServedEvent → Served :=
  Runs.exec (step respond)

def state (s : Served) : TcbState := s.task.session.conn.tcb.state

-- What the handler takes from its channel in an event.
def takes (s : Served) : ServedEvent → List Bytes
  | .handler _ => if s.handler.phase = .reading then s.appData.take 1 else []
  | _ => []

end Served

-- A connection with the chunks that its handler has taken, in order.
structure ServedRun where
  served : Served
  taken : List Bytes

namespace ServedRun

def start (conn : Connection) : ServedRun := ⟨.start conn, []⟩

def step (respond : Instant → Bytes → Bytes) (r : ServedRun) (event : ServedEvent) : ServedRun :=
  ⟨r.served.step respond event, r.taken ++ r.served.takes event⟩

end ServedRun

end MagnumTcp.Tcp
