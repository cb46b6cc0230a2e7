import MagnumTcp.Proof.CloseSignal
import MagnumTcp.Proof.Dispatch
import MagnumTcp.Tcp.Handler

namespace MagnumTcp.Tcp

open MagnumTcp.Tcp.Core

theorem TcbState.closeWait_stable : Stable (· = .closeWait) where
  expire := fun same => absurd same (by simp)
  connect := fun same => absurd same (by simp)

namespace Session

def InCloseWait (s : Session) : Prop := s.conn.tcb.state = .closeWait

variable {s : Session}

theorem InCloseWait.call (inv : s.InCloseWait) (event : Event)
    (calls : ∀ now seg, event ≠ .processSegment now seg) (other : event ≠ .initiateClose) :
    (s.step event).InCloseWait := step_stable TcbState.closeWait_stable event calls other inv

theorem InCloseWait.processSegment (inv : s.InCloseWait) (now : Instant) {seg : TcpSegment}
    (alive : seg.header.flags.rst = false) : (s.step (.processSegment now seg)).InCloseWait := by
  have ignored : (s.conn.processSegment now seg).1 = s.conn := by
    simp only [Connection.processSegment, show s.conn.tcb.state = .closeWait from inv,
      Connection.handleCloseWait, alive]
    rfl
  have conn : (s.step (.processSegment now seg)).conn = s.conn := ignored
  unfold InCloseWait
  rw [conn]
  exact inv

theorem InCloseWait.flushSendBuf (inv : s.InCloseWait) (clock : Nat → Instant) :
    (s.flushSendBuf clock).InCloseWait := flushSendBuf_stable TcbState.closeWait_stable clock inv

end Session

def TaskEvent.Peaceful : TaskEvent → Prop
  | .inbound _ seg => seg.header.flags.rst = false
  | .close _ => False
  | _ => True

def TaskEvent.Dataless : TaskEvent → Prop
  | .inbound _ _ | .appSend _ _ => False
  | _ => True

namespace Task

variable {t : Task}

theorem receive_closeWait (inv : t.session.InCloseWait) (clock : Clock) {seg : TcpSegment}
    (alive : seg.header.flags.rst = false) : (t.receive clock seg).1.session.InCloseWait :=
  Session.forwardReceivedData_stable TcbState.closeWait_stable
    (inv.processSegment clock.call alive)

theorem finish_closeWait (inv : t.session.InCloseWait) (now : Instant) :
    (t.finish now).session.InCloseWait := finish_stable TcbState.closeWait_stable now inv

theorem resume_closeWait (inv : t.session.InCloseWait) (clock : Clock) :
    (t.resume clock).session.InCloseWait :=
  finish_closeWait (t := { t with session := t.session.flushSendBuf clock.flush })
    (inv.flushSendBuf clock.flush) clock.tick

theorem step_closeWait (inv : t.session.InCloseWait) {event : TaskEvent}
    (peaceful : event.Peaceful) : (t.step event).session.InCloseWait := by
  unfold step
  split_ifs
  · cases event with
    | inbound clock seg =>
        rw [← t.receive_resume]
        exact resume_closeWait (receive_closeWait inv clock peaceful) clock
    | inboundClosed => exact inv
    | retransmitTick clock =>
        exact (inv.call (.takeRetransmits clock.call) (by simp) (by simp)).call _ (by simp) (by simp)
    | zwpTick clock =>
        exact (inv.call .zeroWindowProbe (by simp) (by simp)).call _ (by simp) (by simp)
    | appSend clock data =>
        have written := inv.call (.writeData data) (by simp) (by simp)
        exact (written.flushSendBuf clock.flush).call _ (by simp) (by simp)
    | close clock => exact peaceful.elim
  · exact inv

end Task

def ServedEvent.Peaceful : ServedEvent → Prop
  | .inbound _ seg => seg.header.flags.rst = false
  | .inboundClosed => False
  | _ => True

namespace Served

variable {respond : Instant → Bytes → Bytes} {s : Served}

/-- What one event of a served connection can do. -/
inductive Moves (respond : Instant → Bytes → Bytes) (s : Served) : ServedEvent → Served → Prop
  | stay (event : ServedEvent) : Moves respond s event s
  | received (clock : Clock) (seg : TcpSegment) (idle : s.idle = true)
      (nothing : (s.task.receive clock seg).2 = []) :
      Moves respond s (.inbound clock seg)
        { s with task := (s.task.receive clock seg).1.resume clock }
  | handsOver (clock : Clock) (seg : TcpSegment) (idle : s.idle = true) (chunk : Bytes)
      (filled : chunk ≠ []) (read : (s.task.receive clock seg).2 = chunk) :
      Moves respond s (.inbound clock seg)
        { s with task := (s.task.receive clock seg).1, pending := some (clock, chunk) }
  | handedOver (clock : Clock) (chunk : Bytes) (waits : s.pending = some (clock, chunk))
      (present : s.handler.phase ≠ .returned) (room : s.appData.length < appChannelCapacity) :
      Moves respond s .forwarded
        { s with
          task := s.task.resume clock
          pending := none
          appData := s.appData ++ [chunk] }
  | discarded (clock : Clock) (chunk : Bytes) (waits : s.pending = some (clock, chunk))
      (gone : s.handler.phase = .returned) :
      Moves respond s .forwarded { s with task := s.task.resume clock, pending := none }
  | disconnected (idle : s.idle = true) :
      Moves respond s .inboundClosed { s with task := s.task.step .inboundClosed }
  | ticked (event : ServedEvent) (idle : s.idle = true) (taskEvent : TaskEvent)
      (peaceful : taskEvent.Peaceful) (dataless : taskEvent.Dataless) :
      Moves respond s event { s with task := s.task.step taskEvent }
  | stored (clock : Clock) (idle : s.idle = true) (data : Bytes) (rest : List Bytes)
      (queue : s.appSend = data :: rest) :
      Moves respond s (.appSend clock)
        { s with appSend := rest, task := s.task.step (.appSend clock data) }
  | close (clock : Clock) (idle : s.idle = true) (ready : s.closeReady = true) :
      Moves respond s (.close clock)
        { s with closeSignal := false, task := s.task.step (.close clock) }
  | taken (now : Instant) (reading : s.handler.phase = .reading) (chunk : Bytes)
      (rest : List Bytes) (queue : s.appData = chunk :: rest) :
      Moves respond s (.handler now)
        { s with appData := rest, handler := s.handler.receive (respond now) chunk }
  | replied (now : Instant) (resp : Bytes) (replying : s.handler.phase = .replying resp)
      (appSend : List Bytes) (sent : appSend = s.appSend ∨ appSend = s.appSend ++ [resp]) :
      Moves respond s (.handler now)
        { s with
          appSend := appSend
          handler := { s.handler with phase := .reading, responded := true } }
  | closes (now : Instant) (reading : s.handler.phase = .reading) (ended : ¬ s.task.running = true) :
      Moves respond s (.handler now) { s with handler := { s.handler with phase := .closing } }
  | returns (now : Instant) (closing : s.handler.phase = .closing) (closeSignal : Bool) :
      Moves respond s (.handler now)
        { s with closeSignal := closeSignal, handler := { s.handler with phase := .returned } }

theorem stepHandler_moves (respond : Instant → Bytes → Bytes) (s : Served) (now : Instant) :
    Moves respond s (.handler now) (s.stepHandler respond now) := by
  unfold stepHandler
  cases phase : s.handler.phase with
  | reading =>
      dsimp only
      split
      · rename_i chunk rest queue
        exact .taken now phase chunk rest queue
      · split_ifs with running
        · exact .stay _
        · exact .closes now phase running
  | replying resp =>
      dsimp only
      split_ifs
      · exact .replied now resp phase _ (.inl rfl)
      · exact .replied now resp phase _ (.inr rfl)
      · exact .stay _
  | closing =>
      dsimp only
      split_ifs
      · exact .returns now phase s.closeSignal
      · exact .returns now phase true
      · exact .stay _
  | returned => exact .stay _

theorem step_moves (respond : Instant → Bytes → Bytes) (s : Served) (event : ServedEvent) :
    Moves respond s event (s.step respond event) := by
  cases event with
  | inbound clock seg =>
      dsimp only [step]
      split_ifs with idle
      · have whole : s.task.receive clock seg =
            ((s.task.receive clock seg).1, (s.task.receive clock seg).2) := rfl
        cases read : (s.task.receive clock seg).2 with
        | nil =>
            rw [whole, read]
            exact .received clock seg idle read
        | cons b more =>
            rw [whole, read]
            exact .handsOver clock seg idle (b :: more) (List.cons_ne_nil _ _) read
      · exact .stay _
  | forwarded =>
      dsimp only [step]
      cases waits : s.pending with
      | none => exact .stay _
      | some round =>
          obtain ⟨clock, chunk⟩ := round
          dsimp only
          split_ifs with gone room
          · exact .discarded clock chunk waits gone
          · exact .handedOver clock chunk waits gone room
          · exact .stay _
  | inboundClosed =>
      dsimp only [step]
      split_ifs with idle
      · exact .disconnected idle
      · exact .stay _
  | retransmitTick clock =>
      dsimp only [step]
      split_ifs with idle
      · exact .ticked _ idle (.retransmitTick clock) trivial trivial
      · exact .stay _
  | zwpTick clock =>
      dsimp only [step]
      split_ifs with idle
      · exact .ticked _ idle (.zwpTick clock) trivial trivial
      · exact .stay _
  | appSend clock =>
      dsimp only [step]
      cases idle : s.idle with
      | false => exact .stay _
      | true =>
          cases queue : s.appSend with
          | nil => exact .stay _
          | cons data rest => exact .stored clock idle data rest queue
  | close clock =>
      dsimp only [step]
      split_ifs with ready
      · simp only [Bool.and_eq_true] at ready
        obtain ⟨⟨idle, -⟩, ready⟩ := ready
        exact .close clock idle ready
      · exact .stay _
  | handler now => exact stepHandler_moves respond s now

structure Waiting (s : Served) : Prop where
  signal : s.task.running = true → s.closeSignal = false
  reading : s.task.running = true →
    s.handler.phase ≠ .closing ∧ s.handler.phase ≠ .returned
  midRound : s.pending.isSome = true → s.task.running = true

theorem start_waiting (a : Arrival) : (start a.connection).Waiting where
  signal := fun _ => rfl
  reading := fun _ => ⟨by simp [start, Handler.start], by simp [start, Handler.start]⟩
  midRound := fun waits => absurd waits Bool.false_ne_true

theorem Waiting.not_ready (inv : s.Waiting) (running : s.task.running = true) :
    s.closeReady = false := by
  simp [closeReady, inv.signal running, (inv.reading running).2]

theorem idle_iff : s.idle = true ↔ s.task.running = true ∧ s.pending = none := by
  simp [Served.idle]

theorem Waiting.withTask (inv : s.Waiting) (running : s.task.running = true) (task : Task)
    {p : Option (Clock × Bytes)} (midRound : p.isSome = true → task.running = true)
    (appData appSend : List Bytes) :
    ({ s with task := task, pending := p, appData := appData, appSend := appSend } :
      Served).Waiting :=
  ⟨fun _ => inv.signal running, fun _ => inv.reading running, midRound⟩

theorem Waiting.ownStep (inv : s.Waiting) (idle : s.idle = true) (task : Task)
    (appSend : List Bytes) : ({ s with task := task, appSend := appSend } : Served).Waiting := by
  obtain ⟨running, settled⟩ := idle_iff.mp idle
  refine inv.withTask running task ?_ _ _
  rw [settled]
  exact fun waits => absurd waits Bool.false_ne_true

theorem receive_phase (respond : Bytes → Bytes) {h : Handler} (chunk : Bytes)
    (reading : h.phase = .reading) :
    (h.receive respond chunk).phase ≠ .closing ∧ (h.receive respond chunk).phase ≠ .returned := by
  rcases Handler.receive_reading respond chunk reading with still | ⟨resp, replying⟩
  · exact ⟨by simp [still], by simp [still]⟩
  · exact ⟨by simp [replying], by simp [replying]⟩

theorem step_waiting (s : Served) (event : ServedEvent) (inv : s.Waiting) :
    (s.step respond event).Waiting := by
  have moves := step_moves respond s event
  generalize s.step respond event = s' at moves ⊢
  cases moves with
  | stay => exact inv
  | received clock seg idle => exact inv.ownStep idle _ _
  | handsOver clock seg idle chunk =>
      obtain ⟨running, -⟩ := idle_iff.mp idle
      have runs : (s.task.receive clock seg).1.running = true := running
      exact inv.withTask running _ (fun _ => runs) _ _
  | handedOver clock chunk waits =>
      have running := inv.midRound (by rw [waits]; rfl)
      exact inv.withTask (p := none) running _ (by simp) _ _
  | discarded clock chunk waits =>
      have running := inv.midRound (by rw [waits]; rfl)
      exact inv.withTask (p := none) running _ (by simp) _ _
  | disconnected idle => exact inv.ownStep idle _ _
  | ticked event idle => exact inv.ownStep idle _ _
  | stored clock idle => exact inv.ownStep idle _ _
  | close clock idle ready =>
      rw [inv.not_ready (idle_iff.mp idle).1] at ready
      cases ready
  | taken now reading chunk => exact ⟨inv.signal, fun _ => receive_phase _ chunk reading, inv.midRound⟩
  | replied => exact ⟨inv.signal, fun _ => ⟨by simp, by simp⟩, inv.midRound⟩
  | closes now reading ended => exact ⟨inv.signal, fun runs => absurd runs ended, inv.midRound⟩
  | returns now closing =>
      have ended : ¬ s.task.running = true := fun runs => (inv.reading runs).1 closing
      exact ⟨fun runs => absurd runs ended, fun runs => absurd runs ended, inv.midRound⟩

/-- The peer has closed and the two tasks wait for each other. -/
structure Stuck (s : Served) : Prop where
  waiting : s.Waiting
  closeWait : s.task.session.InCloseWait

theorem step_stuck (s : Served) (event : ServedEvent) (stuck : s.Stuck) (peaceful : event.Peaceful) :
    (s.step respond event).Stuck := by
  refine ⟨step_waiting s event stuck.waiting, ?_⟩
  have inv := stuck.closeWait
  have moves := step_moves respond s event
  generalize s.step respond event = s' at moves ⊢
  cases moves with
  | received clock seg => exact Task.resume_closeWait (Task.receive_closeWait inv clock peaceful) clock
  | handsOver clock seg => exact Task.receive_closeWait inv clock peaceful
  | handedOver clock => exact Task.resume_closeWait inv clock
  | discarded clock => exact Task.resume_closeWait inv clock
  | disconnected => exact peaceful.elim
  | ticked event idle taskEvent calm => exact Task.step_closeWait inv calm
  | stored clock idle data => exact Task.step_closeWait inv (show TaskEvent.Peaceful (.appSend clock data) from trivial)
  | close clock idle ready =>
      rw [stuck.waiting.not_ready (idle_iff.mp idle).1] at ready
      cases ready
  | _ => exact inv

theorem exec_waiting (respond : Instant → Bytes → Bytes) (a : Arrival)
    (events : List ServedEvent) : (exec respond (start a.connection) events).Waiting :=
  Runs.exec_inv (C := fun _ _ => True) (fun s event inv _ => step_waiting s event inv)
    (start_waiting a) (Runs.along_true _ _)

theorem exec_stuck {continuation : List ServedEvent} (stuck : s.Stuck)
    (peaceful : ∀ event ∈ continuation, event.Peaceful) :
    (exec respond s continuation).state = .closeWait :=
  (Runs.exec_inv step_stuck stuck (Runs.along_of_mem peaceful s)).closeWait

theorem closeWait_never_closes (respond : Instant → Bytes → Bytes) (a : Arrival)
    (events : List ServedEvent)
    (reached : (exec respond (start a.connection) events).state = .closeWait) :
    (∀ continuation : List ServedEvent, (∀ event ∈ continuation, event.Peaceful) →
      (exec respond (exec respond (start a.connection) events) continuation).state =
        .closeWait) ∧
    ¬ ∃ continuation : List ServedEvent, (∀ event ∈ continuation, event.Peaceful) ∧
      (exec respond (exec respond (start a.connection) events) continuation).state =
        .lastAck := by
  have stuck : (exec respond (start a.connection) events).Stuck :=
    ⟨exec_waiting respond a events, reached⟩
  refine ⟨fun continuation peaceful => exec_stuck stuck peaceful, ?_⟩
  rintro ⟨continuation, peaceful, last⟩
  rw [exec_stuck stuck peaceful] at last
  cases last

def clientFin (seq : U32) : TcpSegment :=
  clientSegment seq (serverIsn + 1#32) { fin := true, ack := true } 65535#16 []

def handshake : List ServedEvent :=
  [.inbound Task.still AsyncDispatch.clientSyn,
    .inbound Task.still (ackSegment (serverIsn + 1#32) 65535#16)]

def hungUp : List ServedEvent := handshake ++ [.inbound Task.still (clientFin (clientIsn + 1#32))]

def silent : Instant → Bytes → Bytes := fun _ _ => []

def client : Arrival := AsyncDispatch.fromClient AsyncDispatch.clientSyn

theorem closeWait_never_closes_hungUp :
    (exec silent (start client.connection) hungUp).state = .closeWait ∧
    ¬ ∃ continuation : List ServedEvent, (∀ event ∈ continuation, event.Peaceful) ∧
      (exec silent (exec silent (start client.connection) hungUp) continuation).state =
        .lastAck :=
  have reached : (exec silent (start client.connection) hungUp).state = .closeWait := by
    decide +kernel
  ⟨reached, (closeWait_never_closes silent client hungUp reached).2⟩

def echoed : List ServedEvent :=
  handshake ++
    [.inbound Task.still
        (clientSegment (clientIsn + 1#32) (serverIsn + 1#32) { ack := true, psh := true } 65535#16
          [0x68#8, 0x69#8]),
      .forwarded, .handler 0, .handler 0, .appSend Task.still,
      .inbound Task.still (clientFin (clientIsn + 3#32))]

theorem echoed_never_closes :
    ¬ ∀ (respond : Instant → Bytes → Bytes) (a : Arrival) (events : List ServedEvent),
      (exec respond (start a.connection) events).state = .closeWait →
      ∃ continuation : List ServedEvent, (∀ event ∈ continuation, event.Peaceful) ∧
        (exec respond (exec respond (start a.connection) events) continuation).state =
          .lastAck := by
  intro closes
  have reached : (exec silent (start client.connection) echoed).state = .closeWait := by
    decide +kernel
  have stuck : (exec silent (start client.connection) echoed).Stuck :=
    ⟨exec_waiting silent client echoed, reached⟩
  obtain ⟨continuation, peaceful, last⟩ := closes silent client echoed reached
  rw [exec_stuck stuck peaceful] at last
  cases last

end Served

end MagnumTcp.Tcp
