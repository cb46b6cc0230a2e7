import MagnumTcp.Proof.Recovery

namespace MagnumTcp.Tcp

open MagnumTcp.Tcp.Session

/-! ## The entries of the queue -/

namespace RetransmitQueue

def acked (q : RetransmitQueue) (ack : U32) : List RetransmitEntry :=
  q.entries.filter fun e => !fullyAcked e.endSeq ack

theorem acknowledgeAndSampleRtt_entries (q : RetransmitQueue) (now : Instant) (ack : U32) :
    (q.acknowledgeAndSampleRtt now ack).entries = q.acked ack :=
  Connection.updateRto_entries _ _

def resend (now : Instant) (e : RetransmitEntry) : RetransmitEntry :=
  { e with sentAt := now, retransmitted := true }

theorem push_entries (q : RetransmitQueue) (now : Instant) (seq : U32) (data : Bytes) :
    ∃ new : List RetransmitEntry, (q.push now seq data).entries = q.entries ++ new := by
  unfold push
  split_ifs
  · exact ⟨_, rfl⟩
  · exact ⟨[], (List.append_nil _).symm⟩

end RetransmitQueue

namespace Connection

variable {c : Connection} {now : Instant} {seg : TcpSegment}

def acksQueue (c : Connection) (seg : TcpSegment) : Bool :=
  (c.tcb.state == .established || c.tcb.state == .finWait1) && !seg.header.flags.rst &&
    seg.header.flags.ack && c.acceptable seg

theorem establishedReceive_queue (c : Connection) (seg : TcpSegment) :
    (c.establishedReceive seg).1.retransmitQueue = c.retransmitQueue := by
  have inserted : (c.insertPayload seg).retransmitQueue = c.retransmitQueue := by
    unfold insertPayload
    cases c.recvBuf <;> rfl
  unfold establishedReceive
  dsimp only
  split_ifs <;> first | rfl | exact inserted

theorem countDupAck_queue (c : Connection) : c.countDupAck.1.retransmitQueue = c.retransmitQueue := by
  unfold countDupAck
  dsimp only
  split_ifs <;> rfl

theorem handleEstablished_queue_of_alive (c : Connection) (now : Instant) (alive : seg.header.flags.rst = false) :
    (c.handleEstablished now seg).1.retransmitQueue =
      (c.establishedAck now seg).1.retransmitQueue := by
  unfold handleEstablished
  rw [alive, if_neg Bool.false_ne_true]
  cases c.establishedAck now seg with
  | mk c' reply =>
      cases reply with
      | none => exact c'.establishedReceive_queue seg
      | some retransmit => rfl

theorem handleFinWait1_queue (state : c.tcb.state = .finWait1) (now : Instant) :
    (c.handleFinWait1 now seg).1.retransmitQueue =
      if c.acksQueue seg then
        c.retransmitQueue.acknowledgeAndSampleRtt now seg.header.ackNum
      else c.retransmitQueue := by
  unfold handleFinWait1
  cases alive : seg.header.flags.rst with
  | true => simp [acksQueue, alive, withState]
  | false =>
      have acks : c.acksQueue seg = (seg.header.flags.ack && c.acceptable seg) := by
        simp [acksQueue, state, alive]
      rw [acks]
      by_cases acked : (seg.header.flags.ack && c.acceptable seg) = true
      · simp only [alive, acked, if_true, if_neg Bool.false_ne_true]
        split_ifs <;> rfl
      · simp only [alive, acked, if_neg Bool.false_ne_true]
        split_ifs <;> rfl

theorem handleEstablished_queue (state : c.tcb.state = .established) (now : Instant) :
    (c.handleEstablished now seg).1.retransmitQueue =
      if c.acksQueue seg then
        c.retransmitQueue.acknowledgeAndSampleRtt now seg.header.ackNum
      else c.retransmitQueue := by
  cases alive : seg.header.flags.rst with
  | true => simp [handleEstablished, acksQueue, alive, withState]
  | false =>
      have acks : c.acksQueue seg = (seg.header.flags.ack && c.acceptable seg) := by
        simp [acksQueue, state, alive]
      rw [handleEstablished_queue_of_alive c now alive, acks]
      unfold establishedAck
      cases ack : seg.header.flags.ack with
      | false => simp
      | true =>
          by_cases good : c.acceptable seg = true
          · simp [good, acknowledge]
          · simp only [good, Bool.and_false, Bool.not_true, if_neg Bool.false_ne_true]
            split_ifs
            · rw [countDupAck_queue]
            · rfl

theorem processSegment_queue_of_other (now : Instant) (seg : TcpSegment)
    (established : c.tcb.state ≠ .established) (finWait1 : c.tcb.state ≠ .finWait1) :
    (c.processSegment now seg).1.retransmitQueue = c.retransmitQueue := by
  unfold processSegment
  cases state : c.tcb.state with
  | established => exact absurd state established
  | finWait1 => exact absurd state finWait1
  | listen =>
      dsimp only [handleListen]
      split_ifs <;> rfl
  | synSent =>
      dsimp only [handleSynSent]
      split_ifs <;> rfl
  | synReceived =>
      dsimp only [handleSynReceived]
      split_ifs <;> rfl
  | closeWait =>
      dsimp only [handleCloseWait]
      split_ifs <;> rfl
  | finWait2 =>
      dsimp only [handleFinWait2]
      split_ifs <;> rfl
  | closing =>
      dsimp only [handleClosing]
      split_ifs <;> rfl
  | lastAck =>
      dsimp only [handleLastAck]
      split_ifs <;> rfl
  | timeWait =>
      dsimp only [handleTimeWait]
      split_ifs <;> rfl
  | closed => rfl

theorem processSegment_queue (c : Connection) (now : Instant) (seg : TcpSegment) :
    (c.processSegment now seg).1.retransmitQueue =
      if c.acksQueue seg then
        c.retransmitQueue.acknowledgeAndSampleRtt now seg.header.ackNum
      else c.retransmitQueue := by
  by_cases established : c.tcb.state = .established
  · rw [processSegment_established established]
    exact handleEstablished_queue established now
  · by_cases finWait1 : c.tcb.state = .finWait1
    · simp only [processSegment, finWait1]
      exact handleFinWait1_queue finWait1 now
    · have keeps : c.acksQueue seg = false := by simp [acksQueue, established, finWait1]
      rw [keeps, if_neg Bool.false_ne_true]
      exact processSegment_queue_of_other now seg established finWait1

theorem nextSegmentToSend_entries (c : Connection) (now : Instant) (maxPayload : Nat) :
    ∃ new : List RetransmitEntry,
      (c.nextSegmentToSend now maxPayload).1.retransmitQueue.entries =
        c.retransmitQueue.entries ++ new := by
  unfold nextSegmentToSend
  dsimp only
  split_ifs
  · exact ⟨[], (List.append_nil _).symm⟩
  · cases c.sendBuf.nextSegment (min maxPayload (c.effectiveWindow - c.inflight)) with
    | none => exact ⟨[], (List.append_nil _).symm⟩
    | some segment => exact c.retransmitQueue.push_entries now segment.1 segment.2

theorem takeRetransmits_entries (c : Connection) (now : Instant) :
    (c.takeRetransmits now).1.retransmitQueue.entries =
      c.retransmitQueue.entries.map fun e =>
        if c.retransmitQueue.expired now e then RetransmitQueue.resend now e else e := by
  unfold takeRetransmits
  dsimp only
  split_ifs <;> rfl

theorem call_queue (c : Connection) {event : Event}
    (segments : ∀ now seg, event ≠ .processSegment now seg)
    (sends : ∀ now maxPayload, event ≠ .nextSegmentToSend now maxPayload)
    (timeouts : ∀ now, event ≠ .takeRetransmits now) :
    (Session.call c event).1.retransmitQueue = c.retransmitQueue := by
  cases event with
  | processSegment now seg => exact absurd rfl (segments now seg)
  | nextSegmentToSend now maxPayload => exact absurd rfl (sends now maxPayload)
  | takeRetransmits now => exact absurd rfl (timeouts now)
  | writeData data => rfl
  | readReceived bufLen =>
      dsimp only [Session.call, readReceived]
      cases c.recvBuf <;> rfl
  | initiateClose =>
      dsimp only [Session.call, initiateClose, Prod.map]
      split <;> rfl
  | tickTimeWait now =>
      dsimp only [Session.call, tickTimeWait]
      split_ifs
      · rfl
      · cases c.timeWaitStart with
        | none => rfl
        | some start =>
            dsimp only
            split_ifs <;> rfl
  | connect =>
      dsimp only [Session.call, connect, Prod.map]
      split_ifs <;> rfl
  | zeroWindowProbe =>
      dsimp only [Session.call, zeroWindowProbe, Prod.map]
      split_ifs
      · rfl
      · cases c.sendBuf.nextSegment 1 <;> rfl

theorem takeRetransmits_resends (c : Connection) (now : Instant) :
    (c.takeRetransmits now).2 =
      (c.retransmitQueue.entries.filter (c.retransmitQueue.expired now)).map fun e =>
        c.buildData e.seq e.data := by
  unfold takeRetransmits RetransmitQueue.expiredSegments
  simp only [List.map_map]
  split_ifs <;> rfl

theorem fastRetransmits_resends (now : Instant) (fast : c.fastRetransmits seg = true) :
    (c.processSegment now seg).2 =
      c.retransmitQueue.entries.head?.map fun e => c.buildData e.seq e.data := by
  simp only [fastRetransmits, Bool.and_eq_true, Bool.not_eq_true', beq_iff_eq] at fast
  obtain ⟨⟨⟨⟨⟨state, alive⟩, ack⟩, dup⟩, third⟩, some⟩ := fast
  have answer : c.countDupAck.2 =
      c.retransmitQueue.entries.head?.map fun e => c.buildData e.seq e.data := by
    rw [(c.countDupAck_core).2, if_pos third]
    simp only [core, List.head?_map, Option.map_map]
    rfl
  cases first : c.retransmitQueue.entries with
  | nil => simp [first] at some
  | cons e rest =>
      rw [processSegment_established state, handleEstablished, alive, if_neg Bool.false_ne_true,
        establishedAck_isDupAck now ack dup]
      rw [first] at answer
      cases counted : c.countDupAck with
      | mk c' reply =>
          rw [counted] at answer
          dsimp only at answer
          rw [answer]
          rfl

end Connection

/-! ## Counting transmissions -/

structure Traced where
  session : Session
  -- The entries of the queue, each with how often its segment has been put on the wire.
  wire : List (RetransmitEntry × Nat)

namespace Traced

def start (o : Opening) (iss : U32) (e : Endpoint) : Traced := ⟨o.session iss e, []⟩

def trace (w : Traced) : Event → List (RetransmitEntry × Nat)
  | .processSegment _ seg =>
      if w.session.conn.acksQueue seg then
        w.wire.filter fun sent => !fullyAcked sent.1.endSeq seg.header.ackNum
      else if w.session.conn.fastRetransmits seg then
        w.wire.modifyHead fun sent => (sent.1, sent.2 + 1)
      else w.wire
  | .nextSegmentToSend now maxPayload =>
      let queue := (w.session.conn.nextSegmentToSend now maxPayload).1.retransmitQueue
      w.wire ++ (queue.entries.drop w.wire.length).map fun e => (e, 1)
  | .takeRetransmits now =>
      w.wire.map fun sent =>
        if w.session.conn.retransmitQueue.expired now sent.1 then
          (RetransmitQueue.resend now sent.1, sent.2 + 1)
        else sent
  | _ => w.wire

def step (w : Traced) (event : Event) : Traced := ⟨w.session.step event, w.trace event⟩

abbrev exec : Traced → List Event → Traced := Runs.exec step
abbrev Along (C : Traced → Event → Prop) : Traced → List Event → Prop := Runs.Along step C

def sampled (w : Traced) (ack : U32) : List (RetransmitEntry × Nat) :=
  w.wire.filter fun sent => fullyAcked sent.1.endSeq ack && !sent.1.retransmitted

/-- The samples that an acknowledgement yields are those of segments that were sent once. -/
def SamplesOnce (w : Traced) : Event → Prop
  | .processSegment now seg =>
      w.session.conn.acksQueue seg = true →
        w.session.conn.retransmitQueue.rttSamples now seg.header.ackNum =
            (w.sampled seg.header.ackNum).map (fun sent => now - sent.1.sentAt) ∧
          ∀ sent ∈ w.sampled seg.header.ackNum, sent.2 = 1
  | _ => True

/-- A fast retransmit resends only what a timeout has resent before. -/
def ResendsMarked (w : Traced) : Event → Prop
  | .processSegment _ seg =>
      w.session.conn.fastRetransmits seg = true →
        ∀ e ∈ w.session.conn.retransmitQueue.entries.head?, e.retransmitted = true
  | _ => True

structure Marked (w : Traced) : Prop where
  entries : w.wire.map Prod.fst = w.session.conn.retransmitQueue.entries
  once : ∀ sent ∈ w.wire, sent.1.retransmitted = false → sent.2 = 1

theorem start_marked (o : Opening) (iss : U32) (e : Endpoint) : (start o iss e).Marked where
  entries := by cases o <;> rfl
  once := fun _ member => absurd member List.not_mem_nil

theorem Marked.acknowledge {w : Traced} {now : Instant} {seg : TcpSegment} (marked : w.Marked)
    (acks : w.session.conn.acksQueue seg = true) : (w.step (.processSegment now seg)).Marked := by
  have queue : (w.session.step (.processSegment now seg)).conn.retransmitQueue = _ :=
    w.session.conn.processSegment_queue now seg
  rw [if_pos acks] at queue
  have kept : w.trace (.processSegment now seg) =
      w.wire.filter fun sent => !fullyAcked sent.1.endSeq seg.header.ackNum := if_pos acks
  constructor
  · dsimp only [step]
    rw [queue, RetransmitQueue.acknowledgeAndSampleRtt_entries, RetransmitQueue.acked,
      ← marked.entries, List.filter_map, kept]
    rfl
  · dsimp only [step]
    rw [kept]
    exact fun sent member => marked.once sent (List.mem_of_mem_filter member)

theorem Marked.bump {w : Traced} (marked : w.Marked)
    (head : ∀ e ∈ w.session.conn.retransmitQueue.entries.head?, e.retransmitted = true) :
    ∀ sent ∈ w.wire.modifyHead fun sent => (sent.1, sent.2 + 1),
      sent.1.retransmitted = false → sent.2 = 1 := by
  have once := marked.once
  rw [← marked.entries] at head
  cases wire : w.wire with
  | nil => simp
  | cons sent rest =>
      rw [wire] at head once
      rw [List.modifyHead_cons, List.forall_mem_cons]
      constructor
      · intro unmarked
        rw [head sent.1 rfl] at unmarked
        cases unmarked
      · exact (List.forall_mem_cons.mp once).2

theorem Marked.segment {w : Traced} {now : Instant} {seg : TcpSegment} (marked : w.Marked)
    (allowed : w.ResendsMarked (.processSegment now seg)) : (w.step (.processSegment now seg)).Marked := by
  by_cases acks : w.session.conn.acksQueue seg = true
  · exact marked.acknowledge acks
  · have queue : (w.session.step (.processSegment now seg)).conn.retransmitQueue = _ :=
      w.session.conn.processSegment_queue now seg
    rw [if_neg acks] at queue
    by_cases fast : w.session.conn.fastRetransmits seg = true
    · have bumped : w.trace (.processSegment now seg) =
          w.wire.modifyHead fun sent => (sent.1, sent.2 + 1) := by
        simp only [trace, if_neg acks, if_pos fast]
      constructor
      · dsimp only [step]
        rw [queue, ← marked.entries, bumped]
        cases w.wire <;> rfl
      · dsimp only [step]
        rw [bumped]
        exact marked.bump (allowed fast)
    · have kept : w.trace (.processSegment now seg) = w.wire := by
        simp only [trace, if_neg acks, if_neg fast]
      constructor
      · dsimp only [step]
        rw [queue, kept]
        exact marked.entries
      · dsimp only [step]
        rw [kept]
        exact marked.once

theorem Marked.send {w : Traced} (marked : w.Marked) (now : Instant) (maxPayload : Nat) :
    (w.step (.nextSegmentToSend now maxPayload)).Marked := by
  obtain ⟨new, entries⟩ := w.session.conn.nextSegmentToSend_entries now maxPayload
  have length : w.wire.length = w.session.conn.retransmitQueue.entries.length := by
    rw [← marked.entries, List.length_map]
  have appended : w.trace (.nextSegmentToSend now maxPayload) =
      w.wire ++ new.map fun e => (e, 1) := by
    simp only [trace, entries, length, List.drop_left]
  constructor
  · refine Eq.trans ?_ entries.symm
    dsimp only [step]
    rw [appended, List.map_append, marked.entries, List.map_map]
    simp [Function.comp_def]
  · dsimp only [step]
    rw [appended, List.forall_mem_append]
    refine ⟨marked.once, ?_⟩
    intro sent member _
    obtain ⟨e, -, rfl⟩ := List.mem_map.mp member
    rfl

theorem Marked.timeout {w : Traced} (marked : w.Marked) (now : Instant) :
    (w.step (.takeRetransmits now)).Marked := by
  constructor
  · refine Eq.trans ?_ (w.session.conn.takeRetransmits_entries now).symm
    dsimp only [step, trace]
    rw [← marked.entries, List.map_map, List.map_map]
    apply List.map_congr_left
    intro sent _
    dsimp only [Function.comp]
    split_ifs <;> rfl
  · dsimp only [step, trace]
    intro sent member unmarked
    obtain ⟨before, old, rfl⟩ := List.mem_map.mp member
    split_ifs at unmarked ⊢ with expired
    · cases unmarked
    · exact marked.once before old unmarked

theorem Marked.call {w : Traced} {event : Event} (marked : w.Marked)
    (segments : ∀ now seg, event ≠ .processSegment now seg)
    (sends : ∀ now maxPayload, event ≠ .nextSegmentToSend now maxPayload)
    (timeouts : ∀ now, event ≠ .takeRetransmits now) : (w.step event).Marked := by
  have queue := w.session.conn.call_queue segments sends timeouts
  have kept : w.trace event = w.wire := by
    cases event with
    | processSegment now seg => exact absurd rfl (segments now seg)
    | nextSegmentToSend now maxPayload => exact absurd rfl (sends now maxPayload)
    | takeRetransmits now => exact absurd rfl (timeouts now)
    | _ => rfl
  constructor
  · dsimp only [step]
    rw [kept, marked.entries]
    exact congrArg _ queue.symm
  · dsimp only [step]
    rw [kept]
    exact marked.once

theorem step_marked (w : Traced) (event : Event) (marked : w.Marked) (allowed : w.ResendsMarked event) :
    (w.step event).Marked := by
  cases event with
  | processSegment now seg => exact marked.segment allowed
  | nextSegmentToSend now maxPayload => exact marked.send now maxPayload
  | takeRetransmits now => exact marked.timeout now
  | _ => exact marked.call (by simp) (by simp) (by simp)

theorem samplesOnce (w : Traced) (event : Event) (marked : w.Marked) : w.SamplesOnce event := by
  cases event with
  | processSegment now seg =>
      intro acks
      constructor
      · rw [RetransmitQueue.rttSamples, ← marked.entries, List.filter_map, List.map_map]
        rfl
      · intro sent member
        obtain ⟨queued, due⟩ := List.mem_filter.mp member
        rw [Bool.and_eq_true, Bool.not_eq_true'] at due
        exact marked.once sent queued due.2
  | _ => trivial

theorem karn_rule (o : Opening) (iss : U32) (e : Endpoint) (events : List Event)
    (run : Along ResendsMarked (start o iss e) events) : Along SamplesOnce (start o iss e) events :=
  Runs.along_inv step_marked (fun w event marked _ => w.samplesOnce event marked)
    (start_marked o iss e) run

instance (w : Traced) : (event : Event) → Decidable (w.ResendsMarked event)
  | .processSegment _ _ => inferInstanceAs (Decidable (_ → _))
  | .writeData _ | .nextSegmentToSend _ _ | .readReceived _ | .takeRetransmits _ | .initiateClose
  | .tickTimeWait _ | .connect | .zeroWindowProbe => isTrue trivial

instance (w : Traced) : (event : Event) → Decidable (w.SamplesOnce event)
  | .processSegment _ _ => inferInstanceAs (Decidable (_ → _ ∧ _))
  | .writeData _ | .nextSegmentToSend _ _ | .readReceived _ | .takeRetransmits _ | .initiateClose
  | .tickTimeWait _ | .connect | .zeroWindowProbe => isTrue trivial

def resentThenAcked : List Event :=
  flowing ++ List.replicate 3 (clientAck (serverIsn + 1#32) 65535#16) ++
    [clientAck (serverIsn + 2#32) 65535#16]

theorem resent_segment_sampled :
    Session.Along Orderly server resentThenAcked ∧
    ¬ Along SamplesOnce (start .passive serverIsn serverEnd) resentThenAcked := by
  decide +kernel

def resentTwice : List Event :=
  flowing ++ .takeRetransmits initialRto ::
    List.replicate 3 (clientAck (serverIsn + 1#32) 65535#16) ++ [clientAck (serverIsn + 2#32) 65535#16]

theorem karn_rule_resentTwice :
    Along ResendsMarked (start .passive serverIsn serverEnd) resentTwice ∧
    Along SamplesOnce (start .passive serverIsn serverEnd) resentTwice := by
  have run : Along ResendsMarked (start .passive serverIsn serverEnd) resentTwice := by decide +kernel
  exact ⟨run, karn_rule _ _ _ _ run⟩

end Traced

end MagnumTcp.Tcp
