import MagnumTcp.Tcp.Session

namespace MagnumTcp.Tcp

namespace Connection

variable {c : Connection} {now : Instant} {seg : TcpSegment}

theorem establishedReceive_tcb (c : Connection) (seg : TcpSegment) :
    ∃ rcv state, (c.establishedReceive seg).1.tcb = { c.tcb with rcv := rcv, state := state } := by
  have inserted : ∃ rcv, (if seg.payload.isEmpty then c else c.insertPayload seg).tcb =
      { c.tcb with rcv := rcv } := by
    unfold insertPayload
    split_ifs
    · exact ⟨_, rfl⟩
    · cases c.recvBuf <;> exact ⟨_, rfl⟩
  obtain ⟨rcv, inserted⟩ := inserted
  unfold establishedReceive
  dsimp only
  generalize (if seg.payload.isEmpty then c else c.insertPayload seg) = c' at inserted ⊢
  split_ifs
  · exact ⟨rcv, _, inserted⟩
  · refine ⟨{ rcv with nxt := seg.header.seq + BitVec.ofNat 32 seg.payload.length + 1#32 },
      .closeWait, ?_⟩
    simp only [acceptFin, inserted]
  · exact ⟨rcv, _, inserted⟩

theorem saturatingAdd_eq_three (n : U8) : saturatingAdd n 1#8 = 3#8 ↔ n = 2#8 := by
  revert n
  decide

theorem countDupAck_tcb (c : Connection) :
    c.countDupAck.1.tcb =
      { c.tcb with
        dupAckCount := saturatingAdd c.tcb.dupAckCount 1#8
        ssthresh := if c.tcb.dupAckCount = 2#8 then c.halvedWindow else c.tcb.ssthresh
        cwnd :=
          if c.tcb.dupAckCount = 2#8 then c.halvedWindow + 3#32 * mss
          else if c.tcb.dupAckCount > 2#8 then saturatingAdd c.tcb.cwnd mss
          else c.tcb.cwnd } := by
  have past : ∀ n : U8, n ≠ 2#8 → (saturatingAdd n 1#8 > 3#8 ↔ n > 2#8) := by decide
  unfold countDupAck
  simp only [saturatingAdd_eq_three]
  by_cases third : c.tcb.dupAckCount = 2#8
  · simp only [if_pos third]
    rfl
  · simp only [if_neg third, past _ third]
    split_ifs <;> rfl

theorem not_acceptable_of_isDupAck (dup : c.isDupAck seg = true) : c.acceptable seg = false := by
  simp only [isDupAck, Bool.and_eq_true, beq_iff_eq] at dup
  simp [acceptable, ackAcceptable, seqLt, dup.1]

theorem establishedAck_isDupAck (now : Instant) (ack : seg.header.flags.ack = true)
    (dup : c.isDupAck seg = true) : c.establishedAck now seg = c.countDupAck := by
  simp [establishedAck, ack, dup, not_acceptable_of_isDupAck dup]

theorem handleEstablished_tcb (now : Instant) (alive : seg.header.flags.rst = false) :
    ∃ rcv state, (c.handleEstablished now seg).1.tcb =
      { (c.establishedAck now seg).1.tcb with rcv := rcv, state := state } := by
  unfold handleEstablished
  rw [alive, if_neg Bool.false_ne_true]
  cases c.establishedAck now seg with
  | mk c' reply =>
      cases reply with
      | none => exact c'.establishedReceive_tcb seg
      | some retransmit => exact ⟨_, _, rfl⟩

theorem processSegment_established (state : c.tcb.state = .established) :
    c.processSegment now seg = c.handleEstablished now seg := by
  simp only [processSegment, state]

theorem processSegment_tcb (now : Instant) (seg : TcpSegment) (other : c.tcb.state ≠ .established) :
    ∃ snd rcv state, (c.processSegment now seg).1.tcb =
      { c.tcb with snd := snd, rcv := rcv, state := state } := by
  unfold processSegment
  cases state : c.tcb.state with
  | established => exact absurd state other
  | listen =>
      dsimp only [handleListen]
      split_ifs <;> exact ⟨_, _, _, rfl⟩
  | synSent =>
      dsimp only [handleSynSent]
      split_ifs <;> exact ⟨_, _, _, rfl⟩
  | synReceived =>
      dsimp only [handleSynReceived]
      split_ifs <;> exact ⟨_, _, _, rfl⟩
  | closeWait =>
      dsimp only [handleCloseWait]
      split_ifs <;> exact ⟨_, _, _, rfl⟩
  | finWait1 =>
      dsimp only [handleFinWait1]
      split_ifs <;> exact ⟨_, _, _, rfl⟩
  | finWait2 =>
      dsimp only [handleFinWait2]
      split_ifs <;> exact ⟨_, _, _, rfl⟩
  | closing =>
      dsimp only [handleClosing]
      split_ifs <;> exact ⟨_, _, _, rfl⟩
  | lastAck =>
      dsimp only [handleLastAck]
      split_ifs <;> exact ⟨_, _, _, rfl⟩
  | timeWait =>
      dsimp only [handleTimeWait]
      split_ifs <;> exact ⟨_, _, _, rfl⟩
  | closed => exact ⟨_, _, _, rfl⟩

structure Framed (c c' : Connection) : Prop where
  tcb : (∃ nxt state, c'.tcb = { c.tcb with snd := { c.tcb.snd with nxt := nxt }, state := state }) ∨
    c'.tcb = { c.tcb with ssthresh := c.halvedWindow, cwnd := mss }
  timeWaitStart : c'.timeWaitStart = c.timeWaitStart

theorem call_framed (c : Connection) {event : Event}
    (calls : ∀ now seg, event ≠ .processSegment now seg) :
    c.Framed (Session.call c event).1 := by
  cases event with
  | processSegment now seg => exact absurd rfl (calls now seg)
  | writeData data => exact ⟨.inl ⟨_, _, rfl⟩, rfl⟩
  | nextSegmentToSend now maxPayload =>
      dsimp only [Session.call, nextSegmentToSend, Prod.map]
      split_ifs
      · exact ⟨.inl ⟨_, _, rfl⟩, rfl⟩
      · split <;> exact ⟨.inl ⟨_, _, rfl⟩, rfl⟩
  | readReceived bufLen =>
      dsimp only [Session.call, readReceived]
      cases c.recvBuf <;> exact ⟨.inl ⟨_, _, rfl⟩, rfl⟩
  | takeRetransmits now =>
      dsimp only [Session.call, takeRetransmits]
      split_ifs
      · exact ⟨.inl ⟨_, _, rfl⟩, rfl⟩
      · exact ⟨.inr rfl, rfl⟩
  | initiateClose =>
      dsimp only [Session.call, initiateClose, Prod.map]
      split <;> exact ⟨.inl ⟨_, _, rfl⟩, rfl⟩
  | tickTimeWait now =>
      dsimp only [Session.call, tickTimeWait]
      split_ifs
      · exact ⟨.inl ⟨_, _, rfl⟩, rfl⟩
      · split
        · exact ⟨.inl ⟨_, _, rfl⟩, rfl⟩
        · split_ifs <;> exact ⟨.inl ⟨_, _, rfl⟩, rfl⟩
  | connect =>
      dsimp only [Session.call, connect, Prod.map]
      split_ifs <;> exact ⟨.inl ⟨_, _, rfl⟩, rfl⟩
  | zeroWindowProbe =>
      dsimp only [Session.call, zeroWindowProbe, Prod.map]
      split_ifs
      · exact ⟨.inl ⟨_, _, rfl⟩, rfl⟩
      · split <;> exact ⟨.inl ⟨_, _, rfl⟩, rfl⟩

end Connection

end MagnumTcp.Tcp
