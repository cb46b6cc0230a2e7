import MagnumTcp.Proof.Sync

namespace MagnumTcp.Tcp

open MagnumTcp.Tcp.Core

def SendBuffer.Behind (sb : SendBuffer) (ack : U32) : Prop :=
  ∀ k < sb.len, seqLt (sb.una + BitVec.ofNat 32 k) ack = false

def RetransmitQueue.Behind (q : RetransmitQueue) (ack : U32) : Prop :=
  ∀ e ∈ q.entries, seqLe e.endSeq ack = false

structure Connection.AckProcessed (c : Connection) (ack : U32) : Prop where
  una : c.tcb.snd.una = ack
  buffer : c.sendBuf.Behind ack
  queue : c.retransmitQueue.Behind ack

namespace SendBuffer

variable {sb : SendBuffer} {ack : U32}

theorem behind_of_una (una : sb.una = ack) : sb.Behind ack := by
  intro k inside
  have full := sb.len_le
  have order := seqLt_iff_lt ack (i := k) (j := 0) (by omega) (by omega)
  rw [BitVec.add_zero] at order
  rw [una, Bool.eq_false_iff, ne_eq, order]
  omega

theorem acknowledge_behind :
    (sb.acknowledge ack).Behind ack ↔ (ack - sb.una).toNat ≤ sb.len ∨ sb.Behind ack := by
  unfold acknowledge
  dsimp only
  split_ifs with ignored
  · rcases ignored with none | much
    · have una : sb.una = ack := by bv_omega
      exact iff_of_true (behind_of_una una) (.inr (behind_of_una una))
    · exact (or_iff_right (Nat.not_le_of_gt much)).symm
  · rw [not_or, Nat.not_lt] at ignored
    simp only [ignored.2, true_or, iff_true]
    exact behind_of_una rfl

end SendBuffer

structure Core.AckEffect (c : Core) (seg : TcpSegment) (c' : Core) : Prop where
  booked : c.state = .established ∨ c.state = .finWait1 →
    c'.una = seg.header.ackNum ∧ c'.sendBuf = c.sendBuf.acknowledge seg.header.ackNum ∧
      c'.queue = c.queue.filter fun e => !fullyAcked (endOf e) seg.header.ackNum
  ignored : c.state = .closeWait → c' = c
  moved : c.state = .closing ∨ c.state = .lastAck →
    c'.una = seg.header.ackNum ∧ c'.sendBuf = c.sendBuf ∧ c'.queue = c.queue

theorem Core.insert_send (c : Core) (seg : TcpSegment) :
    (c.insert seg).una = c.una ∧ (c.insert seg).sendBuf = c.sendBuf ∧
      (c.insert seg).queue = c.queue := by
  unfold Core.insert
  cases c.recvBuf <;> exact ⟨rfl, rfl, rfl⟩

theorem SegmentStep.ackEffect {seg : TcpSegment} {c c' : Core} {out : List SegmentBuilder}
    (step : SegmentStep false seg c c' out) (alive : seg.header.flags.rst = false)
    (good : c.Acceptable seg) : c.AckEffect seg c' := by
  have acked_eq : ∀ k, c.Acked seg k → k = c.acknowledge seg := by
    rintro k (⟨bad, -⟩ | ⟨-, rfl⟩)
    · exact absurd good bad
    · rfl
  cases step with
  | ignore idle =>
      exact ⟨fun state => by
          rcases state with state | state
          · exact absurd state idle.established
          · exact absurd good (idle.unacked (.inl state)), fun _ => rfl,
        fun state => absurd good (idle.unacked (.inr state))⟩
  | reset rst => simp [alive] at rst
  | fastRetransmit _ _ _ third => exact nomatch third
  | quiet _ state _ acked =>
      rw [acked_eq _ acked]
      exact ⟨fun _ => ⟨rfl, rfl, rfl⟩, by simp [state], by simp [state]⟩
  | receive k _ state _ acked =>
      rw [acked_eq _ acked]
      exact ⟨fun _ => insert_send _ _, by simp [state], by simp [state]⟩
  | receiveFin k _ state _ _ acked =>
      rw [acked_eq _ acked]
      exact ⟨fun _ => insert_send _ _, by simp [state], by simp [state]⟩
  | finWait1Ack state => exact ⟨fun _ => ⟨rfl, rfl, rfl⟩, by simp [state], by simp [state]⟩
  | finWait1Done state => exact ⟨fun _ => ⟨rfl, rfl, rfl⟩, by simp [state], by simp [state]⟩
  | finWait1Both _ state => exact ⟨fun _ => ⟨rfl, rfl, rfl⟩, by simp [state], by simp [state]⟩
  | finWait1Fin k _ state _ acked =>
      rw [acked_eq _ acked]
      exact ⟨fun _ => ⟨rfl, rfl, rfl⟩, by simp [state], by simp [state]⟩
  | closingAck state => exact ⟨by simp [state], by simp [state], fun _ => ⟨rfl, rfl, rfl⟩⟩
  | lastAckAck state => exact ⟨by simp [state], by simp [state], fun _ => ⟨rfl, rfl, rfl⟩⟩
  | refuse opening =>
      exact ⟨by rcases opening with h | h | h <;> simp [h], fun _ => rfl,
        by rcases opening with h | h | h <;> simp [h]⟩
  | relisten state => exact ⟨by simp [state], by simp [state], by simp [state]⟩
  | listenSyn _ state => exact ⟨by simp [state], by simp [state], by simp [state]⟩
  | synSentAck _ state => exact ⟨by simp [state], by simp [state], by simp [state]⟩
  | synSentSyn _ state => exact ⟨by simp [state], by simp [state], by simp [state]⟩
  | repeatSynAck _ state => exact ⟨by simp [state], by simp [state], by simp [state]⟩
  | synReceivedAck state => exact ⟨by simp [state], by simp [state], by simp [state]⟩
  | finWait2Fin _ state => exact ⟨by simp [state], by simp [state], by simp [state]⟩
  | timeWaitFin _ state => exact ⟨by simp [state], by simp [state], by simp [state]⟩

namespace Connection

variable {c c' : Connection} {seg : TcpSegment}

theorem processed_booked (una : c'.core.una = seg.header.ackNum)
    (sendBuf : c'.core.sendBuf = c.core.sendBuf.acknowledge seg.header.ackNum)
    (queue : c'.core.queue =
      c.core.queue.filter fun e => !fullyAcked (endOf e) seg.header.ackNum) :
    c'.AckProcessed seg.header.ackNum ↔
      (seg.header.ackNum - c.sendBuf.una).toNat ≤ c.sendBuf.len ∨
        c.sendBuf.Behind seg.header.ackNum := by
  rw [← SendBuffer.acknowledge_behind,
    ← show c'.sendBuf = c.sendBuf.acknowledge seg.header.ackNum from sendBuf]
  refine ⟨fun processed => processed.buffer, fun buffer => ⟨una, buffer, ?_⟩⟩
  intro e member
  have queued : e.segment ∈ c'.core.queue := List.mem_map_of_mem member
  rw [queue] at queued
  have kept := (List.mem_filter.mp queued).2
  rw [Bool.not_eq_true'] at kept
  exact kept

theorem processed_moved (una : c'.core.una = seg.header.ackNum)
    (sendBuf : c'.core.sendBuf = c.core.sendBuf) (queue : c'.core.queue = c.core.queue) :
    c'.AckProcessed seg.header.ackNum ↔
      c.sendBuf.Behind seg.header.ackNum ∧ c.retransmitQueue.Behind seg.header.ackNum := by
  have queued : c'.retransmitQueue.Behind seg.header.ackNum ↔
      c.retransmitQueue.Behind seg.header.ackNum := by
    have segments : ∀ k : Connection, k.retransmitQueue.Behind seg.header.ackNum ↔
        ∀ e ∈ k.core.queue, seqLe (endOf e) seg.header.ackNum = false := by
      intro k
      constructor
      · intro behind segment member
        obtain ⟨e, held, rfl⟩ := List.mem_map.mp member
        exact behind e held
      · intro behind e held
        exact behind e.segment (List.mem_map_of_mem held)
    rw [segments, segments, queue]
  rw [← queued, ← show c'.sendBuf = c.sendBuf from sendBuf]
  exact ⟨fun processed => ⟨processed.buffer, processed.queue⟩,
    fun behind => ⟨una, behind.1, behind.2⟩⟩

/-- The conditions under which an acceptable acknowledgement is processed completely. -/
def ProcessesAck (c : Connection) (ack : U32) : Prop :=
  match c.tcb.state with
  | .established | .finWait1 =>
      (ack - c.sendBuf.una).toNat ≤ c.sendBuf.len ∨ c.sendBuf.Behind ack
  | .closing | .lastAck => c.sendBuf.Behind ack ∧ c.retransmitQueue.Behind ack
  | _ => False

/-- Acceptable acknowledgements are processed in ESTABLISHED and FIN_WAIT_1 unless they cover more
than the buffer holds, in CLOSING and LAST_ACK if nothing is left to be done for them, and
never in CLOSE_WAIT. -/
theorem ack_processed_iff (c : Connection) (now : Instant) (seg : TcpSegment)
    (state : c.tcb.state = .established ∨ c.tcb.state = .closeWait ∨ c.tcb.state = .finWait1 ∨
      c.tcb.state = .closing ∨ c.tcb.state = .lastAck)
    (alive : seg.header.flags.rst = false) (flag : seg.header.flags.ack = true)
    (acceptable : ackAcceptable c.tcb.snd.una seg.header.ackNum c.tcb.snd.nxt = true) :
    (c.processSegment now seg).1.AckProcessed seg.header.ackNum ↔
      c.ProcessesAck seg.header.ackNum := by
  have late : c.fastRetransmits seg = false := by
    cases dup : c.isDupAck seg with
    | false => simp [fastRetransmits, dup]
    | true =>
        have refused := acceptable.symm.trans (not_acceptable_of_isDupAck dup)
        cases refused
  obtain ⟨out, step, -⟩ := c.processSegment_core now seg
  rw [late] at step
  have effect := step.ackEffect alive ⟨flag, acceptable⟩
  unfold ProcessesAck
  rcases state with state | state | state | state | state <;> simp only [state]
  · obtain ⟨una, sendBuf, queue⟩ := effect.booked (.inl state)
    exact processed_booked una sendBuf queue
  · rw [iff_false]
    intro processed
    have una : (c.processSegment now seg).1.tcb.snd.una = c.tcb.snd.una :=
      congrArg Core.una (effect.ignored state)
    have reached := una.symm.trans processed.una
    simp [ackAcceptable, seqLt, reached] at acceptable
  · obtain ⟨una, sendBuf, queue⟩ := effect.booked (.inr state)
    exact processed_booked una sendBuf queue
  · obtain ⟨una, sendBuf, queue⟩ := effect.moved (.inl state)
    exact processed_moved una sendBuf queue
  · obtain ⟨una, sendBuf, queue⟩ := effect.moved (.inr state)
    exact processed_moved una sendBuf queue

end Connection

def halfClosed : List Event :=
  establish ++ [.processSegment 0 (clientSegment (clientIsn + 1#32) (serverIsn + 1#32)
      { fin := true, ack := true } 65535#16 []),
    .writeData [1#8], .nextSegmentToSend 0 1460]

theorem ack_ignored_in_closeWait :
    Session.Along Session.Orderly server halfClosed ∧
      (Session.exec server halfClosed).conn.tcb.state = .closeWait ∧
      ackAcceptable (Session.exec server halfClosed).conn.tcb.snd.una (serverIsn + 2#32)
        (Session.exec server halfClosed).conn.tcb.snd.nxt = true ∧
      ¬ ((Session.exec server halfClosed).conn.processSegment 0
        (ackSegment (serverIsn + 2#32) 65535#16)).1.AckProcessed (serverIsn + 2#32) := by
  refine ⟨by decide +kernel, by decide +kernel, by decide +kernel, fun processed => ?_⟩
  have stuck : ((Session.exec server halfClosed).conn.processSegment 0
      (ackSegment (serverIsn + 2#32) 65535#16)).1.tcb.snd.una ≠ serverIsn + 2#32 := by
    decide +kernel
  exact stuck processed.una

def inFlight : Connection :=
  (Session.exec server (establish ++ [.writeData [1#8], .nextSegmentToSend 0 1460])).conn

theorem ack_processed_in_established :
    (inFlight.tcb.state = .established ∧
      ackAcceptable inFlight.tcb.snd.una (serverIsn + 2#32) inFlight.tcb.snd.nxt = true) ∧
    (inFlight.processSegment 0 (ackSegment (serverIsn + 2#32) 65535#16)).1.AckProcessed
      (serverIsn + 2#32) := by
  have state : inFlight.tcb.state = .established := by decide +kernel
  have good : ackAcceptable inFlight.tcb.snd.una (serverIsn + 2#32) inFlight.tcb.snd.nxt = true := by
    decide +kernel
  have fits : (serverIsn + 2#32 - inFlight.sendBuf.una).toNat ≤ inFlight.sendBuf.len := by
    decide +kernel
  refine ⟨⟨state, good⟩, (Connection.ack_processed_iff inFlight 0
    (ackSegment (serverIsn + 2#32) 65535#16) (.inl state) rfl rfl good).mpr ?_⟩
  unfold Connection.ProcessesAck
  rw [state]
  exact .inl fits

end MagnumTcp.Tcp
