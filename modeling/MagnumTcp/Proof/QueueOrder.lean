import MagnumTcp.Proof.Diagram
import MagnumTcp.Proof.Queue

namespace MagnumTcp.Tcp

open MagnumTcp.Tcp.Core

def Precedes (a b : U32 × Bytes) : Prop := seqLt a.1 b.1 = true ∧ seqLe (endOf a) b.1 = true

theorem Leads.sending {event : Event} {before after : TcbState} (leads : Leads event before after)
    (sending : after.sending = true) : before.opening = true ∨ before.sending = true := by
  cases leads with
  | stay => exact .inr sending
  | synAck => exact .inl rfl
  | ack => exact .inl rfl
  | fin => exact .inr rfl
  | _ => cases sending

theorem Core.acked_queue {c c' : Core} {seg : TcpSegment} (acked : c.Acked seg c') :
    List.Sublist c'.queue c.queue := by
  rcases acked with ⟨-, rfl⟩ | ⟨-, rfl⟩
  · exact .refl _
  · exact List.filter_sublist

theorem Core.insert_queue (c : Core) (seg : TcpSegment) : (c.insert seg).queue = c.queue := by
  unfold Core.insert
  cases c.recvBuf <;> rfl

theorem SegmentStep.queue {early : Bool} {seg : TcpSegment} {c c' : Core}
    {out : List SegmentBuilder} (step : SegmentStep early seg c c' out) :
    List.Sublist c'.queue c.queue := by
  cases step with
  | quiet _ _ _ acked => exact acked_queue acked
  | receive k _ _ _ acked =>
      rw [insert_queue]
      exact acked_queue acked
  | receiveFin k _ _ _ _ acked =>
      change List.Sublist (k.insert seg).queue c.queue
      rw [insert_queue]
      exact acked_queue acked
  | finWait1Ack => exact List.filter_sublist
  | finWait1Done => exact List.filter_sublist
  | finWait1Both => exact List.filter_sublist
  | finWait1Fin k _ _ _ acked =>
      have fewer := acked_queue acked
      exact fewer
  | _ => exact .refl _

theorem CoreStep.queue {event : Event} {c c' : Core} {out : List SegmentBuilder}
    (step : CoreStep event c c' out) :
    List.Sublist c'.queue c.queue ∨
      ∃ n segment, c.sendBuf.nextSegment n = some segment ∧ c'.state = c.state ∧
        c.queue.length < retransmitQueueMax ∧ c'.queue = c.queue ++ [segment] := by
  cases step with
  | segment step => exact .inl step.queue
  | send _ _ n _ segment v bounded next =>
      by_cases room : c.queue.length < retransmitQueueMax
      · exact .inr ⟨n, segment, next, rfl, room, if_pos room⟩
      · left
        have same : (c.sent segment).queue = c.queue := if_neg room
        rw [same]
  | _ => exact .inl (.refl _)

theorem CoreStep.queue_length {event : Event} {c c' : Core} {out : List SegmentBuilder}
    (step : CoreStep event c c' out) (bounded : c.queue.length ≤ retransmitQueueMax) :
    c'.queue.length ≤ retransmitQueueMax := by
  rcases step.queue with fewer | ⟨n, segment, next, state, room, pushed⟩
  · exact fewer.length_le.trans bounded
  · rw [pushed, List.length_append, List.length_singleton]
    exact room

-- A queued segment is no longer than the receiver's window, so half of the sequence space is far away.
theorem Core.Recent.precedes {c : Core} {W : Bytes} {w : Window} (recent : c.Recent w)
    (counts : c.Counts W w) (synced : c.Synced) (sends : c.Sends W)
    (sending : c.state.sending = true) {n : Nat} {segment : U32 × Bytes}
    (next : c.sendBuf.nextSegment n = some segment) : ∀ e ∈ c.queue, Precedes e segment := by
  intro e member
  obtain ⟨una, nxt⟩ := synced.aligned counts sending
  have close := counts.close
  have ordered := counts.ordered
  obtain ⟨nonempty, short⟩ := sends.sized e member
  have positive := List.length_pos_of_ne_nil nonempty
  obtain ⟨i, seq, after, before⟩ := recent e member
  obtain ⟨-, start, -, -⟩ := counts.nextSegment next
  constructor
  · rw [seq, start, seqLt_iff_lt c.iss (by omega) (by omega)]
    omega
  · rw [endOf, seq, start, Serial.add_ofNat_ofNat, seqLe_iff_le c.iss (by omega) (by omega)]
    exact before

theorem CoreStep.queue_ordered {event : Event} {c c' : Core} {out : List SegmentBuilder} {W : Bytes}
    {w : Window} (step : CoreStep event c c' out) (counts : c.Counts W w) (synced : c.Synced)
    (sends : c.Sends W) (empty : c.state.opening → W = []) (recent : c.state.sending → c.Recent w)
    (ordered : c.state.sending → c.queue.Pairwise Precedes) (sending' : c'.state.sending) :
    c'.queue.Pairwise Precedes := by
  have before : c.queue.Pairwise Precedes := by
    rcases step.leads.sending sending' with opening | sending
    · rw [empty opening] at sends
      rw [sends.queue_nil]
      exact .nil
    · exact ordered sending
  rcases step.queue with fewer | ⟨n, segment, next, state, room, pushed⟩
  · exact before.sublist fewer
  · rw [state] at sending'
    rw [pushed, List.pairwise_append]
    refine ⟨before, List.pairwise_singleton _ _, ?_⟩
    intro e member new found
    rw [List.mem_singleton.mp found]
    exact (recent sending').precedes counts synced sends sending' next e member

/-- Entries end in the outstanding range, each behind the one before it, and there are at most 128. What a
timeout resends is in the same order and not acknowledged. -/
structure Connection.InOrder (c : Connection) : Prop where
  nonempty : ∀ e ∈ c.retransmitQueue.entries, e.data ≠ []
  ends : ∀ e ∈ c.retransmitQueue.entries,
    0 < (e.endSeq - c.tcb.snd.una).toNat ∧
      (e.endSeq - c.tcb.snd.una).toNat ≤ (c.tcb.snd.nxt - c.tcb.snd.una).toNat
  increasing : c.retransmitQueue.entries.Pairwise fun a b =>
    seqLt a.seq b.seq = true ∧ seqLe a.endSeq b.seq = true
  bounded : c.retransmitQueue.entries.length ≤ 128
  resends : ∀ now, ∀ segment ∈ (c.retransmitQueue.expiredSegments now).2,
    fullyAcked (endOf segment) c.tcb.snd.una = false
  resendsInOrder : ∀ now, (c.retransmitQueue.expiredSegments now).2.Pairwise fun a b =>
    seqLt a.1 b.1 = true

namespace Session

structure Ordered (s : Session) (w : Window) : Prop where
  outstanding : s.Outstanding w
  ordered : s.conn.core.state.sending → s.conn.core.queue.Pairwise Precedes
  bounded : s.conn.core.queue.length ≤ retransmitQueueMax

theorem start_ordered (o : Opening) (iss : U32) (e : Endpoint) :
    (o.session iss e).Ordered .fresh := by
  have empty : (o.session iss e).conn.core.queue = [] := by cases o <;> rfl
  refine ⟨start_outstanding o iss e, ?_, ?_⟩
  · rw [empty]
    exact fun _ => .nil
  · rw [empty]
    exact Nat.zero_le _

theorem ordered_step (s : Session) (event : Event) (inv : ∃ w, s.Ordered w)
    (usage : s.Orderly event) : ∃ w, (s.step event).Ordered w := by
  obtain ⟨w, inv⟩ := inv
  obtain ⟨w', next, -⟩ := inv.outstanding.step usage
  obtain ⟨out, step, -⟩ := s.step_core event
  have synced := inv.outstanding.synced
  exact ⟨w', next, step.queue_ordered synced.windowed.counts synced.synced inv.outstanding.sends
    synced.empty inv.outstanding.recent inv.ordered, step.queue_length inv.bounded⟩

theorem Ordered.inOrder {s : Session} {w : Window} (inv : s.Ordered w)
    (state : s.conn.tcb.state = .established) : s.conn.InOrder := by
  have sending : s.conn.core.state.sending = true := congrArg TcbState.sending state
  have counts := inv.outstanding.synced.windowed.counts
  obtain ⟨una, nxt⟩ := inv.outstanding.synced.synced.aligned counts sending
  have close := counts.close
  have ordered := counts.ordered
  have entry : ∀ e ∈ s.conn.retransmitQueue.entries, e.segment ∈ s.conn.core.queue := fun e member =>
    List.mem_map_of_mem member
  have inside : ∀ segment ∈ s.conn.core.queue, ∃ x, w.una < x ∧ x ≤ w.nxt ∧
      endOf segment = s.conn.core.iss + BitVec.ofNat 32 x := by
    intro segment member
    obtain ⟨i, seq, after, before⟩ := inv.outstanding.recent sending segment member
    exact ⟨i + segment.2.length, after, by omega, by rw [endOf, seq, Serial.add_ofNat_ofNat]⟩
  have pairs := inv.ordered sending
  rw [show s.conn.core.queue = s.conn.retransmitQueue.entries.map RetransmitEntry.segment from rfl,
    List.pairwise_map] at pairs
  refine ⟨?_, ?_, pairs, ?_, ?_, ?_⟩
  · exact fun e member => (inv.outstanding.sends.sized _ (entry e member)).1
  · intro e member
    obtain ⟨x, after, before, number⟩ := inside _ (entry e member)
    have una : s.conn.tcb.snd.una = s.conn.core.iss + BitVec.ofNat 32 w.una := counts.una
    rw [show s.conn.tcb.snd.nxt = s.conn.core.iss + BitVec.ofNat 32 w.nxt from counts.nxt, una,
      show e.endSeq = s.conn.core.iss + BitVec.ofNat 32 x from number,
      Serial.sub_toNat_of_le _ after.le (by omega), Serial.sub_toNat_of_le _ ordered (by omega)]
    omega
  · have bounded := inv.bounded
    rwa [Connection.core, List.length_map] at bounded
  · intro now segment member
    obtain ⟨e, held, rfl⟩ := List.mem_map.mp member
    obtain ⟨x, after, before, number⟩ := inside _ (entry e (List.mem_of_mem_filter held))
    rw [show endOf (e.seq, e.data) = s.conn.core.iss + BitVec.ofNat 32 x from number,
      show s.conn.tcb.snd.una = s.conn.core.iss + BitVec.ofNat 32 w.una from counts.una,
      Bool.eq_false_iff, ne_eq, fullyAcked, seqLe_iff_le _ (by omega) (by omega)]
    omega
  · intro now
    apply List.pairwise_map.mpr
    exact (pairs.sublist List.filter_sublist).imp And.left

theorem queue_in_order (o : Opening) (iss : U32) (e : Endpoint) (events : List Event)
    (usage : Along Orderly (o.session iss e) events) :
    Always (fun s => s.conn.tcb.state = .established → s.conn.InOrder) (o.session iss e) events := by
  apply Runs.always_inv ordered_step
  · rintro s ⟨w, inv⟩
    exact inv.inOrder
  · exact ⟨_, start_ordered o iss e⟩
  · exact usage

theorem queue_in_order_transfer :
    Along Orderly server transfer ∧
    Always (fun s => s.conn.tcb.state = .established → s.conn.InOrder) server transfer := by
  have usage : Along Orderly server transfer := by decide +kernel
  exact ⟨usage, queue_in_order _ _ _ _ usage⟩

end Session

end MagnumTcp.Tcp
