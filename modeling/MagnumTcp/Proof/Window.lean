import MagnumTcp.Proof.Sender
import MagnumTcp.Proof.Sequence

/-!
# The send window as positions

The four sequence numbers of the sending side stand for positions in an unbounded sequence space, counted
from the initial sequence number: the SYN is at 0 and the first byte written at 1. The two copies
in the TCB and in the send buffer may drift apart, but never so far that a comparison
modulo `2 ^ 32` could go wrong.
-/

namespace MagnumTcp.Tcp

open MagnumTcp.Tcp.Core

structure Window where
  una : Nat
  nxt : Nat
  bufUna : Nat
  bufNxt : Nat

def Window.fresh : Window where
  una := 0
  nxt := 0
  bufUna := 1
  bufNxt := 1

/-- The numbers of `c` are those of the positions `w`, where `W` has been written. -/
structure Core.Counts (c : Core) (W : Bytes) (w : Window) : Prop where
  una : c.una = c.iss + BitVec.ofNat 32 w.una
  nxt : c.nxt = c.iss + BitVec.ofNat 32 w.nxt
  bufUna : c.sendBuf.una = c.iss + BitVec.ofNat 32 w.bufUna
  bufNxt : c.sendBuf.nxt = c.iss + BitVec.ofNat 32 w.bufNxt
  written : w.bufUna + c.sendBuf.len = W.length + 1
  filled : w.bufNxt ≤ w.bufUna + c.sendBuf.len
  first : 1 ≤ w.bufUna
  begun : 1 ≤ w.bufNxt
  ordered : w.una ≤ w.nxt
  buffered : w.bufUna ≤ w.una + 1
  -- A FIN takes one number that the buffer does not know of.
  sent : w.nxt ≤ w.bufNxt + 1
  acked : w.bufUna ≤ w.bufNxt + 1

structure Window.Stage (w : Window) (state : TcbState) : Prop where
  unfinished : state.opening ∨ state.sending → w.nxt ≤ w.bufNxt ∧ w.bufUna ≤ w.bufNxt
  unacked : state.opening → w.una = 0
  opened : state.sending ∨ state = .synSent ∨ state = .synReceived → 1 ≤ w.nxt

/-- Positions only grow, and once the FIN is sent `nxt` moves with the buffer only. -/
structure Window.Moves (w w' : Window) (state : TcbState) : Prop where
  forward : w.bufNxt ≤ w'.bufNxt
  closed : ¬ state.opening → ¬ state.sending →
    w'.nxt = w.nxt ∨ w'.nxt = w'.bufNxt ∧ w.bufNxt < w'.bufNxt

namespace SendBuffer

variable {sb : SendBuffer} {iss : U32} {p x : Nat}

theorem acknowledge_position (una : sb.una = iss + BitVec.ofNat 32 p) (forward : p ≤ x)
    (close : x < p + 2 ^ 32) :
    (x = p ∨ p + sb.len < x) ∧ sb.acknowledge (iss + BitVec.ofNat 32 x) = sb ∨
    (p < x ∧ x ≤ p + sb.len) ∧
      (sb.acknowledge (iss + BitVec.ofNat 32 x)).una = iss + BitVec.ofNat 32 x ∧
      (sb.acknowledge (iss + BitVec.ofNat 32 x)).nxt = sb.nxt ∧
      x + (sb.acknowledge (iss + BitVec.ofNat 32 x)).len = p + sb.len := by
  have distance : (iss + BitVec.ofNat 32 x - sb.una).toNat = x - p := by
    rw [una]
    exact Serial.sub_toNat_of_le iss forward (by omega)
  unfold acknowledge
  simp only [distance]
  split_ifs with ignored
  · exact .inl ⟨by omega, rfl⟩
  · refine .inr ⟨by omega, rfl, rfl, ?_⟩
    simp only [len, RingBuffer.skip_len] at *
    omega

theorem inflight_position (una : sb.una = iss + BitVec.ofNat 32 p)
    (nxt : sb.nxt = iss + BitVec.ofNat 32 x) (forward : p ≤ x) (close : x < p + 2 ^ 32) :
    sb.inflight = x - p := by
  unfold inflight
  rw [una, nxt]
  exact Serial.sub_toNat_of_le iss forward (by omega)

theorem inflight_past (una : sb.una = iss + BitVec.ofNat 32 (x + 1))
    (nxt : sb.nxt = iss + BitVec.ofNat 32 x) : sb.inflight = 2 ^ 32 - 1 := by
  unfold inflight
  rw [una, nxt, Serial.sub_toNat_of_gt iss (Nat.lt_succ_self x) (by omega)]
  omega

end SendBuffer

namespace Core.Counts

variable {c : Core} {W : Bytes} {w : Window} {seg : TcpSegment}

theorem close (counts : c.Counts W w) : w.nxt ≤ w.una + 65538 := by
  have := c.sendBuf.len_le
  have := counts.filled
  have := counts.buffered
  have := counts.sent
  omega

theorem unique (counts : c.Counts W w) {v : Window} (again : c.Counts W v) : v = w := by
  have full := c.sendBuf.len_le
  obtain ⟨hu, hn, hbu, hbn, hw, hf, h1, h2, ho, hb, hs, ha⟩ := counts
  obtain ⟨ku, kn, kbu, kbn, kw, kf, k1, k2, ko, kb, ks, ka⟩ := again
  have bufUna : v.bufUna = w.bufUna := by omega
  have una := Serial.eq_of_add_ofNat c.iss (by omega) (by omega) (ku.symm.trans hu)
  have nxt := Serial.eq_of_add_ofNat c.iss (by omega) (by omega) (kn.symm.trans hn)
  have bufNxt := Serial.eq_of_add_ofNat c.iss (by omega) (by omega) (kbn.symm.trans hbn)
  cases v
  cases w
  simp_all

theorem outstanding (counts : c.Counts W w) : (c.nxt - c.una).toNat = w.nxt - w.una := by
  have close := counts.close
  rw [counts.nxt, counts.una]
  exact Serial.sub_toNat_of_le c.iss counts.ordered (by omega)

theorem acceptable (counts : c.Counts W w) :
    c.Acceptable seg ↔ seg.header.flags.ack = true ∧
      ∃ x, seg.header.ackNum = c.iss + BitVec.ofNat 32 x ∧ w.una < x ∧ x ≤ w.nxt := by
  have close := counts.close
  have outstanding := counts.outstanding
  unfold Acceptable
  rw [ackAcceptable_iff_distance (by omega), outstanding]
  constructor
  · rintro ⟨flag, positive, inside⟩
    refine ⟨flag, w.una + (seg.header.ackNum - c.una).toNat, ?_, by omega, by omega⟩
    rw [← Serial.add_ofNat_ofNat, ← counts.una, Serial.add_sub_toNat]
  · rintro ⟨flag, x, number, after, inside⟩
    refine ⟨flag, ?_⟩
    rw [number, counts.una, Serial.sub_toNat_of_le c.iss after.le (by omega)]
    omega

theorem moveUna (counts : c.Counts W w) {c' : Core} {x : Nat} (after : w.una ≤ x)
    (inside : x ≤ w.nxt) (iss : c'.iss = c.iss) (una : c'.una = c.iss + BitVec.ofNat 32 x)
    (nxt : c'.nxt = c.nxt) (sendBuf : c'.sendBuf = c.sendBuf) :
    c'.Counts W { w with una := x } := by
  have buffered := counts.buffered
  obtain ⟨hu, hn, hbu, hbn, hw, hf, h1, h2, -, -, hs, ha⟩ := counts
  refine ⟨?_, ?_, ?_, ?_, ?_, ?_, h1, h2, inside, by dsimp only; omega, hs, ha⟩
  · rw [iss, una]
  · rw [iss, nxt, hn]
  · rw [iss, sendBuf, hbu]
  · rw [iss, sendBuf, hbn]
  · rw [sendBuf, hw]
  · rw [sendBuf]
    exact hf

theorem acceptUna (counts : c.Counts W w) (good : c.Acceptable seg) :
    ∃ x, ∀ c' : Core, c'.iss = c.iss → c'.una = seg.header.ackNum → c'.nxt = c.nxt →
      c'.sendBuf = c.sendBuf → c'.Counts W { w with una := x } := by
  obtain ⟨-, x, number, after, inside⟩ := counts.acceptable.mp good
  refine ⟨x, ?_⟩
  intro c' iss una nxt sendBuf
  exact counts.moveUna after.le inside iss (una.trans number) nxt sendBuf

theorem congr (counts : c.Counts W w) {c' : Core} (iss : c'.iss = c.iss) (una : c'.una = c.una)
    (nxt : c'.nxt = c.nxt) (sendBuf : c'.sendBuf = c.sendBuf) : c'.Counts W w :=
  counts.moveUna (Nat.le_refl _) counts.ordered iss (una.trans counts.una) nxt sendBuf

theorem acknowledge (counts : c.Counts W w) {x : Nat} (after : w.una < x) (inside : x ≤ w.nxt)
    (number : seg.header.ackNum = c.iss + BitVec.ofNat 32 x) :
    ∃ p, (c.acknowledge seg).Counts W { w with una := x, bufUna := p } ∧
      (p = x ∨ p = w.bufUna ∧ w.bufUna + c.sendBuf.len < x) := by
  have full := c.sendBuf.len_le
  have close := counts.close
  have buffered := counts.buffered
  have moved : ({ c with una := seg.header.ackNum } : Core).Counts W { w with una := x } :=
    counts.moveUna after.le inside rfl number rfl rfl
  obtain ⟨hu, hn, hbu, hbn, hw, hf, h1, h2, ho, hb, hs, ha⟩ := moved
  dsimp only at hu hn hbu hbn hw hf h1 h2 ho hb hs ha
  rcases SendBuffer.acknowledge_position hbu (show w.bufUna ≤ x by omega) (by omega) with
    ⟨ignored, same⟩ | ⟨taken, una, nxt, len⟩
  · refine ⟨w.bufUna, ?_, by omega⟩
    unfold Core.acknowledge
    rw [number, same]
    exact ⟨rfl, hn, hbu, hbn, hw, hf, h1, h2, ho, hb, hs, ha⟩
  · refine ⟨x, ?_, .inl rfl⟩
    unfold Core.acknowledge
    rw [number]
    refine ⟨rfl, hn, una, nxt.trans hbn, ?_, ?_, ?_, h2, ho, ?_, hs, ?_⟩ <;> dsimp only <;> omega

theorem acked_cases (counts : c.Counts W w) {c' : Core} (acked : c.Acked seg c') :
    c' = c ∨ ∃ x p, seg.header.flags.ack = true ∧
      seg.header.ackNum = c.iss + BitVec.ofNat 32 x ∧ w.una < x ∧ x ≤ w.nxt ∧
      c' = c.acknowledge seg ∧ c'.Counts W { w with una := x, bufUna := p } ∧
      (p = x ∨ p = w.bufUna ∧ w.bufUna + c.sendBuf.len < x) := by
  rcases acked with ⟨-, rfl⟩ | ⟨good, rfl⟩
  · exact .inl rfl
  · obtain ⟨flag, x, number, after, inside⟩ := counts.acceptable.mp good
    obtain ⟨p, booked, follows⟩ := counts.acknowledge after inside number
    exact .inr ⟨x, p, flag, number, after, inside, rfl, booked, follows⟩

theorem write (counts : c.Counts W w) (data : Bytes) :
    ({ c with sendBuf := (c.sendBuf.write data).1 } : Core).Counts
      (W ++ data.take (c.sendBuf.write data).2) w := by
  obtain ⟨hu, hn, hbu, hbn, hw, hf, h1, h2, ho, hb, hs, ha⟩ := counts
  refine ⟨hu, hn, hbu, hbn, ?_, ?_, h1, h2, ho, hb, hs, ha⟩
  · rw [SendBuffer.write_len, List.length_append]
    omega
  · rw [SendBuffer.write_len]
    omega

theorem fin (counts : c.Counts W w) (unfinished : w.nxt ≤ w.bufNxt) (state : TcbState) :
    ({ c with nxt := c.nxt + 1#32, state := state } : Core).Counts W { w with nxt := w.nxt + 1 } := by
  obtain ⟨hu, hn, hbu, hbn, hw, hf, h1, h2, ho, hb, hs, ha⟩ := counts
  refine ⟨hu, ?_, hbu, hbn, hw, hf, h1, h2, ?_, hb, ?_, ha⟩
  · rw [← Serial.add_ofNat_ofNat, ← hn]
  · dsimp only
    omega
  · dsimp only
    omega

theorem insert (counts : c.Counts W w) : (c.insert seg).Counts W w := by
  unfold Core.insert
  cases c.recvBuf with
  | none => exact counts
  | some rb => exact counts.congr rfl rfl rfl rfl

theorem nextSegment (counts : c.Counts W w) {n : Nat} {segment : U32 × Bytes}
    (next : c.sendBuf.nextSegment n = some segment) :
    w.bufUna ≤ w.bufNxt ∧ segment.1 = c.iss + BitVec.ofNat 32 w.bufNxt ∧ 0 < segment.2.length ∧
      w.bufNxt + segment.2.length ≤ w.bufUna + c.sendBuf.len := by
  obtain ⟨seq, unsent, positive, -, length⟩ := SendBuffer.nextSegment_some next
  have full := c.sendBuf.len_le
  have filled := counts.filled
  have acked := counts.acked
  rcases Nat.lt_or_ge w.bufNxt w.bufUna with past | inside
  · have stuck := SendBuffer.inflight_past (x := w.bufNxt)
      (by rw [counts.bufUna, show w.bufUna = w.bufNxt + 1 by omega]) counts.bufNxt
    omega
  · have inflight := SendBuffer.inflight_position counts.bufUna counts.bufNxt inside (by omega)
    exact ⟨inside, seq.trans counts.bufNxt, by omega, by omega⟩

theorem base (counts : c.Counts W w) : c.sendBuf.base W + 1 = w.bufUna := by
  have written := counts.written
  have first := counts.first
  unfold SendBuffer.base
  omega

theorem inflight (counts : c.Counts W w) (inside : w.bufUna ≤ w.bufNxt) :
    c.sendBuf.inflight = w.bufNxt - w.bufUna := by
  have full := c.sendBuf.len_le
  have filled := counts.filled
  exact SendBuffer.inflight_position counts.bufUna counts.bufNxt inside (by omega)

theorem slice (counts : c.Counts W w) (sends : c.Sends W) {n : Nat} {segment : U32 × Bytes}
    (next : c.sendBuf.nextSegment n = some segment) : SliceAt W (w.bufNxt - 1) segment.2 := by
  obtain ⟨inside, -⟩ := counts.nextSegment next
  have base := counts.base
  have inflight := counts.inflight inside
  obtain ⟨-, slice⟩ := sends.buffer.nextSegment next
  rwa [show c.sendBuf.base W + c.sendBuf.inflight = w.bufNxt - 1 by omega] at slice

theorem advance (counts : c.Counts W w) {n : Nat} {segment : U32 × Bytes}
    (next : c.sendBuf.nextSegment n = some segment) {c' : Core} (iss : c'.iss = c.iss)
    (una : c'.una = c.una) (sendBuf : c'.sendBuf = c.sendBuf.advanceNxt segment.2.length)
    (nxt : c'.nxt = c'.sendBuf.nxt) :
    c'.Counts W
      { w with nxt := w.bufNxt + segment.2.length, bufNxt := w.bufNxt + segment.2.length } := by
  obtain ⟨inside, seq, positive, fits⟩ := counts.nextSegment next
  have later : c'.sendBuf.nxt = c.iss + BitVec.ofNat 32 (w.bufNxt + segment.2.length) := by
    rw [sendBuf, ← Serial.add_ofNat_ofNat, ← counts.bufNxt]
    rfl
  obtain ⟨hu, hn, hbu, hbn, hw, hf, h1, h2, ho, hb, hs, ha⟩ := counts
  refine ⟨?_, ?_, ?_, ?_, ?_, ?_, h1, ?_, ?_, hb, ?_, ?_⟩
  · rw [una, iss, hu]
  · rw [nxt, later, iss]
  · rw [sendBuf, iss]
    exact hbu
  · rw [later, iss]
  · rw [sendBuf]
    exact hw
  · rw [sendBuf]
    exact fits
  all_goals dsimp only; omega

end Core.Counts

theorem Window.Moves.refl (w : Window) (state : TcbState) : w.Moves w state :=
  ⟨Nat.le_refl _, fun _ _ => .inl rfl⟩

/-! ## Steps -/

theorem Window.Stage.leave {w : Window} {state : TcbState} (done : state.opening = false)
    (silent : state.sending = false) : w.Stage state := by
  refine ⟨?_, ?_, ?_⟩ <;> simp only [done, silent]
  · simp
  · simp
  · rintro (h | rfl | rfl) <;> simp_all [TcbState.opening]

theorem Window.Moves.ack (w : Window) (state : TcbState) (x p : Nat) :
    w.Moves { w with una := x, bufUna := p } state :=
  ⟨Nat.le_refl _, fun _ _ => .inl rfl⟩

theorem Window.Stage.ack {w : Window} {state : TcbState} {x p : Nat} (stage : w.Stage state)
    (synchronized : state.opening = false) (inside : x ≤ w.nxt) (follows : p = x ∨ p = w.bufUna) :
    ({ w with una := x, bufUna := p } : Window).Stage state := by
  refine ⟨?_, by simp [synchronized], stage.opened⟩
  intro sending
  have unfinished := stage.unfinished sending
  refine ⟨unfinished.1, ?_⟩
  dsimp only
  omega

theorem Core.Counts.acked_move {c c' : Core} {W : Bytes} {w : Window} {seg : TcpSegment}
    (counts : c.Counts W w) (stage : w.Stage c.state) (synchronized : c.state.opening = false)
    (acked : c.Acked seg c') :
    ∃ w', c'.Counts W w' ∧ w'.Stage c.state ∧ w.Moves w' c.state := by
  rcases counts.acked_cases acked with rfl | ⟨x, p, -, -, -, inside, -, booked, follows⟩
  · exact ⟨w, counts, stage, .refl w _⟩
  · exact ⟨_, booked, stage.ack synchronized inside (follows.imp_right And.left), .ack w _ x p⟩

theorem SegmentStep.counts {early : Bool} {seg : TcpSegment} {c c' : Core}
    {out : List SegmentBuilder} {W : Bytes} {w : Window} (step : SegmentStep early seg c c' out)
    (counts : c.Counts W w) (stage : w.Stage c.state) :
    ∃ w', c'.Counts W w' ∧ w'.Stage c'.state ∧ w.Moves w' c.state := by
  have same := Window.Moves.refl w c.state
  cases step with
  | ignore => exact ⟨w, counts, stage, same⟩
  | refuse => exact ⟨w, counts, stage, same⟩
  | repeatSynAck => exact ⟨w, counts, stage, same⟩
  | fastRetransmit => exact ⟨w, counts, stage, same⟩
  | timeWaitFin => exact ⟨w, counts, stage, same⟩
  | reset => exact ⟨w, counts.congr rfl rfl rfl rfl, .leave rfl rfl, same⟩
  | relisten state =>
      rw [state] at stage
      refine ⟨w, counts.congr rfl rfl rfl rfl, ?_, same⟩
      exact ⟨fun _ => stage.unfinished (.inl rfl), fun _ => stage.unacked rfl, by
        simp [TcbState.sending]⟩
  | listenSyn v state syn =>
      rw [state] at stage same
      have unacked := stage.unacked rfl
      obtain ⟨hu, hn, hbu, hbn, hw, hf, h1, h2, ho, hb, hs, ha⟩ := counts
      have unfinished := stage.unfinished (.inl rfl)
      refine ⟨{ w with nxt := 1 }, ⟨hu, rfl, hbu, hbn, hw, hf, h1, h2, ?_, hb, ?_, ha⟩, ⟨?_, ?_, ?_⟩,
        ⟨Nat.le_refl _, ?_⟩⟩
      all_goals simp_all [TcbState.opening]
  | synSentAck v state syn good =>
      obtain ⟨x, accepted⟩ := counts.acceptUna good
      rw [state] at stage same
      have unfinished := stage.unfinished (.inl rfl)
      have opened := stage.opened (.inr (.inl rfl))
      refine ⟨_, accepted _ rfl rfl rfl rfl, ⟨fun _ => unfinished, ?_, fun _ => opened⟩,
        ⟨Nat.le_refl _, fun _ _ => .inl rfl⟩⟩
      simp [TcbState.opening]
  | synSentSyn v state syn =>
      rw [state] at stage same ⊢
      refine ⟨w, counts.congr rfl rfl rfl rfl, ⟨fun _ => stage.unfinished (.inl rfl),
        fun _ => stage.unacked rfl, fun _ => stage.opened (.inr (.inl rfl))⟩, same⟩
  | synReceivedAck state good =>
      obtain ⟨-, x, number, after, inside⟩ := counts.acceptable.mp good
      obtain ⟨p, booked, follows⟩ := counts.acknowledge after inside number
      rw [state] at stage ⊢
      have unfinished := stage.unfinished (.inl rfl)
      refine ⟨_, booked.congr rfl rfl rfl rfl, ⟨?_, ?_, ?_⟩, .ack w _ x p⟩
      · intro _
        refine ⟨unfinished.1, ?_⟩
        dsimp only
        omega
      · simp [TcbState.opening]
      · exact fun _ => stage.opened (.inr (.inr rfl))
  | quiet _ state _ acked =>
      obtain ⟨w', booked, kept, moves⟩ := counts.acked_move stage (by rw [state]; rfl) acked
      refine ⟨w', booked, ?_, moves⟩
      rwa [acked.state]
  | receive c1 v state _ acked =>
      obtain ⟨w', booked, kept, moves⟩ := counts.acked_move stage (by rw [state]; rfl) acked
      refine ⟨w', booked.insert, ?_, moves⟩
      rwa [insert_state, acked.state]
  | receiveFin c1 v state _ _ acked =>
      obtain ⟨w', booked, kept, moves⟩ := counts.acked_move stage (by rw [state]; rfl) acked
      refine ⟨w', booked.insert.congr rfl rfl rfl rfl, ?_, moves⟩
      rw [state] at kept
      exact ⟨fun _ => kept.unfinished (.inr rfl), by simp [Core.acceptFin, TcbState.opening],
        fun _ => kept.opened (.inl rfl)⟩
  | finWait1Ack state good =>
      exact counts.acked_move stage (by rw [state]; rfl) (.inr ⟨good, rfl⟩)
  | finWait1Done state done =>
      obtain ⟨w', booked, -, moves⟩ :=
        counts.acked_move stage (by rw [state]; rfl) (.inr ⟨done.1, rfl⟩)
      exact ⟨w', booked.congr rfl rfl rfl rfl, .leave rfl rfl, moves⟩
  | finWait1Both v state _ done =>
      obtain ⟨w', booked, -, moves⟩ :=
        counts.acked_move stage (by rw [state]; rfl) (.inr ⟨done.1, rfl⟩)
      exact ⟨w', booked.congr rfl rfl rfl rfl, .leave rfl rfl, moves⟩
  | finWait1Fin c1 v state _ acked =>
      obtain ⟨w', booked, -, moves⟩ := counts.acked_move stage (by rw [state]; rfl) acked
      exact ⟨w', booked.congr rfl rfl rfl rfl, .leave rfl rfl, moves⟩
  | finWait2Fin => exact ⟨w, counts.congr rfl rfl rfl rfl, .leave rfl rfl, same⟩
  | closingAck state _ good =>
      obtain ⟨x, accepted⟩ := counts.acceptUna good
      exact ⟨_, accepted _ rfl rfl rfl rfl, .leave rfl rfl, .ack w _ x w.bufUna⟩
  | lastAckAck state _ good =>
      obtain ⟨x, accepted⟩ := counts.acceptUna good
      exact ⟨_, accepted _ rfl rfl rfl rfl, .leave rfl rfl, .ack w _ x w.bufUna⟩

theorem CoreStep.counts {event : Event} {c c' : Core} {out : List SegmentBuilder} {W : Bytes}
    {w : Window} (step : CoreStep event c c' out) (counts : c.Counts W w) (stage : w.Stage c.state)
    (fresh : event = .connect → w = .fresh) :
    ∃ w', c'.Counts (W ++ c.accepted event) w' ∧ w'.Stage c'.state ∧
      (event ≠ .connect → w.Moves w' c.state) := by
  have same := Window.Moves.refl w c.state
  cases step with
  | segment step =>
      simp only [accepted, List.append_nil]
      obtain ⟨w', kept, staged, moves⟩ := step.counts counts stage
      exact ⟨w', kept, staged, fun _ => moves⟩
  | write data =>
      exact ⟨w, counts.write data, stage, fun _ => same⟩
  | send _ _ n _ segment v bounded next =>
      simp only [accepted, List.append_nil]
      obtain ⟨inside, -, positive, -⟩ := counts.nextSegment next
      refine ⟨_, counts.advance next rfl rfl rfl rfl, ⟨fun _ => ⟨Nat.le_refl _, ?_⟩,
        fun opening => stage.unacked opening, fun _ => ?_⟩, fun _ => ⟨?_, fun _ _ => .inr ⟨rfl, ?_⟩⟩⟩
      all_goals dsimp only; omega
  | probe _ segment v state next =>
      simp only [accepted, List.append_nil]
      obtain ⟨inside, -, positive, -⟩ := counts.nextSegment next
      have one := SendBuffer.nextSegment_one next
      refine ⟨_, counts.advance next rfl rfl (by rw [one]; rfl) rfl, ⟨fun _ => ⟨Nat.le_refl _, ?_⟩,
        fun opening => stage.unacked opening, fun _ => ?_⟩, fun _ => ⟨?_, fun _ _ => .inr ⟨rfl, ?_⟩⟩⟩
      all_goals dsimp only; omega
  | close _ v state able =>
      simp only [accepted, List.append_nil]
      have sending : c.state.sending = true := by
        rcases able with ⟨state, -⟩ | ⟨state, -⟩ <;> rw [state] <;> rfl
      refine ⟨_, counts.fin (stage.unfinished (.inr sending)).1 state, ?_,
        fun _ => ⟨Nat.le_refl _, fun _ silent => absurd sending silent⟩⟩
      rcases able with ⟨-, rfl⟩ | ⟨-, rfl⟩ <;> exact .leave rfl rfl
  | connect _ state =>
      simp only [accepted, List.append_nil]
      rw [fresh rfl] at counts
      obtain ⟨hu, hn, hbu, hbn, hw, hf, h1, h2, ho, hb, hs, ha⟩ := counts
      refine ⟨{ Window.fresh with nxt := 1 }, ⟨hu, rfl, hbu, hbn, hw, hf, h1, h2, ?_, hb, ?_, ha⟩,
        ⟨?_, ?_, ?_⟩, fun other => absurd rfl other⟩
      all_goals simp [Window.fresh]
  | expire =>
      simp only [accepted, List.append_nil]
      exact ⟨w, counts.congr rfl rfl rfl rfl, .leave rfl rfl, fun _ => same⟩
  | read =>
      simp only [accepted, List.append_nil]
      exact ⟨w, counts.congr rfl rfl rfl rfl, stage, fun _ => same⟩
  | _ =>
      simp only [accepted, List.append_nil]
      exact ⟨w, counts, stage, fun _ => same⟩

/-! ## Sessions -/

namespace Session

structure Windowed (s : Session) (w : Window) : Prop where
  counts : s.conn.core.Counts s.written w
  stage : w.Stage s.conn.core.state
  unused : s.used = false → w = .fresh

theorem start_windowed (o : Opening) (iss : U32) (e : Endpoint) :
    (o.session iss e).Windowed .fresh := by
  have counts : (o.session iss e).conn.core.Counts [] .fresh := by
    cases o <;> refine ⟨?_, ?_, rfl, rfl, rfl, ?_, ?_, ?_, ?_, ?_, ?_, ?_⟩ <;>
      simp [Opening.session, Opening.tcb, Session.start, Connection.core, Connection.new,
        Tcb.newForListen, Tcb.newForConnect, Tcb.fresh, Window.fresh, SendBuffer.new,
        SendBuffer.len, RingBuffer.empty]
  refine ⟨counts, ?_, fun _ => rfl⟩
  cases o
  · exact ⟨fun _ => by decide, fun _ => rfl, by simp [Opening.session, Opening.tcb, Session.start,
      Connection.core, Connection.new, Tcb.newForListen, Tcb.fresh, TcbState.sending]⟩
  · exact .leave rfl rfl

theorem Windowed.step {s : Session} {w : Window} (inv : s.Windowed w) {event : Event}
    (usage : s.ConnectFirst event) :
    ∃ w', (s.step event).Windowed w' ∧ (event ≠ .connect → w.Moves w' s.conn.core.state) := by
  obtain ⟨out, step, -⟩ := s.step_core event
  obtain ⟨w', counts, stage, moves⟩ := step.counts inv.counts inv.stage (by
    rintro rfl
    exact inv.unused usage)
  refine ⟨w', ⟨?_, stage, fun never => nomatch never⟩, moves⟩
  rw [← accepted_core] at counts
  exact counts

theorem windowed_step (s : Session) (event : Event) (inv : ∃ w, s.Windowed w)
    (usage : s.ConnectFirst event) : ∃ w, (s.step event).Windowed w := by
  obtain ⟨w, inv⟩ := inv
  obtain ⟨w', next, -⟩ := inv.step usage
  exact ⟨w', next⟩

end Session

end MagnumTcp.Tcp
