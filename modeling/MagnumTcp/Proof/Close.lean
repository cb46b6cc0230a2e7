import MagnumTcp.Proof.Queue

namespace MagnumTcp.Tcp

open MagnumTcp.Tcp.Core

def TcbState.finished (state : TcbState) : Prop := state.opening = false ∧ state.sending = false

theorem SendBuffer.acknowledge_nxt (sb : SendBuffer) (ack : U32) :
    (sb.acknowledge ack).nxt = sb.nxt := by
  unfold SendBuffer.acknowledge
  dsimp only
  split_ifs <;> rfl

structure Core.Winds (c c' : Core) (out : List SegmentBuilder) : Prop where
  state : c'.state.finished
  nxt : c'.sendBuf.nxt = c.sendBuf.nxt
  queue : ∀ segment ∈ c'.queue, segment ∈ c.queue
  out : ∀ b ∈ out, b.payload = [] ∨ (b.seq, b.payload) ∈ c.queue

theorem Core.Acked.winds {c c' : Core} {seg : TcpSegment} (acked : c.Acked seg c') :
    c'.sendBuf.nxt = c.sendBuf.nxt ∧ ∀ segment ∈ c'.queue, segment ∈ c.queue := by
  rcases acked with ⟨-, rfl⟩ | ⟨-, rfl⟩
  · exact ⟨rfl, fun _ member => member⟩
  · exact ⟨SendBuffer.acknowledge_nxt _ _, fun _ member => List.mem_of_mem_filter member⟩

theorem SegmentStep.winds {early : Bool} {seg : TcpSegment} {c c' : Core}
    {out : List SegmentBuilder} (step : SegmentStep early seg c c' out)
    (finished : c.state.finished) : c.Winds c' out := by
  have quiet : ∀ b ∈ ([] : List SegmentBuilder), b.payload = [] ∨ (b.seq, b.payload) ∈ c.queue :=
    List.forall_mem_nil _
  have plain : ∀ b : SegmentBuilder, b.payload = [] →
      ∀ b' ∈ [b], b'.payload = [] ∨ (b'.seq, b'.payload) ∈ c.queue := by
    intro b empty b' member
    rw [List.mem_singleton.mp member]
    exact .inl empty
  have opened : c.state = .established → False := fun state => by
    simp [TcbState.finished, state, TcbState.sending] at finished
  have acknowledged := SendBuffer.acknowledge_nxt c.sendBuf seg.header.ackNum
  have filtered : ∀ segment ∈ (c.acknowledge seg).queue, segment ∈ c.queue :=
    fun _ member => List.mem_of_mem_filter member
  have same : ∀ segment ∈ c.queue, segment ∈ c.queue := fun _ member => member
  cases step with
  | ignore => exact ⟨finished, rfl, same, quiet⟩
  | refuse => exact ⟨finished, rfl, same, plain _ rfl⟩
  | reset => exact ⟨⟨rfl, rfl⟩, rfl, same, quiet⟩
  | relisten state => simp [TcbState.finished, state, TcbState.opening] at finished
  | listenSyn _ state => simp [TcbState.finished, state, TcbState.opening] at finished
  | synSentAck _ state => simp [TcbState.finished, state, TcbState.opening] at finished
  | synSentSyn _ state => simp [TcbState.finished, state, TcbState.opening] at finished
  | repeatSynAck => exact ⟨finished, rfl, same, plain _ rfl⟩
  | synReceivedAck state => simp [TcbState.finished, state, TcbState.opening] at finished
  | fastRetransmit _ _ state => exact (opened state).elim
  | quiet _ state => exact (opened state).elim
  | receive _ _ state => exact (opened state).elim
  | receiveFin _ _ state => exact (opened state).elim
  | finWait1Ack => exact ⟨finished, acknowledged, filtered, quiet⟩
  | finWait1Done => exact ⟨⟨rfl, rfl⟩, acknowledged, filtered, quiet⟩
  | finWait1Both => exact ⟨⟨rfl, rfl⟩, acknowledged, filtered, plain _ rfl⟩
  | finWait1Fin _ _ _ _ acked =>
      exact ⟨⟨rfl, rfl⟩, acked.winds.1, acked.winds.2, plain _ rfl⟩
  | finWait2Fin => exact ⟨⟨rfl, rfl⟩, rfl, same, plain _ rfl⟩
  | closingAck => exact ⟨⟨rfl, rfl⟩, rfl, same, quiet⟩
  | lastAckAck => exact ⟨⟨rfl, rfl⟩, rfl, same, quiet⟩
  | timeWaitFin => exact ⟨finished, rfl, same, plain _ rfl⟩

theorem CoreStep.winds {event : Event} {c c' : Core} {out : List SegmentBuilder}
    (step : CoreStep event c c' out) (finished : c.state.finished) (used : event ≠ .connect)
    (silent : ∀ now n, event ≠ .nextSegmentToSend now n) : c.Winds c' out := by
  have same : ∀ segment ∈ c.queue, segment ∈ c.queue := fun _ member => member
  cases step with
  | segment step => exact step.winds finished
  | write => exact ⟨finished, rfl, same, List.forall_mem_nil _⟩
  | send now n => exact absurd rfl (silent now n)
  | sendNothing now n => exact absurd rfl (silent now n)
  | read => exact ⟨finished, rfl, same, List.forall_mem_nil _⟩
  | retransmit _ _ w segments held =>
      refine ⟨finished, rfl, same, ?_⟩
      intro b member
      obtain ⟨segment, inside, rfl⟩ := List.mem_map.mp member
      exact .inr (held segment inside)
  | close _ w state able =>
      rcases able with ⟨state, -⟩ | ⟨state, -⟩ <;>
        simp [TcbState.finished, state, TcbState.sending] at finished
  | closeNothing => exact ⟨finished, rfl, same, List.forall_mem_nil _⟩
  | expire => exact ⟨⟨rfl, rfl⟩, rfl, same, List.forall_mem_nil _⟩
  | tickNothing => exact ⟨finished, rfl, same, List.forall_mem_nil _⟩
  | connect => exact absurd rfl used
  | connectNothing => exact absurd rfl used
  | probe _ _ _ state => simp [TcbState.finished, state, TcbState.sending] at finished
  | probeNothing => exact ⟨finished, rfl, same, List.forall_mem_nil _⟩

theorem CoreStep.finished {event : Event} {c c' : Core} {out : List SegmentBuilder}
    (step : CoreStep event c c' out) (finished : c.state.finished) (used : event ≠ .connect) :
    c'.state.finished := by
  cases event with
  | nextSegmentToSend now n => cases step <;> exact finished
  | connect => exact absurd rfl used
  | _ => exact (step.winds finished (by simp) (by simp)).state

namespace Session

def Closes (s : Session) (f : U32) : Prop :=
  ∃ raw fin, s.output .initiateClose = [raw] ∧
    TcpSegment.parse raw s.conn.tcb.localIp s.conn.tcb.remoteIp = .ok fin ∧
    fin.header.flags.fin = true ∧ fin.header.seq = f

theorem Closes.fin {s : Session} {f : U32} (closes : s.Closes f) :
    s.conn.core.state.sending = true ∧ f = s.conn.core.nxt ∧
      ∃ state : TcbState, state.finished ∧ (s.step .initiateClose).conn.core =
        { s.conn.core with nxt := s.conn.core.nxt + 1#32, state := state } := by
  obtain ⟨raw, fin, output, parsed, -, seq⟩ := closes
  obtain ⟨out, step, built⟩ := s.step_core .initiateClose
  rw [output] at built
  generalize (s.step .initiateClose).conn.core = c' at step
  cases step with
  | close _ w state able =>
      cases built
      have read : TcpSegment.parse (s.conn.core.finAck w).build s.conn.tcb.localIp
          s.conn.tcb.remoteIp = .ok (s.conn.core.finAck w).segment :=
        TcpSegment.parse_build _ (Nat.zero_le _)
      cases parsed.symm.trans read
      refine ⟨?_, seq.symm, state, ?_, rfl⟩
      · rcases able with ⟨state, -⟩ | ⟨state, -⟩ <;> rw [state] <;> rfl
      · rcases able with ⟨-, rfl⟩ | ⟨-, rfl⟩ <;> exact ⟨rfl, rfl⟩
  | closeNothing => exact nomatch built

theorem closes_of_state {s : Session}
    (state : s.conn.tcb.state = .established ∨ s.conn.tcb.state = .closeWait) :
    s.Closes s.conn.tcb.snd.nxt := by
  refine ⟨_, _, ?_, TcpSegment.parse_build (s.conn.core.finAck s.conn.currentWindow)
    (Nat.zero_le _), rfl, rfl⟩
  simp only [Session.output, call, Connection.initiateClose]
  rcases state with state | state <;> rw [state] <;> rfl

/-! ## The last octet of the stream -/

/-- Every byte written so far has a number before `f`, as far back as numbers can be compared. -/
def WrittenBefore (s : Session) (f : U32) : Prop :=
  ∀ i < s.written.length, s.written.length < i + 2 ^ 31 → seqLt (s.numberOf i) f = true

def SentBefore (f : U32) (s : Session) (event : Event) : Prop :=
  ∀ raw ∈ s.output event, ∀ seg,
    TcpSegment.parse raw s.conn.tcb.localIp s.conn.tcb.remoteIp = .ok seg →
      ∀ k < seg.payload.length, seqLt (seg.header.seq + BitVec.ofNat 32 k) f = true

instance (s : Session) (f : U32) : Decidable (s.WrittenBefore f) :=
  inferInstanceAs (Decidable (∀ i < _, _ → _))

instance (f : U32) (s : Session) (event : Event) : Decidable (s.SentBefore f event) :=
  inferInstanceAs (Decidable (∀ raw ∈ _, ∀ seg, _ = Except.ok seg → ∀ k < _, _))

def NothingNew (s : Session) : Event → Prop
  | .nextSegmentToSend _ maxPayload => ¬ s.conn.Sendable maxPayload
  | _ => True

instance (s : Session) : (event : Event) → Decidable (s.NothingNew event)
  | .nextSegmentToSend _ n => inferInstanceAs (Decidable (¬ s.conn.Sendable n))
  | .processSegment _ _ | .writeData _ | .readReceived _ | .takeRetransmits _ | .initiateClose
  | .tickTimeWait _ | .connect | .zeroWindowProbe => isTrue trivial

structure Winding (f : U32) (s : Session) : Prop where
  used : s.used = true
  finished : s.conn.core.state.finished
  nxt : s.conn.core.sendBuf.nxt = f
  queue : ∀ segment ∈ s.conn.core.queue,
    segment.2.length ≤ (f - segment.1).toNat ∧ (f - segment.1).toNat < 2 ^ 31
  sends : s.conn.core.Sends s.written

theorem Winding.step {f : U32} {s : Session} (inv : s.Winding f) {event : Event}
    (usage : s.Orderly event) (idle : s.NothingNew event) : (s.step event).Winding f := by
  have sends := step_sends inv.sends event
  obtain ⟨out, step, -⟩ := s.step_core event
  cases event with
  | connect => exact nomatch inv.used.symm.trans usage.1
  | nextSegmentToSend now n =>
      have same : (s.step (.nextSegmentToSend now n)).conn = s.conn := by
        simp only [Session.step, call, Connection.nextSegmentToSend_idle now idle]
        rfl
      refine ⟨rfl, ?_, ?_, ?_, sends⟩ <;> rw [same]
      · exact inv.finished
      · exact inv.nxt
      · exact inv.queue
  | _ =>
      have winds := step.winds inv.finished (by simp) (by simp)
      exact ⟨rfl, winds.state, winds.nxt.trans inv.nxt,
        fun segment member => inv.queue segment (winds.queue segment member), sends⟩

theorem seqLt_of_distance {f seq : U32} {k : Nat} (inside : k < (f - seq).toNat)
    (close : (f - seq).toNat < 2 ^ 31) : seqLt (seq + BitVec.ofNat 32 k) f = true := by
  rw [← Serial.add_sub_toNat seq f]
  exact (seqLt_iff_lt seq (by omega) (by omega)).mpr inside

theorem Winding.sentBefore {f : U32} {s : Session} (inv : s.Winding f) {event : Event}
    (usage : s.Orderly event) : s.SentBefore f event ↔ s.NothingNew event := by
  obtain ⟨out, step, built⟩ := s.step_core event
  cases event with
  | connect => exact nomatch inv.used.symm.trans usage.1
  | nextSegmentToSend now n =>
      constructor
      · intro before able
        obtain ⟨segment, next, -, sent⟩ := Connection.nextSegmentToSend_next now able
        obtain ⟨nonempty, short⟩ := queueable_of_nextSegment (s.conn.segmentLimit_le n) next
        have output : s.output (.nextSegmentToSend now n) =
            [((s.conn.core.sent segment).data s.conn.currentWindow segment).build] := by
          simp only [Session.output, call, Prod.map_snd, sent]
          rfl
        have first := before _ (by rw [output]; exact List.mem_singleton_self _) _
          (TcpSegment.parse_build ((s.conn.core.sent segment).data s.conn.currentWindow segment)
            (short.trans (by decide))) 0 (List.length_pos_of_ne_nil nonempty)
        have number : segment.1 = f := (SendBuffer.nextSegment_some next).1.trans inv.nxt
        simp [SegmentBuilder.segment, Core.data, Core.reply, number, seqLt] at first
      · intro idle raw member
        simp [Session.output, call, Connection.nextSegmentToSend_idle now idle] at member
  | _ =>
      refine ⟨fun _ => trivial, fun _ raw member seg parsed k inside => ?_⟩
      rw [built] at member
      obtain ⟨b, emitted, rfl⟩ := List.mem_map.mp member
      have read := (step.emitted b emitted).parse inv.sends
      rw [step.fixed.1] at read
      cases parsed.symm.trans read
      rcases (step.winds inv.finished (by simp) (by simp)).out b emitted with empty | held
      · simp [SegmentBuilder.segment, empty] at inside
      · obtain ⟨behind, close⟩ := inv.queue _ held
        exact seqLt_of_distance (Nat.lt_of_lt_of_le inside behind) close

theorem Outstanding.winding {s : Session} {w : Window} (inv : s.Outstanding w) {f : U32}
    (closes : s.Closes f) : (s.step .initiateClose).Winding f := by
  obtain ⟨sending, number, state, finished, closed⟩ := closes.fin
  have counts := inv.synced.windowed.counts
  obtain ⟨una, nxt⟩ := inv.synced.synced.aligned counts sending
  have close := counts.close
  refine ⟨rfl, ?_, ?_, ?_, step_sends inv.sends _⟩ <;> rw [closed]
  · exact finished
  · rw [number]
    exact (inv.synced.synced.nxt sending).symm
  · intro segment member
    obtain ⟨i, seq, beyond, below⟩ := inv.recent sending segment member
    have short := (inv.sends.sized segment member).2
    rw [number, counts.nxt, seq, nxt, Serial.sub_toNat_of_le _ (by omega) (by omega)]
    omega

theorem Outstanding.writtenBefore {s : Session} {w : Window} (inv : s.Outstanding w) {f : U32}
    (closes : s.Closes f) : s.WrittenBefore f ↔ s.conn.sendBuf.inflight = s.conn.sendBuf.len := by
  obtain ⟨sending, number, -⟩ := closes.fin
  have counts := inv.synced.windowed.counts
  obtain ⟨una, nxt⟩ := inv.synced.synced.aligned counts sending
  have ordered := counts.ordered
  have inflight : s.conn.sendBuf.inflight = w.bufNxt - w.bufUna := counts.inflight (by omega)
  have written : w.bufUna + s.conn.sendBuf.len = s.written.length + 1 := counts.written
  have filled : w.bufNxt ≤ w.bufUna + s.conn.sendBuf.len := counts.filled
  have full := s.conn.sendBuf.len_le
  have begun := counts.begun
  rw [number, counts.nxt, nxt, inflight]
  constructor
  · intro before
    by_contra unsent
    have last := before (s.written.length - 1) (by omega) (by omega)
    rw [numberOf_eq, seqLt_iff_lt _ (by omega) (by omega)] at last
    omega
  · intro sent i inside near
    rw [numberOf_eq, seqLt_iff_lt _ (by omega) (by omega)]
    omega

/-- The FIN is the last octet of the stream exactly if all that was written had been sent when the
connection was closed and nothing is sent for the first time afterwards. -/
theorem fin_last_iff (o : Opening) (iss : U32) (e : Endpoint) (before after : List Event) (f : U32)
    (usage : Along Orderly (o.session iss e) (before ++ .initiateClose :: after))
    (closes : (exec (o.session iss e) before).Closes f) :
    (exec (o.session iss e) before).WrittenBefore f ∧
        Along (SentBefore f) ((exec (o.session iss e) before).step .initiateClose) after ↔
      (exec (o.session iss e) before).conn.sendBuf.inflight =
          (exec (o.session iss e) before).conn.sendBuf.len ∧
        Along NothingNew ((exec (o.session iss e) before).step .initiateClose) after := by
  obtain ⟨first, later⟩ := Runs.along_append.mp usage
  obtain ⟨w, inv⟩ := Runs.exec_inv outstanding_step ⟨_, start_outstanding o iss e⟩ first
  rw [inv.writtenBefore closes]
  apply and_congr_right
  intro _
  have keep : ∀ s event, Winding f s → s.Orderly event → s.NothingNew event →
      (s.step event).Winding f := fun s event inv usage idle => inv.step usage idle
  exact Runs.along_congr keep (fun s event inv usage => inv.sentBefore usage) (inv.winding closes)
    later.2

def partlySent : List Event :=
  establish ++ [.writeData [1#8, 2#8, 3#8], .nextSegmentToSend 0 2]

theorem fin_not_last :
    Along Orderly server (partlySent ++ .initiateClose :: [.nextSegmentToSend 0 1460]) ∧
      (exec server partlySent).Closes (serverIsn + 3#32) ∧
      ¬ (exec server partlySent).WrittenBefore (serverIsn + 3#32) ∧
      ¬ Along (SentBefore (serverIsn + 3#32)) ((exec server partlySent).step .initiateClose)
        [.nextSegmentToSend 0 1460] := by
  have state : (exec server partlySent).conn.tcb.state = .established := by decide +kernel
  have nxt : (exec server partlySent).conn.tcb.snd.nxt = serverIsn + 3#32 := by decide +kernel
  refine ⟨by decide +kernel, ?_, by decide +kernel, by decide +kernel⟩
  rw [← nxt]
  exact closes_of_state (.inl state)

def allSent : List Event :=
  establish ++ [.writeData [1#8, 2#8, 3#8], .nextSegmentToSend 0 1460]

theorem fin_last_after_sending :
    (exec server allSent).Closes (serverIsn + 4#32) ∧
      (exec server allSent).WrittenBefore (serverIsn + 4#32) ∧
      Along (SentBefore (serverIsn + 4#32)) ((exec server allSent).step .initiateClose)
        [clientAck (serverIsn + 2#32) 65535#16, .takeRetransmits 0] := by
  have usage : Along Orderly server (allSent ++ .initiateClose ::
      [clientAck (serverIsn + 2#32) 65535#16, .takeRetransmits 0]) := by
    decide +kernel
  have state : (exec server allSent).conn.tcb.state = .established := by decide +kernel
  have nxt : (exec server allSent).conn.tcb.snd.nxt = serverIsn + 4#32 := by decide +kernel
  have closes := closes_of_state (.inl state)
  rw [nxt] at closes
  have sent : (exec server allSent).conn.sendBuf.inflight =
      (exec server allSent).conn.sendBuf.len := by
    decide +kernel
  have idle : Along NothingNew ((exec server allSent).step .initiateClose)
      [clientAck (serverIsn + 2#32) 65535#16, .takeRetransmits 0] := by
    decide +kernel
  exact ⟨closes, (fin_last_iff _ _ _ _ _ _ usage closes).mpr ⟨sent, idle⟩⟩

end Session

/-! ## The end of the close -/

def TcbState.Completes (before after : TcbState) : Prop :=
  before = .finWait1 ∧ (after = .finWait2 ∨ after = .timeWait) ∨
    before = .closing ∧ after = .timeWait ∨ before = .lastAck ∧ after = .closed

instance (before after : TcbState) : Decidable (before.Completes after) :=
  inferInstanceAs (Decidable (_ ∨ _ ∨ _))

theorem TcbState.not_completes_self (state : TcbState) : ¬ state.Completes state := by
  cases state <;> decide

theorem SegmentStep.completes {early : Bool} {seg : TcpSegment} {c c' : Core}
    {out : List SegmentBuilder} (step : SegmentStep early seg c c' out)
    (completes : c.state.Completes c'.state) :
    seg.header.flags.rst = true ∨ c.Acceptable seg ∧ (c.state = .finWait1 → c.FinAcked seg) := by
  cases step with
  | reset rst => exact .inl rst
  | finWait1Done state done => exact .inr ⟨done.1, fun _ => done⟩
  | finWait1Both _ state _ done => exact .inr ⟨done.1, fun _ => done⟩
  | closingAck state _ good => exact .inr ⟨good, fun other => by simp [state] at other⟩
  | lastAckAck state _ good => exact .inr ⟨good, fun other => by simp [state] at other⟩
  | finWait1Ack state => simp [TcbState.Completes, Core.acknowledge, state] at completes
  | finWait1Fin _ _ state => simp [TcbState.Completes, Core.acceptFin, state] at completes
  | finWait2Fin _ state => simp [TcbState.Completes, state] at completes
  | relisten state => simp [TcbState.Completes, state] at completes
  | listenSyn _ state => simp [TcbState.Completes, state] at completes
  | synSentAck _ state => simp [TcbState.Completes, state] at completes
  | synSentSyn _ state => simp [TcbState.Completes, state] at completes
  | synReceivedAck state => simp [TcbState.Completes, state] at completes
  | quiet _ state => simp [TcbState.Completes, state] at completes
  | receive _ _ state => simp [TcbState.Completes, state] at completes
  | receiveFin _ _ state => simp [TcbState.Completes, state] at completes
  | _ => exact absurd completes (TcbState.not_completes_self _)

theorem SegmentStep.completes_of_acceptable {early : Bool} {seg : TcpSegment} {c c' : Core}
    {out : List SegmentBuilder} (step : SegmentStep early seg c c' out)
    (state : c.state = .closing ∨ c.state = .lastAck) (alive : seg.header.flags.rst = false)
    (good : c.Acceptable seg) : c.state.Completes c'.state := by
  cases step with
  | closingAck state => exact .inr (.inl ⟨state, rfl⟩)
  | lastAckAck state => exact .inr (.inr ⟨state, rfl⟩)
  | ignore idle => exact absurd good (idle.unacked (.inr state))
  | reset rst => exact nomatch alive.symm.trans rst
  | _ => rcases state with state | state <;> simp_all

theorem Leads.not_completes {event : Event} {before after : TcbState}
    (leads : Leads event before after) (other : ∀ now seg, event ≠ .processSegment now seg) :
    ¬ before.Completes after := by
  cases leads with
  | stay => exact TcbState.not_completes_self _
  | close => decide
  | closeAfter => decide
  | expire => decide
  | connect => decide
  | _ => exact absurd rfl (other _ _)

namespace Session

/-- If the event completes the close, it is an RST or an acknowledgement of the FIN `f`. -/
def OnFinAck (f : U32) (s : Session) (event : Event) : Prop :=
  s.conn.tcb.state.Completes (s.step event).conn.tcb.state →
    match event with
    | .processSegment _ seg =>
        seg.header.flags.rst = true ∨
          seg.header.flags.ack = true ∧ seqLt f seg.header.ackNum = true
    | _ => False

def NoPartialAck (f : U32) (s : Session) : Event → Prop
  | .processSegment _ seg =>
      s.conn.tcb.state = .closing ∨ s.conn.tcb.state = .lastAck →
        seg.header.flags.rst = false → seg.header.flags.ack = true →
          ackAcceptable s.conn.tcb.snd.una seg.header.ackNum s.conn.tcb.snd.nxt = true →
            seqLe seg.header.ackNum f = false
  | _ => True

instance (f : U32) (s : Session) : (event : Event) → Decidable (s.OnFinAck f event)
  | .processSegment _ _ => inferInstanceAs (Decidable (_ → _ ∨ _))
  | .writeData _ | .nextSegmentToSend _ _ | .readReceived _ | .takeRetransmits _ | .initiateClose
  | .tickTimeWait _ | .connect | .zeroWindowProbe => inferInstanceAs (Decidable (_ → False))

instance (f : U32) (s : Session) : (event : Event) → Decidable (s.NoPartialAck f event)
  | .processSegment _ _ => inferInstanceAs (Decidable (_ → _ → _ → _ → _))
  | .writeData _ | .nextSegmentToSend _ _ | .readReceived _ | .takeRetransmits _ | .initiateClose
  | .tickTimeWait _ | .connect | .zeroWindowProbe => isTrue trivial

structure Finishing (F : Nat) (s : Session) (w : Window) : Prop where
  windowed : s.Windowed w
  used : s.used = true
  finished : s.conn.core.state.finished
  positive : 1 ≤ F
  before : F < w.nxt
  inside : F ≤ w.bufNxt
  top : w.nxt = F + 1 ∨ w.nxt ≤ w.bufNxt

theorem finishing_step {F : Nat} {s : Session} {event : Event} (inv : ∃ w, s.Finishing F w)
    (usage : s.ConnectFirst event) : ∃ w, (s.step event).Finishing F w := by
  obtain ⟨w, inv⟩ := inv
  obtain ⟨w', windowed, moves⟩ := inv.windowed.step usage
  have used : event ≠ .connect := by
    rintro rfl
    exact nomatch inv.used.symm.trans usage
  obtain ⟨forward, closed⟩ := moves used
  have next := closed (by simp [inv.finished.1]) (by simp [inv.finished.2])
  have before := inv.before
  have inside := inv.inside
  have top := inv.top
  obtain ⟨out, step, -⟩ := s.step_core event
  exact ⟨w', windowed, rfl, step.finished inv.finished used, inv.positive, by omega, by omega,
    by omega⟩

theorem Finishing.compare {F : Nat} {s : Session} {w : Window} (inv : s.Finishing F w)
    (short : s.written.length + 1 < F + 2 ^ 31) {x : Nat} (after : w.una < x) (inside : x ≤ w.nxt) :
    (seqLt (s.conn.core.iss + BitVec.ofNat 32 F) (s.conn.core.iss + BitVec.ofNat 32 x) = true ↔
        F < x) ∧
      (seqLe (s.conn.core.iss + BitVec.ofNat 32 x) (s.conn.core.iss + BitVec.ofNat 32 F) = true ↔
        x ≤ F) := by
  have counts := inv.windowed.counts
  have full := s.conn.core.sendBuf.len_le
  have written := counts.written
  have filled := counts.filled
  have buffered := counts.buffered
  have positive := inv.positive
  have low := inv.inside
  have top := inv.top
  exact ⟨seqLt_iff_lt _ (by omega) (by omega), seqLe_iff_le _ (by omega) (by omega)⟩

theorem Finishing.onFinAck_segment {F : Nat} {s : Session} {w : Window} (inv : s.Finishing F w)
    (short : s.written.length + 1 < F + 2 ^ 31) {now : Instant} {seg : TcpSegment} :
    s.OnFinAck (s.conn.core.iss + BitVec.ofNat 32 F) (.processSegment now seg) ↔
      s.NoPartialAck (s.conn.core.iss + BitVec.ofNat 32 F) (.processSegment now seg) := by
  have counts := inv.windowed.counts
  have good : ∀ x, seg.header.ackNum = s.conn.core.iss + BitVec.ofNat 32 x → w.una < x →
      x ≤ w.nxt → (seqLt (s.conn.core.iss + BitVec.ofNat 32 F) seg.header.ackNum = true ↔
        seqLe seg.header.ackNum (s.conn.core.iss + BitVec.ofNat 32 F) = false) := by
    intro x number after inside
    obtain ⟨later, earlier⟩ := inv.compare short after inside
    rw [number, later, Bool.eq_false_iff, ne_eq, earlier, Nat.not_le]
  obtain ⟨out, step, -⟩ := s.conn.processSegment_core now seg
  constructor
  · intro onFinAck state alive flag inside
    have acceptable : s.conn.core.Acceptable seg := ⟨flag, inside⟩
    obtain ⟨-, x, number, after, below⟩ := counts.acceptable.mp acceptable
    rcases onFinAck (step.completes_of_acceptable state alive acceptable) with rst | ⟨-, later⟩
    · exact nomatch alive.symm.trans rst
    · exact (good x number after below).mp later
  · intro covered completes
    rcases step.completes completes with rst | ⟨acceptable, finAcked⟩
    · exact .inl rst
    cases rst : seg.header.flags.rst with
    | true => exact .inl rst
    | false =>
        obtain ⟨-, x, number, after, below⟩ := counts.acceptable.mp acceptable
        refine .inr ⟨acceptable.1, ?_⟩
        rcases completes with ⟨state, -⟩ | ⟨state, -⟩ | ⟨state, -⟩
        · -- The acknowledgement covers `nxt`, and `nxt` is behind the FIN.
          have whole := (finAcked state).2
          have close := counts.close
          rw [counts.nxt, number, seqLe_iff_le _ (by omega) (by omega)] at whole
          have before := inv.before
          rw [number]
          exact (inv.compare short after below).1.mpr (by omega)
        · exact (good x number after below).mpr
            (covered (.inl state) rst acceptable.1 acceptable.2)
        · exact (good x number after below).mpr
            (covered (.inr state) rst acceptable.1 acceptable.2)

theorem Finishing.onFinAck {F : Nat} {s : Session} {w : Window} (inv : s.Finishing F w)
    (short : s.written.length + 1 < F + 2 ^ 31) (event : Event) :
    s.OnFinAck (s.conn.core.iss + BitVec.ofNat 32 F) event ↔
      s.NoPartialAck (s.conn.core.iss + BitVec.ofNat 32 F) event := by
  obtain ⟨out, step, -⟩ := s.step_core event
  have stays : (∀ now seg, event ≠ .processSegment now seg) →
      ¬ s.conn.tcb.state.Completes (s.step event).conn.tcb.state := step.leads.not_completes
  cases event with
  | processSegment now seg => exact inv.onFinAck_segment short
  | _ =>
      refine ⟨fun _ => trivial, fun _ completes => ?_⟩
      exact absurd completes (stays (by simp))

theorem Windowed.finishing {s : Session} {w : Window} (inv : s.Windowed w) {f : U32}
    (closes : s.Closes f) :
    f = s.conn.core.iss + BitVec.ofNat 32 w.nxt ∧ s.acked ≤ w.nxt ∧
      ∃ w', (s.step .initiateClose).Finishing w.nxt w' := by
  obtain ⟨sending, number, state, finished, closed⟩ := closes.fin
  obtain ⟨w', windowed, -⟩ := inv.step (show s.ConnectFirst .initiateClose from trivial)
  have unfinished := inv.stage.unfinished (.inr sending)
  have written : (s.step .initiateClose).written = s.written := List.append_nil _
  have counts := inv.counts.fin unfinished.1 state
  rw [← closed, ← written] at counts
  have after := counts.unique windowed.counts
  have base : s.acked + 1 = w.bufUna := inv.counts.base
  have buffered := inv.counts.buffered
  have ordered := inv.counts.ordered
  refine ⟨number.trans inv.counts.nxt, by omega, w', windowed, rfl, by rw [closed]; exact finished,
    inv.stage.opened (.inl sending), ?_, ?_, ?_⟩ <;> rw [after] <;> dsimp only <;> omega

theorem length_written_le (s : Session) (events : List Event) :
    s.written.length ≤ (exec s events).written.length := by
  induction events generalizing s with
  | nil => exact Nat.le_refl _
  | cons event rest ih =>
      refine Nat.le_trans ?_ (ih (s.step event))
      simp [Session.step]

theorem along_short (s : Session) (events : List Event) {bound : Nat}
    (short : (exec s events).written.length < bound) :
    Along (fun s _ => s.written.length < bound) s events := by
  induction events generalizing s with
  | nil => trivial
  | cons event rest ih =>
      exact ⟨(length_written_le s (event :: rest)).trans_lt short, ih (s.step event) short⟩

/-- The close completes on an acknowledgement of the FIN exactly if no acknowledgement of data alone is
taken in CLOSING or LAST_ACK. From the last byte on that was acknowledged before the close, there are fewer
bytes than half of the sequence space. -/
theorem close_completes_iff (o : Opening) (iss : U32) (e : Endpoint) (before after : List Event)
    (f : U32) (usage : Along ConnectFirst (o.session iss e) (before ++ .initiateClose :: after))
    (closes : (exec (o.session iss e) before).Closes f)
    (short : (exec (o.session iss e) (before ++ .initiateClose :: after)).written.length <
      2 ^ 31 + ((exec (o.session iss e) before).acked - 1)) :
    Along (OnFinAck f) ((exec (o.session iss e) before).step .initiateClose) after ↔
      Along (NoPartialAck f) ((exec (o.session iss e) before).step .initiateClose) after := by
  obtain ⟨first, later⟩ := Runs.along_append.mp usage
  obtain ⟨w, inv⟩ := Runs.exec_inv windowed_step ⟨_, start_windowed o iss e⟩ first
  obtain ⟨number, acked, finishing⟩ := inv.finishing closes
  have acked : (exec (o.session iss e) before).acked ≤ w.nxt := acked
  rw [exec, Runs.exec_append] at short
  have bounded := along_short _ after short
  have positive : 1 ≤ w.nxt := finishing.choose_spec.positive
  have keep : ∀ (s : Session) (event : Event),
      (f = s.conn.core.iss + BitVec.ofNat 32 w.nxt ∧ ∃ v, s.Finishing w.nxt v) →
      (s.ConnectFirst event ∧
        s.written.length < 2 ^ 31 + ((exec (o.session iss e) before).acked - 1)) →
      s.NoPartialAck f event →
      f = (s.step event).conn.core.iss + BitVec.ofNat 32 w.nxt ∧
        ∃ v, (s.step event).Finishing w.nxt v := by
    rintro s event ⟨number, inv⟩ usage -
    obtain ⟨out, step, -⟩ := s.step_core event
    rw [step.fixed.2]
    exact ⟨number, finishing_step inv usage.1⟩
  refine Runs.along_congr keep ?_ ⟨?_, finishing⟩ (Runs.along_and.mpr ⟨later.2, bounded⟩)
  · rintro s event ⟨number, v, inv⟩ usage
    rw [number]
    exact inv.onFinAck (by omega) event
  · obtain ⟨out, step, -⟩ := (exec (o.session iss e) before).step_core .initiateClose
    rw [step.fixed.2]
    exact number

def bothClose : List Event :=
  [.processSegment 0 (clientSegment (clientIsn + 1#32) (serverIsn + 1#32)
    { fin := true, ack := true } 65535#16 [])]

theorem close_completes_early :
    Along ConnectFirst server
        (allSent ++ .initiateClose :: (bothClose ++ [clientAck (serverIsn + 2#32) 65535#16])) ∧
      (exec server allSent).Closes (serverIsn + 4#32) ∧
      ¬ Along (OnFinAck (serverIsn + 4#32)) ((exec server allSent).step .initiateClose)
        (bothClose ++ [clientAck (serverIsn + 2#32) 65535#16]) := by
  have state : (exec server allSent).conn.tcb.state = .established := by decide +kernel
  have nxt : (exec server allSent).conn.tcb.snd.nxt = serverIsn + 4#32 := by decide +kernel
  refine ⟨by decide +kernel, ?_, by decide +kernel⟩
  rw [← nxt]
  exact closes_of_state (.inl state)

theorem close_completes_on_finAck :
    (exec server allSent).Closes (serverIsn + 4#32) ∧
      Along (OnFinAck (serverIsn + 4#32)) ((exec server allSent).step .initiateClose)
        (bothClose ++ [clientAck (serverIsn + 5#32) 65535#16]) := by
  have state : (exec server allSent).conn.tcb.state = .established := by decide +kernel
  have nxt : (exec server allSent).conn.tcb.snd.nxt = serverIsn + 4#32 := by decide +kernel
  have closes := closes_of_state (.inl state)
  rw [nxt] at closes
  have usage : Along ConnectFirst server
      (allSent ++ .initiateClose :: (bothClose ++ [clientAck (serverIsn + 5#32) 65535#16])) := by
    decide +kernel
  have short : (exec server (allSent ++ .initiateClose ::
      (bothClose ++ [clientAck (serverIsn + 5#32) 65535#16]))).written.length <
        2 ^ 31 + ((exec server allSent).acked - 1) := by
    decide +kernel
  have covered : Along (NoPartialAck (serverIsn + 4#32)) ((exec server allSent).step .initiateClose)
      (bothClose ++ [clientAck (serverIsn + 5#32) 65535#16]) := by
    decide +kernel
  exact ⟨closes, (close_completes_iff _ _ _ _ _ _ usage closes short).mpr covered⟩

end Session

end MagnumTcp.Tcp
