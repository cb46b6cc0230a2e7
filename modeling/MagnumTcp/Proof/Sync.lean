import MagnumTcp.Proof.Diagram
import MagnumTcp.Proof.Window

namespace MagnumTcp.Tcp

open MagnumTcp.Tcp.Core

/-! ## The connection of the tests -/

def serverEnd : Endpoint where
  localIp := ⟨192#8, 168#8, 100#8, 2#8⟩
  localPort := 80#16
  remoteIp := ⟨10#8, 0#8, 0#8, 1#8⟩
  remotePort := 54321#16

def clientIsn : U32 := 1000#32
def serverIsn : U32 := 7000#32

def clientSegment (seq ackNum : U32) (flags : TcpFlags) (window : U16) (payload : Bytes) :
    TcpSegment :=
  SegmentBuilder.segment
    { srcIp := serverEnd.remoteIp
      dstIp := serverEnd.localIp
      srcPort := serverEnd.remotePort
      dstPort := serverEnd.localPort
      seq := seq
      ackNum := ackNum
      flags := flags
      window := window
      payload := payload }

def ackSegment (ackNum : U32) (window : U16) : TcpSegment :=
  clientSegment (clientIsn + 1#32) ackNum { ack := true } window []

def clientAck (ackNum : U32) (window : U16) : Event := .processSegment 0 (ackSegment ackNum window)

def establish : List Event :=
  [.processSegment 0 (clientSegment clientIsn 0#32 { syn := true } 65535#16 []),
    clientAck (serverIsn + 1#32) 65535#16]

def server : Session := Opening.passive.session serverIsn serverEnd

/-! ## Cores in step -/

structure Core.Synced (c : Core) : Prop where
  una : c.state.sending → c.una = c.sendBuf.una
  nxt : c.state.sending → c.nxt = c.sendBuf.nxt

def Core.Expects (c : Core) : Prop :=
  c.state = .established ∨ c.state = .synReceived →
    ∃ rb, c.recvBuf = some rb ∧ c.rcvNxt = rb.nextExpected

namespace Core

variable {c : Core} {W : Bytes} {w : Window} {seg : TcpSegment}

theorem Synced.aligned (synced : c.Synced) (counts : c.Counts W w)
    (sending : c.state.sending = true) : w.una = w.bufUna ∧ w.nxt = w.bufNxt := by
  have full := c.sendBuf.len_le
  have una := synced.una sending
  have nxt := synced.nxt sending
  obtain ⟨hu, hn, hbu, hbn, hw, hf, h1, h2, ho, hb, hs, ha⟩ := counts
  rw [hu, hbu] at una
  rw [hn, hbn] at nxt
  exact ⟨Serial.eq_of_add_ofNat c.iss (by omega) (by omega) una,
    Serial.eq_of_add_ofNat c.iss (by omega) (by omega) nxt⟩

theorem Synced.acknowledge (synced : c.Synced) (counts : c.Counts W w)
    (sending : c.state.sending = true) (good : c.Acceptable seg) :
    (c.sendBuf.acknowledge seg.header.ackNum).una = seg.header.ackNum ∧
      (c.sendBuf.acknowledge seg.header.ackNum).nxt = c.sendBuf.nxt := by
  obtain ⟨una, nxt⟩ := synced.aligned counts sending
  obtain ⟨-, x, number, after, inside⟩ := counts.acceptable.mp good
  have full := c.sendBuf.len_le
  have filled := counts.filled
  rw [number]
  rcases SendBuffer.acknowledge_position counts.bufUna (show w.bufUna ≤ x by omega) (by omega) with
    ⟨ignored, -⟩ | ⟨-, moved, kept, -⟩
  · omega
  · exact ⟨moved, kept⟩

theorem Synced.acked (synced : c.Synced) (counts : c.Counts W w) (state : c.state = .established)
    {c' : Core} (acked : c.Acked seg c') : c'.Synced := by
  rcases acked with ⟨-, rfl⟩ | ⟨good, rfl⟩
  · exact synced
  · have sending : c.state.sending = true := by rw [state]; rfl
    obtain ⟨una, nxt⟩ := synced.acknowledge counts sending good
    exact ⟨fun _ => una.symm, fun _ => (synced.nxt sending).trans nxt.symm⟩

theorem Synced.insert (synced : c.Synced) : (c.insert seg).Synced := by
  unfold Core.insert
  cases c.recvBuf <;> exact ⟨synced.una, synced.nxt⟩

theorem Expects.acked (expects : c.Expects) {c' : Core} (acked : c.Acked seg c') : c'.Expects := by
  rcases acked with ⟨-, rfl⟩ | ⟨-, rfl⟩ <;> exact expects

theorem Expects.insert (expects : c.Expects) : (c.insert seg).Expects := by
  unfold Core.insert
  cases c.recvBuf with
  | none => exact expects
  | some rb => exact fun _ => ⟨_, rfl, rfl⟩

theorem Counts.handshake (counts : c.Counts [] w) (stage : w.Stage c.state)
    (opening : c.state.opening = true) (good : c.Acceptable seg) :
    c.sendBuf.una = seg.header.ackNum ∧ c.sendBuf.nxt = c.nxt := by
  obtain ⟨-, x, number, after, inside⟩ := counts.acceptable.mp good
  have unfinished := stage.unfinished (.inl opening)
  have unacked := stage.unacked opening
  have written := counts.written
  have first := counts.first
  have begun := counts.begun
  have filled := counts.filled
  rw [List.length_nil] at written
  constructor
  · rw [counts.bufUna, number, show w.bufUna = x by omega]
  · rw [counts.bufNxt, counts.nxt, show w.bufNxt = w.nxt by omega]

end Core

theorem SegmentStep.expects {early : Bool} {seg : TcpSegment} {c c' : Core}
    {out : List SegmentBuilder} (step : SegmentStep early seg c c' out) (expects : c.Expects) :
    c'.Expects := by
  cases step with
  | ignore => exact expects
  | refuse => exact expects
  | repeatSynAck => exact expects
  | fastRetransmit => exact expects
  | timeWaitFin => exact expects
  | finWait1Ack => exact expects
  | listenSyn => exact fun _ => ⟨_, rfl, rfl⟩
  | synSentAck => exact fun _ => ⟨_, rfl, rfl⟩
  | synSentSyn => exact fun _ => ⟨_, rfl, rfl⟩
  | synReceivedAck state => exact fun _ => expects (.inr state)
  | quiet _ _ _ acked => exact expects.acked acked
  | receive k _ _ _ acked => exact (expects.acked acked).insert
  | _ => exact nofun

theorem CoreStep.expects {event : Event} {c c' : Core} {out : List SegmentBuilder}
    (step : CoreStep event c c' out) (expects : c.Expects) : c'.Expects := by
  cases step with
  | segment step => exact step.expects expects
  | read bufLen =>
      intro state
      obtain ⟨rb, buffer, next⟩ := expects state
      exact ⟨(rb.read bufLen).1, by simp [buffer], next⟩
  | close _ _ _ able => rcases able with ⟨-, rfl⟩ | ⟨-, rfl⟩ <;> exact nofun
  | expire => exact nofun
  | connect => exact nofun
  | _ => exact expects

theorem SegmentStep.synced {early : Bool} {seg : TcpSegment} {c c' : Core}
    {out : List SegmentBuilder} {W : Bytes} {w : Window} (step : SegmentStep early seg c c' out)
    (counts : c.Counts W w) (stage : w.Stage c.state) (empty : c.state.opening → W = [])
    (synced : c.Synced) : c'.Synced := by
  cases step with
  | ignore => exact synced
  | refuse => exact synced
  | repeatSynAck => exact synced
  | fastRetransmit => exact synced
  | timeWaitFin => exact synced
  | synSentAck v state syn good =>
      have opening : c.state.opening = true := by rw [state]; rfl
      rw [empty opening] at counts
      obtain ⟨una, nxt⟩ := counts.handshake stage opening good
      exact ⟨fun _ => una.symm, fun _ => nxt.symm⟩
  | synReceivedAck state good =>
      have opening : c.state.opening = true := by rw [state]; rfl
      rw [empty opening] at counts
      obtain ⟨una, nxt⟩ := counts.handshake stage opening good
      have ignored : c.sendBuf.acknowledge seg.header.ackNum = c.sendBuf := by
        simp [SendBuffer.acknowledge, una]
      rw [ignored]
      exact ⟨fun _ => una.symm, fun _ => nxt.symm⟩
  | quiet _ state _ acked => exact synced.acked counts state acked
  | receive k v state _ acked => exact (synced.acked counts state acked).insert
  | receiveFin k v state _ _ acked =>
      have received : (k.insert seg).Synced := (synced.acked counts state acked).insert
      have sending : (k.insert seg).state.sending = true := by
        rw [insert_state, acked.state, state]
        rfl
      exact ⟨fun _ => received.una sending, fun _ => received.nxt sending⟩
  | finWait1Ack state =>
      refine ⟨?_, ?_⟩ <;> simp [Core.acknowledge, state, TcbState.sending]
  | _ =>
      refine ⟨?_, ?_⟩ <;> exact fun sending => absurd sending Bool.false_ne_true

theorem CoreStep.synced {event : Event} {c c' : Core} {out : List SegmentBuilder} {W : Bytes}
    {w : Window} (step : CoreStep event c c' out) (counts : c.Counts W w) (stage : w.Stage c.state)
    (empty : c.state.opening → W = []) (synced : c.Synced) : c'.Synced := by
  cases step with
  | segment step => exact step.synced counts stage empty synced
  | write => exact ⟨synced.una, synced.nxt⟩
  | send => exact ⟨synced.una, fun _ => rfl⟩
  | probe => exact ⟨synced.una, fun _ => rfl⟩
  | read => exact ⟨synced.una, synced.nxt⟩
  | close _ v state able => rcases able with ⟨-, rfl⟩ | ⟨-, rfl⟩ <;> exact ⟨nofun, nofun⟩
  | expire => exact ⟨nofun, nofun⟩
  | connect => exact ⟨nofun, nofun⟩
  | _ => exact synced

namespace Session

def Orderly (s : Session) (event : Event) : Prop := s.ConnectFirst event ∧ s.WriteEstablished event

instance (s : Session) (event : Event) : Decidable (s.Orderly event) :=
  inferInstanceAs (Decidable (_ ∧ _))

structure Synced (s : Session) (w : Window) : Prop where
  windowed : s.Windowed w
  synced : s.conn.core.Synced
  expects : s.conn.core.Expects
  early : s.established = false → s.written = []
  late : s.established = true → s.used = true ∧ s.conn.core.state.opening = false

theorem start_expects (o : Opening) (iss : U32) (e : Endpoint) :
    (o.session iss e).conn.core.Expects := by
  cases o <;> exact nofun

theorem start_synced (o : Opening) (iss : U32) (e : Endpoint) :
    (o.session iss e).Synced .fresh := by
  refine ⟨start_windowed o iss e, ?_, start_expects o iss e, fun _ => rfl, nofun⟩
  cases o <;> exact ⟨nofun, nofun⟩

theorem Synced.empty {s : Session} {w : Window} (inv : s.Synced w)
    (opening : s.conn.core.state.opening = true) : s.written = [] := by
  cases flag : s.established with
  | false => exact inv.early flag
  | true => simp [(inv.late flag).2] at opening

theorem Synced.step {s : Session} {w : Window} (inv : s.Synced w) {event : Event}
    (usage : s.Orderly event) :
    ∃ w', (s.step event).Synced w' ∧ (event ≠ .connect → w.Moves w' s.conn.core.state) := by
  obtain ⟨w', windowed, moves⟩ := inv.windowed.step usage.1
  obtain ⟨out, step, -⟩ := s.step_core event
  have synced := step.synced inv.windowed.counts inv.windowed.stage inv.empty inv.synced
  refine ⟨w', ⟨windowed, synced, step.expects inv.expects, ?_, ?_⟩, moves⟩
  · intro flag
    obtain ⟨before, -⟩ := Bool.or_eq_false_iff.mp flag
    have nothing : s.accepted event = [] := by
      cases event with
      | writeData data => exact absurd (usage.2.symm.trans before) nofun
      | _ => rfl
    exact (congrArg (s.written ++ ·) nothing).trans (by simp [inv.early before])
  · intro flag
    refine ⟨rfl, Bool.eq_false_of_not_eq_true fun opening => ?_⟩
    rcases Bool.or_eq_true_iff.mp flag with before | now
    · obtain ⟨used, synchronized⟩ := inv.late before
      rcases step.leads.opening opening with still | rfl
      · rw [synchronized] at still
        exact nomatch still
      · exact nomatch used.symm.trans usage.1
    · have state : (s.step event).conn.core.state = .established := eq_of_beq now
      rw [state] at opening
      exact nomatch opening

theorem synced_step (s : Session) (event : Event) (inv : ∃ w, s.Synced w)
    (usage : s.Orderly event) : ∃ w, (s.step event).Synced w := by
  obtain ⟨w, inv⟩ := inv
  obtain ⟨w', next, -⟩ := inv.step usage
  exact ⟨w', next⟩

/-- The two copies of the sequence variables agree, and the send window fits the buffer. -/
structure InStep (s : Session) : Prop where
  send : s.conn.tcb.state = .established ∨ s.conn.tcb.state = .closeWait →
    s.conn.tcb.snd.una = s.conn.sendBuf.una ∧ s.conn.tcb.snd.nxt = s.conn.sendBuf.nxt ∧
      (s.conn.tcb.snd.nxt - s.conn.tcb.snd.una).toNat ≤ s.conn.sendBuf.len ∧
      s.conn.sendBuf.len ≤ 65536
  recv : s.conn.tcb.state = .established →
    ∃ rb, s.conn.recvBuf = some rb ∧ s.conn.tcb.rcv.nxt = rb.nextExpected

theorem Synced.inStep {s : Session} {w : Window} (inv : s.Synced w) : s.InStep := by
  refine ⟨?_, fun state => inv.expects (.inl state)⟩
  intro state
  have sending : s.conn.core.state.sending = true := by
    rcases state with state | state <;>
      (rw [show s.conn.core.state = s.conn.tcb.state from rfl, state]; rfl)
  have una := inv.synced.una sending
  have nxt := inv.synced.nxt sending
  obtain ⟨hu, hn⟩ := inv.synced.aligned inv.windowed.counts sending
  have counts := inv.windowed.counts
  have full := s.conn.sendBuf.len_le
  have filled : w.bufNxt ≤ w.bufUna + s.conn.sendBuf.len := counts.filled
  have ordered := counts.ordered
  have inflight := SendBuffer.inflight_position counts.bufUna counts.bufNxt (by omega) (by omega)
  refine ⟨una, nxt, ?_, full⟩
  rw [show s.conn.tcb.snd.una = s.conn.sendBuf.una from una,
    show s.conn.tcb.snd.nxt = s.conn.sendBuf.nxt from nxt]
  exact inflight.le.trans (by omega)

theorem buffers_in_step (o : Opening) (iss : U32) (e : Endpoint) (events : List Event)
    (usage : Along Orderly (o.session iss e) events) : Always InStep (o.session iss e) events := by
  apply Runs.always_inv synced_step
  · rintro s ⟨w, inv⟩
    exact inv.inStep
  · exact ⟨_, start_synced o iss e⟩
  · exact usage

theorem buffers_in_step_transfer :
    Along Orderly server (establish ++ [.writeData [1#8, 2#8, 3#8], .nextSegmentToSend 0 1460,
      clientAck (serverIsn + 3#32) 100#16]) ∧
    Always InStep server (establish ++ [.writeData [1#8, 2#8, 3#8], .nextSegmentToSend 0 1460,
      clientAck (serverIsn + 3#32) 100#16]) :=
  have usage := by decide
  ⟨usage, buffers_in_step _ _ _ _ usage⟩

end Session

end MagnumTcp.Tcp
