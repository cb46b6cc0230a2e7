import MagnumTcp.Proof.Receiver

namespace MagnumTcp.Tcp

open MagnumTcp.Tcp.Core

structure Core.Hears (c : Core) (S received : Bytes) (m : Nat) : Prop where
  receives : c.Receives S received m
  present : ∃ rb, c.recvBuf = some rb
  synchronized : c.state.opening = false
  unfinished : c.state = .established ∨ c.state = .finWait1 ∨ c.state = .finWait2 →
    c.rcvNxt = c.irs + 1#32 + BitVec.ofNat 32 m
  sound : c.rcvNxt = c.irs + 1#32 + BitVec.ofNat 32 m ∨
    m = S.length ∧ c.rcvNxt = c.irs + 1#32 + BitVec.ofNat 32 (S.length + 1)

/-- A segment with payload or FIN is a slice of `S` in its place, and the FIN is at its end. -/
def TcpSegment.PartOf (seg : TcpSegment) (first : U32) (S : Bytes) : Prop :=
  seg.payload ≠ [] ∨ seg.header.flags.fin = true →
    ∃ i, seg.header.seq = first + BitVec.ofNat 32 i ∧ SliceAt S i seg.payload ∧
      (seg.header.flags.fin = true → i + seg.payload.length = S.length)

/-- A FIN with nothing missing before it, and a payload that fits where it is taken. -/
def RecvBuffer.InOrder (rb : RecvBuffer) (seg : TcpSegment) : TcbState → Prop
  | .established =>
      seqLt rb.nxt seg.header.seq = false ∧
        seg.payload.length - (rb.nxt - seg.header.seq).toNat ≤ recvBufSize - rb.len
  | .finWait1 | .finWait2 => seg.header.seq + BitVec.ofNat 32 seg.payload.length = rb.nxt
  | _ => True

instance (rb : RecvBuffer) (seg : TcpSegment) : (state : TcbState) → Decidable (rb.InOrder seg state)
  | .established => inferInstanceAs (Decidable (_ ∧ _))
  | .finWait1 | .finWait2 => inferInstanceAs (Decidable (_ = _))
  | .closed | .listen | .synSent | .synReceived | .closeWait | .closing | .lastAck | .timeWait =>
      isTrue trivial

namespace Core.Hears

variable {c c' : Core} {S received : Bytes} {m : Nat} {seg : TcpSegment}

theorem congr (hears : c.Hears S received m) (irs : c'.irs = c.irs)
    (recvBuf : c'.recvBuf = c.recvBuf) (rcvNxt : c'.rcvNxt = c.rcvNxt)
    (state : c'.state.opening = false)
    (unfinished : c'.state = .established ∨ c'.state = .finWait1 ∨ c'.state = .finWait2 →
      c.state = .established ∨ c.state = .finWait1 ∨ c.state = .finWait2) :
    c'.Hears S received m := by
  refine ⟨hears.receives.congr irs recvBuf (by simp [state]), ?_, state, ?_, ?_⟩
  · rw [recvBuf]
    exact hears.present
  · rw [irs, rcvNxt]
    exact fun open_ => hears.unfinished (unfinished open_)
  · rw [irs, rcvNxt]
    exact hears.sound

theorem acked (hears : c.Hears S received m) (acked : c.Acked seg c') : c'.Hears S received m := by
  rcases acked with ⟨-, rfl⟩ | ⟨-, rfl⟩
  · exact hears
  · exact hears.congr rfl rfl rfl hears.synchronized id

theorem insert (hears : c.Hears S received m) (short : S.length < 2 ^ 31)
    (part : seg.PartOf (c.irs + 1#32) S) :
    ∃ m', (c.insert seg).Receives S received m' ∧
      ∃ rb, c.recvBuf = some rb ∧
        (c.insert seg).recvBuf = some (rb.insert seg.header.seq seg.payload) ∧
        (c.insert seg).rcvNxt = c.irs + 1#32 + BitVec.ofNat 32 m' ∧ (c.insert seg).irs = c.irs := by
  obtain ⟨rb, buffer⟩ := hears.present
  have offered : seg.payload ≠ [] → InStream (c.irs + 1#32) S (seg.header.seq, seg.payload) := by
    intro nonempty
    obtain ⟨i, seq, slice, -⟩ := part (.inl nonempty)
    exact ⟨i, seq, slice⟩
  obtain ⟨m', -, received⟩ := hears.receives.insert short hears.synchronized offered
  have inserted : (c.insert seg).recvBuf = some (rb.insert seg.header.seq seg.payload) ∧
      (c.insert seg).rcvNxt = (rb.insert seg.header.seq seg.payload).nxt ∧
      (c.insert seg).irs = c.irs := by
    unfold Core.insert
    rw [buffer]
    exact ⟨rfl, rfl, rfl⟩
  obtain ⟨recvBuf, rcvNxt, irs⟩ := inserted
  refine ⟨m', received, rb, buffer, recvBuf, ?_, irs⟩
  rw [rcvNxt, (received.buffer _ recvBuf).nxt, irs]

theorem fin_number (part : seg.PartOf (c.irs + 1#32) S) (fin : seg.header.flags.fin = true) :
    seg.header.seq + BitVec.ofNat 32 seg.payload.length + 1#32 =
      c.irs + 1#32 + BitVec.ofNat 32 (S.length + 1) := by
  obtain ⟨i, seq, slice, last⟩ := part (.inr fin)
  rw [seq, Serial.add_ofNat_ofNat, Serial.add_ofNat_ofNat, ← Nat.add_assoc, last fin]

theorem insert_fin (hears : c.Hears S received m) (short : S.length < 2 ^ 31)
    (part : seg.PartOf (c.irs + 1#32) S) (fin : seg.header.flags.fin = true) {rb : RecvBuffer}
    (buffer : c.recvBuf = some rb) {m' : Nat}
    (after : (rb.insert seg.header.seq seg.payload).Reassembles S (c.irs + 1#32) received m') :
    m' = S.length ↔ rb.InOrder seg .established := by
  obtain ⟨i, seq, slice, last⟩ := part (.inr fin)
  have inv := hears.receives.buffer rb buffer
  have inside := inv.inside
  have ends := last fin
  rw [seq] at after
  have complete := inv.insert_last short slice ends after
  have before : seqLt rb.nxt seg.header.seq = false ↔ i ≤ m := by
    rw [inv.nxt, seq, Bool.eq_false_iff, ne_eq, seqLt_iff_lt _ (by omega) (by omega), Nat.not_lt]
  unfold RecvBuffer.InOrder
  rw [complete, before]
  apply and_congr_right
  intro le
  rw [inv.nxt, seq, Serial.sub_toNat_of_le _ le (by omega)]

theorem complete_iff (hears : c.Hears S received m) (short : S.length < 2 ^ 31)
    (part : seg.PartOf (c.irs + 1#32) S) (fin : seg.header.flags.fin = true) {rb : RecvBuffer}
    (buffer : c.recvBuf = some rb) :
    m = S.length ↔ seg.header.seq + BitVec.ofNat 32 seg.payload.length = rb.nxt := by
  obtain ⟨i, seq, slice, last⟩ := part (.inr fin)
  have inv := hears.receives.buffer rb buffer
  have inside := inv.inside
  rw [seq, Serial.add_ofNat_ofNat, last fin, inv.nxt]
  constructor
  · rintro rfl
    rfl
  · exact fun same => (Serial.eq_of_add_ofNat _ (by omega) (by omega) same).symm

end Core.Hears

def Core.TakesFin (c : Core) (early : Bool) (seg : TcpSegment) : Prop :=
  seg.header.flags.fin = true ∧ seg.header.flags.rst = false ∧
    (c.state = .established ∧ early = false ∨ c.state = .finWait1 ∨ c.state = .finWait2)

instance (c : Core) (early : Bool) (seg : TcpSegment) : Decidable (c.TakesFin early seg) :=
  inferInstanceAs (Decidable (_ ∧ _ ∧ _))

structure Core.FinTaken (c : Core) (seg : TcpSegment) (S received : Bytes) (c' : Core) (m : Nat) :
    Prop where
  receives : c'.Receives S received m
  present : ∃ rb, c'.recvBuf = some rb
  irs : c'.irs = c.irs
  rcvNxt : c'.rcvNxt = c.irs + 1#32 + BitVec.ofNat 32 (S.length + 1)
  state : c'.state = .closeWait ∨ c'.state = .closing ∨ c'.state = .timeWait
  complete : ∀ rb ∈ c.recvBuf, m = S.length ↔ rb.InOrder seg c.state

theorem Core.Acked.incoming {c k : Core} {seg : TcpSegment} (acked : c.Acked seg k) :
    k.irs = c.irs ∧ k.recvBuf = c.recvBuf := by
  rcases acked with ⟨-, rfl⟩ | ⟨-, rfl⟩ <;> exact ⟨rfl, rfl⟩

theorem Core.Hears.finTaken {c k : Core} {S received : Bytes} {m : Nat} {seg : TcpSegment}
    (hears : c.Hears S received m) (short : S.length < 2 ^ 31)
    (part : seg.PartOf (c.irs + 1#32) S) (fin : seg.header.flags.fin = true)
    (waiting : c.state = .finWait1 ∨ c.state = .finWait2)
    (same : k.irs = c.irs ∧ k.recvBuf = c.recvBuf)
    {state : TcbState} (after : state = .closing ∨ state = .timeWait) :
    c.FinTaken seg S received (k.acceptFin seg state) m := by
  have opening : state.opening = false := by rcases after with rfl | rfl <;> rfl
  refine ⟨hears.receives.congr same.1 same.2 (by simp [Core.acceptFin, opening]), ?_, same.1,
    fin_number part fin, .inr after, ?_⟩
  · obtain ⟨rb, buffer⟩ := hears.present
    exact ⟨rb, same.2.trans buffer⟩
  · intro rb buffer
    rw [hears.complete_iff short part fin buffer]
    rcases waiting with state | state <;> rw [state] <;> rfl

theorem SegmentStep.finTaken {early : Bool} {seg : TcpSegment} {c c' : Core}
    {out : List SegmentBuilder} {S received : Bytes} {m : Nat} (step : SegmentStep early seg c c' out)
    (hears : c.Hears S received m) (short : S.length < 2 ^ 31)
    (part : seg.PartOf (c.irs + 1#32) S) (takes : c.TakesFin early seg) :
    (∃ m', c.FinTaken seg S received c' m') ∧ ∃ w, out = [c'.ack w] := by
  obtain ⟨fin, alive, state⟩ := takes
  cases step with
  | receiveFin k w open_ late alive acked fin =>
      obtain ⟨irs, buffer⟩ := acked.incoming
      have heard := hears.acked acked
      rw [← irs] at part
      obtain ⟨m', received, rb, found, recvBuf, -, same⟩ := heard.insert short part
      refine ⟨⟨m', received.congr rfl rfl nofun, ⟨_, recvBuf⟩, same.trans irs, ?_, .inl rfl, ?_⟩, w,
        rfl⟩
      · rw [← irs]
        exact Core.Hears.fin_number part fin
      · intro rb' found'
        rw [← buffer, found] at found'
        cases found'
        have after := received.buffer _ recvBuf
        rw [same] at after
        rw [open_]
        exact heard.insert_fin short part fin found after
  | finWait1Both w waiting =>
      have same : (c.acknowledge seg).irs = c.irs ∧ (c.acknowledge seg).recvBuf = c.recvBuf := ⟨rfl, rfl⟩
      exact ⟨⟨m, hears.finTaken short part fin (.inl waiting) same (.inr rfl)⟩, w, rfl⟩
  | finWait1Fin k w waiting _ acked =>
      exact ⟨⟨m, hears.finTaken short part fin (.inl waiting) acked.incoming (.inl rfl)⟩, w, rfl⟩
  | finWait2Fin w waiting =>
      exact ⟨⟨m, hears.finTaken short part fin (.inr waiting) ⟨rfl, rfl⟩ (.inr rfl)⟩, w, rfl⟩
  | ignore idle =>
      rcases state with ⟨state, -⟩ | waiting
      · exact absurd state idle.established
      · exact nomatch fin.symm.trans (idle.finWait waiting)
  | reset rst => exact nomatch alive.symm.trans rst
  | refuse opening => rcases opening with h | h | h <;> simp [h] at state
  | fastRetransmit _ _ open_ third => simp [open_, third] at state
  | _ => simp_all

theorem Core.FinTaken.hears {c c' : Core} {seg : TcpSegment} {S received : Bytes} {m : Nat}
    (taken : c.FinTaken seg S received c' m) (complete : m = S.length) : c'.Hears S received m := by
  have closed : c'.state.opening = false ∧
      ¬ (c'.state = .established ∨ c'.state = .finWait1 ∨ c'.state = .finWait2) := by
    rcases taken.state with state | state | state <;> rw [state] <;> decide
  refine ⟨taken.receives, taken.present, closed.1, fun open_ => absurd open_ closed.2, .inr ⟨complete, ?_⟩⟩
  rw [taken.rcvNxt, taken.irs]

theorem SegmentStep.hears {early : Bool} {seg : TcpSegment} {c c' : Core}
    {out : List SegmentBuilder} {S received : Bytes} {m : Nat} (step : SegmentStep early seg c c' out)
    (hears : c.Hears S received m) (short : S.length < 2 ^ 31)
    (part : seg.PartOf (c.irs + 1#32) S) (passes : ¬ c.TakesFin early seg) :
    ∃ m', c'.Hears S received m' := by
  have synchronized := hears.synchronized
  cases step with
  | ignore => exact ⟨m, hears⟩
  | refuse => exact ⟨m, hears⟩
  | repeatSynAck => exact ⟨m, hears⟩
  | fastRetransmit => exact ⟨m, hears⟩
  | timeWaitFin => exact ⟨m, hears⟩
  | quiet _ _ _ acked => exact ⟨m, hears.acked acked⟩
  | receive k w open_ late acked =>
      obtain ⟨irs, -⟩ := acked.incoming
      rw [← irs] at part
      obtain ⟨m', received, rb, -, recvBuf, rcvNxt, same⟩ := (hears.acked acked).insert short part
      have state : (k.insert seg).state = .established := by rw [insert_state, acked.state, open_]
      rw [← same] at rcvNxt
      exact ⟨m', received, ⟨_, recvBuf⟩, by rw [state]; rfl, fun _ => rcvNxt, .inl rcvNxt⟩
  | finWait1Ack => exact ⟨m, hears.congr rfl rfl rfl synchronized id⟩
  | finWait1Done state => exact ⟨m, hears.congr rfl rfl rfl rfl fun _ => .inr (.inl state)⟩
  | reset => exact ⟨m, hears.congr rfl rfl rfl rfl (by simp)⟩
  | closingAck => exact ⟨m, hears.congr rfl rfl rfl rfl (by simp)⟩
  | lastAckAck => exact ⟨m, hears.congr rfl rfl rfl rfl (by simp)⟩
  | receiveFin _ _ state late alive _ fin => exact absurd ⟨fin, alive, .inl ⟨state, late⟩⟩ passes
  | finWait1Both _ state alive _ fin => exact absurd ⟨fin, alive, .inr (.inl state)⟩ passes
  | finWait1Fin _ _ state alive _ _ fin => exact absurd ⟨fin, alive, .inr (.inl state)⟩ passes
  | finWait2Fin _ state alive fin => exact absurd ⟨fin, alive, .inr (.inr state)⟩ passes
  | _ => simp_all [TcbState.opening]

theorem CoreStep.hears {event : Event} {c c' : Core} {out : List SegmentBuilder}
    {S received : Bytes} {m : Nat} (step : CoreStep event c c' out) (hears : c.Hears S received m)
    (call : ∀ now seg, event ≠ .processSegment now seg) (opened : event ≠ .connect) :
    c'.Hears S (received ++ c.handedOut event) m := by
  have synchronized := hears.synchronized
  cases step with
  | segment => exact absurd rfl (call _ _)
  | connect => exact absurd rfl opened
  | read bufLen =>
      obtain ⟨rb, buffer⟩ := hears.present
      exact ⟨hears.receives.read bufLen, ⟨(rb.read bufLen).1, by simp [buffer]⟩, synchronized,
        hears.unfinished, hears.sound⟩
  | close _ _ _ able =>
      simp only [handedOut, List.append_nil]
      rcases able with ⟨state, rfl⟩ | ⟨-, rfl⟩
      · exact hears.congr rfl rfl rfl rfl fun _ => .inl state
      · exact hears.congr rfl rfl rfl rfl (by simp)
  | expire =>
      simp only [handedOut, List.append_nil]
      exact hears.congr rfl rfl rfl rfl (by simp)
  | _ =>
      simp only [handedOut, List.append_nil]
      exact hears.congr rfl rfl rfl synchronized id

theorem Emitted.ackNum_eq {c c' : Core} {b : SegmentBuilder} (emitted : Emitted c c' b)
    (before : c.state.opening = false) (after : c'.state.opening = false) :
    b.ackNum = c'.rcvNxt := by
  cases emitted with
  | rst seq state => rcases state with state | state | state <;> simp [state, TcbState.opening] at before
  | syn state => simp [state, TcbState.opening] at after
  | synAck w => rfl
  | control => rfl
  | data => rfl

namespace Session

def committed (s : Session) : Nat := s.received.length + (s.conn.recvBuf.elim 0 RecvBuffer.len)

/-- The segments of a step acknowledge no byte that is not committed, and the FIN only after all of `S`. -/
def AckSound (S : Bytes) (s : Session) (event : Event) : Prop :=
  let t := s.step event
  ∀ raw ∈ s.output event,
    ∀ seg, TcpSegment.parse raw t.conn.tcb.localIp t.conn.tcb.remoteIp = .ok seg →
      (seg.header.ackNum - (t.conn.tcb.rcv.irs + 1#32)).toNat ≤
        t.committed + if t.committed = S.length then 1 else 0

def Inbound (S : Bytes) (s : Session) : Event → Prop
  | .processSegment _ seg => seg.PartOf (s.conn.tcb.rcv.irs + 1#32) S
  | _ => True

def FinInOrder (s : Session) : Event → Prop
  | .processSegment _ seg =>
      s.conn.core.TakesFin (s.conn.fastRetransmits seg) seg →
        ∀ rb ∈ s.conn.recvBuf, rb.InOrder seg s.conn.tcb.state
  | _ => True

instance (S : Bytes) (s : Session) (event : Event) : Decidable (s.AckSound S event) :=
  inferInstanceAs (Decidable (∀ raw ∈ _, ∀ seg, _ = Except.ok seg → _ ≤ _))

instance (s : Session) : (event : Event) → Decidable (s.FinInOrder event)
  | .processSegment _ seg =>
      inferInstanceAs (Decidable (s.conn.core.TakesFin _ seg → ∀ rb ∈ s.conn.recvBuf, rb.InOrder seg _))
  | .writeData _ | .nextSegmentToSend _ _ | .readReceived _ | .takeRetransmits _ | .initiateClose
  | .tickTimeWait _ | .connect | .zeroWindowProbe => isTrue trivial

structure Hearing (S : Bytes) (s : Session) : Prop where
  used : s.used = true
  sends : s.conn.core.Sends s.written
  hears : ∃ m, s.conn.core.Hears S s.received m

theorem committed_eq {s : Session} {S : Bytes} {m : Nat}
    (receives : s.conn.core.Receives S s.received m) : s.committed = m := by
  unfold committed
  cases buffer : s.conn.recvBuf with
  | none =>
      obtain ⟨nothing, zero⟩ := receives.missing buffer
      simp [nothing, zero]
  | some rb => exact (receives.buffer rb buffer).committed

variable {s : Session} {event : Event} {S : Bytes} {m : Nat} {out : List SegmentBuilder}

theorem ackSound_iff (sends : s.conn.core.Sends s.written)
    (step : CoreStep event s.conn.core (s.step event).conn.core out)
    (built : s.output event = out.map SegmentBuilder.build)
    (acks : ∀ b ∈ out, b.ackNum = (s.step event).conn.core.rcvNxt)
    (receives : (s.step event).conn.core.Receives S (s.step event).received m) :
    s.AckSound S event ↔
      (out ≠ [] → ((s.step event).conn.core.rcvNxt - ((s.step event).conn.core.irs + 1#32)).toNat ≤
        m + if m = S.length then 1 else 0) := by
  have parse : ∀ b ∈ out, TcpSegment.parse b.build (s.step event).conn.tcb.localIp
      (s.step event).conn.tcb.remoteIp = .ok b.segment :=
    fun b member => (step.emitted b member).parse sends
  unfold AckSound
  simp only [committed_eq receives]
  constructor
  · intro sound nonempty
    obtain ⟨b, member⟩ := List.exists_mem_of_ne_nil out nonempty
    have bound := sound b.build (by rw [built]; exact List.mem_map_of_mem member) _ (parse b member)
    rw [show b.segment.header.ackNum = b.ackNum from rfl, acks b member] at bound
    exact bound
  · intro bound raw sent seg parsed
    rw [built] at sent
    obtain ⟨b, member, rfl⟩ := List.mem_map.mp sent
    rw [parse b member] at parsed
    cases parsed
    rw [show b.segment.header.ackNum = b.ackNum from rfl, acks b member]
    exact bound (List.ne_nil_of_mem member)

theorem ackSound_of_hears (sends : s.conn.core.Sends s.written) (short : S.length < 2 ^ 31)
    (step : CoreStep event s.conn.core (s.step event).conn.core out)
    (built : s.output event = out.map SegmentBuilder.build)
    (before : s.conn.core.state.opening = false)
    (hears : (s.step event).conn.core.Hears S (s.step event).received m) : s.AckSound S event := by
  rw [ackSound_iff sends step built
    (fun b member => (step.emitted b member).ackNum_eq before hears.synchronized) hears.receives]
  intro _
  obtain ⟨rb, buffer⟩ := hears.present
  have inside := (hears.receives.buffer rb buffer).inside
  rcases hears.sound with next | ⟨rfl, next⟩
  · rw [next, Serial.sub_base_toNat _ (by omega)]
    omega
  · rw [next, Serial.sub_base_toNat _ (by omega), if_pos rfl]

theorem ackSound_of_finTaken {seg : TcpSegment} (sends : s.conn.core.Sends s.written)
    (short : S.length < 2 ^ 31)
    (step : CoreStep event s.conn.core (s.step event).conn.core out)
    (built : s.output event = out.map SegmentBuilder.build)
    {w : U16} (answer : out = [(s.step event).conn.core.ack w])
    (taken : s.conn.core.FinTaken seg S (s.step event).received (s.step event).conn.core m) :
    s.AckSound S event ↔ m = S.length := by
  subst answer
  rw [ackSound_iff sends step built (by simp [Core.ack, Core.reply]) taken.receives]
  obtain ⟨rb, buffer⟩ := taken.present
  have inside := (taken.receives.buffer rb buffer).inside
  rw [taken.rcvNxt, taken.irs, Serial.sub_base_toNat _ (by omega)]
  simp only [ne_eq, List.cons_ne_self, not_false_eq_true, forall_const]
  split_ifs with complete
  · simp [complete]
  · omega

theorem Hearing.step (hearing : s.Hearing S) (short : S.length < 2 ^ 31)
    (usage : s.ConnectFirst event) (inbound : s.Inbound S event) :
    (s.AckSound S event ↔ s.FinInOrder event) ∧ (s.FinInOrder event → (s.step event).Hearing S) := by
  obtain ⟨used, sends, m, hears⟩ := hearing
  obtain ⟨out, step, built⟩ := s.step_core event
  have goes_on : (∃ m', (s.step event).conn.core.Hears S (s.step event).received m') →
      s.AckSound S event ∧ (s.step event).Hearing S :=
    fun ⟨m', after⟩ => ⟨ackSound_of_hears sends short step built hears.synchronized after, rfl,
      step_sends sends _, m', after⟩
  cases event with
  | processSegment now seg =>
      have nothing : (s.step (.processSegment now seg)).received = s.received := List.append_nil _
      obtain ⟨out, segment, built⟩ := s.conn.processSegment_core now seg
      by_cases takes : s.conn.core.TakesFin (s.conn.fastRetransmits seg) seg
      · obtain ⟨⟨m', taken⟩, w, answer⟩ := segment.finTaken hears short inbound takes
        obtain ⟨rb, buffer⟩ := hears.present
        have order : s.FinInOrder (.processSegment now seg) ↔ m' = S.length := by
          rw [taken.complete rb buffer]
          exact ⟨fun order => order takes rb buffer, fun order _ rb' found => by
            rw [show s.conn.recvBuf = some rb from buffer] at found
            cases found
            exact order⟩
        rw [order]
        rw [← nothing] at taken
        exact ⟨ackSound_of_finTaken sends short (.segment segment) built answer taken,
          fun complete => (goes_on ⟨m', taken.hears complete⟩).2⟩
      · obtain ⟨m', after⟩ := segment.hears hears short inbound takes
        rw [← nothing] at after
        obtain ⟨sound, next⟩ := goes_on ⟨m', after⟩
        exact ⟨⟨fun _ took => absurd took takes, fun _ => sound⟩, fun _ => next⟩
  | connect => exact nomatch used.symm.trans usage
  | _ =>
      have after := step.hears hears (by simp) (by simp)
      rw [← handedOut_core] at after
      obtain ⟨sound, next⟩ := goes_on ⟨m, after⟩
      exact ⟨⟨fun _ => trivial, fun _ => sound⟩, fun _ => next⟩

/-! ## The handshake -/

structure Opens (S : Bytes) (s : Session) : Prop where
  sends : s.conn.core.Sends s.written
  expects : s.conn.core.Expects
  fresh : s.used = false → s.conn.core.recvBuf = none
  early : s.established = false →
    s.conn.core.state ≠ .established ∧ ∃ m, s.conn.core.Receives S s.received m

theorem start_opens (o : Opening) (iss : U32) (e : Endpoint) (S : Bytes) :
    (o.session iss e).Opens S := by
  refine ⟨(start_sender o iss e).sends, start_expects o iss e, ?_, fun _ => ⟨?_, 0, ?_⟩⟩
  · cases o <;> exact fun _ => rfl
  · cases o <;> exact nofun
  · cases o <;> exact ⟨nofun, fun _ => ⟨rfl, rfl⟩, fun _ => ⟨rfl, rfl⟩⟩

theorem Opens.receives (opens : s.Opens S) (short : S.length < 2 ^ 31) (usage : s.ConnectFirst event)
    (early : s.established = false) :
    ∃ m, (s.step event).conn.core.Receives S (s.step event).received m := by
  obtain ⟨elsewhere, m, receives⟩ := opens.early early
  obtain ⟨out, step, -⟩ := s.step_core event
  have offered : s.conn.core.Offered S event := by
    cases event with
    | processSegment now seg => exact fun state => absurd state elsewhere
    | _ => trivial
  have first : event = .connect → s.received = [] ∧ m = 0 := by
    rintro rfl
    exact receives.missing (opens.fresh usage)
  obtain ⟨m', -, after⟩ := step.receives receives short offered first
  rw [← handedOut_core] at after
  exact ⟨m', after⟩

theorem Opens.step (opens : s.Opens S) (short : S.length < 2 ^ 31) (usage : s.ConnectFirst event) :
    (s.step event).Opens S := by
  obtain ⟨out, step, -⟩ := s.step_core event
  refine ⟨step_sends opens.sends event, step.expects opens.expects, nofun, ?_⟩
  intro early
  obtain ⟨before, now⟩ := Bool.or_eq_false_iff.mp early
  exact ⟨ne_of_beq_false now, opens.receives short usage before⟩

theorem Opens.hearing (opens : s.Opens S) (short : S.length < 2 ^ 31) (usage : s.ConnectFirst event)
    (early : s.established = false) (done : (s.step event).conn.tcb.state = .established) :
    (s.step event).Hearing S := by
  obtain ⟨m, receives⟩ := opens.receives short usage early
  have next := opens.step short usage
  obtain ⟨rb, buffer, expected⟩ := next.expects (.inl done)
  have nxt := expected.trans (receives.buffer rb buffer).nxt
  refine ⟨rfl, next.sends, m, receives, ⟨rb, buffer⟩, ?_, fun _ => nxt, .inl nxt⟩
  rw [show (s.step event).conn.core.state = .established from done]
  rfl

/-- From the end of the handshake on, the acknowledgements are sound exactly as long as every FIN that
is taken arrives in order. -/
theorem ack_sound_iff (o : Opening) (iss : U32) (e : Endpoint) (S : Bytes)
    (handshake events : List Event) (last : Event) (short : S.length < 2 ^ 31)
    (usage : Along ConnectFirst (o.session iss e) (handshake ++ last :: events))
    (early : (exec (o.session iss e) handshake).established = false)
    (done : (exec (o.session iss e) (handshake ++ [last])).conn.tcb.state = .established)
    (inbound : Along (Inbound S) (exec (o.session iss e) (handshake ++ [last])) events) :
    Along (AckSound S) (exec (o.session iss e) (handshake ++ [last])) events ↔
      Along FinInOrder (exec (o.session iss e) (handshake ++ [last])) events := by
  obtain ⟨before, first, after⟩ := Runs.along_append.mp usage
  have opens : (exec (o.session iss e) handshake).Opens S :=
    Runs.exec_inv (fun s event inv usage => inv.step short usage) (start_opens o iss e S) before
  have split : exec (o.session iss e) (handshake ++ [last]) =
      (exec (o.session iss e) handshake).step last := Runs.exec_append _ _ _ _
  rw [split] at done inbound ⊢
  have hearing := opens.hearing short first early done
  exact Runs.along_congr (fun s event inv rules => (inv.step short rules.1 rules.2).2)
    (fun s event inv rules => (inv.step short rules.1 rules.2).1) hearing
    (Runs.along_and.mpr ⟨after, inbound⟩)

def clientStream : Bytes := [1#8, 2#8, 3#8]

def clientPart (i n : Nat) (fin : Bool) : TcpSegment :=
  clientSegment (clientIsn + 1#32 + BitVec.ofNat 32 i) (serverIsn + 1#32) { ack := true, fin := fin }
    65535#16 ((clientStream.drop i).take n)

theorem clientPart_inbound (s : Session) (now : Instant) (irs : s.conn.tcb.rcv.irs = clientIsn)
    {i n : Nat} {fin : Bool} (inside : i + n ≤ 3) (last : fin = true → i + n = 3) :
    s.Inbound clientStream (.processSegment now (clientPart i n fin)) := by
  intro _
  rw [irs]
  have slice : SliceAt clientStream i ((clientStream.drop i).take n) := .of_drop_take inside
  refine ⟨i, rfl, slice, fun fin => ?_⟩
  have whole := last fin
  simp only [clientPart, clientSegment, SegmentBuilder.segment, List.length_take, List.length_drop]
  rw [show clientStream.length = 3 from rfl]
  omega

theorem ack_unsound_on_early_fin :
    Along ConnectFirst server (establish ++ [.processSegment 0 (clientPart 3 0 true)]) ∧
      (exec server establish).conn.tcb.state = .established ∧
      Along (Inbound clientStream) (exec server establish) [.processSegment 0 (clientPart 3 0 true)] ∧
      ¬ Along (AckSound clientStream) (exec server establish)
        [.processSegment 0 (clientPart 3 0 true)] := by
  refine ⟨by decide, by decide +kernel, ⟨?_, trivial⟩, by decide +kernel⟩
  exact clientPart_inbound _ 0 (by decide +kernel) (by decide) (by decide)

def inOrder : List Event :=
  [.processSegment 0 (clientPart 0 2 false), .processSegment 0 (clientPart 2 1 true), .readReceived 10,
    .initiateClose]

theorem ack_sound_in_order :
    Along ConnectFirst server (establish ++ inOrder) ∧
      Along FinInOrder (exec server establish) inOrder ∧
      Along (AckSound clientStream) (exec server establish) inOrder := by
  have split : establish = establish.dropLast ++ [clientAck (serverIsn + 1#32) 65535#16] := rfl
  have usage : Along ConnectFirst server (establish ++ inOrder) := by decide +kernel
  have early : (exec server establish.dropLast).established = false := by decide +kernel
  have done : (exec server establish).conn.tcb.state = .established := by decide +kernel
  have inbound : Along (Inbound clientStream) (exec server establish) inOrder := by
    refine ⟨?_, ?_, trivial, trivial, trivial⟩
    · exact clientPart_inbound _ 0 (by decide +kernel) (by decide) (by decide)
    · exact clientPart_inbound _ 0 (by decide +kernel) (by decide) (by decide)
  have order : Along FinInOrder (exec server establish) inOrder := by decide +kernel
  exact ⟨usage, order, (ack_sound_iff _ _ _ clientStream establish.dropLast inOrder _ (by decide)
    usage early done inbound).mpr order⟩

end Session

end MagnumTcp.Tcp
