import MagnumTcp.Proof.Frame
import MagnumTcp.Proof.Sync

namespace MagnumTcp.Tcp

open MagnumTcp.Tcp.Core

/-! ## The send window -/

namespace Connection

variable {c : Connection} {now : Instant} {seg : TcpSegment}

theorem establishedAck_wnd (flag : seg.header.flags.ack = true) :
    (c.establishedAck now seg).1.tcb.snd.wnd =
      if c.acceptable seg then seg.header.window else c.tcb.snd.wnd := by
  unfold establishedAck
  rw [flag, Bool.not_true, if_neg Bool.false_ne_true]
  split_ifs with good dup
  · rfl
  · rw [countDupAck_tcb]
  · rfl

theorem processSegment_wnd (state : c.tcb.state = .established)
    (alive : seg.header.flags.rst = false) (flag : seg.header.flags.ack = true) :
    (c.processSegment now seg).1.tcb.snd.wnd =
      if c.acceptable seg then seg.header.window else c.tcb.snd.wnd := by
  obtain ⟨_, _, received⟩ := handleEstablished_tcb (c := c) now alive
  rw [← establishedAck_wnd flag, processSegment_established state, received]

/-- After an acknowledgement in ESTABLISHED the send window is the advertised one exactly when the
acknowledgement is new, or advertises what was known already. -/
theorem window_follows_iff (c : Connection) (now : Instant) (seg : TcpSegment)
    (state : c.tcb.state = .established) (alive : seg.header.flags.rst = false)
    (flag : seg.header.flags.ack = true) :
    (c.processSegment now seg).1.tcb.snd.wnd = seg.header.window ↔
      ackAcceptable c.tcb.snd.una seg.header.ackNum c.tcb.snd.nxt = true ∨
        seg.header.window = c.tcb.snd.wnd := by
  rw [processSegment_wnd state alive flag]
  change (if c.acceptable seg = true then _ else _) = _ ↔ c.acceptable seg = true ∨ _
  split_ifs with good
  · exact iff_of_true rfl (.inl good)
  · rw [or_iff_right good, eq_comm]

end Connection

def closedWindow : List Event :=
  [.processSegment 0 (clientSegment clientIsn 0#32 { syn := true } 65535#16 []),
    clientAck (serverIsn + 1#32) 0#16, .writeData [1#8, 2#8], .zeroWindowProbe]

theorem window_stays_closed :
    (Session.Along Session.Orderly server closedWindow ∧
      (Session.exec server closedWindow).conn.tcb.state = .established ∧
      (Session.exec server closedWindow).conn.tcb.snd.una = serverIsn + 1#32 ∧
      (Session.exec server closedWindow).conn.tcb.rcv.nxt = clientIsn + 1#32) ∧
    ((Session.exec server closedWindow).conn.processSegment 0
      (ackSegment (serverIsn + 1#32) 1000#16)).1.tcb.snd.wnd ≠ 1000#16 := by
  decide +kernel

theorem window_follows_probe :
    ((Session.exec server closedWindow).conn.tcb.state = .established ∧
      ackAcceptable (Session.exec server closedWindow).conn.tcb.snd.una (serverIsn + 2#32)
        (Session.exec server closedWindow).conn.tcb.snd.nxt = true) ∧
    ((Session.exec server closedWindow).conn.processSegment 0
      (ackSegment (serverIsn + 2#32) 1000#16)).1.tcb.snd.wnd = 1000#16 :=
  have state : (Session.exec server closedWindow).conn.tcb.state = .established := by decide +kernel
  have good : ackAcceptable (Session.exec server closedWindow).conn.tcb.snd.una (serverIsn + 2#32)
      (Session.exec server closedWindow).conn.tcb.snd.nxt = true := by decide +kernel
  ⟨⟨state, good⟩, (Connection.window_follows_iff _ 0 (ackSegment (serverIsn + 2#32) 1000#16) state rfl
    rfl).mpr (.inl good)⟩

/-! ## Payloads that change nothing -/

namespace RecvBuffer

variable {rb : RecvBuffer} {seq : U32} {data : Bytes}

/-- What is left of the payload finds the ring full and no segment to drain, or another segment
staged at its number; or nothing is left of it. -/
def Ignores (rb : RecvBuffer) (seq : U32) (data : Bytes) : Prop :=
  ∀ rest ∈ rb.trimmed seq data,
    if rest.1 = rb.nxt then rb.len = recvBufSize ∧ ∀ entry ∈ rb.ooo.entries.head?, entry.1 ≠ rb.nxt
    else ∃ entry ∈ rb.ooo.entries, entry.1 = rest.1

theorem trimmed_nonempty (nonempty : data ≠ []) {rest : U32 × Bytes}
    (left : rb.trimmed seq data = some rest) : rest.2 ≠ [] := by
  unfold trimmed at left
  dsimp only at left
  split_ifs at left with old covered
  · cases left
    simpa using covered
  · cases left
    exact nonempty

theorem drain_grows (rb : RecvBuffer) (entries : List (U32 × Bytes)) (increasing : KeysIncrease entries) :
    rb.len ≤ (rb.drain entries increasing).len ∧
      (rb.drain entries increasing).ooo.entries.length ≤ entries.length := by
  induction entries generalizing rb with
  | nil => exact ⟨le_rfl, le_rfl⟩
  | cons entry rest ih =>
      obtain ⟨key, data⟩ := entry
      simp only [drain]
      split_ifs with gap
      · exact ⟨le_rfl, le_rfl⟩
      · obtain ⟨longer, fewer⟩ := ih (rb.commit data) (List.Pairwise.of_cons increasing)
        refine ⟨le_trans ?_ longer, fewer.trans (Nat.le_succ _)⟩
        exact Nat.le_add_right _ _

theorem drainOoo_eq_self :
    rb.drainOoo = rb ↔ ∀ entry ∈ rb.ooo.entries.head?, entry.1 ≠ rb.nxt := by
  obtain ⟨ring, nxt, entries, increasing⟩ := rb
  unfold drainOoo
  cases entries with
  | nil => simp [drain]
  | cons entry rest =>
      simp only [drain, List.head?_cons, Option.mem_some_iff, forall_eq']
      split_ifs with gap
      · exact iff_of_true rfl gap
      · refine iff_of_false (fun same => ?_) gap
        have count := congrArg (fun rb => rb.ooo.entries.length) same
        have fewer := count.symm.le.trans (drain_grows _ rest _).2
        simp at fewer

theorem commit_eq_self (full : rb.len = recvBufSize) : rb.commit data = rb := by
  unfold commit
  rw [RingBuffer.write_full full]
  simp

theorem insert_eq_self (nonempty : data ≠ []) : rb.insert seq data = rb ↔ rb.Ignores seq data := by
  unfold insert Ignores
  rw [if_neg (by simpa using nonempty)]
  cases left : rb.trimmed seq data with
  | none => simp
  | some rest =>
      simp only [Option.mem_some_iff, forall_eq']
      split_ifs with next
      · by_cases full : rb.len = recvBufSize
        · rw [commit_eq_self full, drainOoo_eq_self, and_iff_right full]
        · refine iff_of_false (fun same => ?_) (fun both => full both.1)
          have longer := ((rb.commit rest.2).drain_grows _ (rb.commit rest.2).ooo.increasing).1
          have bytes := List.length_pos_iff.mpr (trimmed_nonempty nonempty left)
          have room : rb.len < (rb.commit rest.2).len := by
            have bound : rb.len ≤ recvBufSize := rb.ring.len_le
            change rb.len < rb.len + min rest.2.length (recvBufSize - rb.len)
            omega
          have kept : (rb.commit rest.2).drainOoo.len = rb.len := by rw [same]
          exact absurd (room.trans_le longer) (by rw [← kept]; exact lt_irrefl _)
      · rw [← SortedMap.insertNew_eq_self (v := rest.2)]
        exact ⟨congrArg ooo, fun same => by rw [same]⟩

end RecvBuffer

/-! ## The receive side -/

structure RecvSide where
  recvBuf : Option RecvBuffer
  nxt : U32
  state : TcbState

def Connection.recvSide (c : Connection) : RecvSide := ⟨c.recvBuf, c.tcb.rcv.nxt, c.tcb.state⟩

def Core.recvSide (c : Core) : RecvSide := ⟨c.recvBuf, c.rcvNxt, c.state⟩

def RecvSide.insert (r : RecvSide) (seg : TcpSegment) : RecvSide :=
  match r.recvBuf with
  | none => r
  | some rb =>
      let rb := rb.insert seg.header.seq seg.payload
      { r with recvBuf := some rb, nxt := rb.nextExpected }

def RecvSide.receive (r : RecvSide) (seg : TcpSegment) : RecvSide :=
  let r := r.insert seg
  if seg.header.flags.fin then
    { r with
      nxt := seg.header.seq + BitVec.ofNat 32 seg.payload.length + 1#32
      state := .closeWait }
  else r

theorem Core.insert_recvSide (c : Core) (seg : TcpSegment) :
    (c.insert seg).recvSide = c.recvSide.insert seg := by
  unfold Core.insert
  cases buffer : c.recvBuf <;> simp [Core.recvSide, RecvSide.insert, buffer]

theorem Core.Acked.recvSide {c c' : Core} {seg : TcpSegment} (acked : c.Acked seg c') :
    c'.recvSide = c.recvSide := by
  rcases acked with ⟨-, rfl⟩ | ⟨-, rfl⟩ <;> rfl

theorem SegmentStep.recvSide {early : Bool} {seg : TcpSegment} {c c' : Core}
    {out : List SegmentBuilder} (step : SegmentStep early seg c c' out)
    (state : c.state = .established) (alive : seg.header.flags.rst = false)
    (carries : seg.payload ≠ [] ∨ seg.header.flags.fin = true) :
    c'.recvSide = if early then c.recvSide else c.recvSide.receive seg := by
  cases step with
  | ignore idle => exact absurd state idle.established
  | reset rst => simp [alive] at rst
  | fastRetransmit _ _ _ third => simp [third]
  | quiet _ _ _ _ payload fin => simp [payload, fin] at carries
  | receive k _ _ late acked _ fin =>
      simp only [late, ← acked.recvSide, insert_recvSide, RecvSide.receive, fin, Bool.false_eq_true,
        if_false]
  | receiveFin k _ _ late _ acked fin =>
      simp only [late, ← acked.recvSide, ← insert_recvSide, RecvSide.receive, fin,
        Bool.false_eq_true, if_false, if_true]
      rfl
  | refuse opening => simp [state] at opening
  | relisten other => simp [state] at other
  | listenSyn _ other => simp [state] at other
  | synSentAck _ other => simp [state] at other
  | synSentSyn _ other => simp [state] at other
  | repeatSynAck _ other => simp [state] at other
  | synReceivedAck other => simp [state] at other
  | finWait1Ack other => simp [state] at other
  | finWait1Done other => simp [state] at other
  | finWait1Both _ other => simp [state] at other
  | finWait1Fin _ _ other => simp [state] at other
  | finWait2Fin _ other => simp [state] at other
  | closingAck other => simp [state] at other
  | lastAckAck other => simp [state] at other
  | timeWaitFin _ other => simp [state] at other

theorem RecvSide.receive_eq_self {r : RecvSide} {rb : RecvBuffer} {seg : TcpSegment}
    (state : r.state = .established) (buffer : r.recvBuf = some rb) (next : r.nxt = rb.nextExpected)
    (carries : seg.payload ≠ [] ∨ seg.header.flags.fin = true) :
    r.receive seg = r ↔ seg.header.flags.fin = false ∧ rb.Ignores seg.header.seq seg.payload := by
  cases fin : seg.header.flags.fin with
  | true =>
      refine iff_of_false (fun same => ?_) (fun both => Bool.true_eq_false.mp both.1)
      have closed := congrArg RecvSide.state same
      simp [receive, fin, state] at closed
  | false =>
      have nonempty : seg.payload ≠ [] := by simpa [fin] using carries
      rw [← RecvBuffer.insert_eq_self nonempty, eq_self, true_and]
      obtain ⟨recvBuf, nxt, _⟩ := r
      dsimp only at buffer next
      subst buffer next
      simp only [receive, insert, fin, Bool.false_eq_true, if_false, RecvSide.mk.injEq,
        Option.some.injEq, and_true]
      exact ⟨And.left, fun same => ⟨same, by rw [same]⟩⟩

theorem Connection.processSegment_recvSide {c : Connection} {seg : TcpSegment} (now : Instant)
    (state : c.tcb.state = .established) (alive : seg.header.flags.rst = false)
    (carries : seg.payload ≠ [] ∨ seg.header.flags.fin = true) :
    (c.processSegment now seg).1.recvSide =
      if c.fastRetransmits seg then c.recvSide else c.recvSide.receive seg := by
  obtain ⟨out, step, -⟩ := c.processSegment_core now seg
  exact step.recvSide state alive carries

namespace Session

theorem Reachable.expects {s : Session} (reached : s.Reachable) : s.conn.core.Expects := by
  refine reached.induct (P := fun s => s.conn.core.Expects) start_expects ?_
  intro s event expects
  obtain ⟨out, step, -⟩ := s.step_core event
  exact step.expects expects

/-- Two connections in ESTABLISHED with the same receive side both take in the payload and the FIN of
a segment exactly when it is the third duplicate acknowledgement for neither of them, or nothing but
a payload that the buffer has no use for. -/
theorem receive_side_iff {s₁ s₂ : Session} (reached : s₁.Reachable)
    (state : s₁.conn.tcb.state = .established) (same : s₁.conn.recvSide = s₂.conn.recvSide)
    (now₁ now₂ : Instant) (seg : TcpSegment) (alive : seg.header.flags.rst = false)
    (carries : seg.payload ≠ [] ∨ seg.header.flags.fin = true) :
    (s₁.conn.processSegment now₁ seg).1.recvSide = (s₂.conn.processSegment now₂ seg).1.recvSide ∧
      (s₁.conn.processSegment now₁ seg).1.recvSide = s₁.conn.recvSide.receive seg ↔
    s₁.conn.fastRetransmits seg = false ∧ s₂.conn.fastRetransmits seg = false ∨
      seg.header.flags.fin = false ∧
        ∀ rb ∈ s₁.conn.recvBuf, rb.Ignores seg.header.seq seg.payload := by
  have state₂ : s₂.conn.tcb.state = .established := (congrArg RecvSide.state same).symm.trans state
  obtain ⟨rb, buffer, next⟩ := reached.expects (.inl state)
  have self := RecvSide.receive_eq_self (r := s₁.conn.recvSide) state buffer next carries
  rw [Connection.processSegment_recvSide now₁ state alive carries,
    Connection.processSegment_recvSide now₂ state₂ alive carries, ← same,
    show s₁.conn.recvBuf = some rb from buffer]
  simp only [Option.mem_some_iff, forall_eq', ← self]
  cases s₁.conn.fastRetransmits seg <;> cases s₂.conn.fastRetransmits seg <;>
    simp [eq_comm]

def flowing : List Event := establish ++ [.writeData [1#8], .nextSegmentToSend 0 1460]

def doublyAcked : List Event :=
  flowing ++ [clientAck (serverIsn + 1#32) 65535#16, clientAck (serverIsn + 1#32) 65535#16]

def crossing : TcpSegment :=
  clientSegment (clientIsn + 1#32) (serverIsn + 1#32) { ack := true, psh := true } 65535#16 [42#8]

theorem payload_dropped_on_third_duplicate :
    (Along Orderly server flowing ∧ Along Orderly server doublyAcked ∧
      (exec server flowing).conn.tcb.state = .established ∧
      (exec server flowing).conn.recvSide = (exec server doublyAcked).conn.recvSide) ∧
    ((exec server flowing).conn.processSegment 0 crossing).1.recvSide ≠
      ((exec server doublyAcked).conn.processSegment 0 crossing).1.recvSide := by
  refine ⟨⟨by decide +kernel, by decide +kernel, by decide +kernel, rfl⟩, fun same => ?_⟩
  have different : ((exec server flowing).conn.processSegment 0 crossing).1.recvSide.nxt ≠
      ((exec server doublyAcked).conn.processSegment 0 crossing).1.recvSide.nxt := by
    decide +kernel
  exact different (congrArg RecvSide.nxt same)

theorem receive_side_first_duplicate :
    ((exec server flowing).Reachable ∧ (exec server flowing).conn.tcb.state = .established ∧
      (exec server establish).conn.recvSide = (exec server flowing).conn.recvSide) ∧
    ((exec server flowing).conn.processSegment 0 crossing).1.recvSide =
      ((exec server establish).conn.processSegment 0 crossing).1.recvSide := by
  have reached : (exec server flowing).Reachable := ⟨.passive, _, _, flowing, rfl⟩
  have state : (exec server flowing).conn.tcb.state = .established := by decide +kernel
  have early : (exec server flowing).conn.fastRetransmits crossing = false ∧
      (exec server establish).conn.fastRetransmits crossing = false := by decide +kernel
  exact ⟨⟨reached, state, rfl⟩, ((receive_side_iff reached state rfl 0 0 crossing rfl
    (.inl (by decide))).mpr (.inl early)).1⟩

end Session

end MagnumTcp.Tcp
