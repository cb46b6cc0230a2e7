import MagnumTcp.Proof.Congestion
import MagnumTcp.Proof.RetransmitRound

namespace MagnumTcp.Tcp

open MagnumTcp.Tcp.Core

/-! ## The receiving end -/

namespace Session

variable {s : Session} {iss : U32} {S : Bytes} {m : Nat} {seg : TcpSegment}

theorem Follows.committed (follows : s.Follows iss S m) : s.arrived = S.take m ∧ s.arrived.length = m := by
  have arrived := follows.arrived
  have le := follows.le
  refine ⟨arrived, ?_⟩
  rw [arrived, List.length_take]
  omega

theorem arrived_read (s : Session) :
    (s.step (.readReceived recvBufSize)).received = s.arrived ∧
      (s.step (.readReceived recvBufSize)).conn.receivedAvailable = 0 := by
  change s.received ++ (s.conn.readReceived recvBufSize).2 = s.arrived ∧
    (s.conn.readReceived recvBufSize).1.receivedAvailable = 0
  unfold arrived Connection.readReceived Connection.receivedAvailable
  cases buffer : s.conn.recvBuf with
  | none => simp [buffer]
  | some rb =>
      have full := rb.ring.len_le
      have whole : min recvBufSize rb.len = rb.ring.len := Nat.min_eq_right full
      have bytes : rb.ring.peek 0 rb.ring.len = rb.ring.contents := by
        rw [RingBuffer.peek_eq _ (by omega), List.drop_zero]
        exact List.take_of_length_le rb.ring.contents_length.le
      simp only [RecvBuffer.read, whole, bytes, Option.elim_some, true_and]
      exact (RingBuffer.skip_len _ _).trans (Nat.sub_self _)

theorem arrived_drained (drained : s.conn.receivedAvailable = 0) : s.arrived = s.received := by
  unfold arrived
  unfold Connection.receivedAvailable at drained
  cases buffer : s.conn.recvBuf with
  | none => simp
  | some rb =>
      rw [buffer] at drained
      have none : rb.ring.contents = [] := by
        rw [← List.length_eq_zero_iff, RingBuffer.contents_length]
        exact drained
      simp [none]

structure Completed (s : Session) (now : Instant) (seg : TcpSegment) (iss : U32) (S : Bytes) : Prop where
  follows : (s.step (.processSegment now seg)).Follows iss S S.length
  receptive : (s.step (.processSegment now seg)).conn.Receptive
  emitted : (s.step (.processSegment now seg)).emitted =
    s.emitted ++ [(s.step (.processSegment now seg)).conn.buildAck]
  window : mss.toNat ≤ (s.step (.processSegment now seg)).conn.currentWindow.toNat

theorem Follows.complete (follows : s.Follows iss S m) (short : S.length < 2 ^ 31)
    (receptive : s.conn.Receptive) (now : Instant) (plain : seg.Plain)
    (seq : seg.header.seq = iss + 1#32 + BitVec.ofNat 32 m) (slice : SliceAt S m seg.payload)
    (last : m + seg.payload.length = S.length) (small : seg.payload.length ≤ mss.toNat)
    (drained : s.received.length = m) : s.Completed now seg iss S := by
  have answer := receptive.processSegment now plain
  have size : mss.toNat = 1460 := rfl
  obtain ⟨m', reached, next⟩ := follows.reaches short receptive now plain seq slice (by omega)
  have inside := next.le
  have all : m' = S.length := by
    rw [drained, recvBufSize] at reached
    omega
  subst all
  refine ⟨next, receptive.process now plain, ?_, ?_⟩
  · simp [Session.step, output, call, answer]
  · have receptive' := receptive.process now plain
    obtain ⟨rb, buffer, -⟩ := next.expects (.inl receptive'.state)
    have committed := (next.receives.buffer rb buffer).committed
    have received : (s.step (.processSegment now seg)).received = s.received := List.append_nil _
    rw [received, drained] at committed
    have buffer : (s.step (.processSegment now seg)).conn.recvBuf = some rb := buffer
    simp only [Connection.currentWindow, buffer, RecvBuffer.window, BitVec.toNat_ofNat, recvBufSize]
    omega

end Session

/-! ## The sending end -/

namespace Connection

variable {c : Connection} {maxPayload : Nat}

theorem AcksAll.window {seg : TcpSegment} (acks : c.AcksAll seg) (now : Instant)
    (state : c.tcb.state = .established) (acceptable : c.core.Acceptable seg) :
    (c.processSegment now seg).1.tcb.snd.wnd = seg.header.window := by
  have alive : seg.header.flags.rst = false := by rw [acks.flags]
  have flag : seg.header.flags.ack = true := by rw [acks.flags]
  rw [processSegment_wnd state alive flag]
  exact if_pos acceptable.2

end Connection

theorem Connection.Receptive.read {c : Connection} (receptive : c.Receptive) (bufLen : Nat) :
    (c.readReceived bufLen).1.Receptive := by
  have same : (c.readReceived bufLen).1.tcb = c.tcb := by
    unfold Connection.readReceived
    cases c.recvBuf <;> rfl
  refine ⟨?_, ?_⟩ <;> rw [same]
  · exact receptive.state
  · exact receptive.idle

theorem Connection.readReceived_same (c : Connection) (bufLen : Nat) :
    (c.readReceived bufLen).1.core =
      { c.core with recvBuf := c.core.recvBuf.map fun rb => (rb.read bufLen).1 } := by
  have step := c.readReceived_core bufLen
  generalize (c.readReceived bufLen).1.core = c' at step
  cases step
  rfl

def Session.Silent (_ : Session) (event : Event) : Prop := ∀ data, event ≠ .writeData data

/-! ## Rounds -/

namespace Network

variable {n : Network} {e : Endpoint} {iss : Side → U32} {side : Side}

@[simp] theorem perform_back (n : Network) (side : Side) (event : Event) :
    (n.perform side.other event).party side = n.party side := by
  have kept := n.perform_other side.other event
  rwa [Side.other_other] at kept

/-- Both ends are in ESTABLISHED with nothing outstanding, and one of them has read all that the other has
sent. -/
structure Quiet (e : Endpoint) (iss : Side → U32) (side : Side) (n : Network) : Prop where
  agreed : ∃ w m, n.Agreed e iss w m
  short : n.Short
  state : (n.party side).conn.tcb.state = .established
  idle : (n.party side).conn.tcb.snd.una = (n.party side).conn.tcb.snd.nxt
  receptive : (n.party side.other).conn.Receptive
  drained : (n.party side.other).conn.receivedAvailable = 0
  range : (n.party side).conn.InRange

structure Level (e : Endpoint) (iss : Side → U32) (side : Side) (n : Network) (w : Side → Window)
    (m : Side → Nat) : Prop where
  agreed : n.Agreed e iss w m
  una : (w side).una = (n.party side).sent + 1
  bufUna : (w side).bufUna = (n.party side).sent + 1
  nxt : (w side).nxt = (n.party side).sent + 1
  bufNxt : (w side).bufNxt = (n.party side).sent + 1
  inside : (n.party side).sent ≤ (n.party side).written.length
  committed : m side.other = (n.party side).sent
  received : (n.party side.other).received = (n.party side).written.take (n.party side).sent

theorem Quiet.level (quiet : n.Quiet e iss side) : ∃ w m, n.Level e iss side w m := by
  obtain ⟨w, m, agreed⟩ := quiet.agreed
  have synced := (agreed.outstanding side).synced
  have counts := synced.windowed.counts
  obtain ⟨una, bufUna, nxt, bufNxt⟩ := synced.positions quiet.state
  have ends := counts.bufNxt_le
  have close := counts.close
  have ordered := counts.ordered
  have level : (n.party side).acked = (n.party side).sent := by
    have same : (n.party side).conn.core.una = (n.party side).conn.core.nxt := quiet.idle
    rw [counts.una, counts.nxt] at same
    have := quiet.short side
    have := Serial.eq_of_add_ofNat _ (by omega) (by omega) same
    omega
  rw [level] at una bufUna
  have follows := agreed.follows side.other
  have acked := agreed.acked side
  rw [Side.other_other, Window.stream, bufNxt, Nat.add_sub_cancel] at follows
  have arrived := follows.arrived
  have bound := follows.le
  rw [List.length_take] at bound
  have committed : m side.other = (n.party side).sent := by omega
  refine ⟨w, m, agreed, una, bufUna, nxt, bufNxt, by omega, committed, ?_⟩
  rw [committed, List.take_take, Nat.min_self] at arrived
  rw [← arrived, Session.arrived_drained quiet.drained]

/-- The event sends the first of the unsent bytes in a segment of their own. -/
structure Next (n : Network) (iss : Side → U32) (side : Side) (event : Event) (c' : Core) (flags : TcpFlags)
    (segment : U32 × Bytes) : Prop where
  rule : n.Rule Session.Orderly (.call side event)
  core : ((n.party side).step event).conn.core = c'
  written : ((n.party side).step event).written = (n.party side).written
  emitted : ∃ v, ((n.party side).step event).emitted =
    (n.party side).emitted ++ [(c'.reply segment.1 flags segment.2 v).build]
  plain : flags.syn = false ∧ flags.fin = false ∧ flags.rst = false
  ends : c'.ends = (n.party side).conn.core.ends
  state : c'.state = .established
  seq : segment.1 = iss side + BitVec.ofNat 32 ((n.party side).sent + 1)
  slice : SliceAt (n.party side).written (n.party side).sent segment.2
  nxt : c'.nxt = iss side + BitVec.ofNat 32 ((n.party side).sent + segment.2.length + 1)
  outstanding : c'.una ≠ c'.nxt
  acceptable : ∀ seg : TcpSegment, seg.header.flags.ack = true → seg.header.ackNum = c'.nxt →
    c'.Acceptable seg
  positive : 0 < segment.2.length
  small : segment.2.length ≤ mss.toNat
  inside : (n.party side).sent + segment.2.length ≤ (n.party side).written.length

theorem Quiet.sends (quiet : n.Quiet e iss side) {event : Event} {c' : Core} {flags : TcpFlags}
    {segment : U32 × Bytes} {maxLen : Nat} {v : U16}
    (next : (n.party side).conn.core.sendBuf.nextSegment maxLen = some segment)
    (small : maxLen ≤ mss.toNat) (rule : n.Rule Session.Orderly (.call side event))
    (core : ((n.party side).step event).conn.core = c')
    (written : ((n.party side).step event).written = (n.party side).written)
    (output : (n.party side).output event = [(c'.reply segment.1 flags segment.2 v).build])
    (plain : flags.syn = false ∧ flags.fin = false ∧ flags.rst = false)
    (una : c'.una = (n.party side).conn.core.una)
    (buffer : c'.sendBuf = (n.party side).conn.core.sendBuf.advanceNxt segment.2.length)
    (nxt : c'.nxt = c'.sendBuf.nxt) (state : c'.state = (n.party side).conn.core.state) :
    n.Next iss side event c' flags segment ∧
      segment.2.length = min maxLen ((n.party side).written.length - (n.party side).sent) := by
  obtain ⟨w, m, level⟩ := quiet.level
  have counts := (level.agreed.outstanding side).synced.windowed.counts
  have short := quiet.short side
  have inflight := counts.inflight
  have total := counts.written
  have begun := level.una
  have bufUna := level.bufUna
  have bufNxt := level.bufNxt
  obtain ⟨-, seq, positive, -⟩ := counts.nextSegment next
  obtain ⟨-, -, -, -, length⟩ := SendBuffer.nextSegment_some next
  have waiting : (n.party side).conn.core.sendBuf.inflight = 0 := by
    rw [inflight (by omega)]
    omega
  have slice := counts.slice (level.agreed.outstanding side).sends next
  have same : c'.ends = (n.party side).conn.core.ends ∧ c'.iss = (n.party side).conn.core.iss := by
    obtain ⟨out, step, -⟩ := (n.party side).step_core event
    rw [core] at step
    exact step.fixed
  have iss' : (n.party side).conn.core.iss = iss side := (level.agreed.sender side).iss
  have advanced := counts.advance next same.2 una buffer nxt
  rw [bufNxt, Nat.add_sub_cancel] at slice
  refine ⟨⟨rule, core, written, ⟨v, ?_⟩, plain, same.1, state.trans quiet.state, ?_, slice, ?_, ?_, ?_,
    positive, by omega, by omega⟩, by omega⟩
  · exact congrArg ((n.party side).emitted ++ ·) output
  · rw [seq, iss', bufNxt]
  · rw [advanced.nxt, same.2, iss', bufNxt, Nat.add_right_comm]
  · intro equal
    rw [advanced.una, advanced.nxt] at equal
    have := Serial.eq_of_add_ofNat _ (by dsimp only; omega) (by dsimp only; omega) equal
    dsimp only at this
    omega
  · intro seg flag number
    rw [advanced.acceptable]
    exact ⟨flag, _, number.trans advanced.nxt, by dsimp only; omega, Nat.le_refl _⟩

theorem Quiet.unsent (quiet : n.Quiet e iss side)
    (more : (n.party side).sent < (n.party side).written.length) :
    (n.party side).conn.sendBuf.inflight < (n.party side).conn.core.sendBuf.len ∧
      (n.party side).conn.inflight = 0 := by
  obtain ⟨w, m, level⟩ := quiet.level
  have counts := (level.agreed.outstanding side).synced.windowed.counts
  have written := counts.written
  have inflight := counts.inflight
  have bufUna := level.bufUna
  have bufNxt := level.bufNxt
  constructor
  · rw [show (n.party side).conn.sendBuf.inflight = _ from inflight (by omega)]
    omega
  · rw [Connection.inflight, quiet.idle, BitVec.sub_self]
    rfl

/-- What the task calls to get the next segment out: a probe where the window is closed. -/
def sendEvent (n : Network) (side : Side) (now : Instant) : Event :=
  if (n.party side).conn.tcb.snd.wnd = 0#16 then .zeroWindowProbe else .nextSegmentToSend now mss.toNat

def sendLimit (n : Network) (side : Side) : Nat :=
  if (n.party side).conn.tcb.snd.wnd = 0#16 then 1
  else min mss.toNat (n.party side).conn.tcb.snd.wnd.toNat

theorem Quiet.nextSegment (quiet : n.Quiet e iss side) (window : (n.party side).conn.tcb.snd.wnd ≠ 0#16)
    (now : Instant) (more : (n.party side).sent < (n.party side).written.length) :
    ∃ c' flags segment, n.Next iss side (.nextSegmentToSend now mss.toNat) c' flags segment ∧
      segment.2.length = min (min mss.toNat (n.party side).conn.tcb.snd.wnd.toNat)
        ((n.party side).written.length - (n.party side).sent) := by
  obtain ⟨unsent, none⟩ := quiet.unsent more
  have size : mss.toNat = 1460 := rfl
  have range := quiet.range.cwnd
  have positive : 0 < (n.party side).conn.tcb.snd.wnd.toNat :=
    Nat.pos_of_ne_zero fun zero => window (BitVec.eq_of_toNat_eq zero)
  have able : (n.party side).conn.Sendable mss.toNat := by
    refine ⟨?_, unsent, by decide⟩
    rw [none, Connection.effectiveWindow]
    omega
  have full : min mss.toNat ((n.party side).conn.effectiveWindow - (n.party side).conn.inflight) =
      min mss.toNat (n.party side).conn.tcb.snd.wnd.toNat := by
    rw [none, Connection.effectiveWindow]
    omega
  obtain ⟨segment, next, core, sent⟩ := Connection.nextSegmentToSend_next now able
  rw [full] at next
  have rule : n.Rule Session.Orderly (.call side (.nextSegmentToSend now mss.toNat)) :=
    ⟨rfl, trivial, trivial⟩
  have output : (n.party side).output (.nextSegmentToSend now mss.toNat) =
      [(((n.party side).conn.core.sent segment).reply segment.1 { ack := true, psh := true } segment.2
        (n.party side).conn.currentWindow).build] := congrArg Option.toList sent
  exact ⟨_, _, segment, quiet.sends next (Nat.min_le_left _ _) rule core (List.append_nil _) output
    ⟨rfl, rfl, rfl⟩ rfl rfl rfl rfl⟩

theorem Quiet.probe (quiet : n.Quiet e iss side) (closed : (n.party side).conn.tcb.snd.wnd = 0#16)
    (more : (n.party side).sent < (n.party side).written.length) :
    ∃ c' flags segment, n.Next iss side .zeroWindowProbe c' flags segment ∧
      segment.2.length = min 1 ((n.party side).written.length - (n.party side).sent) := by
  obtain ⟨unsent, -⟩ := quiet.unsent more
  obtain ⟨segment, next, core, sent⟩ := Connection.zeroWindowProbe_next ⟨quiet.state, closed, unsent⟩
  have one : segment.2.length = 1 := by
    obtain ⟨-, -, -, -, length⟩ := SendBuffer.nextSegment_some next
    have : (n.party side).conn.core.sendBuf.inflight < (n.party side).conn.core.sendBuf.len := unsent
    omega
  have rule : n.Rule Session.Orderly (.call side .zeroWindowProbe) := ⟨rfl, trivial, trivial⟩
  have output : (n.party side).output .zeroWindowProbe =
      [((n.party side).conn.core.probed.reply segment.1 { ack := true } segment.2
        (n.party side).conn.currentWindow).build] := congrArg Option.toList sent
  have buffer : (n.party side).conn.core.probed.sendBuf =
      (n.party side).conn.core.sendBuf.advanceNxt segment.2.length := by
    rw [one]
    rfl
  exact ⟨_, _, segment, quiet.sends next (by decide) rule core (List.append_nil _) output
    ⟨rfl, rfl, rfl⟩ rfl buffer rfl rfl⟩

theorem Quiet.next (quiet : n.Quiet e iss side) (now : Instant)
    (more : (n.party side).sent < (n.party side).written.length) :
    ∃ c' flags segment, n.Next iss side (n.sendEvent side now) c' flags segment ∧
      segment.2.length = min (n.sendLimit side)
        ((n.party side).written.length - (n.party side).sent) := by
  unfold sendEvent sendLimit
  split_ifs with closed
  · exact quiet.probe closed more
  · exact quiet.nextSegment closed now more

def sendRound (n : Network) (side : Side) (event : Event) (now : Instant) : List Action :=
  [.call side event, .deliver side.other now (n.party side).emitted.length,
    .call side.other (.readReceived recvBufSize), .deliver side now (n.party side.other).emitted.length]

variable {event : Event} {c' : Core} {flags : TcpFlags} {segment : U32 × Bytes}

theorem Next.sendRound_rule (next : n.Next iss side event c' flags segment) (now : Instant) :
    Along (Rule Session.Orderly) n (n.sendRound side event now) :=
  ⟨next.rule, trivial, ⟨rfl, trivial, trivial⟩, trivial, trivial⟩

theorem Next.data (next : n.Next iss side event c' flags segment) (v : U16) :
    (c'.reply segment.1 flags segment.2 v).segment.Plain := by
  obtain ⟨syn, fin, rst⟩ := next.plain
  exact ⟨syn, fin, rst, List.ne_nil_of_length_pos next.positive⟩

structure Round (n n' : Network) (side : Side) (c' : Core) : Prop where
  written : ∀ x, (n'.party x).written = (n.party x).written
  state : (n'.party side).conn.tcb.state = .established
  una : (n'.party side).conn.tcb.snd.una = c'.nxt
  nxt : (n'.party side).conn.tcb.snd.nxt = c'.nxt
  window : mss.toNat ≤ (n'.party side).conn.tcb.snd.wnd.toNat
  range : (n'.party side).conn.InRange
  receptive : (n'.party side.other).conn.Receptive
  drained : (n'.party side.other).conn.receivedAvailable = 0

theorem Quiet.completed (quiet : n.Quiet e iss side) (now : Instant)
    (next : n.Next iss side event c' flags segment) (v : U16) :
    (n.party side.other).Completed now (c'.reply segment.1 flags segment.2 v).segment (iss side)
      ((n.party side).written.take ((n.party side).sent + segment.2.length)) := by
  obtain ⟨w, m, level⟩ := quiet.level
  have inside := next.inside
  have short := quiet.short side
  have follows := level.agreed.follows side.other
  rw [Side.other_other, Window.stream, level.bufNxt, Nat.add_sub_cancel, level.committed] at follows
  have longer := follows.append (((n.party side).written.drop (n.party side).sent).take segment.2.length)
  rw [← List.take_add] at longer
  have whole : ((n.party side).written.take ((n.party side).sent + segment.2.length)).length =
      (n.party side).sent + segment.2.length := by
    rw [List.length_take]
    omega
  apply longer.complete (by rw [whole]; omega) quiet.receptive now (next.data v)
  · rw [Serial.add_ofNat_ofNat, Nat.add_comm 1]
    exact next.seq
  · exact next.slice.within (Nat.le_refl _)
  · exact whole.symm
  · exact next.small
  · rw [level.received, List.length_take]
    have := level.inside
    omega

theorem Quiet.exec_round (quiet : n.Quiet e iss side) (now : Instant)
    (next : n.Next iss side event c' flags segment) {v : U16}
    (emitted : ((n.party side).step event).emitted =
      (n.party side).emitted ++ [(c'.reply segment.1 flags segment.2 v).build]) :
    ∃ answer : TcpSegment,
      answer.header.flags = { ack := true } ∧ answer.payload = [] ∧ answer.header.ackNum = c'.nxt ∧
      mss.toNat ≤ answer.header.window.toNat ∧
      (exec n (n.sendRound side event now)).party side =
        ((n.party side).step event).step (.processSegment now answer) ∧
      (exec n (n.sendRound side event now)).party side.other =
        ((n.party side.other).step (.processSegment now
          (c'.reply segment.1 flags segment.2 v).segment)).step (.readReceived recvBufSize) := by
  have completed := quiet.completed now next v
  set seg := (c'.reply segment.1 flags segment.2 v).segment with data
  set n₁ := n.perform side event with first
  set n₂ := n₁.perform side.other (.processSegment now seg) with second
  set n₃ := n₂.perform side.other (.readReceived recvBufSize) with third
  have here : n₁.party side = (n.party side).step event := perform_self ..
  have there : n₂.party side.other = (n.party side.other).step (.processSegment now seg) := by
    rw [second, perform_self, first, perform_other]
  have sends : n₁.step (.deliver side.other now (n.party side).emitted.length) = n₂ := by
    have found : (n₁.party side.other.other).emitted[(n.party side).emitted.length]? =
        some (c'.reply segment.1 flags segment.2 v).build := by
      rw [Side.other_other, here, emitted, List.getElem?_append_right (Nat.le_refl _), Nat.sub_self]
      rfl
    have ends : (n₁.party side.other.other).conn.core.ends = c'.ends := by
      rw [Side.other_other, here, next.core]
    exact step_deliver now found ends (TcpSegment.parse_build _ (next.small.trans (by decide)))
  have answered : (n₃.party side.other).emitted[(n.party side.other).emitted.length]? =
      some (n₂.party side.other).conn.buildAck := by
    have read : (n₃.party side.other).emitted = (n₂.party side.other).emitted := by
      rw [third, perform_self]
      exact List.append_nil _
    rw [read, there, completed.emitted, List.getElem?_append_right (Nat.le_refl _), Nat.sub_self]
    rfl
  have same : (n₃.party side.other).conn.core.ends = (n₂.party side.other).conn.core.ends := by
    rw [third, perform_self]
    exact (Session.step_core _ _).choose_spec.1.fixed.1
  set v' := (n₂.party side.other).conn.currentWindow with advertised
  have arrives : n₃.step (.deliver side now (n.party side.other).emitted.length) =
      n₃.perform side (.processSegment now ((n₂.party side.other).conn.core.ack v').segment) :=
    step_deliver now answered same (TcpSegment.parse_build _ (Nat.zero_le _))
  have final : exec n (n.sendRound side event now) =
      n₃.perform side (.processSegment now ((n₂.party side.other).conn.core.ack v').segment) := by
    rw [← arrives, third, ← sends]
    rfl
  refine ⟨((n₂.party side.other).conn.core.ack v').segment, rfl, rfl, ?_, ?_, ?_, ?_⟩
  · have rcvNxt := (completed.follows.rcvNxt (.inl completed.receptive.state)).2
    rw [← there, List.length_take, Nat.min_eq_left next.inside] at rcvNxt
    exact rcvNxt.trans next.nxt.symm
  · rw [there] at advertised
    change mss.toNat ≤ v'.toNat
    rw [advertised]
    exact completed.window
  · rw [final, perform_self, third, perform_back, second, perform_back, here]
  · rw [final, perform_other, third, perform_self, there]

theorem Next.answered (next : n.Next iss side event c' flags segment) {answer : TcpSegment}
    (ack : answer.header.flags = { ack := true }) (payload : answer.payload = [])
    (number : answer.header.ackNum = c'.nxt) (now : Instant) :
    (((n.party side).step event).step (.processSegment now answer)).conn.core = c'.acknowledge answer ∧
      (((n.party side).step event).step (.processSegment now answer)).conn.tcb.snd.wnd =
        answer.header.window := by
  have core := next.core
  generalize (n.party side).step event = s at core
  have state : s.conn.core.state = .established := by
    rw [core]
    exact next.state
  have acks : s.conn.AcksAll answer :=
    ⟨ack, payload, number.trans (congrArg Core.nxt core).symm, by
      rw [show s.conn.tcb.snd.una = _ from congrArg Core.una core,
        show s.conn.tcb.snd.nxt = _ from congrArg Core.nxt core]
      exact next.outstanding⟩
  have acceptable : s.conn.core.Acceptable answer := by
    rw [core]
    exact next.acceptable answer (by rw [ack]) number
  have after := acks.process state acceptable now
  rw [core] at after
  exact ⟨after, acks.window now state acceptable⟩

theorem Quiet.round (quiet : n.Quiet e iss side) (now : Instant)
    (next : n.Next iss side event c' flags segment) :
    n.Round (exec n (n.sendRound side event now)) side c' := by
  obtain ⟨v, emitted⟩ := next.emitted
  have completed := quiet.completed now next v
  obtain ⟨answer, ack, payload, number, window, here, there⟩ := quiet.exec_round now next emitted
  obtain ⟨after, told⟩ := next.answered ack payload number now
  have written := next.written
  have range := Session.step_inRange _ event quiet.range
  constructor
  · rw [Side.forall_iff side, here, there]
    refine ⟨(List.append_nil _).trans written, ?_⟩
    exact (List.append_nil _).trans (List.append_nil _)
  · rw [here]
    exact (congrArg Core.state after).trans next.state
  · rw [here, ← number]
    exact congrArg Core.una after
  · rw [here]
    exact congrArg Core.nxt after
  · rw [here]
    exact window.trans (congrArg BitVec.toNat told).ge
  · rw [here]
    exact Session.step_inRange _ _ range
  · rw [there]
    exact completed.receptive.read _
  · rw [there]
    exact (Session.arrived_read _).2

theorem Quiet.again (quiet : n.Quiet e iss side) (now : Instant)
    (next : n.Next iss side event c' flags segment) :
    (exec n (n.sendRound side event now)).Quiet e iss side := by
  have round := quiet.round now next
  have short : (exec n (n.sendRound side event now)).Short := by
    intro x
    rw [round.written]
    exact quiet.short x
  refine ⟨?_, short, round.state, round.una.trans round.nxt.symm, round.receptive, round.drained,
    round.range⟩
  apply Runs.exec_inv agreed_step (fun _ _ => quiet.agreed) (next.sendRound_rule now) short
  rw [Young, Side.forall_iff side]
  exact ⟨.inr (.inr round.state), .inr (.inr round.receptive.state)⟩

theorem Quiet.advances (quiet : n.Quiet e iss side) (now : Instant)
    (next : n.Next iss side event c' flags segment) :
    ((exec n (n.sendRound side event now)).party side).sent =
      (n.party side).sent + segment.2.length := by
  have round := quiet.round now next
  have after := quiet.again now next
  obtain ⟨w, m, level⟩ := after.level
  have short := after.short side
  have close := level.inside
  have inside := next.inside
  rw [round.written] at short close
  have number := (level.agreed.outstanding side).synced.windowed.counts.nxt
  rw [(level.agreed.sender side).iss, level.nxt] at number
  have same := number.symm.trans (round.nxt.trans next.nxt)
  have := Serial.eq_of_add_ofNat _ (by omega) (by omega) same
  omega

def transfer (side : Side) : (clock : Nat → Instant) → Nat → Network → Network
  | _, 0, n => n
  | clock, k + 1, n =>
      transfer side (fun i => clock (i + 1)) k
        (exec n (n.sendRound side (n.sendEvent side (clock 0)) (clock 0)))

/-- As many rounds as there are segments in what has not been sent, if the first is as long as the window
admits and all others are full. -/
def rounds (n : Network) (side : Side) : Nat :=
  let unsent := (n.party side).written.length - (n.party side).sent
  if unsent = 0 then 0 else 1 + (unsent - n.sendLimit side + (mss.toNat - 1)) / mss.toNat

structure Carried (n n' : Network) (side : Side) : Prop where
  written : ∀ x, (n'.party x).written = (n.party x).written
  established : ∀ x, (n.party x).established = true → (n'.party x).established = true
  range : (n.party side.other).conn.InRange → (n'.party side.other).conn.InRange
  recvBuf : (n'.party side).conn.core.recvBuf = (n.party side).conn.core.recvBuf
  received : (n'.party side).received = (n.party side).received
  sendBuf : (n'.party side.other).conn.core.sendBuf = (n.party side.other).conn.core.sendBuf
  queue : (n'.party side.other).conn.core.queue = (n.party side.other).conn.core.queue

theorem Carried.refl (n : Network) (side : Side) : n.Carried n side :=
  ⟨fun _ => rfl, fun _ => id, id, rfl, rfl, rfl, rfl⟩

theorem Carried.trans {n n' n'' : Network} (first : n.Carried n' side) (second : n'.Carried n'' side) :
    n.Carried n'' side where
  written x := (second.written x).trans (first.written x)
  established x before := second.established x (first.established x before)
  range before := second.range (first.range before)
  recvBuf := second.recvBuf.trans first.recvBuf
  received := second.received.trans first.received
  sendBuf := second.sendBuf.trans first.sendBuf
  queue := second.queue.trans first.queue

theorem sendEvent_kept (n : Network) (side : Side) (now : Instant) (s : Session) :
    (s.step (n.sendEvent side now)).conn.core.recvBuf = s.conn.core.recvBuf ∧
      (s.step (n.sendEvent side now)).received = s.received := by
  obtain ⟨out, step, -⟩ := s.step_core (n.sendEvent side now)
  unfold sendEvent at step ⊢
  split_ifs at step ⊢ with closed
  · refine ⟨?_, List.append_nil _⟩
    generalize (s.step .zeroWindowProbe).conn.core = c' at step
    cases step <;> rfl
  · refine ⟨?_, List.append_nil _⟩
    generalize (s.step (.nextSegmentToSend now mss.toNat)).conn.core = c' at step
    cases step <;> rfl

theorem Quiet.carried (quiet : n.Quiet e iss side) (now : Instant)
    (next : n.Next iss side (n.sendEvent side now) c' flags segment) :
    n.Carried (exec n (n.sendRound side (n.sendEvent side now) now)) side := by
  obtain ⟨v, emitted⟩ := next.emitted
  obtain ⟨answer, ack, payload, number, -, here, there⟩ := quiet.exec_round now next emitted
  obtain ⟨after, -⟩ := next.answered ack payload number now
  obtain ⟨kept, received⟩ := n.sendEvent_kept side now (n.party side)
  rw [next.core] at kept
  have taken : ∀ seg : TcpSegment, seg.Plain →
      (((n.party side.other).step (.processSegment now seg)).step (.readReceived recvBufSize)).conn.core =
        { (n.party side.other).conn.core.insert seg with
          recvBuf := ((n.party side.other).conn.core.insert seg).recvBuf.map
            fun rb => (rb.read recvBufSize).1 } := by
    intro seg plain
    rw [← quiet.receptive.insert now plain]
    exact Connection.readReceived_same _ _
  constructor
  · exact (quiet.round now next).written
  · rw [Side.forall_iff side, here, there]
    refine ⟨fun before => ?_, fun before => ?_⟩ <;> simp [Session.step, before]
  · intro range
    rw [there]
    exact Session.step_inRange _ _ (Session.step_inRange _ _ range)
  · rw [here, after]
    exact kept
  · rw [here]
    exact (List.append_nil _).trans received
  · rw [there, taken _ (next.data v)]
    exact (Core.insert_sends _ _).1
  · rw [there, taken _ (next.data v)]
    exact (Core.insert_sends _ _).2

theorem Quiet.ends (quiet : n.Quiet e iss side) (clock : Nat → Instant) {k : Nat}
    (count : n.rounds side = k) :
    (n.transfer side clock k).Quiet e iss side ∧ n.Carried (n.transfer side clock k) side ∧
      ((n.transfer side clock k).party side).sent = (n.party side).written.length := by
  have size : mss.toNat = 1460 := rfl
  induction k generalizing n clock with
  | zero =>
      obtain ⟨w, m, level⟩ := quiet.level
      have inside := level.inside
      have full : (n.party side).sent = (n.party side).written.length := by
        unfold rounds at count
        dsimp only at count
        rw [size] at count
        split_ifs at count <;> omega
      exact ⟨quiet, .refl n side, full⟩
  | succ k ih =>
      unfold rounds at count
      dsimp only at count
      split_ifs at count with none
      have more : (n.party side).sent < (n.party side).written.length := by omega
      obtain ⟨c', flags, segment, next, length⟩ := quiet.next (clock 0) more
      have round := quiet.round (clock 0) next
      have advances := quiet.advances (clock 0) next
      have carried := quiet.carried (clock 0) next
      have window := round.window
      have positive := next.positive
      have again := quiet.again (clock 0) next
      rw [Network.transfer]
      generalize exec n (n.sendRound side (n.sendEvent side (clock 0)) (clock 0)) = n' at *
      have limit : n'.sendLimit side = mss.toNat := by
        unfold sendLimit
        rw [if_neg, Nat.min_eq_left window]
        intro closed
        rw [closed] at window
        exact absurd window (by decide)
      have left : n'.rounds side = k := by
        unfold rounds
        rw [carried.written, advances, limit]
        dsimp only
        rw [size] at count ⊢
        split_ifs <;> omega
      obtain ⟨ends, later, full⟩ := ih again (fun i => clock (i + 1)) left
      exact ⟨ends, carried.trans later, full.trans (congrArg List.length (carried.written side))⟩

theorem Quiet.completes (quiet : n.Quiet e iss side) (clock : Nat → Instant) :
    ((n.transfer side clock (n.rounds side)).party side.other).received = (n.party side).written ∧
      ((n.transfer side clock (n.rounds side)).party side).acked = (n.party side).written.length := by
  obtain ⟨ends, carried, full⟩ := quiet.ends clock rfl
  obtain ⟨w, m, level⟩ := ends.level
  have received := level.received
  rw [full, carried.written, List.take_length] at received
  obtain ⟨una, -⟩ := (level.agreed.outstanding side).synced.positions ends.state
  have := level.una
  exact ⟨received, by omega⟩

theorem inRange_step (n : Network) (action : Action) (range : ∀ side, (n.party side).conn.InRange)
    (rule : n.Rule Session.Orderly action) : ∀ side, ((n.step action).party side).conn.InRange := by
  rcases step_cases rule (fun _ _ _ => ⟨trivial, trivial⟩) with same | ⟨side, event, taken, -⟩
  · rw [same]
    exact range
  · rw [taken, Side.forall_iff side, perform_self, perform_other]
    exact ⟨Session.step_inRange _ event (range side), range side.other⟩

structure Kept (n n' : Network) : Prop where
  written : ∀ side, (n'.party side).written = (n.party side).written
  received : ∀ side, (n.party side).received <+: (n'.party side).received

theorem Kept.refl (n : Network) : n.Kept n := ⟨fun _ => rfl, fun _ => List.prefix_rfl⟩

theorem kept_step {n₀ : Network} (n : Network) (action : Action) (kept : n₀.Kept n)
    (rule : n.Rule Session.Silent action) : n₀.Kept (n.step action) := by
  rcases step_cases rule (fun _ _ _ _ => Event.noConfusion) with same | ⟨side, event, taken, silent, -⟩
  · rw [same]
    exact kept
  · rw [taken]
    have nothing : (n.party side).accepted event = [] := by
      cases event with
      | writeData data => exact absurd rfl (silent data)
      | _ => rfl
    constructor <;> rw [Side.forall_iff side, perform_self, perform_other]
    · refine ⟨?_, kept.written side.other⟩
      exact (congrArg ((n.party side).written ++ ·) nothing).trans ((List.append_nil _).trans (kept.written side))
    · exact ⟨(kept.received side).trans (List.prefix_append _ _), kept.received side.other⟩

/-- When nothing is outstanding on either side and the other side has read all that was sent, rounds
over a network that loses nothing bring it everything that was written, whatever the window, and all of
it is acknowledged. -/
theorem transfer_completes (o : Side → Opening) (iss : Side → U32) (e : Endpoint) (actions : List Action)
    (rule : Along (Rule Session.Orderly) (start o iss e) actions) (side : Side) (clock : Nat → Instant) :
    let n := exec (start o iss e) actions
    n.Short → (∀ x, (n.party x).conn.tcb.state = .established) →
    (∀ x, (n.party x).conn.tcb.snd.una = (n.party x).conn.tcb.snd.nxt) →
    (n.party side.other).conn.receivedAvailable = 0 →
    let n' := n.transfer side clock (n.rounds side)
    (n'.party side.other).received = (n.party side).written ∧
      (n'.party side).acked = (n.party side).written.length := by
  intro n short state idle drained n'
  have agreed := Runs.exec_inv agreed_step (fun _ _ => ⟨_, _, start_agreed o iss e⟩) rule
    short fun side => .inr (.inr (state side))
  have range : ∀ side, (n.party side).conn.InRange :=
    Runs.exec_inv inRange_step (fun side => Session.start_inRange (o side) _ _) rule
  have quiet : n.Quiet e iss side := ⟨agreed, short, state side, idle side,
    ⟨state side.other, idle side.other⟩, drained, range side⟩
  exact quiet.completes clock

def twoSegments : List Action := handshake ++ [.call .left (.writeData (List.replicate 2000 7#8))]

theorem transfer_completes_twoSegments :
    let n := exec clientServer twoSegments
    let n' := n.transfer .left (fun _ => 0) (n.rounds .left)
    n.rounds .left = 2 ∧ (n'.party Side.left.other).received = (n.party .left).written ∧
      (n'.party .left).acked = (n.party .left).written.length := by
  have rule : Along (Rule Session.Orderly) clientServer twoSegments := by decide +kernel
  have short : (exec clientServer twoSegments).Short := by rintro (_ | _) <;> decide +kernel
  have state : ∀ x, ((exec clientServer twoSegments).party x).conn.tcb.state = .established := by
    rintro (_ | _) <;> decide +kernel
  have idle : ∀ x, ((exec clientServer twoSegments).party x).conn.tcb.snd.una =
      ((exec clientServer twoSegments).party x).conn.tcb.snd.nxt := by
    rintro (_ | _) <;> decide +kernel
  have drained : ((exec clientServer twoSegments).party Side.left.other).conn.receivedAvailable = 0 := by
    decide +kernel
  have count : (exec clientServer twoSegments).rounds .left = 2 := by decide +kernel
  have done := transfer_completes _ _ _ twoSegments rule .left (fun _ => 0) short state idle drained
  rw [← clientServer] at done
  exact ⟨count, done⟩

end Network

end MagnumTcp.Tcp
