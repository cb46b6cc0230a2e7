import MagnumTcp.Proof.Task

namespace MagnumTcp.Tcp

/-- The loop, in its round `i` with the connection `c`, sends `out` and ends with the connection `c'`. -/
inductive FlushLoop (clock : Nat → Instant) : Nat → Connection → List Bytes → Connection → Prop
  | stop {i : Nat} {c c' : Connection}
      (call : c.nextSegmentToSend (clock i) mss.toNat = (c', none)) : FlushLoop clock i c [] c'
  | send {i : Nat} {c c₁ c' : Connection} {bytes : Bytes} {out : List Bytes}
      (call : c.nextSegmentToSend (clock i) mss.toNat = (c₁, some bytes))
      (rest : FlushLoop clock (i + 1) c₁ out c') : FlushLoop clock i c (bytes :: out) c'

namespace Session

theorem step_emitted (s : Session) (event : Event) :
    (s.step event).emitted = s.emitted ++ s.output event := rfl

theorem flushRounds_loop (clock : Nat → Instant) (rounds i : Nat) (s : Session)
    (enough : s.unsent < rounds) :
    ∃ out, FlushLoop clock i s.conn out (flushRounds clock rounds i s).conn ∧
      (flushRounds clock rounds i s).emitted = s.emitted ++ out := by
  induction rounds generalizing i s with
  | zero => exact absurd enough (Nat.not_lt_zero _)
  | succ rounds ih =>
      unfold flushRounds
      dsimp only
      by_cases able : s.conn.Sendable mss.toNat
      · obtain ⟨segment, -, -, reply⟩ := Connection.nextSegmentToSend_next (clock i) able
        have loud : ¬ (s.output (.nextSegmentToSend (clock i) mss.toNat)).isEmpty = true := by
          rw [output_isEmpty, not_not]
          exact able
        have shorter := unsent_step (clock i) able
        obtain ⟨out, loop, emitted⟩ :=
          ih (i + 1) (s.step (.nextSegmentToSend (clock i) mss.toNat)) (by omega)
        rw [if_neg loud]
        refine ⟨_ :: out, .send (Prod.ext rfl reply) loop, ?_⟩
        rw [emitted, step_emitted]
        simp [output, call, Prod.map, reply]
      · have silent := (s.output_isEmpty (clock i)).mpr able
        rw [if_pos silent]
        refine ⟨[], .stop ?_, ?_⟩
        · rw [Connection.nextSegmentToSend_idle (clock i) able]
          simp [step, call, Prod.map, Connection.nextSegmentToSend_idle (clock i) able]
        · rw [step_emitted, List.isEmpty_iff.mp silent]

theorem flushSendBuf_loop (s : Session) (clock : Nat → Instant) :
    ∃ out, FlushLoop clock 0 s.conn out (s.flushSendBuf clock).conn ∧
      (s.flushSendBuf clock).emitted = s.emitted ++ out :=
  flushRounds_loop clock _ _ s (Nat.lt_succ_of_le (Nat.sub_le _ _))

end Session

def Contiguous : U32 → List (U32 × Bytes) → Prop
  | _, [] => True
  | seq, segment :: rest =>
      segment.1 = seq ∧ Contiguous (seq + BitVec.ofNat 32 segment.2.length) rest

namespace Connection

variable {c c' : Connection}

structure Aligned (c : Connection) : Prop where
  una : c.tcb.snd.una = c.sendBuf.una
  nxt : c.tcb.snd.nxt = c.sendBuf.nxt

def unsent (c : Connection) : Bytes := c.sendBuf.ring.contents.drop c.sendBuf.inflight

theorem unsent_length (c : Connection) : c.unsent.length = c.sendBuf.len - c.sendBuf.inflight := by
  rw [unsent, List.length_drop, RingBuffer.contents_length]
  rfl

theorem Aligned.inflight (aligned : c.Aligned) : c.inflight = c.sendBuf.inflight := by
  rw [Connection.inflight, SendBuffer.inflight, aligned.una, aligned.nxt]

structure Sends (c : Connection) (payload : Bytes) (c' : Connection) : Prop where
  aligned : c'.Aligned
  bytes : payload = c.unsent.take (min mss.toNat (c.effectiveWindow - c.inflight))
  nonempty : payload ≠ []
  unsent : c'.unsent = c.unsent.drop payload.length
  inflight : c'.inflight = c.inflight + payload.length
  window : c'.effectiveWindow = c.effectiveWindow
  seq : c'.sendBuf.nxt = c.sendBuf.nxt + BitVec.ofNat 32 payload.length
  build : c'.buildData = c.buildData

theorem Aligned.sends (now : Instant) (aligned : c.Aligned) (able : c.Sendable mss.toNat) :
    ∃ payload c', c.nextSegmentToSend now mss.toNat =
        (c', some (c.buildData c.sendBuf.nxt payload)) ∧ c.Sends payload c' := by
  obtain ⟨open_, more, positive⟩ := able
  obtain ⟨segment, next⟩ := Option.isSome_iff_exists.mp ((c.sendBuf.nextSegment_isSome
    (min mss.toNat (c.effectiveWindow - c.inflight))).mpr ⟨more, by omega⟩)
  obtain ⟨seq, -, -, bytes, length⟩ := SendBuffer.nextSegment_some next
  have full := c.sendBuf.len_le
  have same := aligned.inflight
  have moved : (c.sendBuf.advanceNxt segment.2.length).inflight =
      c.sendBuf.inflight + segment.2.length := SendBuffer.advanceNxt_inflight (by omega)
  have call := Connection.nextSegmentToSend_eq now open_ next
  rw [seq] at call
  refine ⟨segment.2, _, call, ?_⟩
  constructor
  · exact ⟨aligned.una, rfl⟩
  · rw [bytes, unsent, List.take_eq_take_iff, List.length_drop, RingBuffer.contents_length]
    change min (min (c.sendBuf.len - _) _) (c.sendBuf.len - _) = min _ (c.sendBuf.len - _)
    omega
  · intro empty
    rw [empty, List.length_nil] at length
    omega
  · rw [unsent, unsent, List.drop_drop, ← moved]
    rfl
  · rw [same, ← moved]
    change (c.sendBuf.nxt + BitVec.ofNat 32 segment.2.length - c.tcb.snd.una).toNat = _
    rw [aligned.una]
    rfl
  · rfl
  · rfl
  · rfl

structure Flushed (c c' : Connection) (segments : List (U32 × Bytes)) : Prop where
  sized : ∀ segment ∈ segments, 1 ≤ segment.2.length ∧ segment.2.length ≤ mss.toNat
  contiguous : Contiguous c.sendBuf.nxt segments
  bytes : (segments.map Prod.snd).flatten = c.unsent.take (c.effectiveWindow - c.inflight)
  inflight : c'.inflight ≤ max c.inflight c.effectiveWindow

theorem Flushed.idle (idle : ¬ c.Sendable mss.toNat) : c.Flushed c [] := by
  constructor
  · exact fun _ member => absurd member List.not_mem_nil
  · trivial
  · have positive : 0 < mss.toNat := by decide
    have length := c.unsent_length
    unfold Sendable at idle
    symm
    rw [List.map_nil, List.flatten_nil, List.take_eq_nil_iff, ← List.length_eq_zero_iff]
    omega
  · exact Nat.le_max_left _ _

theorem Sends.flushed {c₁ : Connection} {payload : Bytes} {segments : List (U32 × Bytes)}
    (sends : c.Sends payload c₁) (flushed : c₁.Flushed c' segments) :
    c.Flushed c' ((c.sendBuf.nxt, payload) :: segments) := by
  have positive := List.length_pos_of_ne_nil sends.nonempty
  have length : payload.length = min (min mss.toNat (c.effectiveWindow - c.inflight))
      c.unsent.length := by
    rw [← List.length_take, ← sends.bytes]
  constructor
  · rw [List.forall_mem_cons]
    exact ⟨⟨positive, by dsimp only; omega⟩, flushed.sized⟩
  · refine ⟨rfl, ?_⟩
    rw [← sends.seq]
    exact flushed.contiguous
  · have first : payload = c.unsent.take payload.length := by
      apply List.prefix_iff_eq_take.mp
      rw [sends.bytes]
      exact List.take_prefix _ _
    -- What the window has room for is the payload and what it has room for afterwards.
    have room : c.effectiveWindow - c.inflight =
        payload.length + (c.effectiveWindow - (c.inflight + payload.length)) := by omega
    rw [List.map_cons, List.flatten_cons, flushed.bytes, sends.unsent, sends.inflight, sends.window,
      room, List.take_add, ← first]
  · have inflight := flushed.inflight
    rw [sends.inflight, sends.window] at inflight
    omega

theorem Aligned.flushed {clock : Nat → Instant} {i : Nat} {out : List Bytes} (aligned : c.Aligned)
    (loop : FlushLoop clock i c out c') :
    ∃ segments : List (U32 × Bytes),
      out = segments.map (fun segment => c.buildData segment.1 segment.2) ∧ c.Flushed c' segments := by
  induction loop with
  | @stop i c c' call =>
      by_cases able : c.Sendable mss.toNat
      · obtain ⟨payload, c₁, sent, -⟩ := aligned.sends (clock i) able
        rw [call] at sent
        cases sent
      · rw [nextSegmentToSend_idle (clock i) able] at call
        cases call
        exact ⟨[], rfl, .idle able⟩
  | @send i c c₁ c' bytes out call rest ih =>
      by_cases able : c.Sendable mss.toNat
      · obtain ⟨payload, c₂, sent, sends⟩ := aligned.sends (clock i) able
        rw [call] at sent
        cases sent
        obtain ⟨segments, built, flushed⟩ := ih sends.aligned
        refine ⟨(c.sendBuf.nxt, payload) :: segments, ?_, sends.flushed flushed⟩
        rw [built, sends.build]
        rfl
      · rw [nextSegmentToSend_idle (clock i) able] at call
        cases call

end Connection

namespace Session

theorem Synced.connAligned {s : Session} {w : Window} (inv : s.Synced w)
    (sending : s.conn.tcb.state.sending = true) : s.conn.Aligned :=
  ⟨inv.synced.una sending, inv.synced.nxt sending⟩

theorem exec_synced (o : Opening) (iss : U32) (e : Endpoint) (events : List Event)
    (usage : Along Orderly (o.session iss e) events) :
    ∃ w, (exec (o.session iss e) events).Synced w :=
  Runs.exec_inv synced_step ⟨_, start_synced o iss e⟩ usage

/-- The loop ends for every connection, and `flushSendBuf` is its outcome. In ESTABLISHED and CLOSE-WAIT it
sends exactly the unsent bytes for which the window has room. -/
theorem flush_window_exact :
    (∀ (s : Session) (clock : Nat → Instant),
      ∃ out, FlushLoop clock 0 s.conn out (s.flushSendBuf clock).conn ∧
        (s.flushSendBuf clock).emitted = s.emitted ++ out) ∧
    ∀ (o : Opening) (iss : U32) (e : Endpoint) (events : List Event) (s : Session)
      (clock : Nat → Instant) (out : List Bytes) (c' : Connection),
      Along Orderly (o.session iss e) events → s = exec (o.session iss e) events →
      s.conn.tcb.state = .established ∨ s.conn.tcb.state = .closeWait →
      FlushLoop clock 0 s.conn out c' →
      ∃ segments : List (U32 × Bytes),
        out = segments.map (fun segment => s.conn.buildData segment.1 segment.2) ∧
        (∀ segment ∈ segments, 1 ≤ segment.2.length ∧ segment.2.length ≤ mss.toNat) ∧
        Contiguous s.conn.sendBuf.nxt segments ∧
        (segments.map Prod.snd).flatten = s.conn.unsent.take
          (min s.conn.unsent.length (s.conn.effectiveWindow - s.conn.inflight)) ∧
        c'.inflight ≤ max s.conn.inflight s.conn.effectiveWindow := by
  refine ⟨flushSendBuf_loop, ?_⟩
  rintro o iss e events s clock out c' usage rfl state loop
  obtain ⟨w, inv⟩ := exec_synced o iss e events usage
  have sending : (exec (o.session iss e) events).conn.tcb.state.sending = true := by
    rcases state with state | state <;> rw [state] <;> rfl
  obtain ⟨segments, built, flushed⟩ := (inv.connAligned sending).flushed loop
  refine ⟨segments, built, flushed.sized, flushed.contiguous, ?_, flushed.inflight⟩
  rw [flushed.bytes, List.take_eq_take_min, Nat.min_comm]

def threeWritten : List Event := establish ++ [.writeData [1#8, 2#8, 3#8]]

theorem flush_window_exact_threeWritten :
    (Along Orderly server threeWritten ∧
      (exec server threeWritten).conn.tcb.state = .established) ∧
    ∃ (out : List Bytes) (segments : List (U32 × Bytes)),
      FlushLoop (fun _ => 0) 0 (exec server threeWritten).conn out
        ((exec server threeWritten).flushSendBuf fun _ => 0).conn ∧
      out = segments.map
        (fun segment => (exec server threeWritten).conn.buildData segment.1 segment.2) ∧
      (segments.map Prod.snd).flatten = [1#8, 2#8, 3#8] := by
  have usage : Along Orderly server threeWritten := by decide +kernel
  have state : (exec server threeWritten).conn.tcb.state = .established := by decide +kernel
  have all : (exec server threeWritten).conn.unsent.take
      (min (exec server threeWritten).conn.unsent.length
        ((exec server threeWritten).conn.effectiveWindow -
          (exec server threeWritten).conn.inflight)) = [1#8, 2#8, 3#8] := by decide +kernel
  obtain ⟨ends, exact_⟩ := flush_window_exact
  obtain ⟨out, loop, -⟩ := ends (exec server threeWritten) fun _ => 0
  obtain ⟨segments, built, -, -, bytes, -⟩ :=
    exact_ .passive serverIsn serverEnd threeWritten _ _ _ _ usage rfl (.inl state) loop
  exact ⟨⟨usage, state⟩, out, segments, loop, built, bytes.trans all⟩

/-- After a reset the connection is opened again. The sequence numbers of the peer put `snd.una` in front of
what the first connection had acknowledged. -/
def reopened : List Event :=
  establish ++ [.writeData [1#8, 2#8], .nextSegmentToSend 0 1460, clientAck (serverIsn + 3#32) 65535#16,
    .processSegment 0 (clientSegment (clientIsn + 1#32) 0#32 { rst := true } 0#16 []), .connect,
    .processSegment 0 (clientSegment clientIsn (serverIsn + 3#32 + 0x7fffffff#32)
      { syn := true, ack := true } 65535#16 []),
    clientAck (serverIsn + 1#32) 10#16, .writeData (List.replicate 20 7#8)]

theorem reopened_overfills_window :
    Along WriteEstablished server reopened ∧
    (exec server reopened).conn.tcb.state = .established ∧
    ∃ out c', FlushLoop (fun _ => 0) 0 (exec server reopened).conn out c' ∧
      ¬ c'.inflight ≤
        max (exec server reopened).conn.inflight (exec server reopened).conn.effectiveWindow := by
  obtain ⟨out, loop, -⟩ := (exec server reopened).flushSendBuf_loop fun _ => 0
  exact ⟨by decide +kernel, by decide +kernel, out, _, loop, by decide +kernel⟩

end Session

end MagnumTcp.Tcp
