import MagnumTcp.Proof.Window
import MagnumTcp.Tcp.SendScript

namespace MagnumTcp.Tcp

namespace SendBuffer

variable {sb : SendBuffer} {start : U32} {W : Bytes} {u x : Nat}

structure Streams (sb : SendBuffer) (start : U32) (W : Bytes) (u x : Nat) : Prop where
  holds : sb.Holds start W
  una : sb.base W = u
  nxt : sb.nxt = start + BitVec.ofNat 32 x
  ordered : u ≤ x
  emitted : x ≤ W.length

namespace Streams

theorem buffered (streams : sb.Streams start W u x) : sb.len = W.length - u := by
  have fits := streams.holds.fits
  have una := streams.una
  unfold base at una
  omega

theorem inflight (streams : sb.Streams start W u x) : sb.inflight = x - u := by
  have ordered := streams.ordered
  have emitted := streams.emitted
  have buffered := streams.buffered
  have full := sb.len_le
  have una := streams.holds.una
  rw [streams.una] at una
  exact inflight_position una streams.nxt ordered (by omega)

theorem unsent (streams : sb.Streams start W u x) :
    sb.ring.contents.drop sb.inflight = W.drop x := by
  rw [streams.inflight, streams.holds.contents, List.drop_drop, streams.una,
    Nat.add_sub_cancel' streams.ordered]

theorem nextSegment (streams : sb.Streams start W u x) (maxLen : Nat) :
    sb.nextSegment maxLen =
      if (W.drop x).take maxLen = [] then none else some (sb.nxt, (W.drop x).take maxLen) := by
  have ordered := streams.ordered
  have emitted := streams.emitted
  have length : ((W.drop x).take maxLen).length = min maxLen (W.length - x) := by
    rw [List.length_take, List.length_drop]
  cases next : sb.nextSegment maxLen with
  | none =>
      have able := sb.nextSegment_isSome maxLen
      rw [next, streams.inflight, streams.buffered, Option.isSome_none, Bool.false_eq_true,
        false_iff] at able
      rw [if_pos (List.eq_nil_of_length_eq_zero (by omega))]
  | some segment =>
      obtain ⟨seq, more, positive, bytes, -⟩ := nextSegment_some next
      rw [streams.unsent, streams.inflight, streams.buffered] at bytes
      rw [streams.inflight, streams.buffered] at more
      have same : (W.drop x).take maxLen = segment.2 := by
        rw [bytes, List.take_eq_take_iff, List.length_drop]
        omega
      rw [same, ← seq, if_neg]
      intro empty
      rw [same, empty, List.length_nil] at length
      omega

theorem write (streams : sb.Streams start W u x) (data : Bytes) :
    (sb.write data).1.Streams start (W ++ data.take (sb.write data).2) u x where
  holds := streams.holds.write data
  una := (write_base sb W data).trans streams.una
  nxt := streams.nxt
  ordered := streams.ordered
  emitted := by
    rw [List.length_append]
    exact Nat.le_add_right_of_le streams.emitted

theorem advanceNxt (streams : sb.Streams start W u x) {n : Nat} (inside : x + n ≤ W.length) :
    (sb.advanceNxt n).Streams start W u (x + n) where
  holds := ⟨streams.holds.fits, streams.holds.contents, streams.holds.una⟩
  una := streams.una
  nxt := by
    rw [← Serial.add_ofNat_ofNat, ← streams.nxt]
    rfl
  ordered := Nat.le_add_right_of_le streams.ordered
  emitted := inside

theorem acknowledge (streams : sb.Streams start W u x) {ack : U32}
    (inside : (ack - sb.una).toNat ≤ sb.inflight) :
    (sb.acknowledge ack).Streams start W (u + (ack - sb.una).toNat) x := by
  have ordered := streams.ordered
  have emitted := streams.emitted
  have buffered := streams.buffered
  have base := streams.una
  rw [streams.inflight] at inside
  have kept : (sb.acknowledge ack).nxt = sb.nxt := by
    unfold SendBuffer.acknowledge
    dsimp only
    split_ifs <;> rfl
  have len : (sb.acknowledge ack).len = sb.len - (ack - sb.una).toNat := by
    unfold SendBuffer.acknowledge
    dsimp only
    split_ifs with ignored
    · omega
    · rfl
  refine ⟨streams.holds.acknowledge ack, ?_, kept.trans streams.nxt, by omega, emitted⟩
  unfold SendBuffer.base at *
  omega

end Streams

end SendBuffer

namespace SendScript

structure Streams (iss : U32) (s : SendScript) : Prop where
  buffer : s.buffer.Streams (iss + 1#32) s.accepted s.acknowledged s.emitted.length
  bytes : s.emitted = s.accepted.take s.emitted.length

theorem start_streams (iss : U32) : (start iss).Streams iss where
  buffer :=
    { holds := SendBuffer.new_holds iss
      una := rfl
      nxt := by simp [start, SendBuffer.new]
      ordered := Nat.le_refl 0
      emitted := Nat.le_refl 0 }
  bytes := rfl

theorem step_streams {iss : U32} (s : SendScript) (op : SendOp) (streams : s.Streams iss)
    (rule : s.Acknowledges op) : (s.step op).Streams iss := by
  have emitted := streams.buffer.emitted
  cases op with
  | write data =>
      refine ⟨streams.buffer.write data, ?_⟩
      dsimp only [step]
      rw [List.take_append_of_le_length emitted]
      exact streams.bytes
  | emit maxLen =>
      have next := streams.buffer.nextSegment maxLen
      dsimp only [step]
      by_cases nothing : (s.accepted.drop s.emitted.length).take maxLen = []
      · rw [if_pos nothing] at next
        rw [next]
        exact streams
      · rw [if_neg nothing] at next
        rw [next]
        constructor
        · dsimp only
          rw [List.length_append]
          apply streams.buffer.advanceNxt
          rw [List.length_take, List.length_drop]
          omega
        · dsimp only
          rw [List.length_append, List.take_add, ← streams.bytes, List.length_take, List.length_drop,
            List.take_eq_take_min, List.length_drop]
  | acknowledge ack => exact ⟨streams.buffer.acknowledge rule, streams.bytes⟩

/-- What a sender with unbounded memory would show: the stream `accepted` and two positions in it. -/
structure MatchesStream (iss : U32) (s : SendScript) : Prop where
  acknowledged : s.acknowledged ≤ s.emitted.length
  emitted : s.emitted.length ≤ s.accepted.length
  buffered : s.buffer.buffered = s.accepted.length - s.acknowledged
  bounded : s.buffer.buffered ≤ 65536
  una : s.buffer.una = iss + 1#32 + BitVec.ofNat 32 s.acknowledged
  nxt : s.buffer.nxt = iss + 1#32 + BitVec.ofNat 32 s.emitted.length
  bytes : s.emitted = s.accepted.take s.emitted.length
  accepts : ∀ data, (s.buffer.write data).2 = min data.length (65536 - s.buffer.buffered)
  emits : ∀ maxLen, s.buffer.nextSegment maxLen =
    if (s.accepted.drop s.emitted.length).take
        (min maxLen (s.accepted.length - s.emitted.length)) = [] then none
    else some (s.buffer.nxt, (s.accepted.drop s.emitted.length).take
      (min maxLen (s.accepted.length - s.emitted.length)))

theorem Streams.matchesStream {iss : U32} {s : SendScript} (streams : s.Streams iss) :
    s.MatchesStream iss where
  acknowledged := streams.buffer.ordered
  emitted := streams.buffer.emitted
  buffered := streams.buffer.buffered
  bounded := s.buffer.len_le
  una := by
    rw [← streams.buffer.una]
    exact streams.buffer.holds.una
  nxt := streams.buffer.nxt
  bytes := streams.bytes
  accepts := fun _ => rfl
  emits := by
    intro maxLen
    rw [← List.length_drop, ← List.take_eq_take_min]
    exact streams.buffer.nextSegment maxLen

theorem refines_stream (iss : U32) (ops : List SendOp) (run : Along Acknowledges (start iss) ops) :
    Always (MatchesStream iss) (start iss) ops :=
  Runs.always_inv step_streams (fun _ => Streams.matchesStream) (start_streams iss) run

def throughTheTop : List SendOp :=
  [.write [1#8, 2#8, 3#8], .emit 2, .acknowledge 0#32, .write [4#8], .emit 1460, .acknowledge 2#32]

theorem refines_stream_throughTheTop :
    Along Acknowledges (start 0xfffffffe#32) throughTheTop ∧
    (exec (start 0xfffffffe#32) throughTheTop).buffer.nxt = 3#32 ∧
    Always (MatchesStream 0xfffffffe#32) (start 0xfffffffe#32) throughTheTop := by
  have run : Along Acknowledges (start 0xfffffffe#32) throughTheTop := by decide +kernel
  exact ⟨run, by decide +kernel, refines_stream _ _ run⟩

end SendScript

end MagnumTcp.Tcp
