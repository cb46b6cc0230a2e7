import MagnumTcp.Lib.Serial
import MagnumTcp.Lib.Slices
import MagnumTcp.Proof.Refinement
import MagnumTcp.Proof.Wire

namespace MagnumTcp.Tcp

open MagnumTcp.Tcp.Core

namespace SendBuffer

def base (sb : SendBuffer) (W : Bytes) : Nat := W.length - sb.len

structure Holds (sb : SendBuffer) (start : U32) (W : Bytes) : Prop where
  fits : sb.len ≤ W.length
  contents : sb.ring.contents = W.drop (sb.base W)
  una : sb.una = start + BitVec.ofNat 32 (sb.base W)

theorem len_le (sb : SendBuffer) : sb.len ≤ 65536 := sb.ring.len_le

theorem new_holds (iss : U32) : (new iss).Holds (iss + 1#32) [] := by
  refine ⟨Nat.le_refl 0, rfl, ?_⟩
  simp [new, base]

variable {sb : SendBuffer} {start : U32} {W : Bytes}

theorem write_len (sb : SendBuffer) (data : Bytes) :
    (sb.write data).1.len = sb.len + (data.take (sb.write data).2).length := by
  simp only [len, write, RingBuffer.write_len, RingBuffer.write_snd, List.length_take]
  omega

theorem write_base (sb : SendBuffer) (W data : Bytes) :
    (sb.write data).1.base (W ++ data.take (sb.write data).2) = sb.base W := by
  unfold base
  rw [write_len, List.length_append]
  omega

theorem Holds.write (holds : sb.Holds start W) (data : Bytes) :
    (sb.write data).1.Holds start (W ++ data.take (sb.write data).2) := by
  have fits := holds.fits
  have added : (sb.write data).1.ring.contents =
      sb.ring.contents ++ data.take (sb.write data).2 := by
    simp only [SendBuffer.write, RingBuffer.write_contents, RingBuffer.write_snd]
    rw [Nat.min_comm, ← List.take_eq_take_min]
  refine ⟨?_, ?_, ?_⟩
  · rw [write_len, List.length_append]
    omega
  · rw [added, write_base, holds.contents, List.drop_append_of_le_length (by unfold base; omega)]
  · rw [write_base]
    exact holds.una

theorem Holds.acknowledge (holds : sb.Holds start W) (ack : U32) :
    (sb.acknowledge ack).Holds start W := by
  unfold SendBuffer.acknowledge
  dsimp only
  split_ifs with ignored
  · exact holds
  · have fits := holds.fits
    have inside : (ack - sb.una).toNat ≤ sb.ring.len := by
      simp only [len] at ignored
      omega
    have shifted : ({ sb with ring := sb.ring.skip (ack - sb.una).toNat, una := ack } :
        SendBuffer).base W = sb.base W + (ack - sb.una).toNat := by
      simp only [base, len, RingBuffer.skip_len] at *
      omega
    refine ⟨?_, ?_, ?_⟩
    · simp only [len, RingBuffer.skip_len] at *
      omega
    · rw [shifted, ← List.drop_drop, ← holds.contents]
      exact RingBuffer.skip_contents _ inside
    · rw [shifted, ← Serial.add_ofNat_ofNat, ← holds.una, Serial.add_sub_toNat]

theorem nextSegment_some {maxLen : Nat} {segment : U32 × Bytes}
    (next : sb.nextSegment maxLen = some segment) :
    segment.1 = sb.nxt ∧ sb.inflight < sb.len ∧ 0 < maxLen ∧
      segment.2 = (sb.ring.contents.drop sb.inflight).take (min (sb.len - sb.inflight) maxLen) ∧
      segment.2.length = min (sb.len - sb.inflight) maxLen := by
  unfold nextSegment at next
  dsimp only at next
  split_ifs at next with sent nothing
  cases next
  have inside : sb.inflight + min (sb.len - sb.inflight) maxLen ≤ sb.ring.len := by
    simp only [len] at *
    omega
  have bytes := sb.ring.peek_eq inside
  refine ⟨rfl, by omega, by omega, bytes, ?_⟩
  rw [bytes, List.length_take, List.length_drop, RingBuffer.contents_length]
  simp only [len] at *
  omega

theorem nextSegment_one {segment : U32 × Bytes} (next : sb.nextSegment 1 = some segment) :
    segment.2.length = 1 := by
  obtain ⟨-, unsent, -, -, length⟩ := nextSegment_some next
  omega

theorem nextSegment_none (empty : sb.len = 0) (maxLen : Nat) : sb.nextSegment maxLen = none := by
  simp [nextSegment, empty]

theorem nextSegment_isSome (sb : SendBuffer) (maxLen : Nat) :
    (sb.nextSegment maxLen).isSome ↔ sb.inflight < sb.len ∧ 0 < maxLen := by
  unfold nextSegment
  dsimp only
  split_ifs with sent nothing
  · simp only [Option.isSome_none, Bool.false_eq_true, false_iff]
    omega
  · simp only [Option.isSome_none, Bool.false_eq_true, false_iff]
    omega
  · simp only [Option.isSome_some, true_iff]
    omega

theorem Holds.nextSegment (holds : sb.Holds start W) {maxLen : Nat} {segment : U32 × Bytes}
    (next : sb.nextSegment maxLen = some segment) :
    segment.1 = start + BitVec.ofNat 32 (sb.base W + sb.inflight) ∧
      SliceAt W (sb.base W + sb.inflight) segment.2 := by
  obtain ⟨seq, unsent, -, bytes, -⟩ := nextSegment_some next
  have fits := holds.fits
  constructor
  · rw [seq, ← Serial.add_ofNat_ofNat, ← holds.una]
    exact (Serial.add_sub_toNat _ _).symm
  · rw [bytes, holds.contents, List.drop_drop]
    apply SliceAt.of_drop_take
    unfold base
    omega

end SendBuffer

/-! ## The stream of a core -/

/-- A part of `W` at the sequence number it has when the first byte of `W` is numbered `start`. -/
def InStream (start : U32) (W : Bytes) (segment : U32 × Bytes) : Prop :=
  ∃ i, segment.1 = start + BitVec.ofNat 32 i ∧ SliceAt W i segment.2

def Queueable (segment : U32 × Bytes) : Prop := segment.2 ≠ [] ∧ segment.2.length ≤ 65535

namespace Core

def start (c : Core) : U32 := c.iss + 1#32

structure Sends (c : Core) (W : Bytes) : Prop where
  buffer : c.sendBuf.Holds c.start W
  stream : ∀ segment ∈ c.queue, InStream c.start W segment
  sized : ∀ segment ∈ c.queue, Queueable segment

def accepted (c : Core) : Event → Bytes
  | .writeData data => data.take (c.sendBuf.write data).2
  | _ => []

def handedOut (c : Core) : Event → Bytes
  | .readReceived bufLen => (c.recvBuf.map fun rb => (rb.read bufLen).2).getD []
  | _ => []

structure Addressed (c : Core) (b : SegmentBuilder) : Prop where
  srcIp : b.srcIp = c.ends.localIp
  dstIp : b.dstIp = c.ends.remoteIp
  srcPort : b.srcPort = c.ends.localPort
  dstPort : b.dstPort = c.ends.remotePort

end Core

theorem InStream.append {start : U32} {W : Bytes} {segment : U32 × Bytes}
    (part : InStream start W segment) (more : Bytes) : InStream start (W ++ more) segment := by
  obtain ⟨i, seq, slice⟩ := part
  exact ⟨i, seq, slice.append more⟩

theorem queueable_of_nextSegment {sb : SendBuffer} {maxLen : Nat} {segment : U32 × Bytes}
    (bounded : maxLen ≤ 65535) (next : sb.nextSegment maxLen = some segment) :
    Queueable segment := by
  obtain ⟨-, unsent, positive, -, length⟩ := SendBuffer.nextSegment_some next
  constructor
  · intro empty
    rw [empty, List.length_nil] at length
    omega
  · omega

theorem Core.mem_push {c : Core} {segment entry : U32 × Bytes} (member : entry ∈ c.push segment) :
    entry = segment ∨ entry ∈ c.queue := by
  unfold Core.push at member
  split_ifs at member with room
  · rcases List.mem_append.mp member with old | new
    · exact .inr old
    · exact .inl (List.mem_singleton.mp new)
  · exact .inr member

namespace Core.Sends

variable {c : Core} {W : Bytes} {seg : TcpSegment}

theorem acknowledge (sends : c.Sends W) : (c.acknowledge seg).Sends W where
  buffer := sends.buffer.acknowledge _
  stream := fun segment member => sends.stream segment (List.mem_of_mem_filter member)
  sized := fun segment member => sends.sized segment (List.mem_of_mem_filter member)

theorem acked (sends : c.Sends W) {c' : Core} (acked : c.Acked seg c') : c'.Sends W := by
  rcases acked with ⟨-, rfl⟩ | ⟨-, rfl⟩
  · exact sends
  · exact sends.acknowledge

theorem insert (sends : c.Sends W) : (c.insert seg).Sends W := by
  unfold Core.insert
  cases c.recvBuf <;> exact ⟨sends.buffer, sends.stream, sends.sized⟩

theorem congr (sends : c.Sends W) {c' : Core} (iss : c'.iss = c.iss)
    (sendBuf : c'.sendBuf = c.sendBuf) (queue : c'.queue = c.queue) : c'.Sends W := by
  refine ⟨?_, ?_, ?_⟩
  · rw [sendBuf, start, iss]
    exact sends.buffer
  · rw [queue, start, iss]
    exact sends.stream
  · rw [queue]
    exact sends.sized

theorem sent (sends : c.Sends W) {maxLen : Nat} {segment : U32 × Bytes} (bounded : maxLen ≤ 65535)
    (next : c.sendBuf.nextSegment maxLen = some segment) : (c.sent segment).Sends W := by
  obtain ⟨seq, slice⟩ := sends.buffer.nextSegment next
  refine ⟨⟨sends.buffer.fits, sends.buffer.contents, sends.buffer.una⟩, ?_, ?_⟩
  · intro entry member
    rcases mem_push member with rfl | old
    · exact ⟨_, seq, slice⟩
    · exact sends.stream entry old
  · intro entry member
    rcases mem_push member with rfl | old
    · exact queueable_of_nextSegment bounded next
    · exact sends.sized entry old

end Core.Sends

theorem SegmentStep.sends {early : Bool} {seg : TcpSegment} {c c' : Core}
    {out : List SegmentBuilder} {W : Bytes} (step : SegmentStep early seg c c' out)
    (sends : c.Sends W) : c'.Sends W := by
  cases step with
  | ignore => exact sends
  | refuse => exact sends
  | repeatSynAck => exact sends
  | fastRetransmit => exact sends
  | timeWaitFin => exact sends
  | quiet _ _ _ acked => exact sends.acked acked
  | receive c1 _ _ _ acked => exact (sends.acked acked).insert
  | receiveFin c1 _ _ _ _ acked => exact (sends.acked acked).insert.congr rfl rfl rfl
  | finWait1Ack => exact sends.acknowledge
  | finWait1Done => exact sends.acknowledge.congr rfl rfl rfl
  | finWait1Both => exact sends.acknowledge.congr rfl rfl rfl
  | finWait1Fin c1 _ _ _ acked => exact (sends.acked acked).congr rfl rfl rfl
  | synReceivedAck => exact ⟨sends.buffer.acknowledge _, sends.stream, sends.sized⟩
  | _ => exact sends.congr rfl rfl rfl

theorem CoreStep.sends {event : Event} {c c' : Core} {out : List SegmentBuilder} {W : Bytes}
    (step : CoreStep event c c' out) (sends : c.Sends W) : c'.Sends (W ++ c.accepted event) := by
  cases step with
  | write data =>
      exact ⟨sends.buffer.write data, fun s member => (sends.stream s member).append _, sends.sized⟩
  | segment step =>
      simp only [accepted, List.append_nil]
      exact step.sends sends
  | send _ _ _ _ _ _ bounded next =>
      simp only [accepted, List.append_nil]
      exact sends.sent bounded next
  | probe =>
      simp only [accepted, List.append_nil]
      exact ⟨⟨sends.buffer.fits, sends.buffer.contents, sends.buffer.una⟩, sends.stream, sends.sized⟩
  | _ =>
      simp only [accepted, List.append_nil]
      exact sends.congr rfl rfl rfl

/-! ## What goes on the wire -/

namespace TcbState

def opening : TcbState → Bool
  | listen | synSent | synReceived => true
  | _ => false

def sending : TcbState → Bool
  | established | closeWait => true
  | _ => false

end TcbState

theorem Core.Acked.state {c c' : Core} {seg : TcpSegment} (acked : c.Acked seg c') :
    c'.state = c.state := by
  rcases acked with ⟨-, rfl⟩ | ⟨-, rfl⟩ <;> rfl

theorem Core.insert_state (c : Core) (seg : TcpSegment) : (c.insert seg).state = c.state := by
  unfold Core.insert
  cases c.recvBuf <;> rfl

inductive Emitted (c c' : Core) : SegmentBuilder → Prop
  | rst (seq : U32) (state : c.state = .listen ∨ c.state = .synSent ∨ c.state = .synReceived) :
      Emitted c c' (c'.bare seq { rst := true })
  | syn (state : c'.state = .synSent) : Emitted c c' (c'.bare c'.iss { syn := true })
  | synAck (w : U16) (state : c'.state = .synReceived) : Emitted c c' (c'.synAck w)
  | control (seq : U32) (fin : Bool) (w : U16)
      (live : c'.state.opening = false ∧ c'.state ≠ .closed) :
      Emitted c c' (c'.reply seq { ack := true, fin := fin } [] w)
  | data (segment : U32 × Bytes) (psh : Bool) (w : U16)
      (source : segment ∈ c.queue ∨ ∃ n ≤ 65535, c.sendBuf.nextSegment n = some segment ∧
        c'.sendBuf = c.sendBuf.advanceNxt segment.2.length) :
      Emitted c c' (c'.reply segment.1 { ack := true, psh := psh } segment.2 w)

theorem SegmentStep.emitted {early : Bool} {seg : TcpSegment} {c c' : Core}
    {out : List SegmentBuilder} (step : SegmentStep early seg c c' out) :
    ∀ b ∈ out, Emitted c c' b := by
  intro b member
  cases step with
  | fastRetransmit w segment _ _ first =>
      rw [List.mem_singleton.mp member]
      exact .data segment true w (.inl (List.mem_of_mem_head? first))
  | refuse opening => exact List.mem_singleton.mp member ▸ .rst _ opening
  | listenSyn w => exact List.mem_singleton.mp member ▸ .synAck w rfl
  | synSentSyn w => exact List.mem_singleton.mp member ▸ .synAck w rfl
  | repeatSynAck w state => exact List.mem_singleton.mp member ▸ .synAck w state
  | synSentAck w => exact List.mem_singleton.mp member ▸ .control c.nxt false w ⟨rfl, nofun⟩
  | receive _ w state _ acked =>
      rw [List.mem_singleton.mp member]
      refine .control _ false w ?_
      rw [insert_state, acked.state, state]
      exact ⟨rfl, nofun⟩
  | receiveFin _ w => exact List.mem_singleton.mp member ▸ .control _ false w ⟨rfl, nofun⟩
  | finWait1Both w => exact List.mem_singleton.mp member ▸ .control _ false w ⟨rfl, nofun⟩
  | finWait1Fin _ w => exact List.mem_singleton.mp member ▸ .control _ false w ⟨rfl, nofun⟩
  | finWait2Fin w => exact List.mem_singleton.mp member ▸ .control _ false w ⟨rfl, nofun⟩
  | timeWaitFin w state =>
      rw [List.mem_singleton.mp member]
      exact .control _ false w (by rw [state]; exact ⟨rfl, nofun⟩)
  | _ => exact absurd member List.not_mem_nil

theorem CoreStep.emitted {event : Event} {c c' : Core} {out : List SegmentBuilder}
    (step : CoreStep event c c' out) : ∀ b ∈ out, Emitted c c' b := by
  intro b member
  cases step with
  | segment step => exact step.emitted b member
  | send _ _ n _ segment w bounded next =>
      rw [List.mem_singleton.mp member]
      exact .data segment true w (.inr ⟨n, bounded, next, rfl⟩)
  | retransmit _ _ w segments held =>
      obtain ⟨segment, inside, rfl⟩ := List.mem_map.mp member
      exact .data segment true w (.inl (held segment inside))
  | close _ w state able =>
      rw [List.mem_singleton.mp member]
      refine .control c.nxt true w ?_
      rcases able with ⟨-, rfl⟩ | ⟨-, rfl⟩ <;> exact ⟨rfl, nofun⟩
  | connect => exact List.mem_singleton.mp member ▸ .syn rfl
  | probe _ segment w state next =>
      rw [List.mem_singleton.mp member]
      refine .data segment false w (.inr ⟨1, by decide, next, ?_⟩)
      rw [SendBuffer.nextSegment_one next]
      rfl
  | _ => exact absurd member List.not_mem_nil

theorem Core.Acked.fixed {c c' : Core} {seg : TcpSegment} (acked : c.Acked seg c') :
    c'.ends = c.ends ∧ c'.iss = c.iss := by
  rcases acked with ⟨-, rfl⟩ | ⟨-, rfl⟩ <;> exact ⟨rfl, rfl⟩

theorem Core.insert_fixed (c : Core) (seg : TcpSegment) :
    (c.insert seg).ends = c.ends ∧ (c.insert seg).iss = c.iss := by
  unfold Core.insert
  cases c.recvBuf <;> exact ⟨rfl, rfl⟩

theorem CoreStep.fixed {event : Event} {c c' : Core} {out : List SegmentBuilder}
    (step : CoreStep event c c' out) : c'.ends = c.ends ∧ c'.iss = c.iss := by
  cases step with
  | segment step =>
      cases step with
      | quiet _ _ _ acked => exact acked.fixed
      | receive c1 _ _ _ acked =>
          rw [(c1.insert_fixed _).1, (c1.insert_fixed _).2]
          exact acked.fixed
      | receiveFin c1 _ _ _ _ acked =>
          have inserted := c1.insert_fixed
          exact ⟨(inserted _).1.trans acked.fixed.1, (inserted _).2.trans acked.fixed.2⟩
      | finWait1Fin _ _ _ _ acked => exact acked.fixed
      | _ => exact ⟨rfl, rfl⟩
  | _ => exact ⟨rfl, rfl⟩

namespace Emitted

variable {c c' : Core} {b : SegmentBuilder} {W : Bytes}

theorem addressed (emitted : Emitted c c' b) : c'.Addressed b := by
  cases emitted <;> exact ⟨rfl, rfl, rfl, rfl⟩

theorem payload (emitted : Emitted c c' b) (sends : c.Sends W) :
    b.payload = [] ∨ InStream c.start W (b.seq, b.payload) ∧ Queueable (b.seq, b.payload) := by
  cases emitted with
  | data segment psh w source =>
      rcases source with held | ⟨n, bounded, next, -⟩
      · exact .inr ⟨sends.stream segment held, sends.sized segment held⟩
      · exact .inr ⟨⟨_, sends.buffer.nextSegment next⟩, queueable_of_nextSegment bounded next⟩
  | _ => exact .inl rfl

theorem parse (emitted : Emitted c c' b) (sends : c.Sends W) :
    TcpSegment.parse b.build c'.ends.localIp c'.ends.remoteIp = .ok b.segment := by
  have short : b.payload.length ≤ maxPayloadLen := by
    rcases emitted.payload sends with empty | ⟨-, -, sized⟩
    · simp [empty]
    · exact sized.trans (by decide)
  rw [← emitted.addressed.srcIp, ← emitted.addressed.dstIp]
  exact TcpSegment.parse_build b short

end Emitted

/-! ## Sessions -/

namespace Session

theorem accepted_core (s : Session) (event : Event) :
    s.accepted event = s.conn.core.accepted event := by cases event <;> rfl

theorem handedOut_core (s : Session) (event : Event) :
    s.handedOut event = s.conn.core.handedOut event := by
  cases event with
  | readReceived bufLen =>
      simp only [handedOut, Core.handedOut, Connection.core, Connection.readReceived]
      cases s.conn.recvBuf <;> rfl
  | _ => rfl

theorem step_sends {s : Session} (sends : s.conn.core.Sends s.written) (event : Event) :
    (s.step event).conn.core.Sends (s.step event).written := by
  obtain ⟨out, step, -⟩ := s.step_core event
  have kept := step.sends sends
  rw [← accepted_core] at kept
  exact kept

structure Sender (e : Endpoint) (iss : U32) (s : Session) : Prop where
  ends : s.conn.core.ends = e
  iss : s.conn.core.iss = iss
  sends : s.conn.core.Sends s.written

theorem start_sender (o : Opening) (iss : U32) (e : Endpoint) :
    (o.session iss e).Sender e iss := by
  cases o <;>
    exact ⟨rfl, rfl, ⟨SendBuffer.new_holds iss, List.forall_mem_nil _, List.forall_mem_nil _⟩⟩

theorem Sender.step {e : Endpoint} {iss : U32} {s : Session} (sender : s.Sender e iss)
    (event : Event) : (s.step event).Sender e iss := by
  obtain ⟨out, step, -⟩ := s.step_core event
  exact ⟨step.fixed.1.trans sender.ends, step.fixed.2.trans sender.iss, step_sends sender.sends event⟩

theorem Sender.parse {e : Endpoint} {iss : U32} {s : Session} (sender : s.Sender e iss)
    {event : Event} {b : SegmentBuilder} (emitted : Emitted s.conn.core (s.step event).conn.core b) :
    TcpSegment.parse b.build e.localIp e.remoteIp = .ok b.segment := by
  have parsed := emitted.parse sender.sends
  rw [(sender.step event).ends] at parsed
  exact parsed

def Emits (s : Session) (e : Endpoint) (C : TcpSegment → Prop) : Prop :=
  ∀ raw ∈ s.emitted, ∃ seg, TcpSegment.parse raw e.localIp e.remoteIp = .ok seg ∧ C seg

theorem start_emits (o : Opening) (iss : U32) (e : Endpoint) (C : TcpSegment → Prop) :
    (o.session iss e).Emits e C := List.forall_mem_nil _

theorem Sender.emits {e : Endpoint} {own : U32} {s : Session} {event : Event}
    {C C' : TcpSegment → Prop} (sender : s.Sender e own)
    (emits : s.Emits e C) (still : ∀ seg, C seg → C' seg)
    (new : ∀ b, Emitted s.conn.core (s.step event).conn.core b → C' b.segment) :
    (s.step event).Emits e C' := by
  obtain ⟨out, step, built⟩ := s.step_core event
  intro raw member
  rcases List.mem_append.mp member with old | now
  · obtain ⟨seg, parsed, holds⟩ := emits raw old
    exact ⟨seg, parsed, still seg holds⟩
  · rw [built] at now
    obtain ⟨b, inside, rfl⟩ := List.mem_map.mp now
    have emitted := step.emitted b inside
    exact ⟨b.segment, sender.parse emitted, new b emitted⟩

def SendsData (s : Session) : Event → Prop
  | .nextSegmentToSend _ _ => True
  | .zeroWindowProbe => True
  | .takeRetransmits _ => True
  | .processSegment _ seg => s.conn.fastRetransmits seg = true
  | _ => False

/-- A segment of the connection at `e` with at least one byte of `W`, where its numbers say. -/
def CarriesData (e : Endpoint) (iss : U32) (W raw : Bytes) : Prop :=
  ∃ seg i n, TcpSegment.parse raw e.localIp e.remoteIp = .ok seg ∧
    seg.header.srcPort = e.localPort ∧ seg.header.dstPort = e.remotePort ∧
    1 ≤ n ∧ i + n ≤ W.length ∧ seg.payload = (W.drop i).take n ∧
    seg.header.seq = iss + 1#32 + BitVec.ofNat 32 i

theorem fastRetransmits_data {s : Session} (now : Instant) {seg : TcpSegment}
    (third : s.conn.fastRetransmits seg = true) :
    ∃ out, (∀ b ∈ out, ∃ segment ∈ s.conn.core.queue, ∃ w, b = s.conn.core.data w segment) ∧
      CoreStep (.processSegment now seg) s.conn.core
        (s.step (.processSegment now seg)).conn.core out ∧
      s.output (.processSegment now seg) = out.map SegmentBuilder.build := by
  obtain ⟨out, step, built⟩ := s.conn.processSegment_core now seg
  refine ⟨out, ?_, .segment step, built⟩
  have state : s.conn.core.state = .established := by
    simp only [Connection.fastRetransmits, Bool.and_eq_true, beq_iff_eq] at third
    exact third.1.1.1.1.1
  rw [third] at step
  generalize (s.conn.processSegment now seg).1.core = c' at step
  intro b member
  cases step with
  | fastRetransmit w segment _ _ first =>
      exact ⟨segment, List.mem_of_mem_head? first, w, List.mem_singleton.mp member⟩
  | refuse opening => simp [state] at opening
  | _ => simp_all

theorem step_data {s : Session} {event : Event} (data : s.SendsData event)
    (sends : s.conn.core.Sends s.written) :
    ∃ out, CoreStep event s.conn.core (s.step event).conn.core out ∧
      s.output event = out.map SegmentBuilder.build ∧ ∀ b ∈ out, b.payload ≠ [] := by
  cases event with
  | processSegment now seg =>
      obtain ⟨out, held, step, built⟩ := fastRetransmits_data now data
      refine ⟨out, step, built, ?_⟩
      intro b member
      obtain ⟨segment, inside, w, rfl⟩ := held b member
      exact (sends.sized segment inside).1
  | nextSegmentToSend now maxPayload =>
      obtain ⟨out, step, built⟩ := s.step_core (.nextSegmentToSend now maxPayload)
      refine ⟨out, step, built, ?_⟩
      generalize (s.step _).conn.core = c' at step
      intro b member
      cases step with
      | send _ _ _ _ segment w bounded next =>
          rw [List.mem_singleton.mp member]
          exact (queueable_of_nextSegment bounded next).1
      | sendNothing => exact absurd member List.not_mem_nil
  | takeRetransmits now =>
      obtain ⟨out, step, built⟩ := s.step_core (.takeRetransmits now)
      refine ⟨out, step, built, ?_⟩
      generalize (s.step _).conn.core = c' at step
      intro b member
      cases step with
      | retransmit _ _ w segments held =>
          obtain ⟨segment, inside, rfl⟩ := List.mem_map.mp member
          exact (sends.sized segment (held segment inside)).1
  | zeroWindowProbe =>
      obtain ⟨out, step, built⟩ := s.step_core .zeroWindowProbe
      refine ⟨out, step, built, ?_⟩
      generalize (s.step _).conn.core = c' at step
      intro b member
      cases step with
      | probe _ segment w _ next =>
          rw [List.mem_singleton.mp member]
          exact (queueable_of_nextSegment (by decide) next).1
      | probeNothing => exact absurd member List.not_mem_nil
  | _ => exact data.elim

theorem output_data {s : Session} {event : Event} (data : s.SendsData event)
    (sends : s.conn.core.Sends s.written) {raw : Bytes} (member : raw ∈ s.output event) :
    ∃ b, raw = b.build ∧ Emitted s.conn.core (s.step event).conn.core b ∧ b.payload ≠ [] := by
  obtain ⟨out, step, built, nonempty⟩ := step_data data sends
  rw [built] at member
  obtain ⟨b, inside, rfl⟩ := List.mem_map.mp member
  exact ⟨b, rfl, step.emitted b inside, nonempty b inside⟩

theorem data_in_stream (o : Opening) (iss : U32) (e : Endpoint) (events : List Event) :
    Along (fun s event => s.SendsData event → ∀ raw ∈ s.output event, CarriesData e iss s.written raw)
      (o.session iss e) events := by
  refine Runs.along_inv (C := fun _ _ => True) (fun s event sender _ => sender.step event)
    ?_ (start_sender o iss e) (Runs.along_true _ _)
  intro s event sender _ data raw member
  obtain ⟨b, rfl, emitted, nonempty⟩ := output_data data sender.sends member
  have ends := (sender.step event).ends
  have ports := emitted.addressed
  rcases emitted.payload sender.sends with empty | ⟨⟨i, seq, slice⟩, -⟩
  · exact absurd empty nonempty
  · refine ⟨b.segment, i, b.payload.length, sender.parse emitted,
      ports.srcPort.trans (congrArg Endpoint.localPort ends),
      ports.dstPort.trans (congrArg Endpoint.remotePort ends), List.length_pos_of_ne_nil nonempty,
      slice.inside, slice.eq, ?_⟩
    rw [← sender.iss]
    exact seq

end Session

end MagnumTcp.Tcp
