import MagnumTcp.Proof.HandOver

namespace MagnumTcp.Tcp

open MagnumTcp.Tcp.Core

namespace Core

def Limited (c : Core) : Prop := ∀ segment ∈ c.queue, segment.2.length ≤ mss.toNat

variable {c c' : Core} {seg : TcpSegment}

theorem Limited.acked (limited : c.Limited) (acked : c.Acked seg c') : c'.Limited := by
  rcases acked with ⟨-, rfl⟩ | ⟨-, rfl⟩
  · exact limited
  · exact fun segment member => limited segment (List.mem_of_mem_filter member)

theorem Limited.insert (limited : c.Limited) : (c.insert seg).Limited := by
  unfold Core.insert
  cases c.recvBuf <;> exact limited

theorem Limited.sent (limited : c.Limited) {segment : U32 × Bytes}
    (short : segment.2.length ≤ mss.toNat) : (c.sent segment).Limited := by
  intro entry member
  rcases mem_push member with rfl | old
  · exact short
  · exact limited entry old

end Core

theorem SegmentStep.limited {early : Bool} {seg : TcpSegment} {c c' : Core}
    {out : List SegmentBuilder} (step : SegmentStep early seg c c' out) (limited : c.Limited) :
    c'.Limited ∧ ∀ b ∈ out, b.payload.length ≤ mss.toNat := by
  have nothing : ∀ b ∈ ([] : List SegmentBuilder), b.payload.length ≤ mss.toNat :=
    List.forall_mem_nil _
  have bare {b : SegmentBuilder} (empty : b.payload = []) :
      ∀ b' ∈ [b], b'.payload.length ≤ mss.toNat := by
    rw [List.forall_mem_singleton, empty]
    exact Nat.zero_le _
  cases step with
  | fastRetransmit w segment state third first =>
      refine ⟨limited, List.forall_mem_singleton.mpr ?_⟩
      exact limited segment (List.mem_of_mem_head? first)
  | quiet _ _ _ acked => exact ⟨limited.acked acked, nothing⟩
  | receive c₁ _ _ _ acked => exact ⟨(limited.acked acked).insert, bare rfl⟩
  | receiveFin c₁ _ _ _ _ acked => exact ⟨(limited.acked acked).insert, bare rfl⟩
  | finWait1Ack _ acceptable => exact ⟨limited.acked (.inr ⟨acceptable, rfl⟩), nothing⟩
  | finWait1Done _ acked =>
      have kept := limited.acked (.inr ⟨acked.1, rfl⟩)
      exact ⟨kept, nothing⟩
  | finWait1Both _ _ _ acked =>
      have kept := limited.acked (.inr ⟨acked.1, rfl⟩)
      exact ⟨kept, bare rfl⟩
  | finWait1Fin c₁ _ _ _ acked =>
      have kept := limited.acked acked
      exact ⟨kept, bare rfl⟩
  | ignore => exact ⟨limited, nothing⟩
  | reset => exact ⟨limited, nothing⟩
  | relisten => exact ⟨limited, nothing⟩
  | synReceivedAck => exact ⟨limited, nothing⟩
  | closingAck => exact ⟨limited, nothing⟩
  | lastAckAck => exact ⟨limited, nothing⟩
  | _ => exact ⟨limited, bare rfl⟩

namespace Session

variable {s : Session} {e : Endpoint}

def Wire (e : Endpoint) (raw : Bytes) : Prop :=
  ∃ b : SegmentBuilder, raw = b.build ∧ b.srcIp = e.localIp ∧ b.dstIp = e.remoteIp ∧
    b.srcPort = e.localPort ∧ b.dstPort = e.remotePort ∧ b.payload.length ≤ mss.toNat

structure Sized (e : Endpoint) (s : Session) : Prop where
  ends : s.conn.core.ends = e
  queue : s.conn.core.Limited
  emitted : ∀ raw ∈ s.emitted, Wire e raw

theorem Wire.of_addressed {c : Core} {b : SegmentBuilder} (addressed : c.Addressed b)
    (short : b.payload.length ≤ mss.toNat) : Wire c.ends b.build :=
  ⟨b, rfl, addressed.srcIp, addressed.dstIp, addressed.srcPort, addressed.dstPort, short⟩

theorem step_limited {event : Event} (ofTask : event.OfTask) (limited : s.conn.core.Limited) :
    (s.step event).conn.core.Limited ∧
      ∃ out : List SegmentBuilder, s.output event = out.map SegmentBuilder.build ∧
        (∀ b ∈ out, (s.step event).conn.core.Addressed b) ∧
        ∀ b ∈ out, b.payload.length ≤ mss.toNat := by
  by_cases sends : ∃ now, event = .nextSegmentToSend now mss.toNat
  · obtain ⟨now, rfl⟩ := sends
    by_cases able : s.conn.Sendable mss.toNat
    · obtain ⟨segment, next, sent, reply⟩ := Connection.nextSegmentToSend_next now able
      have short : segment.2.length ≤ mss.toNat := by
        obtain ⟨-, -, -, -, length⟩ := SendBuffer.nextSegment_some next
        omega
      have core : (s.step (.nextSegmentToSend now mss.toNat)).conn.core = s.conn.core.sent segment :=
        sent
      rw [core]
      refine ⟨limited.sent short, [(s.conn.core.sent segment).data s.conn.currentWindow segment], ?_, ?_, ?_⟩
      · simp [output, call, Prod.map, reply]
      · exact List.forall_mem_singleton.mpr ⟨rfl, rfl, rfl, rfl⟩
      · exact List.forall_mem_singleton.mpr short
    · have idle := Connection.nextSegmentToSend_idle now able
      have core : (s.step (.nextSegmentToSend now mss.toNat)).conn = s.conn := by
        simp only [Session.step, call, idle, Prod.map]
        rfl
      rw [core]
      refine ⟨limited, [], ?_, List.forall_mem_nil _, List.forall_mem_nil _⟩
      simp [output, call, Prod.map, idle]
  · obtain ⟨out, step, built⟩ := s.step_core event
    have addressed : ∀ b ∈ out, (s.step event).conn.core.Addressed b := fun b member =>
      (step.emitted b member).addressed
    suffices (s.step event).conn.core.Limited ∧ ∀ b ∈ out, b.payload.length ≤ mss.toNat from
      ⟨this.1, out, built, addressed, this.2⟩
    generalize (s.step event).conn.core = c' at step
    cases step with
    | segment step => exact step.limited limited
    | retransmit _ _ w segments held =>
        refine ⟨limited, ?_⟩
        intro b member
        obtain ⟨segment, inside, rfl⟩ := List.mem_map.mp member
        exact limited segment (held segment inside)
    | probe _ segment w state next =>
        refine ⟨limited, List.forall_mem_singleton.mpr ?_⟩
        change segment.2.length ≤ mss.toNat
        rw [SendBuffer.nextSegment_one next]
        decide
    | send now maxPayload => exact absurd ⟨now, by rw [show maxPayload = mss.toNat from ofTask]⟩ sends
    | close =>
        refine ⟨limited, List.forall_mem_singleton.mpr ?_⟩
        exact Nat.zero_le _
    | connect => exact ofTask.elim
    | _ => exact ⟨limited, List.forall_mem_nil _⟩

theorem start_sized (o : Opening) (iss : U32) (e : Endpoint) : (o.session iss e).Sized e := by
  cases o <;> exact ⟨rfl, List.forall_mem_nil _, List.forall_mem_nil _⟩

theorem Sized.step (sized : s.Sized e) {event : Event} (ofTask : event.OfTask) :
    (s.step event).Sized e := by
  obtain ⟨limited, out, built, addressed, short⟩ := step_limited ofTask sized.queue
  obtain ⟨_, step, -⟩ := s.step_core event
  have ends := step.fixed.1.trans sized.ends
  refine ⟨ends, limited, ?_⟩
  intro raw member
  rcases List.mem_append.mp member with old | new
  · exact sized.emitted raw old
  · rw [built] at new
    obtain ⟨b, inside, rfl⟩ := List.mem_map.mp new
    rw [← ends]
    exact .of_addressed (addressed b inside) (short b inside)

theorem Calls.sized {u : Session} (calls : s.Calls Event.OfTask u) (sized : s.Sized e) :
    u.Sized e := by
  obtain ⟨events, allowed, rfl⟩ := calls
  have keep : ∀ (s : Session) (event : Event), s.Sized e → event.OfTask → (s.step event).Sized e :=
    fun _ _ sized ofTask => sized.step ofTask
  exact Runs.exec_inv keep sized (Runs.along_of_mem allowed s)

theorem Calls.emits {P : Event → Prop} {u : Session} (calls : s.Calls P u) :
    s.emitted <+: u.emitted := by
  obtain ⟨events, -, rfl⟩ := calls
  have keep : ∀ (u : Session) (event : Event), s.emitted <+: u.emitted → True →
      s.emitted <+: (u.step event).emitted :=
    fun _ _ begins _ => begins.trans (List.prefix_append _ _)
  exact Runs.exec_inv keep (List.prefix_refl _) (Runs.along_true _ _)

end Session

end MagnumTcp.Tcp
