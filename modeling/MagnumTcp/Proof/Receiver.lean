import MagnumTcp.Proof.Reassembly
import MagnumTcp.Proof.Sync

namespace MagnumTcp.Tcp

open MagnumTcp.Tcp.Core

/-- Of the stream `S` of the peer `m` bytes are committed and `received` has been read. -/
structure Core.Receives (c : Core) (S received : Bytes) (m : Nat) : Prop where
  buffer : ∀ rb ∈ c.recvBuf, rb.Reassembles S (c.irs + 1#32) received m
  missing : c.recvBuf = none → received = [] ∧ m = 0
  opening : c.state.opening → received = [] ∧ m = 0

namespace Core.Receives

variable {c : Core} {S received : Bytes} {m : Nat} {seg : TcpSegment}

theorem congr (receives : c.Receives S received m) {c' : Core} (irs : c'.irs = c.irs)
    (recvBuf : c'.recvBuf = c.recvBuf) (state : c'.state.opening → c.state.opening) :
    c'.Receives S received m := by
  refine ⟨?_, ?_, fun opening => receives.opening (state opening)⟩
  · rw [recvBuf, irs]
    exact receives.buffer
  · rw [recvBuf]
    exact receives.missing

theorem append (receives : c.Receives S received m) (more : Bytes) :
    c.Receives (S ++ more) received m :=
  ⟨fun rb found => (receives.buffer rb found).append more, receives.missing, receives.opening⟩

theorem acked (receives : c.Receives S received m) {c' : Core} (acked : c.Acked seg c') :
    c'.Receives S received m := by
  rcases acked with ⟨-, rfl⟩ | ⟨-, rfl⟩
  · exact receives
  · exact receives.congr rfl rfl id

theorem acceptSyn (receives : c.Receives S received m) (opening : c.state.opening)
    {c' : Core} (recvBuf : c'.recvBuf = some (.new seg.header.seq)) (irs : c'.irs = seg.header.seq) :
    c'.Receives S received m := by
  obtain ⟨rfl, rfl⟩ := receives.opening opening
  refine ⟨?_, fun _ => ⟨rfl, rfl⟩, fun _ => ⟨rfl, rfl⟩⟩
  intro rb found
  rw [recvBuf] at found
  cases found
  rw [irs]
  exact RecvBuffer.new_reassembles S _

theorem read (receives : c.Receives S received m) (bufLen : Nat) :
    ({ c with recvBuf := c.recvBuf.map fun rb => (rb.read bufLen).1 } : Core).Receives S
      (received ++ c.handedOut (.readReceived bufLen)) m := by
  unfold handedOut
  cases buffer : c.recvBuf with
  | none =>
      refine ⟨nofun, fun _ => ?_, fun opening => ?_⟩
      · simpa using receives.missing buffer
      · simpa using receives.opening opening
  | some rb =>
      have inv := (receives.buffer rb buffer).read bufLen
      refine ⟨?_, nofun, fun opening => ?_⟩
      · intro rb' found
        cases found
        exact inv
      · -- Before ESTABLISHED nothing is committed, so that there is nothing to read.
        obtain ⟨-, zero⟩ := receives.opening opening
        have bytes := inv.bytes
        rw [zero, List.take_zero, List.append_eq_nil_iff] at bytes
        exact ⟨bytes.1, zero⟩

theorem insert (receives : c.Receives S received m) (short : S.length < 2 ^ 31)
    (open_ : c.state.opening = false)
    (part : seg.payload ≠ [] → InStream (c.irs + 1#32) S (seg.header.seq, seg.payload)) :
    ∃ m', m ≤ m' ∧ (c.insert seg).Receives S received m' := by
  unfold Core.insert
  cases buffer : c.recvBuf with
  | none => exact ⟨m, Nat.le_refl m, receives⟩
  | some rb =>
      have inv := receives.buffer rb buffer
      by_cases empty : seg.payload = []
      · refine ⟨m, Nat.le_refl m, ?_, nofun, by simp [open_]⟩
        intro rb' found
        cases found
        simpa [RecvBuffer.insert, empty] using inv
      · obtain ⟨i, seq, slice⟩ := part empty
        obtain ⟨m', more, inv'⟩ := inv.insert short slice
        refine ⟨m', more, ?_, nofun, by simp [open_]⟩
        intro rb' found
        cases found
        rw [show seg.header.seq = c.irs + 1#32 + BitVec.ofNat 32 i from seq]
        exact inv'

end Core.Receives

def Core.Offered (c : Core) (S : Bytes) : Event → Prop
  | .processSegment _ seg =>
      c.state = .established → seg.payload ≠ [] →
        InStream (c.irs + 1#32) S (seg.header.seq, seg.payload)
  | _ => True

theorem SegmentStep.receives {early : Bool} {seg : TcpSegment} {c c' : Core}
    {out : List SegmentBuilder} {S received : Bytes} {m : Nat} (step : SegmentStep early seg c c' out)
    (receives : c.Receives S received m) (short : S.length < 2 ^ 31)
    (offered : c.state = .established → seg.payload ≠ [] →
      InStream (c.irs + 1#32) S (seg.header.seq, seg.payload)) :
    ∃ m', m ≤ m' ∧ c'.Receives S received m' := by
  have same := Nat.le_refl m
  have acked_part : ∀ k, c.Acked seg k → c.state = .established → seg.payload ≠ [] →
      InStream (k.irs + 1#32) S (seg.header.seq, seg.payload) := by
    rintro k (⟨-, rfl⟩ | ⟨-, rfl⟩) state <;> exact offered state
  cases step with
  | listenSyn _ state => exact ⟨m, same, receives.acceptSyn (by rw [state]; rfl) rfl rfl⟩
  | synSentAck _ state => exact ⟨m, same, receives.acceptSyn (by rw [state]; rfl) rfl rfl⟩
  | synSentSyn _ state => exact ⟨m, same, receives.acceptSyn (by rw [state]; rfl) rfl rfl⟩
  | quiet _ _ _ acked => exact ⟨m, same, receives.acked acked⟩
  | receive k _ state _ acked =>
      exact (receives.acked acked).insert short (by rw [acked.state, state]; rfl)
        (acked_part k acked state)
  | receiveFin k _ state _ _ acked =>
      obtain ⟨m', more, inserted⟩ := (receives.acked acked).insert short
        (by rw [acked.state, state]; rfl) (acked_part k acked state)
      exact ⟨m', more, inserted.congr rfl rfl nofun⟩
  | finWait1Ack => exact ⟨m, same, receives.congr rfl rfl id⟩
  | finWait1Fin k _ _ _ acked => exact ⟨m, same, (receives.acked acked).congr rfl rfl nofun⟩
  | relisten state =>
      exact ⟨m, same, receives.congr rfl rfl fun _ => by rw [state]; rfl⟩
  | ignore => exact ⟨m, same, receives⟩
  | refuse => exact ⟨m, same, receives⟩
  | repeatSynAck => exact ⟨m, same, receives⟩
  | fastRetransmit => exact ⟨m, same, receives⟩
  | timeWaitFin => exact ⟨m, same, receives⟩
  | _ => exact ⟨m, same, receives.congr rfl rfl nofun⟩

theorem CoreStep.receives {event : Event} {c c' : Core} {out : List SegmentBuilder}
    {S received : Bytes} {m : Nat} (step : CoreStep event c c' out)
    (receives : c.Receives S received m) (short : S.length < 2 ^ 31) (offered : c.Offered S event)
    (fresh : event = .connect → received = [] ∧ m = 0) :
    ∃ m', m ≤ m' ∧ c'.Receives S (received ++ c.handedOut event) m' := by
  have same := Nat.le_refl m
  cases step with
  | segment step =>
      simp only [handedOut, List.append_nil]
      exact step.receives receives short offered
  | read bufLen =>
      exact ⟨m, same, receives.read bufLen⟩
  | close _ _ _ able =>
      simp only [handedOut, List.append_nil]
      refine ⟨m, same, receives.congr rfl rfl ?_⟩
      rcases able with ⟨-, rfl⟩ | ⟨-, rfl⟩ <;> exact fun opening => absurd opening Bool.false_ne_true
  | connect =>
      simp only [handedOut, List.append_nil]
      exact ⟨m, same, receives.buffer, receives.missing, fun _ => fresh rfl⟩
  | expire =>
      simp only [handedOut, List.append_nil]
      exact ⟨m, same, receives.congr rfl rfl fun opening => absurd opening Bool.false_ne_true⟩
  | _ =>
      simp only [handedOut, List.append_nil]
      exact ⟨m, same, receives.congr rfl rfl id⟩

end MagnumTcp.Tcp
