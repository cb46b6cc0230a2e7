import MagnumTcp.Proof.Placement
import MagnumTcp.Tcp.Script

namespace MagnumTcp.Tcp

namespace RecvBuffer

variable {rb rb' rb'' : RecvBuffer}

structure Commits (rb rb' : RecvBuffer) (more : Bytes) : Prop where
  contents : rb'.ring.contents = rb.ring.contents ++ more
  nxt : rb'.nxt = rb.nxt + BitVec.ofNat 32 more.length

namespace Commits

variable {first second : Bytes}

theorem none (ring : rb'.ring = rb.ring) (nxt : rb'.nxt = rb.nxt) : rb.Commits rb' [] where
  contents := by simp [ring]
  nxt := by simp [nxt]

theorem trans (before : rb.Commits rb' first) (after : rb'.Commits rb'' second) :
    rb.Commits rb'' (first ++ second) where
  contents := by rw [after.contents, before.contents, List.append_assoc]
  nxt := by rw [after.nxt, before.nxt, Serial.add_ofNat_ofNat, List.length_append]

theorem len (commits : rb.Commits rb' first) : rb'.len = rb.len + first.length := by
  have lengths := congrArg List.length commits.contents
  simpa [RecvBuffer.len] using lengths

end Commits

theorem commit_commits (rb : RecvBuffer) (data : Bytes) :
    rb.Commits (rb.commit data) (data.take (recvBufSize - rb.len)) where
  contents := RingBuffer.write_contents rb.ring data
  nxt := by
    rw [commit_nxt, List.length_take, Nat.min_comm]
    rfl

theorem drain_commits (rb : RecvBuffer) (entries : List (U32 × Bytes))
    (increasing : KeysIncrease entries) : ∃ more, rb.Commits (rb.drain entries increasing) more := by
  induction entries generalizing rb with
  | nil => exact ⟨[], .none rfl rfl⟩
  | cons entry rest ih =>
      by_cases next : entry.1 = rb.nxt
      · obtain ⟨more, drained⟩ := ih (rb.commit entry.2) (List.Pairwise.of_cons increasing)
        rw [drain_delivers increasing next]
        exact ⟨_, (rb.commit_commits entry.2).trans drained⟩
      · rw [drain_stops increasing next]
        exact ⟨[], .none rfl rfl⟩

theorem commit_drainOoo_commits (rb : RecvBuffer) (data : Bytes) :
    ∃ more, rb.Commits (rb.commit data).drainOoo (data.take (recvBufSize - rb.len) ++ more) := by
  obtain ⟨more, drained⟩ := drain_commits (rb.commit data) _ (rb.commit data).ooo.increasing
  exact ⟨more, (rb.commit_commits data).trans drained⟩

theorem insert_commits (rb : RecvBuffer) (seq : U32) (data : Bytes) :
    ∃ more, rb.Commits (rb.insert seq data) more := by
  rw [insert_eq_placement]
  cases rb.placement seq data with
  | ignored => exact ⟨[], .none rfl rfl⟩
  | inOrder rest =>
      obtain ⟨more, commits⟩ := rb.commit_drainOoo_commits rest
      exact ⟨_, commits⟩
  | ahead key rest => exact ⟨[], .none rfl rfl⟩

theorem window_toNat (rb : RecvBuffer) : rb.window.toNat = min (recvBufSize - rb.len) 65535 := by
  unfold window
  rw [BitVec.toNat_ofNat, Nat.mod_eq_of_lt (by omega)]

theorem insert_within_window (rb : RecvBuffer) {data : Bytes} (fits : data.length ≤ rb.window.toNat) :
    ∃ more, rb.Commits (rb.insert rb.nextExpected data) (data ++ more) := by
  rw [window_toNat] at fits
  by_cases empty : data = []
  · subst empty
    exact rb.insert_commits _ _
  · have placed : rb.placement rb.nextExpected data = .inOrder data := by
      rw [placement_eq, if_neg empty, nextExpected, if_neg (by simp [seqLt]), if_pos rfl]
    have whole : data.take (recvBufSize - rb.len) = data := List.take_of_length_le (by omega)
    obtain ⟨more, commits⟩ := rb.commit_drainOoo_commits data
    rw [insert_eq_placement, placed]
    rw [whole] at commits
    exact ⟨more, commits⟩

end RecvBuffer

namespace Script

def stream (s : Script) : Bytes := s.received ++ s.buffer.ring.contents

def position (s : Script) : Nat := s.received.length + s.buffer.available

def rightEdge (s : Script) : Nat := s.position + s.buffer.window.toNat

theorem stream_length (s : Script) : s.stream.length = s.position := by
  simp [stream, position, RecvBuffer.available, RecvBuffer.len]

def Counted (irs : U32) (s : Script) : Prop :=
  s.buffer.nextExpected = irs + 1#32 + BitVec.ofNat 32 s.position

theorem insert_stream {s : Script} {seq : U32} {data more : Bytes}
    (commits : s.buffer.Commits (s.buffer.insert seq data) more) :
    (s.step (.insert seq data)).stream = s.stream ++ more := by
  simp only [stream, step, received, commits.contents, List.append_assoc]

theorem read_position (s : Script) (bufLen : Nat) : (s.step (.read bufLen)).position = s.position := by
  have copied : (s.buffer.ring.peek 0 (min bufLen s.buffer.len)).length = min bufLen s.buffer.len := by
    simp [RingBuffer.peek, RingBuffer.load]
  simp only [position, step, received, RecvBuffer.read, RecvBuffer.available, RecvBuffer.len,
    List.flatten_append, List.flatten_singleton, List.length_append, RingBuffer.skip_len] at *
  omega

theorem step_counted {irs : U32} (s : Script) (op : RecvOp) (counted : s.Counted irs) :
    (s.step op).Counted irs := by
  unfold Counted at *
  cases op with
  | insert seq data =>
      obtain ⟨more, commits⟩ := s.buffer.insert_commits seq data
      rw [← stream_length, insert_stream commits, List.length_append, stream_length,
        ← Serial.add_ofNat_ofNat, ← counted]
      exact commits.nxt
  | read bufLen =>
      rw [read_position]
      exact counted

theorem step_rightEdge (s : Script) (op : RecvOp) : s.rightEdge ≤ (s.step op).rightEdge := by
  unfold rightEdge
  simp only [RecvBuffer.window_toNat]
  cases op with
  | insert seq data =>
      obtain ⟨more, commits⟩ := s.buffer.insert_commits seq data
      have len : (s.step (.insert seq data)).buffer.len = s.buffer.len + more.length := commits.len
      rw [← stream_length, ← stream_length, insert_stream commits, List.length_append, len]
      omega
  | read bufLen =>
      have len : (s.step (.read bufLen)).buffer.len ≤ s.buffer.len := Nat.sub_le _ _
      rw [read_position]
      omega

theorem window_never_shrinks (irs : U32) (ops : List RecvOp) :
    Always
      (fun s =>
        s.buffer.nextExpected = irs + 1#32 + BitVec.ofNat 32 s.position ∧
        (∀ op, s.rightEdge ≤ (s.step op).rightEdge) ∧
        ∀ data : Bytes, data.length ≤ s.buffer.window.toNat →
          ∃ more,
            (s.step (.insert s.buffer.nextExpected data)).stream = s.stream ++ data ++ more ∧
            (s.step (.insert s.buffer.nextExpected data)).position =
              s.position + data.length + more.length ∧
            (s.step (.insert s.buffer.nextExpected data)).buffer.nextExpected =
              s.buffer.nextExpected + BitVec.ofNat 32 (data.length + more.length))
      (start irs) ops := by
  have fresh : (start irs).Counted irs := by
    simp [Counted, start, position, received, RecvBuffer.new, RecvBuffer.nextExpected,
      RecvBuffer.available, RecvBuffer.len, RingBuffer.empty]
  apply Runs.always_inv (fun s op counted _ => s.step_counted op counted) ?_ fresh
    (Runs.along_true _ ops)
  intro s counted
  refine ⟨counted, s.step_rightEdge, ?_⟩
  intro data fits
  obtain ⟨more, commits⟩ := s.buffer.insert_within_window fits
  have stream := insert_stream commits
  have position := congrArg List.length stream
  simp only [stream_length, List.length_append] at position
  refine ⟨more, ?_, ?_, ?_⟩
  · rw [stream, List.append_assoc]
  · rw [position, Nat.add_assoc]
  · rw [← List.length_append]
    exact commits.nxt

end Script

end MagnumTcp.Tcp
