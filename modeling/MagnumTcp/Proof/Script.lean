import MagnumTcp.Proof.Reassembly
import MagnumTcp.Tcp.Script

namespace MagnumTcp.Tcp

def RecvOp.SliceOf (S : Bytes) (first : U32) : RecvOp → Prop
  | .insert seq data => ∃ off, seq = first + BitVec.ofNat 32 off ∧ SliceAt S off data
  | .read _ => True

namespace Script

def Reassembles (S : Bytes) (first : U32) (s : Script) : Prop :=
  ∃ m, s.buffer.Reassembles S first s.received m

theorem step_reassembles {S : Bytes} {first : U32} (short : S.length < 2 ^ 31) (s : Script)
    (op : RecvOp) (inv : s.Reassembles S first) (slice : op.SliceOf S first) :
    (s.step op).Reassembles S first := by
  obtain ⟨m, inv⟩ := inv
  cases op with
  | insert seq data =>
      obtain ⟨off, rfl, slice⟩ := slice
      obtain ⟨m', -, inv'⟩ := inv.insert short slice
      exact ⟨m', inv'⟩
  | read bufLen =>
      refine ⟨m, ?_⟩
      have read := inv.read bufLen
      simpa only [step, received, List.flatten_append, List.flatten_singleton] using read

theorem reassembles_prefix (S : Bytes) (irs : U32) (short : S.length < 2 ^ 31) (ops : List RecvOp)
    (slices : ∀ op ∈ ops, op.SliceOf S (irs + 1#32)) :
    Always
      (fun s => ∃ m ≤ S.length,
        s.received ++ s.buffer.ring.contents = S.take m ∧
        s.buffer.nextExpected = irs + 1#32 + BitVec.ofNat 32 m ∧
        s.buffer.len ≤ recvBufSize)
      (start irs) ops := by
  have run : Along (fun _ op => op.SliceOf S (irs + 1#32)) (start irs) ops :=
    Runs.along_of_mem slices _
  refine Runs.always_inv (step_reassembles short) ?_ ⟨0, RecvBuffer.new_reassembles S irs⟩ run
  rintro s ⟨m, inv⟩
  exact ⟨m, inv.inside, inv.bytes, inv.nxt, s.buffer.ring.len_le⟩

def acrossTheTop : List RecvOp :=
  [.insert 0#32 [3#8, 4#8], .insert 0xfffffffe#32 [1#8, 2#8, 3#8], .read 2, .insert 0#32 [3#8, 4#8]]

theorem reassembles_prefix_acrossTheTop :
    (∀ op ∈ acrossTheTop, op.SliceOf [1#8, 2#8, 3#8, 4#8] (0xfffffffd#32 + 1#32)) ∧
    Always
      (fun s => ∃ m ≤ 4,
        s.received ++ s.buffer.ring.contents = [1#8, 2#8, 3#8, 4#8].take m ∧
        s.buffer.nextExpected = 0xfffffffd#32 + 1#32 + BitVec.ofNat 32 m ∧
        s.buffer.len ≤ recvBufSize)
      (start 0xfffffffd#32) acrossTheTop := by
  have slices : ∀ op ∈ acrossTheTop,
      op.SliceOf [1#8, 2#8, 3#8, 4#8] (0xfffffffd#32 + 1#32) := by
    simp only [acrossTheTop, List.forall_mem_cons]
    exact ⟨⟨2, rfl, by decide, rfl⟩, ⟨0, rfl, by decide, rfl⟩, trivial, ⟨2, rfl, by decide, rfl⟩,
      List.forall_mem_nil _⟩
  exact ⟨slices, reassembles_prefix _ _ (by decide) _ slices⟩

end Script

end MagnumTcp.Tcp
