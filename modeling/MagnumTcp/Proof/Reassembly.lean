import MagnumTcp.Lib.Slices
import MagnumTcp.Proof.Sequence
import MagnumTcp.Tcp.RecvBuffer

namespace MagnumTcp.Tcp

namespace RecvBuffer

/-- The first byte of `S` is numbered `first`; `received` has been read from the buffer, and `m` bytes
have been committed. -/
structure Reassembles (S : Bytes) (first : U32) (received : Bytes) (m : Nat) (rb : RecvBuffer) :
    Prop where
  inside : m ≤ S.length
  nxt : rb.nxt = first + BitVec.ofNat 32 m
  bytes : received ++ rb.ring.contents = S.take m
  ahead : ∀ entry ∈ rb.ooo.entries, ∃ i, entry.1 = first + BitVec.ofNat 32 i ∧ SliceAt S i entry.2

variable {S received : Bytes} {first : U32} {m : Nat} {rb : RecvBuffer}

theorem new_reassembles (S : Bytes) (irs : U32) :
    (new irs).Reassembles S (irs + 1#32) [] 0 where
  inside := Nat.zero_le _
  nxt := by simp [new]
  bytes := rfl
  ahead := fun _ member => absurd member List.not_mem_nil

theorem Reassembles.append (inv : rb.Reassembles S first received m) (more : Bytes) :
    rb.Reassembles (S ++ more) first received m where
  inside := by
    have := inv.inside
    rw [List.length_append]
    omega
  nxt := inv.nxt
  bytes := by rw [inv.bytes, List.take_append_of_le_length inv.inside]
  ahead := fun entry member => by
    obtain ⟨i, key, slice⟩ := inv.ahead entry member
    exact ⟨i, key, slice.append more⟩

def room (rb : RecvBuffer) (data : Bytes) : Nat := min data.length (recvBufSize - rb.len)

theorem Reassembles.commit (inv : rb.Reassembles S first received m) {data : Bytes}
    (slice : SliceAt S m data) :
    (rb.commit data).Reassembles S first received (m + rb.room data) where
  inside := by
    have := slice.inside
    unfold room
    omega
  nxt := by
    simp only [RecvBuffer.commit, inv.nxt, RingBuffer.write_snd]
    exact Serial.add_ofNat_ofNat _ _ _
  bytes := by
    have taken : (data.take (recvBufSize - rb.ring.len)).length = rb.room data := by
      rw [List.length_take, Nat.min_comm]
      rfl
    simp only [RecvBuffer.commit, RingBuffer.write_contents]
    rw [← List.append_assoc, inv.bytes]
    exact ((slice.take _).take_append).trans (by rw [taken])
  ahead := inv.ahead

theorem Reassembles.withOoo (inv : rb.Reassembles S first received m) (ooo : SortedMap U32 Bytes)
    (ahead : ∀ entry ∈ ooo.entries, ∃ i, entry.1 = first + BitVec.ofNat 32 i ∧ SliceAt S i entry.2) :
    ({ rb with ooo := ooo } : RecvBuffer).Reassembles S first received m :=
  ⟨inv.inside, inv.nxt, inv.bytes, ahead⟩

theorem Reassembles.drain (short : S.length < 2 ^ 31) (inv : rb.Reassembles S first received m)
    (entries : List (U32 × Bytes)) (increasing : KeysIncrease entries)
    (ahead : ∀ entry ∈ entries, ∃ i, entry.1 = first + BitVec.ofNat 32 i ∧ SliceAt S i entry.2) :
    ∃ m', m ≤ m' ∧ (rb.drain entries increasing).Reassembles S first received m' := by
  induction entries generalizing rb m with
  | nil => exact ⟨m, Nat.le_refl m, inv.withOoo _ ahead⟩
  | cons entry rest ih =>
      obtain ⟨key, data⟩ := entry
      simp only [RecvBuffer.drain]
      split_ifs with gap
      · exact ⟨m, Nat.le_refl m, inv.withOoo _ ahead⟩
      · obtain ⟨i, number, slice⟩ := ahead (key, data) List.mem_cons_self
        dsimp only at number slice
        have inside := inv.inside
        have next : i = m := by
          have same : key = rb.nxt := not_not.mp gap
          rw [inv.nxt, number, Serial.add_ofNat_inj _ (by have := slice.inside; omega) (by omega)]
            at same
          exact same
        subst next
        obtain ⟨m', more, final⟩ := ih (inv.commit slice) (List.Pairwise.of_cons increasing)
          (fun entry member => ahead entry (List.mem_cons_of_mem _ member))
        exact ⟨m', by omega, final⟩

theorem Reassembles.trimmed (short : S.length < 2 ^ 31) (inv : rb.Reassembles S first received m)
    {i : Nat} {data : Bytes} (slice : SliceAt S i data) :
    rb.trimmed (first + BitVec.ofNat 32 i) data =
      if i < m then
        if m - i ≥ data.length then none else some (first + BitVec.ofNat 32 m, data.drop (m - i))
      else some (first + BitVec.ofNat 32 i, data) := by
  have inside := inv.inside
  have bound := slice.inside
  have before : seqLt (first + BitVec.ofNat 32 i) rb.nxt = true ↔ i < m := by
    rw [inv.nxt]
    exact seqLt_iff_lt first (by omega) (by omega)
  unfold RecvBuffer.trimmed
  simp only [before]
  split_ifs with old covered gone kept
  · rfl
  · rw [inv.nxt, Serial.sub_toNat_of_le first old.le (by omega)] at covered
    contradiction
  · rw [inv.nxt, Serial.sub_toNat_of_le first old.le (by omega)] at covered
    contradiction
  · rw [inv.nxt, Serial.sub_toNat_of_le first old.le (by omega), Serial.add_ofNat_ofNat,
      Nat.add_sub_cancel' old.le]
  · rfl

theorem Reassembles.commit_drainOoo (short : S.length < 2 ^ 31)
    (inv : rb.Reassembles S first received m) {data : Bytes} (slice : SliceAt S m data) :
    ∃ m', m + rb.room data ≤ m' ∧
      (rb.commit data).drainOoo.Reassembles S first received m' :=
  (inv.commit slice).drain short _ _ inv.ahead

theorem Reassembles.insert (short : S.length < 2 ^ 31) (inv : rb.Reassembles S first received m)
    {i : Nat} {data : Bytes} (slice : SliceAt S i data) :
    ∃ m', m ≤ m' ∧
      (rb.insert (first + BitVec.ofNat 32 i) data).Reassembles S first received m' := by
  have inside := inv.inside
  have bound := slice.inside
  unfold RecvBuffer.insert
  rw [inv.trimmed short slice]
  split_ifs with empty old covered
  · exact ⟨m, Nat.le_refl m, inv⟩
  · exact ⟨m, Nat.le_refl m, inv⟩
  · have rest := slice.drop (show m - i ≤ data.length by omega)
    rw [Nat.add_sub_cancel' old.le] at rest
    dsimp only
    rw [if_pos inv.nxt.symm]
    obtain ⟨m', more, final⟩ := inv.commit_drainOoo short rest
    exact ⟨m', by omega, final⟩
  · dsimp only
    split_ifs with next
    · have here : i = m := by
        rwa [inv.nxt, Serial.add_ofNat_inj _ (by omega) (by omega)] at next
      subst here
      obtain ⟨m', more, final⟩ := inv.commit_drainOoo short slice
      exact ⟨m', by omega, final⟩
    · refine ⟨m, Nat.le_refl m, inv.withOoo _ ?_⟩
      intro entry member
      rcases SortedMap.mem_insertNew member with rfl | waiting
      · exact ⟨i, rfl, slice⟩
      · exact inv.ahead entry waiting

theorem Reassembles.read (inv : rb.Reassembles S first received m) (bufLen : Nat) :
    (rb.read bufLen).1.Reassembles S first (received ++ (rb.read bufLen).2) m where
  inside := inv.inside
  nxt := inv.nxt
  bytes := by
    have fits : min bufLen rb.len ≤ rb.ring.len := Nat.min_le_right _ _
    simp only [RecvBuffer.read]
    rw [RingBuffer.skip_contents _ fits, RingBuffer.peek_eq _ (by omega), List.drop_zero,
      List.append_assoc, List.take_append_drop, inv.bytes]
  ahead := inv.ahead

theorem Reassembles.committed (inv : rb.Reassembles S first received m) :
    received.length + rb.len = m := by
  have length := congrArg List.length inv.bytes
  rw [List.length_append, RingBuffer.contents_length, List.length_take,
    Nat.min_eq_left inv.inside] at length
  exact length

theorem Reassembles.unique (short : S.length < 2 ^ 31) (inv : rb.Reassembles S first received m)
    {rb' : RecvBuffer} {m' : Nat} (inv' : rb'.Reassembles S first received m')
    (same : rb'.nxt = rb.nxt) : m' = m := by
  have inside := inv.inside
  have inside' := inv'.inside
  rw [inv.nxt, inv'.nxt] at same
  exact Serial.eq_of_add_ofNat first (by omega) (by omega) same

theorem drain_of_full (full : rb.len = recvBufSize) (entries : List (U32 × Bytes))
    (increasing : KeysIncrease entries) : (rb.drain entries increasing).nxt = rb.nxt := by
  induction entries generalizing rb with
  | nil => rfl
  | cons entry rest ih =>
      obtain ⟨key, data⟩ := entry
      simp only [RecvBuffer.drain]
      split_ifs with gap
      · rfl
      · have full' : rb.ring.len = recvBufSize := full
        have nothing : (rb.ring.write data).2 = 0 := by
          rw [RingBuffer.write_snd, full', Nat.sub_self, Nat.min_zero]
        have full'' : (rb.commit data).len = recvBufSize := by
          simp only [RecvBuffer.commit, len, RingBuffer.write_len, full', Nat.sub_self, Nat.min_zero,
            Nat.add_zero]
        have nxt : (rb.commit data).nxt = rb.nxt := by
          simp only [RecvBuffer.commit, nothing]
          exact BitVec.add_zero _
        exact (ih full'' (List.Pairwise.of_cons increasing)).trans nxt

theorem Reassembles.commit_last (short : S.length < 2 ^ 31)
    (inv : rb.Reassembles S first received m) {data : Bytes} (slice : SliceAt S m data)
    (last : m + data.length = S.length) {m' : Nat}
    (inv' : (rb.commit data).drainOoo.Reassembles S first received m') :
    m' = S.length ↔ data.length ≤ recvBufSize - rb.len := by
  have top := inv'.inside
  by_cases fits : data.length ≤ recvBufSize - rb.len
  · obtain ⟨m1, more, drained⟩ := inv.commit_drainOoo short slice
    have same := drained.unique short inv' rfl
    unfold room at more
    omega
  · -- The rest of the segment does not fit, and the buffer is full where it was cut off.
    have committed := inv.commit slice
    have full : (rb.commit data).len = recvBufSize := by
      have bound := rb.ring.len_le
      simp only [RecvBuffer.commit, len, RingBuffer.write_len] at *
      omega
    have stuck := committed.unique short inv' (drain_of_full full _ _)
    unfold room at stuck
    omega

theorem Reassembles.insert_last (short : S.length < 2 ^ 31)
    (inv : rb.Reassembles S first received m) {i : Nat} {data : Bytes} (slice : SliceAt S i data)
    (last : i + data.length = S.length) {m' : Nat}
    (inv' : (rb.insert (first + BitVec.ofNat 32 i) data).Reassembles S first received m') :
    m' = S.length ↔ i ≤ m ∧ data.length - (m - i) ≤ recvBufSize - rb.len := by
  have inside := inv.inside
  unfold RecvBuffer.insert at inv'
  rw [inv.trimmed short slice] at inv'
  split_ifs at inv' with empty old covered
  · have same := inv.unique short inv' rfl
    rw [List.isEmpty_iff.mp empty] at last ⊢
    simp only [List.length_nil] at *
    omega
  · have same := inv.unique short inv' rfl
    omega
  · have rest := slice.drop (show m - i ≤ data.length by omega)
    rw [Nat.add_sub_cancel' old.le] at rest
    dsimp only at inv'
    rw [if_pos inv.nxt.symm] at inv'
    have outcome := inv.commit_last short rest (by rw [List.length_drop]; omega) inv'
    rw [List.length_drop] at outcome
    omega
  · dsimp only at inv'
    split_ifs at inv' with next
    · have here : i = m := by
        rwa [inv.nxt, Serial.add_ofNat_inj _ (by omega) (by omega)] at next
      subst here
      have outcome := inv.commit_last short slice last inv'
      omega
    · have same := inv.unique short inv' rfl
      have apart : i ≠ m := by
        rintro rfl
        exact next inv.nxt.symm
      omega

end RecvBuffer

end MagnumTcp.Tcp
