import MagnumTcp.Proof.Reassembly

namespace MagnumTcp.Tcp

inductive Placement where
  | ignored
  | inOrder (data : Bytes)
  | ahead (key : U32) (data : Bytes)

namespace RecvBuffer

def placement (rb : RecvBuffer) (seq : U32) (data : Bytes) : Placement :=
  if data.isEmpty then .ignored
  else
    match rb.trimmed seq data with
    | none => .ignored
    | some (key, rest) => if key = rb.nxt then .inOrder rest else .ahead key rest

theorem insert_eq_placement (rb : RecvBuffer) (seq : U32) (data : Bytes) :
    rb.insert seq data =
      match rb.placement seq data with
      | .ignored => rb
      | .inOrder rest => (rb.commit rest).drainOoo
      | .ahead key rest => { rb with ooo := rb.ooo.insertNew key rest } := by
  unfold insert placement
  by_cases empty : data.isEmpty = true
  · simp only [if_pos empty]
  · simp only [if_neg empty]
    cases rb.trimmed seq data with
    | none => rfl
    | some kept =>
        dsimp only
        split_ifs <;> rfl

-- A trimmed segment starts at `nxt`, so only a segment that was not trimmed waits.
theorem placement_eq (rb : RecvBuffer) (seq : U32) (data : Bytes) :
    rb.placement seq data =
      if data = [] then .ignored
      else if seqLt seq rb.nxt then
        if (rb.nxt - seq).toNat ≥ data.length then .ignored
        else .inOrder (data.drop (rb.nxt - seq).toNat)
      else if seq = rb.nxt then .inOrder data
      else .ahead seq data := by
  unfold placement trimmed
  simp only [List.isEmpty_iff]
  split_ifs with empty old covered
  · rfl
  · rfl
  · simp only [Serial.add_sub_toNat, if_pos]
  · simp only [*, if_pos]
  · simp only [*, if_neg, not_false_eq_true]

theorem placement_ahead {rb : RecvBuffer} {seq key : U32} {data rest : Bytes}
    (ahead : rb.placement seq data = .ahead key rest) :
    key = seq ∧ rest = data ∧ data ≠ [] ∧
      0 < (seq - rb.nxt).toNat ∧ (seq - rb.nxt).toNat ≤ 2 ^ 31 := by
  rw [placement_eq] at ahead
  split_ifs at ahead with empty old covered next
  cases ahead
  rw [seqLt_iff_distance] at old
  refine ⟨rfl, rfl, empty, ?_, ?_⟩ <;> bv_omega

@[simp] theorem commit_nxt (rb : RecvBuffer) (data : Bytes) :
    (rb.commit data).nxt = rb.nxt + BitVec.ofNat 32 (rb.room data) := rfl

@[simp] theorem commit_len (rb : RecvBuffer) (data : Bytes) :
    (rb.commit data).len = rb.len + rb.room data := rfl

theorem drain_stops {rb : RecvBuffer} {entry : U32 × Bytes} {rest : List (U32 × Bytes)}
    (increasing : KeysIncrease (entry :: rest)) (gap : entry.1 ≠ rb.nxt) :
    rb.drain (entry :: rest) increasing = { rb with ooo := ⟨entry :: rest, increasing⟩ } :=
  if_pos gap

theorem drain_delivers {rb : RecvBuffer} {entry : U32 × Bytes} {rest : List (U32 × Bytes)}
    (increasing : KeysIncrease (entry :: rest)) (next : entry.1 = rb.nxt) :
    rb.drain (entry :: rest) increasing =
      (rb.commit entry.2).drain rest (List.Pairwise.of_cons increasing) :=
  if_neg (not_not.mpr next)

end RecvBuffer

end MagnumTcp.Tcp
