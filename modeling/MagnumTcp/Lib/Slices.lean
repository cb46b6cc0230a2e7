import Mathlib.Data.List.Basic

structure SliceAt {α : Type*} (S : List α) (i : Nat) (part : List α) : Prop where
  inside : i + part.length ≤ S.length
  eq : part = (S.drop i).take part.length

namespace SliceAt

variable {α : Type*} {S part : List α} {i : Nat}

theorem of_drop_take {n : Nat} (inside : i + n ≤ S.length) : SliceAt S i ((S.drop i).take n) := by
  have length : ((S.drop i).take n).length = n := by
    rw [List.length_take, List.length_drop]
    omega
  exact ⟨by rw [length]; exact inside, by rw [length]⟩

theorem append (slice : SliceAt S i part) (more : List α) : SliceAt (S ++ more) i part := by
  have inside := slice.inside
  refine ⟨by rw [List.length_append]; omega, ?_⟩
  rw [List.drop_append_of_le_length (by omega),
    List.take_append_of_le_length (by rw [List.length_drop]; omega)]
  exact slice.eq

theorem take (slice : SliceAt S i part) (k : Nat) : SliceAt S i (part.take k) := by
  have inside := slice.inside
  have shorter : (part.take k).length ≤ part.length := by rw [List.length_take]; omega
  refine ⟨by omega, ?_⟩
  conv_lhs => rw [slice.eq, List.take_take]
  rw [List.length_take]

theorem drop (slice : SliceAt S i part) {k : Nat} (le : k ≤ part.length) :
    SliceAt S (i + k) (part.drop k) := by
  have inside := slice.inside
  refine ⟨by rw [List.length_drop]; omega, ?_⟩
  conv_lhs => rw [slice.eq, List.drop_take, List.drop_drop]
  rw [List.length_drop]

theorem getElem?_eq (slice : SliceAt S i part) {k : Nat} (below : k < part.length) :
    part[k]? = S[i + k]? := by
  rw [slice.eq, List.getElem?_take_of_lt below, List.getElem?_drop]

theorem take_append (slice : SliceAt S i part) : S.take i ++ part = S.take (i + part.length) := by
  rw [List.take_add]
  exact congrArg _ slice.eq

theorem within {n : Nat} (slice : SliceAt S i part) (bound : i + part.length ≤ n) :
    SliceAt (S.take n) i part := by
  have inside := slice.inside
  refine ⟨by rw [List.length_take]; omega, ?_⟩
  rw [List.drop_take, List.take_take, Nat.min_eq_left (by omega)]
  exact slice.eq

end SliceAt
