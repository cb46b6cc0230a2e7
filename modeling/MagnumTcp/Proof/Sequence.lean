import MagnumTcp.Lib.Serial
import MagnumTcp.Tcp.Tcb
import Mathlib.Order.RelIso.Basic

namespace MagnumTcp.Tcp

theorem seqLt_iff_distance (a b : U32) :
    seqLt a b = true ↔ 0 < (b - a).toNat ∧ (b - a).toNat < 2 ^ 31 := by
  unfold seqLt
  simp only [Bool.and_eq_true, bne_iff_ne, decide_eq_true_eq]
  constructor
  · rintro ⟨different, close⟩
    constructor <;> bv_omega
  · rintro ⟨positive, close⟩
    constructor <;> bv_omega

theorem seqLt_iff_lt (start : U32) {i j : Nat} (ahead : j < i + 2 ^ 31) (behind : i < j + 2 ^ 31) :
    seqLt (start + BitVec.ofNat 32 i) (start + BitVec.ofNat 32 j) = true ↔ i < j := by
  rw [seqLt_iff_distance]
  rcases Nat.lt_or_ge j i with gt | le
  · rw [Serial.sub_toNat_of_gt start gt (by omega)]
    omega
  · rw [Serial.sub_toNat_of_le start le (by omega)]
    omega

theorem seqLe_iff_distance (a b : U32) : seqLe a b = true ↔ (b - a).toNat < 2 ^ 31 := by
  unfold seqLe
  rw [Bool.or_eq_true, beq_iff_eq, seqLt_iff_distance]
  constructor
  · rintro (rfl | ⟨-, close⟩)
    · simp
    · exact close
  · intro close
    rcases Nat.eq_zero_or_pos (b - a).toNat with zero | positive
    · left
      bv_omega
    · exact .inr ⟨positive, close⟩

theorem seqLe_iff_le (start : U32) {i j : Nat} (ahead : j < i + 2 ^ 31) (behind : i < j + 2 ^ 31) :
    seqLe (start + BitVec.ofNat 32 i) (start + BitVec.ofNat 32 j) = true ↔ i ≤ j := by
  rw [seqLe_iff_distance]
  rcases Nat.lt_or_ge j i with gt | le
  · rw [Serial.sub_toNat_of_gt start gt (by omega)]
    omega
  · rw [Serial.sub_toNat_of_le start le (by omega)]
    omega

theorem ackAcceptable_iff_distance {una ack nxt : U32} (close : (nxt - una).toNat < 2 ^ 31) :
    ackAcceptable una ack nxt = true ↔
      0 < (ack - una).toNat ∧ (ack - una).toNat ≤ (nxt - una).toNat := by
  unfold ackAcceptable
  rw [Bool.and_eq_true, seqLt_iff_distance, seqLe_iff_distance]
  constructor
  · rintro ⟨⟨positive, near⟩, inside⟩
    constructor <;> bv_omega
  · rintro ⟨positive, inside⟩
    refine ⟨⟨positive, ?_⟩, ?_⟩ <;> bv_omega

def past (base : U32) (done : Bool) : U32 := base + BitVec.ofNat 32 done.toNat

theorem ackAcceptable_past (base : U32) (una ack nxt : Bool) :
    ackAcceptable (past base una) (past base ack) (past base nxt) = (!una && ack && nxt) := by
  unfold ackAcceptable
  rw [Bool.eq_iff_iff, Bool.and_eq_true, seqLt_iff_distance, seqLe_iff_distance]
  cases una <;> cases ack <;> cases nxt <;> simp [past]

theorem seqLe_past (base : U32) (done : Bool) : seqLe (past base done) (past base done) = true := by
  simp [seqLe]

theorem seqLt_irrefl (a : U32) : seqLt a a = false := by
  simp [seqLt]

theorem seqLt_asymm {a b : U32} (lt : seqLt a b = true) : seqLt b a = false := by
  rw [seqLt_iff_distance] at lt
  rw [Bool.eq_false_iff, ne_eq, seqLt_iff_distance, Serial.sub_toNat_add a b lt.1]
  omega

-- The distance from `base` embeds the numbers of one half into the natural numbers.
theorem seqLt_strictTotalOrder (base : U32) (numbers : Set U32)
    (half : ∀ a ∈ numbers, (a - base).toNat < 2 ^ 31) :
    IsStrictTotalOrder numbers (fun a b => seqLt a b = true) := by
  have position : ∀ a, base + BitVec.ofNat 32 (a - base).toNat = a := Serial.add_sub_toNat base
  have injective : Function.Injective fun a : numbers => (a.1 - base).toNat := by
    intro a b same
    apply Subtype.ext
    rw [← position a, ← position b]
    exact congrArg _ (congrArg _ same)
  have embeds : ∀ a b : numbers, (a.1 - base).toNat < (b.1 - base).toNat ↔ seqLt a b = true := by
    intro a b
    have near := half a a.2
    have near' := half b b.2
    rw [← seqLt_iff_lt base (by omega) (by omega), position, position]
  let embedding : (fun a b : numbers => seqLt a b = true) ↪r ((· < ·) : Nat → Nat → Prop) :=
    ⟨⟨_, injective⟩, embeds _ _⟩
  exact embedding.isStrictTotalOrder

theorem serial_comparison_exact :
    (∀ una ack nxt : U32, (nxt - una).toNat < 2 ^ 31 →
      (ackAcceptable una ack nxt = true ↔
        0 < (ack - una).toNat ∧ (ack - una).toNat ≤ (nxt - una).toNat)) ∧
    (∀ a : U32, seqLt a a = false) ∧
    (∀ a b : U32, seqLt a b = true → seqLt b a = false) ∧
    ∀ base : U32,
      (∀ i j : Nat, i < 2 ^ 31 → j < 2 ^ 31 →
        (seqLt (base + BitVec.ofNat 32 i) (base + BitVec.ofNat 32 j) = true ↔ i < j) ∧
        (seqLe (base + BitVec.ofNat 32 i) (base + BitVec.ofNat 32 j) = true ↔ i ≤ j)) ∧
      ∀ numbers : Set U32, (∀ a ∈ numbers, ∃ i < 2 ^ 31, a = base + BitVec.ofNat 32 i) →
        IsStrictTotalOrder numbers (fun a b => seqLt a b = true) := by
  refine ⟨?_, seqLt_irrefl, ?_, ?_⟩
  · intro una ack nxt close
    exact ackAcceptable_iff_distance close
  · intro a b lt
    exact seqLt_asymm lt
  · intro base
    constructor
    · intro i j hi hj
      exact ⟨seqLt_iff_lt base (by omega) (by omega), seqLe_iff_le base (by omega) (by omega)⟩
    · intro numbers offsets
      apply seqLt_strictTotalOrder base
      intro a member
      obtain ⟨i, small, rfl⟩ := offsets a member
      rwa [Serial.sub_base_toNat base (by omega)]

theorem serial_comparison_exact_wrapped :
    ackAcceptable 0xfffffff0#32 5#32 10#32 = true ∧ seqLt 0xfffffff0#32 5#32 = true := by
  obtain ⟨acks, -, -, order⟩ := serial_comparison_exact
  refine ⟨(acks 0xfffffff0#32 5#32 10#32 (by decide)).mpr (by decide), ?_⟩
  exact ((order 0xfffffff0#32).1 0 21 (by decide) (by decide)).1.mpr (by decide)

end MagnumTcp.Tcp
