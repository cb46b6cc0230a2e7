import Mathlib.Data.Nat.ModEq
import Mathlib.Tactic.Ring

namespace OnesComplement

/-- Add the carries back until none is left, at most `rounds` times. -/
def foldCarries (M : Nat) : Nat → Nat → Nat
  | 0, sum => sum
  | rounds + 1, sum =>
      if sum / (M + 1) = 0 then sum
      else foldCarries M rounds (sum % (M + 1) + sum / (M + 1))

private theorem carry_split (M sum : Nat) :
    sum % (M + 1) + sum / (M + 1) + M * (sum / (M + 1)) = sum := by
  have digits := Nat.mod_add_div sum (M + 1)
  rw [Nat.add_mul, Nat.one_mul] at digits
  omega

theorem foldCarries_mod (M rounds sum : Nat) : foldCarries M rounds sum % M = sum % M := by
  induction rounds generalizing sum with
  | zero => rfl
  | succ rounds ih =>
      rw [foldCarries]
      split
      · rfl
      · rw [ih]
        conv_rhs => rw [← carry_split M sum, Nat.add_mul_mod_self_left]

theorem foldCarries_pos (M rounds sum : Nat) (positive : 0 < sum) :
    0 < foldCarries M rounds sum := by
  induction rounds generalizing sum with
  | zero => exact positive
  | succ rounds ih =>
      rw [foldCarries]
      split
      · exact positive
      · rename_i carry
        exact ih _ (Nat.add_pos_right _ (Nat.pos_of_ne_zero carry))

private theorem foldCarries_of_le {M s : Nat} (rounds : Nat) (small : s ≤ M) :
    foldCarries M rounds s = s := by
  cases rounds with
  | zero => rfl
  | succ rounds => rw [foldCarries, if_pos (Nat.div_eq_of_lt (by omega))]

theorem foldCarries_le (M rounds sum : Nat) (bound : sum < (M + 1) * (M + 1)) :
    foldCarries M (rounds + 2) sum ≤ M := by
  have low : sum % (M + 1) < M + 1 := Nat.mod_lt sum (Nat.succ_pos M)
  have high : sum / (M + 1) < M + 1 := Nat.div_lt_of_lt_mul bound
  rw [foldCarries]
  split
  · rename_i carry
    rcases Nat.div_eq_zero_iff.mp carry with zero | small <;> omega
  · have twice : sum % (M + 1) + sum / (M + 1) ≤ 2 * M := by
      generalize sum % (M + 1) = low at *
      generalize sum / (M + 1) = high at *
      omega
    generalize sum % (M + 1) + sum / (M + 1) = next at twice
    rw [foldCarries]
    split
    · rename_i carry
      rcases Nat.div_eq_zero_iff.mp carry with zero | small <;> omega
    · rename_i carry
      have more : M + 1 ≤ next := Nat.le_of_not_lt fun small => carry (Nat.div_eq_of_lt small)
      have one : next / (M + 1) = 1 := Nat.div_eq_of_lt_le (by omega) (by omega)
      have split := carry_split M next
      rw [one, Nat.mul_one] at split
      rw [one, foldCarries_of_le] <;> omega

theorem foldCarries_eq_iff {M sum : Nat} (rounds : Nat) (digits : 0 < M)
    (bound : sum < (M + 1) * (M + 1)) :
    foldCarries M (rounds + 2) sum = M ↔ 0 < sum ∧ sum % M = 0 := by
  have top := foldCarries_le M rounds sum bound
  have modulo := foldCarries_mod M (rounds + 2) sum
  constructor
  · intro all
    rw [all, Nat.mod_self] at modulo
    refine ⟨Nat.pos_of_ne_zero ?_, modulo.symm⟩
    rintro rfl
    rw [foldCarries_of_le _ (Nat.zero_le M)] at all
    omega
  · rintro ⟨positive, zero⟩
    have above := foldCarries_pos M (rounds + 2) sum positive
    rw [zero] at modulo
    exact Nat.le_antisymm top (Nat.le_of_dvd above (Nat.dvd_of_mod_eq_zero modulo))

theorem foldCarries_complement (M rounds sum : Nat) (positive : 0 < sum)
    (bound : sum + M < (M + 1) * (M + 1)) :
    foldCarries M (rounds + 2) (sum + (M - foldCarries M (rounds + 2) sum)) = M := by
  have top := foldCarries_le M rounds sum (by omega)
  have modulo := foldCarries_mod M (rounds + 2) sum
  generalize foldCarries M (rounds + 2) sum = folded at *
  have zero : (sum + (M - folded)) % M = 0 := by
    rw [Nat.add_mod, ← modulo, ← Nat.add_mod, Nat.add_sub_cancel' top, Nat.mod_self]
  have digits : 0 < M := by
    apply Nat.pos_of_ne_zero
    rintro rfl
    omega
  exact (foldCarries_eq_iff rounds digits (by omega)).mpr ⟨by omega, zero⟩

/-- The sum of two digits, with the carry out of the digit added back in. -/
def addCarry (M a b : Nat) : Nat := (a + b) % (M + 1) + (a + b) / (M + 1)

def onesSum (M : Nat) (digits : List Nat) : Nat := digits.foldl (addCarry M) 0

theorem addCarry_mod (M a b : Nat) : addCarry M a b % M = (a + b) % M := by
  unfold addCarry
  conv_rhs => rw [← carry_split M (a + b), Nat.add_mul_mod_self_left]

theorem addCarry_pos (M : Nat) {a b : Nat} (positive : 0 < a + b) : 0 < addCarry M a b := by
  unfold addCarry
  apply Nat.pos_of_ne_zero
  intro zero
  have split := carry_split M (a + b)
  rw [zero, (Nat.add_eq_zero_iff.mp zero).2] at split
  omega

theorem addCarry_le {M a b : Nat} (left : a ≤ M) (right : b ≤ M) : addCarry M a b ≤ M := by
  unfold addCarry
  by_cases carry : a + b < M + 1
  · rw [Nat.mod_eq_of_lt carry, Nat.div_eq_of_lt carry]
    omega
  · have one : (a + b) / (M + 1) = 1 := Nat.div_eq_of_lt_le (by omega) (by omega)
    have split := carry_split M (a + b)
    rw [one, Nat.mul_one] at split
    rw [one]
    omega

theorem foldl_addCarry {M : Nat} (digits : List Nat) (small : ∀ d ∈ digits, d ≤ M) {acc : Nat}
    (start : acc ≤ M) :
    digits.foldl (addCarry M) acc ≤ M ∧
      digits.foldl (addCarry M) acc % M = (acc + digits.sum) % M ∧
      (0 < digits.foldl (addCarry M) acc ↔ 0 < acc + digits.sum) := by
  induction digits generalizing acc with
  | nil => exact ⟨start, rfl, Iff.rfl⟩
  | cons d rest ih =>
      obtain ⟨first, others⟩ := List.forall_mem_cons.mp small
      obtain ⟨top, modulo, positive⟩ := ih others (addCarry_le start first)
      rw [List.foldl_cons, List.sum_cons, ← Nat.add_assoc]
      refine ⟨top, ?_, ?_⟩
      · rw [modulo, Nat.add_mod, addCarry_mod, ← Nat.add_mod]
      · rw [positive]
        by_cases zero : acc + d = 0
        · have none : addCarry M acc d = 0 := by
            unfold addCarry
            rw [zero, Nat.zero_mod, Nat.zero_div]
          rw [none, zero]
        · have some := addCarry_pos M (Nat.pos_of_ne_zero zero)
          omega

theorem onesSum_eq_iff {M : Nat} {digits : List Nat} (positive : 0 < M)
    (small : ∀ d ∈ digits, d ≤ M) :
    onesSum M digits = M ↔ 0 < digits.sum ∧ digits.sum % M = 0 := by
  obtain ⟨top, modulo, some⟩ := foldl_addCarry digits small (Nat.zero_le M)
  rw [Nat.zero_add] at modulo some
  unfold onesSum
  rw [← modulo, ← some]
  constructor
  · intro all
    rw [all, Nat.mod_self]
    exact ⟨positive, rfl⟩
  · rintro ⟨above, zero⟩
    exact Nat.le_antisymm top (Nat.le_of_dvd above (Nat.dvd_of_mod_eq_zero zero))

end OnesComplement
