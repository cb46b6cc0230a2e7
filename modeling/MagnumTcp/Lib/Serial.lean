import Mathlib.Data.BitVec

namespace Serial

variable {w : Nat}

theorem add_ofNat_ofNat (base : BitVec w) (i j : Nat) :
    base + BitVec.ofNat w i + BitVec.ofNat w j = base + BitVec.ofNat w (i + j) := by
  rw [BitVec.add_assoc, BitVec.ofNat_add]

theorem add_sub_toNat (a b : BitVec w) : a + BitVec.ofNat w (b - a).toNat = b := by
  rw [BitVec.ofNat_toNat, BitVec.setWidth_eq, BitVec.add_comm, BitVec.sub_add_cancel]

theorem sub_toNat_of_le (base : BitVec w) {i j : Nat} (le : i ≤ j) (bound : j - i < 2 ^ w) :
    (base + BitVec.ofNat w j - (base + BitVec.ofNat w i)).toNat = j - i := by
  have split : base + BitVec.ofNat w j = base + BitVec.ofNat w i + BitVec.ofNat w (j - i) := by
    rw [add_ofNat_ofNat, Nat.add_sub_cancel' le]
  rw [split, BitVec.add_comm, BitVec.add_sub_cancel, BitVec.toNat_ofNat, Nat.mod_eq_of_lt bound]

theorem sub_toNat_of_gt (base : BitVec w) {i j : Nat} (gt : j < i) (bound : i - j < 2 ^ w) :
    (base + BitVec.ofNat w j - (base + BitVec.ofNat w i)).toNat = 2 ^ w - (i - j) := by
  have back := sub_toNat_of_le base gt.le bound
  generalize base + BitVec.ofNat w i = a at *
  generalize base + BitVec.ofNat w j = b at *
  have swap : b - a = -(a - b) := (neg_sub a b).symm
  rw [swap, BitVec.toNat_neg, back, Nat.mod_eq_of_lt (by omega)]

theorem sub_base_toNat (base : BitVec w) {i : Nat} (bound : i < 2 ^ w) :
    (base + BitVec.ofNat w i - base).toNat = i := by
  have := sub_toNat_of_le base (Nat.zero_le i) (by simpa using bound)
  simpa using this

theorem eq_of_add_ofNat (base : BitVec w) {i j : Nat} (ahead : i < j + 2 ^ w)
    (behind : j < i + 2 ^ w) (equal : base + BitVec.ofNat w i = base + BitVec.ofNat w j) : i = j := by
  rcases Nat.le_total i j with le | le
  · have distance := sub_toNat_of_le base le (by omega)
    rw [equal, BitVec.sub_self, BitVec.toNat_zero] at distance
    omega
  · have distance := sub_toNat_of_le base le (by omega)
    rw [equal, BitVec.sub_self, BitVec.toNat_zero] at distance
    omega

theorem add_ofNat_inj (base : BitVec w) {i j : Nat} (hi : i < 2 ^ w) (hj : j < 2 ^ w) :
    base + BitVec.ofNat w i = base + BitVec.ofNat w j ↔ i = j := by
  constructor
  · exact eq_of_add_ofNat base (by omega) (by omega)
  · rintro rfl
    rfl

theorem sub_add_toNat (k a : BitVec w) {n : Nat} (le : n ≤ (k - a).toNat) :
    (k - (a + BitVec.ofNat w n)).toNat = (k - a).toNat - n := by
  have bound := (k - a).isLt
  conv_lhs => rw [← add_sub_toNat a k]
  exact sub_toNat_of_le a le (by omega)

theorem add_sub_toNat_of_lt (k a : BitVec w) {n : Nat} (passed : (k - a).toNat < n)
    (bound : n < 2 ^ w) : (a + BitVec.ofNat w n - k).toNat = n - (k - a).toNat := by
  conv_lhs => rw [← add_sub_toNat a k]
  exact sub_toNat_of_le a passed.le (by omega)

theorem sub_toNat_add (a b : BitVec w) (apart : 0 < (b - a).toNat) :
    (a - b).toNat = 2 ^ w - (b - a).toNat := by
  have bound := (b - a).isLt
  have swap : a - b = -(b - a) := (neg_sub b a).symm
  rw [swap, BitVec.toNat_neg, Nat.mod_eq_of_lt (by omega)]

end Serial
