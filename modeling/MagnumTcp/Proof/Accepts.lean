import MagnumTcp.Proof.Bounds
import MagnumTcp.Proof.Corruption

namespace MagnumTcp

open OnesComplement Tcp

/-- The 16-bit words of a text, the last one filled up with a zero byte. -/
def words : Bytes → List Nat
  | [] => []
  | [b] => [b.toNat * 256]
  | a :: b :: rest => (a.toNat * 256 + b.toNat) :: words rest

theorem words_sum (bytes : Bytes) : (words bytes).sum = wordSum bytes := by
  induction bytes using words.induct with
  | case1 => rfl
  | case2 b => simp [words, wordSum]
  | case3 a b rest ih => rw [words, wordSum, List.sum_cons, ih]

theorem words_small (bytes : Bytes) : ∀ word ∈ words bytes, word ≤ 0xFFFF := by
  induction bytes using words.induct with
  | case1 => exact List.forall_mem_nil _
  | case2 b =>
      have := b.isLt
      rw [words, List.forall_mem_singleton]
      omega
  | case3 a b rest ih =>
      have := a.isLt
      have := b.isLt
      rw [words, List.forall_mem_cons]
      exact ⟨by omega, ih⟩

namespace Ipv4

def versionOf (raw : Bytes) : Nat := (raw.getD 0 0#8).toNat / 16

def ihlOf (raw : Bytes) : Nat := (raw.getD 0 0#8).toNat % 16

def totalLenOf (raw : Bytes) : Nat := (raw.getD 2 0#8).toNat * 256 + (raw.getD 3 0#8).toNat

/-- Everything that is asked of a packet but its version. -/
structure Consistent (raw : Bytes) : Prop where
  fixed : 20 ≤ raw.length
  ihl : 5 ≤ ihlOf raw
  header : 4 * ihlOf raw ≤ raw.length
  sum : onesSum 0xFFFF (words (raw.take (4 * ihlOf raw))) = 0xFFFF
  total : 4 * ihlOf raw ≤ totalLenOf raw
  whole : totalLenOf raw ≤ raw.length

def WellFormed (raw : Bytes) : Prop := versionOf raw = 4 ∧ Consistent raw

theorem checksum_eq_zero_iff_onesSum {header : Bytes} (short : header.length ≤ maxPayloadLen) :
    checksum header = 0#16 ↔ onesSum 0xFFFF (words header) = 0xFFFF := by
  rw [checksum_eq_zero_iff short, onesSum_eq_iff (by decide) (words_small header), words_sum]

theorem ihl_toNat (raw : Bytes) : (raw.getD 0 0#8 &&& 0x0F#8).toNat = ihlOf raw := by
  rw [BitVec.toNat_and, show (0x0F#8).toNat = 2 ^ 4 - 1 from rfl, Nat.and_two_pow_sub_one_eq_mod]
  rfl

end Ipv4

open Ipv4

theorem Ipv4Packet.parse_ok_iff (raw : Bytes) :
    (∃ packet, Ipv4Packet.parse raw = .ok packet) ↔ Consistent raw := by
  have ihl := ihl_toNat raw
  have small : raw.getD 0 0#8 &&& 0x0F#8 < 5#8 ↔ ihlOf raw < 5 := by
    rw [BitVec.lt_def, ihl]
    rfl
  have length : (raw.take (ihlOf raw * 4)).length ≤ maxPayloadLen := by
    have := Nat.mod_lt (raw.getD 0 0#8).toNat (show 0 < 16 by decide)
    rw [List.length_take]
    unfold ihlOf maxPayloadLen
    omega
  have sum := checksum_eq_zero_iff_onesSum length
  have total : (beU16 (raw.getD 2 0#8) (raw.getD 3 0#8)).toNat = totalLenOf raw := beU16_toNat _ _
  unfold Ipv4Packet.parse ipv4MinHeaderLen
  simp only [small, ihl, total]
  constructor
  · rintro ⟨packet, parsed⟩
    split_ifs at parsed with short low header bad below truncated
    refine ⟨by omega, by omega, by omega, ?_, by omega, by omega⟩
    rw [Nat.mul_comm, ← sum]
    simpa using bad
  · intro consistent
    obtain ⟨fixed, low, header, all, below, whole⟩ := consistent
    rw [Nat.mul_comm, ← sum] at all
    rw [if_neg (by omega), if_neg (by omega), if_neg (by omega), if_neg (by simpa using all),
      if_neg (by omega), if_neg (by omega)]
    exact ⟨_, rfl⟩

theorem Ipv4Packet.parse_payload {raw : Bytes} {packet : Ipv4Packet}
    (parsed : Ipv4Packet.parse raw = .ok packet) :
    packet.payload = (raw.take (totalLenOf raw)).drop (4 * ihlOf raw) := by
  have ihl := ihl_toNat raw
  have total : (beU16 (raw.getD 2 0#8) (raw.getD 3 0#8)).toNat = totalLenOf raw := beU16_toNat _ _
  unfold Ipv4Packet.parse at parsed
  simp only [ihl, total] at parsed
  split_ifs at parsed
  cases parsed
  rw [Nat.mul_comm]

/-- No index is out of range, exactly the well-formed packets are accepted, and the payload is what lies
between the header and the total length. -/
def Ipv4.ParsesExactly (raw : Bytes) : Prop :=
  Ipv4Packet.parseChecked raw = some (Ipv4Packet.parse raw) ∧
  ((∃ packet, Ipv4Packet.parse raw = .ok packet) ↔ WellFormed raw) ∧
  ∀ packet, Ipv4Packet.parse raw = .ok packet →
    packet.payload = (raw.take (totalLenOf raw)).drop (4 * ihlOf raw)

theorem Ipv4.parses_exactly_iff (raw : Bytes) :
    ParsesExactly raw ↔ versionOf raw = 4 ∨ ¬ Consistent raw := by
  have accepts := Ipv4Packet.parse_ok_iff raw
  unfold ParsesExactly WellFormed
  rw [accepts]
  constructor
  · rintro ⟨-, exact_, -⟩
    by_cases consistent : Consistent raw
    · exact .inl (exact_.mp consistent).1
    · exact .inr consistent
  · intro known
    refine ⟨Ipv4Packet.parseChecked_eq raw, ?_, fun _ => Ipv4Packet.parse_payload⟩
    constructor
    · intro consistent
      exact ⟨known.resolve_right (not_not.mpr consistent), consistent⟩
    · exact And.right

def versionSix : Bytes :=
  [0x65#8, 0x00#8, 0x00#8, 0x14#8, 0x00#8, 0x00#8, 0x40#8, 0x00#8, 0x40#8, 0x06#8, 0xD1#8, 0x8F#8,
    192#8, 168#8, 100#8, 1#8, 192#8, 168#8, 100#8, 2#8]

theorem Ipv4.versionSix_accepted :
    versionSix.length ≤ 3000 ∧ (∃ packet, Ipv4Packet.parse versionSix = .ok packet) ∧
      ¬ WellFormed versionSix ∧ ¬ ParsesExactly versionSix := by
  have parsed : ∃ packet, Ipv4Packet.parse versionSix = .ok packet := ⟨_, rfl⟩
  have other : ¬ WellFormed versionSix := by
    rintro ⟨four, -⟩
    exact absurd four (by decide)
  refine ⟨by decide, parsed, other, ?_⟩
  rintro ⟨-, exact_, -⟩
  exact other (exact_.mp parsed)

end MagnumTcp
