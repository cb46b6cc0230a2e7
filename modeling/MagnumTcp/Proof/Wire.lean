import MagnumTcp.Tcp.Header
import Mathlib.Tactic.Ring

namespace MagnumTcp.Tcp

open OnesComplement

def maxPayloadLen : Nat := 65536

theorem beU16_toBeBytes16 (x : U16) :
    beU16 (BitVec.ofNat 8 (x.toNat / 256)) (BitVec.ofNat 8 x.toNat) = x := by
  apply BitVec.eq_of_toNat_eq
  have bound := x.isLt
  simp only [beU16, BitVec.toNat_ofNat]
  omega

theorem beU32_toBeBytes32 (x : U32) :
    beU32 (BitVec.ofNat 8 (x.toNat / 256 / 256 / 256)) (BitVec.ofNat 8 (x.toNat / 256 / 256))
      (BitVec.ofNat 8 (x.toNat / 256)) (BitVec.ofNat 8 x.toNat) = x := by
  apply BitVec.eq_of_toNat_eq
  have bound := x.isLt
  simp only [beU32, BitVec.toNat_ofNat]
  omega

theorem TcpFlags.fromByte_toByte (f : TcpFlags) : TcpFlags.fromByte f.toByte = f := by
  obtain ⟨urg, ack, psh, rst, syn, fin⟩ := f
  revert urg ack psh rst syn fin
  decide

theorem wordSum_le (bytes : Bytes) : 2 * wordSum bytes ≤ 65535 * (bytes.length + 1) := by
  induction bytes using wordSum.induct with
  | case1 => simp [wordSum]
  | case2 b =>
      have := b.isLt
      simp only [wordSum, List.length_singleton]
      omega
  | case3 a b rest ih =>
      have := a.isLt
      have := b.isLt
      simp only [wordSum, List.length_cons]
      omega

theorem pseudoHeaderSum_bounds (tcpLen : Nat) (srcIp dstIp : Ip) :
    0 < pseudoHeaderSum tcpLen srcIp dstIp ∧
      pseudoHeaderSum tcpLen srcIp dstIp ≤ 4 * 65535 + 6 + tcpLen := by
  have := (beU16 srcIp.a srcIp.b).isLt
  have := (beU16 srcIp.c srcIp.d).isLt
  have := (beU16 dstIp.a dstIp.b).isLt
  have := (beU16 dstIp.c dstIp.d).isLt
  simp only [pseudoHeaderSum, protoTcp]
  omega

theorem SegmentBuilder.layout_length (b : SegmentBuilder) (checksum : U16) :
    (b.layout checksum).length = b.payload.length + 20 := by
  simp [layout, toBeBytes16, toBeBytes32]

theorem SegmentBuilder.wordSum_layout (b : SegmentBuilder) (checksum : U16) :
    wordSum (b.layout checksum) = wordSum (b.layout 0#16) + checksum.toNat := by
  have bound := checksum.isLt
  simp only [layout, toBeBytes16, toBeBytes32, List.cons_append, List.nil_append, wordSum,
    BitVec.toNat_ofNat]
  omega

theorem complement_verifies (sum : Nat) (positive : 0 < sum) (bound : sum + 0xFFFF < 2 ^ 32) :
    ~~~ BitVec.ofNat 16 (foldCarries 0xFFFF 2
      ((sum + (~~~ BitVec.ofNat 16 (foldCarries 0xFFFF 2 (sum % 2 ^ 32))).toNat) % 2 ^ 32)) =
        0#16 := by
  have top : foldCarries 0xFFFF 2 sum ≤ 0xFFFF := foldCarries_le 0xFFFF 0 sum (by omega)
  have completed := foldCarries_complement 0xFFFF 0 sum positive (by omega)
  rw [Nat.mod_eq_of_lt (show sum < 2 ^ 32 by omega), BitVec.toNat_not, BitVec.toNat_ofNat,
    Nat.mod_eq_of_lt (show foldCarries 0xFFFF 2 sum < 2 ^ 16 by omega)]
  have written : sum + (2 ^ 16 - 1 - foldCarries 0xFFFF 2 sum) < 2 ^ 32 := by omega
  rw [Nat.mod_eq_of_lt written, show 2 ^ 16 - 1 = 0xFFFF from rfl, completed]
  rfl

theorem SegmentBuilder.tcpChecksum_build (b : SegmentBuilder)
    (short : b.payload.length ≤ maxPayloadLen) : tcpChecksum b.build b.srcIp b.dstIp = 0#16 := by
  have words := wordSum_le (b.layout 0#16)
  have pseudo := pseudoHeaderSum_bounds (b.payload.length + 20) b.srcIp b.dstIp
  rw [layout_length] at words
  simp only [maxPayloadLen] at short
  simp only [tcpChecksum, build, wordSum_layout b b.checksum, layout_length]
  simp only [checksum, tcpChecksum, layout_length]
  rw [← Nat.add_assoc]
  exact complement_verifies _ (by omega) (by omega)

def SegmentBuilder.segment (b : SegmentBuilder) : TcpSegment where
  header :=
    { srcPort := b.srcPort
      dstPort := b.dstPort
      seq := b.seq
      ackNum := b.ackNum
      dataOffset := 5
      flags := b.flags
      window := b.window
      checksum := b.checksum
      urgentPtr := 0#16 }
  payload := b.payload

theorem TcpSegment.parse_build (b : SegmentBuilder) (short : b.payload.length ≤ maxPayloadLen) :
    TcpSegment.parse b.build b.srcIp b.dstIp = .ok b.segment := by
  have verified := b.tcpChecksum_build short
  have length : b.build.length = b.payload.length + 20 := b.layout_length _
  have offset : (0x50#8 >>> 4 &&& 0x0F#8).toNat = 5 := by decide
  have bytes : b.build = b.layout b.checksum := rfl
  simp only [SegmentBuilder.layout, toBeBytes16, toBeBytes32, List.cons_append,
    List.nil_append] at bytes
  have ports := beU16_toBeBytes16
  have numbers := beU32_toBeBytes32
  unfold TcpSegment.parse
  simp only [length, verified, tcpMinHeaderLen]
  rw [if_neg (by omega)]
  simp only [bytes, List.getD_cons_succ, List.getD_cons_zero, ports, numbers,
    TcpFlags.fromByte_toByte]
  rw [if_neg (by rw [offset]; omega), if_neg (by rw [offset]; omega), if_neg (by decide)]
  rfl

instance decidableForallOk {ε α : Type} {P : α → Prop} [DecidablePred P] :
    (result : Except ε α) → Decidable (∀ a, result = .ok a → P a)
  | .ok a => decidable_of_iff (P a) ⟨fun holds b same => by cases same; exact holds, fun h => h a rfl⟩
  | .error _ => isTrue nofun

end MagnumTcp.Tcp
