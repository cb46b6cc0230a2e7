import MagnumTcp.Proof.Accepts

namespace MagnumTcp.Tcp

open OnesComplement

theorem toBeBytes16_beU16 (a b : U8) : toBeBytes16 (beU16 a b) = [a, b] := by
  have high := a.isLt
  have low := b.isLt
  unfold toBeBytes16 beU16
  simp only [List.cons.injEq, and_true, BitVec.toNat_ofNat]
  constructor <;> apply BitVec.eq_of_toNat_eq <;> rw [BitVec.toNat_ofNat] <;> omega

theorem toBeBytes32_beU32 (a b c d : U8) : toBeBytes32 (beU32 a b c d) = [a, b, c, d] := by
  have := a.isLt
  have := b.isLt
  have := c.isLt
  have := d.isLt
  unfold toBeBytes32 beU32
  simp only [List.cons.injEq, and_true, BitVec.toNat_ofNat]
  refine ⟨?_, ?_, ?_, ?_⟩ <;> apply BitVec.eq_of_toNat_eq <;> rw [BitVec.toNat_ofNat] <;> omega

theorem TcpFlags.toByte_fromByte (b : U8) : (TcpFlags.fromByte b).toByte = b &&& 0x3F#8 := by
  revert b
  decide +kernel

def TcpSegment.builder (seg : TcpSegment) (srcIp dstIp : Ip) : SegmentBuilder where
  srcIp := srcIp
  dstIp := dstIp
  srcPort := seg.header.srcPort
  dstPort := seg.header.dstPort
  seq := seg.header.seq
  ackNum := seg.header.ackNum
  flags := seg.header.flags
  window := seg.header.window
  payload := seg.payload

/-- No options, nothing in the reserved bits, no urgent pointer, and the checksum in its first form. -/
structure Canonical (raw : Bytes) : Prop where
  offset : raw.getD 12 0#8 = 0x50#8
  reserved : raw.getD 13 0#8 &&& 0xC0#8 = 0#8
  checksum : beU16 (raw.getD 16 0#8) (raw.getD 17 0#8) ≠ 0xFFFF#16
  urgent : beU16 (raw.getD 18 0#8) (raw.getD 19 0#8) = 0#16

theorem complement_unique {sum c : Nat} (positive : 0 < sum) (bound : sum + 0xFFFF < 2 ^ 32)
    (digit : c < 0xFFFF) : foldCarries 0xFFFF 2 (sum + c) = 0xFFFF ↔ 0xFFFF - foldCarries 0xFFFF 2 sum = c := by
  have top := foldCarries_le 0xFFFF 0 sum (by omega)
  have above := foldCarries_pos 0xFFFF 2 sum positive
  have modulo := foldCarries_mod 0xFFFF 2 sum
  rw [foldCarries_eq_iff 0 (by decide) (by omega)]
  generalize foldCarries 0xFFFF 2 sum = folded at *
  omega

namespace SegmentBuilder

variable {b : SegmentBuilder}

theorem checksum_toNat (short : b.payload.length ≤ maxPayloadLen) :
    b.checksum.toNat = 0xFFFF - foldCarries 0xFFFF 2
      (pseudoHeaderSum (b.payload.length + 20) b.srcIp b.dstIp + wordSum (b.layout 0#16)) := by
  have words := wordSum_le (b.layout 0#16)
  have pseudo := pseudoHeaderSum_bounds (b.payload.length + 20) b.srcIp b.dstIp
  rw [layout_length] at words
  unfold maxPayloadLen at short
  have top : foldCarries 0xFFFF 2 (pseudoHeaderSum (b.payload.length + 20) b.srcIp b.dstIp +
      wordSum (b.layout 0#16)) ≤ 0xFFFF := foldCarries_le 0xFFFF 0 _ (by omega)
  unfold checksum tcpChecksum
  dsimp only
  rw [layout_length, Nat.mod_eq_of_lt (by omega), BitVec.toNat_not, BitVec.toNat_ofNat,
    Nat.mod_eq_of_lt (by omega)]

theorem layout_verifies_iff (short : b.payload.length ≤ maxPayloadLen) {c : U16} (first : c ≠ 0xFFFF#16) :
    tcpChecksum (b.layout c) b.srcIp b.dstIp = 0#16 ↔ b.checksum = c := by
  have words := wordSum_le (b.layout 0#16)
  have pseudo := pseudoHeaderSum_bounds (b.payload.length + 20) b.srcIp b.dstIp
  have digit : c.toNat < 0xFFFF := by
    have bound := c.isLt
    have other : c.toNat ≠ 0xFFFF := fun same => first (BitVec.eq_of_toNat_eq same)
    omega
  rw [layout_length] at words
  rw [tcpChecksum_verifies_iff _ _ (by rw [layout_length]; omega), tcpSum, layout_length, wordSum_layout,
    ← Nat.add_assoc]
  unfold maxPayloadLen at short
  rw [complement_unique (by omega) (by omega) digit, ← checksum_toNat short, BitVec.toNat_inj]

theorem build_canonical (short : b.payload.length ≤ maxPayloadLen) : Canonical b.build := by
  have bytes : b.build = b.layout b.checksum := rfl
  simp only [layout, toBeBytes16, toBeBytes32, List.cons_append, List.nil_append] at bytes
  have top := checksum_toNat short
  have pseudo := pseudoHeaderSum_bounds (b.payload.length + 20) b.srcIp b.dstIp
  have above := foldCarries_pos 0xFFFF 2 (pseudoHeaderSum (b.payload.length + 20) b.srcIp b.dstIp +
    wordSum (b.layout 0#16)) (by omega)
  constructor
  · rw [bytes]
    rfl
  · rw [bytes]
    change b.flags.toByte &&& 0xC0#8 = 0#8
    obtain ⟨urg, ack, psh, rst, syn, fin⟩ := b.flags
    revert urg ack psh rst syn fin
    decide
  · rw [bytes]
    change beU16 (BitVec.ofNat 8 (b.checksum.toNat / 256)) (BitVec.ofNat 8 b.checksum.toNat) ≠ _
    rw [beU16_toBeBytes16]
    intro all
    have ones := congrArg BitVec.toNat all
    rw [top, show (0xFFFF#16).toNat = 0xFFFF from rfl] at ones
    omega
  · simp only [bytes, List.getD_cons_succ, List.getD_cons_zero]
    rfl

end SegmentBuilder

/-- The pseudo-header of RFC 793: addresses, a zero byte, the protocol and the length. -/
def pseudoHeader (srcIp dstIp : Ip) (tcpLen : Nat) : Bytes :=
  [srcIp.a, srcIp.b, srcIp.c, srcIp.d, dstIp.a, dstIp.b, dstIp.c, dstIp.d, 0#8, 6#8] ++
    toBeBytes16 (BitVec.ofNat 16 tcpLen)

theorem wordSum_pseudoHeader (srcIp dstIp : Ip) {raw : Bytes} (short : raw.length < 2 ^ 16) :
    wordSum (pseudoHeader srcIp dstIp raw.length ++ raw) =
      pseudoHeaderSum raw.length srcIp dstIp + wordSum raw := by
  simp only [pseudoHeader, toBeBytes16, List.cons_append, List.nil_append, wordSum, pseudoHeaderSum,
    beU16_toNat, BitVec.toNat_ofNat, protoTcp]
  omega

def offsetOf (raw : Bytes) : Nat := (raw.getD 12 0#8).toNat / 16

theorem offset_toNat (raw : Bytes) : (raw.getD 12 0#8 >>> 4 &&& 0x0F#8).toNat = offsetOf raw := by
  unfold offsetOf
  generalize raw.getD 12 0#8 = b
  revert b
  decide +kernel

theorem take_eq_getD {raw : Bytes} {n : Nat} (enough : n ≤ raw.length) :
    raw.take n = (List.range n).map fun i => raw.getD i 0#8 := by
  apply List.ext_getElem
  · simpa using enough
  · intro i here there
    have inside : i < raw.length := by
      rw [List.length_take] at here
      omega
    simp [List.getD_eq_getElem?_getD, List.getElem?_eq_getElem inside]

theorem TcpSegment.builder_build_iff {raw : Bytes} {srcIp dstIp : Ip} {seg : TcpSegment}
    (parsed : TcpSegment.parse raw srcIp dstIp = .ok seg) (short : raw.length < 2 ^ 16) :
    (seg.builder srcIp dstIp).build = raw ↔ Canonical raw := by
  unfold TcpSegment.parse tcpMinHeaderLen at parsed
  dsimp only at parsed
  split_ifs at parsed with tiny low cut bad
  have verified : tcpChecksum raw srcIp dstIp = 0#16 := by simpa using bad
  have front : raw.take 20 = (List.range 20).map fun i => raw.getD i 0#8 := take_eq_getD (by omega)
  have whole := List.take_append_drop 20 raw
  rw [front] at whole
  cases parsed
  constructor
  · intro same
    rw [← same]
    apply SegmentBuilder.build_canonical
    change (raw.drop _).length ≤ 65536
    rw [List.length_drop]
    omega
  · intro canonical
    obtain ⟨offset, reserved, first, urgent⟩ := canonical
    have five : (raw.getD 12 0#8 >>> 4 &&& 0x0F#8).toNat = 5 := by
      rw [offset]
      rfl
    have zeros : raw.getD 18 0#8 = 0#8 ∧ raw.getD 19 0#8 = 0#8 := by
      have bytes := toBeBytes16_beU16 (raw.getD 18 0#8) (raw.getD 19 0#8)
      rw [urgent] at bytes
      obtain ⟨high, rest⟩ := List.cons.inj bytes
      exact ⟨high.symm, (List.cons.inj rest).1.symm⟩
    have plain : raw.getD 13 0#8 &&& 0x3F#8 = raw.getD 13 0#8 := by
      generalize raw.getD 13 0#8 = b at reserved
      revert b
      decide
    generalize built : TcpSegment.builder _ srcIp dstIp = b
    have layout : b.layout (beU16 (raw.getD 16 0#8) (raw.getD 17 0#8)) = raw := by
      conv_rhs => rw [← whole]
      subst built
      simp only [SegmentBuilder.layout, TcpSegment.builder, toBeBytes16_beU16, toBeBytes32_beU32,
        TcpFlags.toByte_fromByte, plain, five, List.cons_append, List.nil_append]
      rw [show List.range 20 =
        [0, 1, 2, 3, 4, 5, 6, 7, 8, 9, 10, 11, 12, 13, 14, 15, 16, 17, 18, 19] from rfl]
      simp only [List.map_cons, List.map_nil, offset, zeros.1, zeros.2]
      rfl
    have ends : b.srcIp = srcIp ∧ b.dstIp = dstIp := by
      subst built
      exact ⟨rfl, rfl⟩
    have fits : b.payload.length ≤ maxPayloadLen := by
      have length := b.layout_length (beU16 (raw.getD 16 0#8) (raw.getD 17 0#8))
      rw [layout] at length
      unfold maxPayloadLen
      omega
    rw [← layout, ← ends.1, ← ends.2, SegmentBuilder.layout_verifies_iff fits first] at verified
    rw [SegmentBuilder.build, verified, layout]

/-- The parser accepts what is long enough for its header and sums to all ones with its pseudo-header,
takes what follows the header as payload, and has kept all of exactly the canonical segments. -/
structure AcceptsExactly (raw : Bytes) (srcIp dstIp : Ip) : Prop where
  accepted : (∃ seg, TcpSegment.parse raw srcIp dstIp = .ok seg) ↔
    20 ≤ raw.length ∧ 5 ≤ offsetOf raw ∧ 4 * offsetOf raw ≤ raw.length ∧
      onesSum 0xFFFF (words (pseudoHeader srcIp dstIp raw.length ++ raw)) = 0xFFFF
  payload : ∀ seg, TcpSegment.parse raw srcIp dstIp = .ok seg →
    seg.payload = raw.drop (4 * offsetOf raw)
  rebuilt : ∀ seg, TcpSegment.parse raw srcIp dstIp = .ok seg →
    ((seg.builder srcIp dstIp).build = raw ↔ Canonical raw)

theorem TcpSegment.accepts_exactly (raw : Bytes) (srcIp dstIp : Ip) (short : raw.length < 2 ^ 16) :
    AcceptsExactly raw srcIp dstIp := by
  have offset := offset_toNat raw
  have sum : tcpChecksum raw srcIp dstIp = 0#16 ↔
      onesSum 0xFFFF (words (pseudoHeader srcIp dstIp raw.length ++ raw)) = 0xFFFF := by
    have words_sum' := wordSum_pseudoHeader srcIp dstIp short
    have bound := wordSum_le raw
    have pseudo := pseudoHeaderSum_bounds raw.length srcIp dstIp
    rw [tcpChecksum_verifies_iff srcIp dstIp (by unfold maxPayloadLen; omega), tcpSum,
      onesSum_eq_iff (by decide) (words_small _), words_sum, words_sum',
      foldCarries_eq_iff 0 (by decide) (by omega)]
  refine ⟨?_, ?_, fun seg parsed => TcpSegment.builder_build_iff parsed short⟩
  · rw [← sum]
    unfold TcpSegment.parse tcpMinHeaderLen
    simp only [offset]
    constructor
    · rintro ⟨seg, parsed⟩
      split_ifs at parsed with tiny low cut bad
      exact ⟨by omega, by omega, by omega, by simpa using bad⟩
    · rintro ⟨fixed, low, header, verified⟩
      rw [if_neg (by omega), if_neg (by omega), if_neg (by omega), if_neg (by simp [verified])]
      exact ⟨_, rfl⟩
  · intro seg parsed
    unfold TcpSegment.parse at parsed
    simp only [offset] at parsed
    split_ifs at parsed
    cases parsed
    rw [Nat.mul_comm]

def synWithOption : Bytes :=
  [0x9C#8, 0x40#8, 0x1F#8, 0x90#8, 0x00#8, 0x00#8, 0x03#8, 0xE8#8, 0x00#8, 0x00#8, 0x00#8, 0x00#8,
    0x60#8, 0x02#8, 0xFF#8, 0xFF#8, 0x8F#8, 0x19#8, 0x00#8, 0x00#8, 0x02#8, 0x04#8, 0x05#8, 0xB4#8]

def optionSource : Ip := ⟨192#8, 168#8, 100#8, 1#8⟩
def optionTarget : Ip := ⟨192#8, 168#8, 100#8, 2#8⟩

theorem TcpSegment.accepts_exactly_synWithOption :
    (∃ seg, TcpSegment.parse synWithOption optionSource optionTarget = .ok seg) ∧
      ¬ Canonical synWithOption ∧ AcceptsExactly synWithOption optionSource optionTarget := by
  refine ⟨⟨_, rfl⟩, ?_, TcpSegment.accepts_exactly _ _ _ (by decide)⟩
  intro canonical
  exact absurd canonical.offset (by decide)

end MagnumTcp.Tcp
