import MagnumTcp.Net.Ethernet
import MagnumTcp.Proof.Wire

namespace MagnumTcp

open OnesComplement Tcp

/-- What is left of the largest packet when the two headers are taken off. -/
def maxSegmentPayload : Nat := 65495

theorem EthernetFrame.parse_build (dstMac srcMac : Mac) (payload padding : Bytes) :
    EthernetFrame.parse (EthernetFrame.build dstMac srcMac payload ++ padding) =
      .ok { dstMac := dstMac, srcMac := srcMac, ethertype := ethertypeIpv4,
            payload := payload ++ padding } := by
  have bytes : EthernetFrame.build dstMac srcMac payload ++ padding =
      dstMac.a :: dstMac.b :: dstMac.c :: dstMac.d :: dstMac.e :: dstMac.f ::
        srcMac.a :: srcMac.b :: srcMac.c :: srcMac.d :: srcMac.e :: srcMac.f ::
          0x08#8 :: 0x00#8 :: (payload ++ padding) := rfl
  rw [bytes]
  unfold EthernetFrame.parse
  simp only [List.length_cons, ethernetHeaderLen, List.getD_cons_succ, List.getD_cons_zero,
    List.drop_succ_cons, List.drop_zero]
  rw [if_neg (by omega), if_neg (by decide)]
  rfl

namespace Ipv4

variable (src dst : Ip) (protocol : U8) (totalLen csum : U16)

theorem layout_length : (layout src dst protocol totalLen csum).length = ipv4MinHeaderLen := rfl

theorem wordSum_layout :
    wordSum (layout src dst protocol totalLen csum) =
      wordSum (layout src dst protocol totalLen 0#16) + csum.toNat := by
  have bound := csum.isLt
  simp only [layout, toBeBytes16, List.cons_append, List.nil_append, wordSum, BitVec.toNat_ofNat]
  omega

theorem wordSum_layout_bounds :
    0 < wordSum (layout src dst protocol totalLen csum) ∧
      wordSum (layout src dst protocol totalLen csum) < 2 ^ 20 := by
  constructor
  · simp only [layout, toBeBytes16, List.cons_append, List.nil_append, wordSum, BitVec.toNat_ofNat]
    omega
  · have words := wordSum_le (layout src dst protocol totalLen csum)
    rw [layout_length] at words
    unfold ipv4MinHeaderLen at words
    omega

theorem checksum_layout :
    checksum (layout src dst protocol totalLen
      (checksum (layout src dst protocol totalLen 0#16))) = 0#16 := by
  have bounds := wordSum_layout_bounds src dst protocol totalLen 0#16
  conv_lhs => rw [checksum, wordSum_layout]
  exact complement_verifies _ bounds.1 (by omega)

end Ipv4

theorem Ipv4Packet.parse_layout (src dst : Ip) (protocol : U8) {totalLen csum : U16}
    (payload padding : Bytes) (total : totalLen.toNat = ipv4MinHeaderLen + payload.length)
    (verified : Ipv4.checksum (Ipv4.layout src dst protocol totalLen csum) = 0#16) :
    Ipv4Packet.parse (Ipv4.layout src dst protocol totalLen csum ++ payload ++ padding) =
      .ok
        { header :=
            { ihl := 5#8
              dscp := 0#8
              totalLen := totalLen
              id := 0#16
              flags := 2#8
              fragOffset := 0#16
              ttl := 64#8
              protocol := protocol
              checksum := csum
              src := src
              dst := dst }
          payload := payload } := by
  have header := Ipv4.layout_length src dst protocol totalLen csum
  have whole : (Ipv4.layout src dst protocol totalLen csum ++ payload ++ padding).length =
      ipv4MinHeaderLen + payload.length + padding.length := by
    rw [List.length_append, List.length_append, header]
  have front : (Ipv4.layout src dst protocol totalLen csum ++ payload ++ padding).take 20 =
      Ipv4.layout src dst protocol totalLen csum := by
    rw [List.append_assoc]
    exact List.take_left' header
  have body : ((Ipv4.layout src dst protocol totalLen csum ++ payload ++ padding).take
      totalLen.toNat).drop 20 = payload := by
    rw [List.take_left' (by rw [List.length_append, header, total])]
    exact List.drop_left' header
  have bytes : Ipv4.layout src dst protocol totalLen csum ++ payload ++ padding =
      0x45#8 :: 0x00#8 :: BitVec.ofNat 8 (totalLen.toNat / 256) :: BitVec.ofNat 8 totalLen.toNat ::
        0x00#8 :: 0x00#8 :: 0x40#8 :: 0x00#8 :: 0x40#8 :: protocol ::
          BitVec.ofNat 8 (csum.toNat / 256) :: BitVec.ofNat 8 csum.toNat ::
            src.a :: src.b :: src.c :: src.d :: dst.a :: dst.b :: dst.c :: dst.d ::
              (payload ++ padding) := rfl
  have ihl : 0x45#8 &&& 0x0F#8 = 5#8 := by decide
  have five : (5#8).toNat * 4 = 20 := by decide
  unfold ipv4MinHeaderLen at *
  unfold Ipv4Packet.parse
  simp only [whole, ipv4MinHeaderLen]
  rw [if_neg (by omega)]
  rw [bytes] at front body ⊢
  simp only [List.getD_cons_succ, List.getD_cons_zero, beU16_toBeBytes16, ihl, five, front, body,
    verified]
  rw [if_neg (by decide), if_neg (by omega), if_neg (by decide), if_neg (by omega),
    if_neg (by omega), BitVec.ofNat_toNat, BitVec.setWidth_eq]
  rfl

def tcpSum (segment : Bytes) (srcIp dstIp : Ip) : Nat :=
  pseudoHeaderSum segment.length srcIp dstIp + wordSum segment

theorem tcpSum_lt (segment : Bytes) (srcIp dstIp : Ip) (short : segment.length ≤ 20 + maxPayloadLen) :
    tcpSum segment srcIp dstIp < 2 ^ 32 := by
  have words := wordSum_le segment
  have pseudo := pseudoHeaderSum_bounds segment.length srcIp dstIp
  unfold tcpSum
  unfold maxPayloadLen at short
  omega

theorem parse_frameOutbound (b : SegmentBuilder) (etherSrc etherDst : Mac) (padding : Bytes)
    (short : b.payload.length ≤ maxSegmentPayload) :
    ∃ frame packet segment,
      EthernetFrame.parse
        (frameOutbound
          { srcIp := b.srcIp, dstIp := b.dstIp, tcpBytes := b.build, etherSrc := etherSrc,
            etherDst := etherDst } ++ padding) = .ok frame ∧
      Ipv4Packet.parse frame.payload = .ok packet ∧
      TcpSegment.parse packet.payload packet.header.src packet.header.dst = .ok segment ∧
      frame.dstMac = etherDst ∧ frame.srcMac = etherSrc ∧
      packet.header.src = b.srcIp ∧ packet.header.dst = b.dstIp ∧ packet.header.protocol = 6#8 ∧
      segment.header.srcPort = b.srcPort ∧ segment.header.dstPort = b.dstPort ∧
      segment.header.seq = b.seq ∧ segment.header.ackNum = b.ackNum ∧
      segment.header.flags = b.flags ∧ segment.header.window = b.window ∧
      segment.payload = b.payload ∧
      tcpSum (b.layout 0#16) b.srcIp b.dstIp < 2 ^ 32 ∧
      wordSum (Ipv4.layout b.srcIp b.dstIp 6#8
        (BitVec.ofNat 16 (ipv4MinHeaderLen + b.build.length)) 0#16) < 2 ^ 32 ∧
      wordSum (frame.payload.take (packet.header.ihl.toNat * 4)) < 2 ^ 32 ∧
      tcpSum packet.payload packet.header.src packet.header.dst < 2 ^ 32 := by
  have length : b.build.length = b.payload.length + 20 := b.layout_length _
  unfold maxSegmentPayload at short
  have total : (BitVec.ofNat 16 (ipv4MinHeaderLen + b.build.length)).toNat =
      ipv4MinHeaderLen + b.build.length := by
    rw [BitVec.toNat_ofNat]
    exact Nat.mod_eq_of_lt (by unfold ipv4MinHeaderLen; omega)
  have packed := Ipv4Packet.parse_layout b.srcIp b.dstIp (BitVec.ofNat 8 protoTcp) b.build padding
    total (Ipv4.checksum_layout _ _ _ _)
  refine ⟨_, _, _, EthernetFrame.parse_build _ _ _ _, packed,
    TcpSegment.parse_build b (by unfold maxPayloadLen; omega),
    rfl, rfl, rfl, rfl, rfl, rfl, rfl, rfl, rfl, rfl, rfl, rfl, ?_, ?_, ?_, ?_⟩
  · exact tcpSum_lt _ _ _ (by rw [SegmentBuilder.layout_length]; unfold maxPayloadLen; omega)
  · have := (Ipv4.wordSum_layout_bounds b.srcIp b.dstIp 6#8
      (BitVec.ofNat 16 (ipv4MinHeaderLen + b.build.length)) 0#16).2
    omega
  · have words := wordSum_le
      ((Ipv4.buildPacket b.srcIp b.dstIp (BitVec.ofNat 8 protoTcp) b.build ++ padding).take 20)
    have shorter := List.length_take_le 20
      (Ipv4.buildPacket b.srcIp b.dstIp (BitVec.ofNat 8 protoTcp) b.build ++ padding)
    have five : (5#8).toNat * 4 = 20 := by decide
    dsimp only
    rw [five]
    omega
  · exact tcpSum_lt _ _ _ (by dsimp only; unfold maxPayloadLen; omega)

def helloSegment : SegmentBuilder where
  srcIp := ⟨192#8, 168#8, 100#8, 2#8⟩
  dstIp := ⟨192#8, 168#8, 100#8, 1#8⟩
  srcPort := 80#16
  dstPort := 40000#16
  flags := { ack := true, psh := true }
  payload := [0x68#8, 0x69#8, 0x21#8]

theorem parse_frameOutbound_hello :
    helloSegment.payload.length ≤ maxSegmentPayload ∧
    ∃ frame packet segment,
      EthernetFrame.parse
        (frameOutbound
          { srcIp := helloSegment.srcIp, dstIp := helloSegment.dstIp,
            tcpBytes := helloSegment.build, etherSrc := ⟨2#8, 0#8, 0#8, 0#8, 0#8, 2#8⟩,
            etherDst := ⟨2#8, 0#8, 0#8, 0#8, 0#8, 1#8⟩ } ++ [0#8, 0#8, 0#8]) = .ok frame ∧
      Ipv4Packet.parse frame.payload = .ok packet ∧
      TcpSegment.parse packet.payload packet.header.src packet.header.dst = .ok segment ∧
      segment.payload = [0x68#8, 0x69#8, 0x21#8] := by
  have short : helloSegment.payload.length ≤ maxSegmentPayload := by decide
  obtain ⟨frame, packet, segment, framed, packed, parsed, rest⟩ :=
    parse_frameOutbound helloSegment ⟨2#8, 0#8, 0#8, 0#8, 0#8, 2#8⟩ ⟨2#8, 0#8, 0#8, 0#8, 0#8, 1#8⟩
      [0#8, 0#8, 0#8] short
  obtain ⟨-, -, -, -, -, -, -, -, -, -, -, payload, -⟩ := rest
  exact ⟨short, frame, packet, segment, framed, packed, parsed, payload⟩

end MagnumTcp
