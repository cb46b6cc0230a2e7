import MagnumTcp.Proof.Layers

namespace MagnumTcp

open OnesComplement Tcp

def byteWeight (i : Nat) : Nat := if i % 2 = 0 then 256 else 1

theorem wordSum_set (bytes : Bytes) {i : Nat} (inside : i < bytes.length) (b : U8) :
    wordSum (bytes.set i b) + byteWeight i * bytes[i].toNat =
      wordSum bytes + byteWeight i * b.toNat := by
  induction bytes using wordSum.induct generalizing i with
  | case1 => exact absurd inside (Nat.not_lt_zero _)
  | case2 a =>
      have first : i = 0 := by
        rw [List.length_singleton] at inside
        omega
      subst first
      simp only [List.set_cons_zero, List.getElem_cons_zero, wordSum, byteWeight, Nat.zero_mod, if_true]
      omega
  | case3 a a' rest ih =>
      cases i with
      | zero =>
          simp only [List.set_cons_zero, List.getElem_cons_zero, wordSum, byteWeight, Nat.zero_mod,
            if_true]
          omega
      | succ i =>
          cases i with
          | zero =>
              simp only [List.set_cons_succ, List.set_cons_zero, List.getElem_cons_succ,
                List.getElem_cons_zero, wordSum, byteWeight, Nat.zero_add, Nat.one_mod,
                one_ne_zero, if_false]
              omega
          | succ i =>
              have later := ih (i := i) (by simpa using inside)
              have weight : byteWeight (i + 1 + 1) = byteWeight i := by
                rw [byteWeight, byteWeight, show (i + 1 + 1) % 2 = i % 2 by omega]
              simp only [List.set_cons_succ, List.getElem_cons_succ, wordSum, weight]
              omega

-- 65535 divides no difference of two bytes at the same place, except zero.
theorem sum_set_mod {bytes : Bytes} {i : Nat} {b : U8} (base : Nat) (inside : i < bytes.length)
    (before : (base + wordSum bytes) % 0xFFFF = 0)
    (after : (base + wordSum (bytes.set i b)) % 0xFFFF = 0) : bytes[i] = b := by
  have changed := wordSum_set bytes inside b
  have old := bytes[i].isLt
  have new := b.isLt
  apply BitVec.eq_of_toNat_eq
  unfold byteWeight at changed
  split_ifs at changed <;> omega

theorem complement_eq_zero_iff {sum : Nat} (small : sum < 2 ^ 32) :
    ~~~ BitVec.ofNat 16 (foldCarries 0xFFFF 2 (sum % 2 ^ 32)) = 0#16 ↔
      foldCarries 0xFFFF 2 sum = 0xFFFF := by
  have top : foldCarries 0xFFFF 2 sum ≤ 0xFFFF := foldCarries_le 0xFFFF 0 sum (by omega)
  rw [Nat.mod_eq_of_lt small, ← BitVec.toNat_inj, BitVec.toNat_not, BitVec.toNat_ofNat,
    Nat.mod_eq_of_lt (by omega : foldCarries 0xFFFF 2 sum < 2 ^ 16), BitVec.toNat_ofNat]
  omega

theorem tcpChecksum_verifies_iff {segment : Bytes} (srcIp dstIp : Ip)
    (short : segment.length ≤ 20 + maxPayloadLen) :
    tcpChecksum segment srcIp dstIp = 0#16 ↔
      foldCarries 0xFFFF 2 (tcpSum segment srcIp dstIp) = 0xFFFF :=
  complement_eq_zero_iff (tcpSum_lt segment srcIp dstIp short)

theorem tcpChecksum_mod_iff {segment : Bytes} (srcIp dstIp : Ip)
    (short : segment.length ≤ 20 + maxPayloadLen) :
    tcpChecksum segment srcIp dstIp = 0#16 ↔ tcpSum segment srcIp dstIp % 0xFFFF = 0 := by
  have positive : 0 < tcpSum segment srcIp dstIp :=
    Nat.lt_of_lt_of_le (pseudoHeaderSum_bounds segment.length srcIp dstIp).1 (Nat.le_add_right _ _)
  have small := tcpSum_lt segment srcIp dstIp short
  rw [tcpChecksum_verifies_iff srcIp dstIp short, foldCarries_eq_iff 0 (by decide) (by omega)]
  exact and_iff_right positive

theorem Ipv4.checksum_eq_zero_iff {header : Bytes} (short : header.length ≤ maxPayloadLen) :
    checksum header = 0#16 ↔ 0 < wordSum header ∧ wordSum header % 0xFFFF = 0 := by
  have words := wordSum_le header
  unfold maxPayloadLen at short
  exact (complement_eq_zero_iff (by omega)).trans (foldCarries_eq_iff 0 (by decide) (by omega))

theorem Tcp.TcpSegment.parse_ok_checksum {raw : Bytes} {srcIp dstIp : Ip} {segment : TcpSegment}
    (parsed : TcpSegment.parse raw srcIp dstIp = .ok segment) :
    tcpChecksum raw srcIp dstIp = 0#16 := by
  unfold TcpSegment.parse at parsed
  dsimp only at parsed
  split_ifs at parsed with short offset header bad
  simpa using bad

theorem Ipv4Packet.parse_ok_header {raw : Bytes} {packet : Ipv4Packet}
    (parsed : Ipv4Packet.parse raw = .ok packet) :
    packet.header.ihl = raw.getD 0 0#8 &&& 0x0F#8 ∧ packet.header.ihl.toNat * 4 ≤ raw.length ∧
      Ipv4.checksum (raw.take (packet.header.ihl.toNat * 4)) = 0#16 := by
  unfold Ipv4Packet.parse at parsed
  dsimp only at parsed
  split_ifs at parsed with short small header bad total truncated
  cases parsed
  exact ⟨rfl, Nat.le_of_not_lt header, by simpa using bad⟩

theorem Tcp.TcpSegment.byte_of_parse_set {raw : Bytes} {srcIp dstIp : Ip} {segment other : TcpSegment}
    {i : Nat} {b : U8} (short : raw.length ≤ maxPayloadLen) (inside : i < raw.length)
    (parsed : TcpSegment.parse raw srcIp dstIp = .ok segment)
    (again : TcpSegment.parse (raw.set i b) srcIp dstIp = .ok other) : raw[i] = b := by
  have length : (raw.set i b).length = raw.length := List.length_set
  have before := (tcpChecksum_mod_iff srcIp dstIp (by omega)).mp (parse_ok_checksum parsed)
  have after := (tcpChecksum_mod_iff srcIp dstIp (by omega)).mp (parse_ok_checksum again)
  unfold tcpSum at before after
  rw [length] at after
  exact sum_set_mod _ inside before after

theorem Ipv4Packet.byte_of_parse_set {raw : Bytes} {packet other : Ipv4Packet} {i : Nat} {b : U8}
    (options : 1 ≤ i) (inside : i < packet.header.ihl.toNat * 4)
    (parsed : Ipv4Packet.parse raw = .ok packet)
    (again : Ipv4Packet.parse (raw.set i b) = .ok other) : raw[i]? = some b := by
  obtain ⟨ihl, fits, before⟩ := parse_ok_header parsed
  obtain ⟨ihl', -, after⟩ := parse_ok_header again
  -- Byte 0 is as it was, so the second header is as long as the first.
  have same : other.header.ihl = packet.header.ihl := by
    rw [ihl, ihl', List.getD_eq_getElem?_getD, List.getD_eq_getElem?_getD,
      List.getElem?_set_ne (by omega)]
  have bounded : packet.header.ihl.toNat * 4 ≤ maxPayloadLen := by
    have := packet.header.ihl.isLt
    unfold maxPayloadLen
    omega
  have length := List.length_take_le (packet.header.ihl.toNat * 4) raw
  have length' := List.length_take_le (packet.header.ihl.toNat * 4) (raw.set i b)
  rw [same] at after
  obtain ⟨-, before⟩ := (Ipv4.checksum_eq_zero_iff (by omega)).mp before
  obtain ⟨-, after⟩ := (Ipv4.checksum_eq_zero_iff (by omega)).mp after
  rw [List.take_set] at after
  have taken : i < (raw.take (packet.header.ihl.toNat * 4)).length := by
    rw [List.length_take]
    omega
  have equal := sum_set_mod 0 taken (by simpa using before) (by simpa using after)
  rw [List.getElem_take] at equal
  rw [List.getElem?_eq_getElem (by omega), equal]

/-- Neither parser accepts a text with one byte changed; of an IPv4 packet only the header is covered,
without the byte that says how long it is. -/
theorem single_byte_rejected :
    (∀ (raw : Bytes) (srcIp dstIp : Ip) (segment : TcpSegment) (i : Nat) (b : U8),
      raw.length ≤ 65535 → TcpSegment.parse raw srcIp dstIp = .ok segment → i < raw.length →
      raw[i]? ≠ some b → ∃ e, TcpSegment.parse (raw.set i b) srcIp dstIp = .error e) ∧
    ∀ (raw : Bytes) (packet : Ipv4Packet) (i : Nat) (b : U8),
      Ipv4Packet.parse raw = .ok packet → 1 ≤ i → i < packet.header.ihl.toNat * 4 →
      raw[i]? ≠ some b → ∃ e, Ipv4Packet.parse (raw.set i b) = .error e := by
  constructor
  · intro raw srcIp dstIp segment i b short parsed inside different
    cases again : TcpSegment.parse (raw.set i b) srcIp dstIp with
    | error e => exact ⟨e, rfl⟩
    | ok other =>
        have same := TcpSegment.byte_of_parse_set (Nat.le_succ_of_le short) inside parsed again
        rw [List.getElem?_eq_getElem inside, same] at different
        exact absurd rfl different
  · intro raw packet i b parsed options inside different
    cases again : Ipv4Packet.parse (raw.set i b) with
    | error e => exact ⟨e, rfl⟩
    | ok other => exact absurd (Ipv4Packet.byte_of_parse_set options inside parsed again) different

theorem single_byte_rejected_hello :
    (∃ e, TcpSegment.parse (helloSegment.build.set 22 0x3F#8) helloSegment.srcIp helloSegment.dstIp =
      .error e) ∧
    ∃ e, Ipv4Packet.parse ((Ipv4.buildPacket helloSegment.srcIp helloSegment.dstIp 6#8
      helloSegment.build).set 8 0x3F#8) = .error e := by
  obtain ⟨tcp, ipv4⟩ := single_byte_rejected
  have segment : TcpSegment.parse helloSegment.build helloSegment.srcIp helloSegment.dstIp =
      .ok helloSegment.segment := by decide +kernel
  obtain ⟨packet, parsed, ihl⟩ : ∃ packet, Ipv4Packet.parse (Ipv4.buildPacket helloSegment.srcIp
      helloSegment.dstIp 6#8 helloSegment.build) = .ok packet ∧ packet.header.ihl = 5#8 :=
    ⟨_, rfl, by decide +kernel⟩
  exact ⟨tcp _ _ _ _ 22 0x3F#8 (by decide) segment (by decide) (by decide),
    ipv4 _ _ 8 0x3F#8 parsed (by decide) (by rw [ihl]; decide) (by decide +kernel)⟩

end MagnumTcp
