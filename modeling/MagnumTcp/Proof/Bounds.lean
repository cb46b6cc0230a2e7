import MagnumTcp.Net.Checked
import MagnumTcp.Proof.Layers

namespace MagnumTcp

open OnesComplement Tcp

def stagingBuf : Nat := 3000

section

variable {raw : Bytes} {i : Nat}

theorem getElem?_of_lt (inside : i < raw.length) : raw[i]? = some (raw.getD i 0#8) := by
  rw [List.getD_eq_getElem?_getD, List.getElem?_eq_getElem inside]
  rfl

theorem u16At_eq (inside : i + 1 < raw.length) :
    u16At raw i = some (beU16 (raw.getD i 0#8) (raw.getD (i + 1) 0#8)) := by
  unfold u16At
  rw [getElem?_of_lt (by omega), getElem?_of_lt inside]
  rfl

theorem u32At_eq (inside : i + 3 < raw.length) :
    u32At raw i = some (beU32 (raw.getD i 0#8) (raw.getD (i + 1) 0#8) (raw.getD (i + 2) 0#8)
      (raw.getD (i + 3) 0#8)) := by
  unfold u32At
  rw [getElem?_of_lt (by omega), getElem?_of_lt (by omega), getElem?_of_lt (by omega),
    getElem?_of_lt inside]
  rfl

theorem ipAt_eq (inside : i + 3 < raw.length) :
    ipAt raw i = some ⟨raw.getD i 0#8, raw.getD (i + 1) 0#8, raw.getD (i + 2) 0#8,
      raw.getD (i + 3) 0#8⟩ := by
  unfold ipAt
  rw [getElem?_of_lt (by omega), getElem?_of_lt (by omega), getElem?_of_lt (by omega),
    getElem?_of_lt inside]
  rfl

theorem macAt_eq (inside : i + 5 < raw.length) :
    macAt raw i = some ⟨raw.getD i 0#8, raw.getD (i + 1) 0#8, raw.getD (i + 2) 0#8,
      raw.getD (i + 3) 0#8, raw.getD (i + 4) 0#8, raw.getD (i + 5) 0#8⟩ := by
  unfold macAt
  rw [getElem?_of_lt (by omega), getElem?_of_lt (by omega), getElem?_of_lt (by omega),
    getElem?_of_lt (by omega), getElem?_of_lt (by omega), getElem?_of_lt inside]
  rfl

theorem slice_eq {lo hi : Nat} (ordered : lo ≤ hi) (inside : hi ≤ raw.length) :
    slice raw lo hi = some ((raw.take hi).drop lo) := if_pos ⟨ordered, inside⟩

theorem slice_end {lo : Nat} (inside : lo ≤ raw.length) :
    slice raw lo raw.length = some (raw.drop lo) := by
  rw [slice_eq inside (Nat.le_refl _), List.take_length]

theorem take_drop_eq {n : Nat} (inside : i + n ≤ raw.length) :
    (raw.drop i).take n = (List.range n).map fun k => raw.getD (i + k) 0#8 := by
  apply List.ext_getElem
  · simp only [List.length_take, List.length_drop, List.length_map, List.length_range]
    omega
  · intro k _ small
    simp only [List.length_map, List.length_range] at small
    simp [List.getD_eq_getElem?_getD, show i + k < raw.length by omega]

theorem slice_two (inside : i + 1 < raw.length) :
    slice raw i (i + 2) = some [raw.getD i 0#8, raw.getD (i + 1) 0#8] := by
  rw [slice_eq (by omega) (by omega), List.drop_take, Nat.add_sub_cancel_left,
    take_drop_eq (by omega)]
  rfl

end

theorem beU16_toNat (a b : U8) : (beU16 a b).toNat = a.toNat * 256 + b.toNat := by
  have := a.isLt
  have := b.isLt
  unfold beU16
  rw [BitVec.toNat_ofNat]
  omega

theorem add_ofNat {x y : Nat} (fits : x + y < 2 ^ 32) :
    CheckedWord.add (BitVec.ofNat 32 x) (BitVec.ofNat 32 y) = some (BitVec.ofNat 32 (x + y)) := by
  rw [CheckedWord.add_of_lt, BitVec.ofNat_add]
  rw [BitVec.toNat_ofNat, BitVec.toNat_ofNat]
  omega

theorem setWidth_beU16 (a b : U8) :
    (beU16 a b).setWidth 32 = BitVec.ofNat 32 (beU16 a b).toNat := by
  rw [BitVec.ofNat_toNat]

theorem sumChecked_eq (data : Bytes) {sum : Nat} (fits : sum + wordSum data < 2 ^ 32) :
    sumChecked data (BitVec.ofNat 32 sum) = some (BitVec.ofNat 32 (sum + wordSum data)) := by
  induction data using wordSum.induct generalizing sum with
  | case1 => rfl
  | case2 b =>
      have high : b.setWidth 32 <<< 8 = BitVec.ofNat 32 (b.toNat * 256) := by
        apply BitVec.eq_of_toNat_eq
        have := b.isLt
        rw [BitVec.toNat_shiftLeft, BitVec.toNat_setWidth, BitVec.toNat_ofNat, Nat.shiftLeft_eq]
        omega
      rw [sumChecked, high]
      exact add_ofNat fits
  | case3 a b rest ih =>
      rw [wordSum] at fits ⊢
      rw [← Nat.add_assoc] at fits ⊢
      have first : sum + (a.toNat * 256 + b.toNat) < 2 ^ 32 := lt_of_le_of_lt (Nat.le_add_right _ _) fits
      rw [sumChecked, setWidth_beU16, beU16_toNat, add_ofNat first, Option.bind_eq_bind,
        Option.bind_some, ih fits]

theorem foldChecked_eq (rounds : Nat) {sum : Nat} (fits : sum < 2 ^ 32) :
    foldChecked rounds (BitVec.ofNat 32 sum) =
      some (BitVec.ofNat 32 (foldCarries 0xFFFF rounds sum)) := by
  induction rounds generalizing sum with
  | zero => rfl
  | succ rounds ih =>
      have high : BitVec.ofNat 32 sum >>> 16 = BitVec.ofNat 32 (sum / 65536) := by
        apply BitVec.eq_of_toNat_eq
        simp only [BitVec.toNat_ushiftRight, BitVec.toNat_ofNat, Nat.shiftRight_eq_div_pow]
        omega
      have low : BitVec.ofNat 32 sum &&& 0xFFFF#32 = BitVec.ofNat 32 (sum % 65536) := by
        apply BitVec.eq_of_toNat_eq
        rw [BitVec.toNat_and, BitVec.toNat_ofNat, BitVec.toNat_ofNat, BitVec.toNat_ofNat,
          Nat.mod_eq_of_lt fits, show 0xFFFF % 2 ^ 32 = 2 ^ 16 - 1 from rfl,
          Nat.and_two_pow_sub_one_eq_mod]
        omega
      have none : BitVec.ofNat 32 (sum / 65536) = 0#32 ↔ sum / 65536 = 0 := by
        rw [← BitVec.toNat_inj, BitVec.toNat_ofNat, BitVec.toNat_ofNat]
        omega
      rw [foldChecked, foldCarries, high, low]
      simp only [none]
      split_ifs with done
      · rfl
      · rw [add_ofNat (by omega)]
        exact ih (by omega)

theorem foldChecked_ends (sum : U32) :
    ∃ folded, foldChecked 2 sum = some folded ∧ folded >>> 16 = 0#32 := by
  have small : foldCarries 0xFFFF 2 sum.toNat ≤ 0xFFFF :=
    foldCarries_le 0xFFFF 0 _ (lt_of_lt_of_le sum.isLt (by decide))
  have folds := foldChecked_eq 2 sum.isLt
  rw [BitVec.ofNat_toNat, BitVec.setWidth_eq] at folds
  refine ⟨_, folds, ?_⟩
  apply BitVec.eq_of_toNat_eq
  rw [BitVec.toNat_ushiftRight, BitVec.toNat_ofNat, Nat.shiftRight_eq_div_pow]
  simp only [BitVec.toNat_ofNat]
  omega

theorem complementChecked_eq {sum : Nat} (fits : sum < 2 ^ 32) :
    complementChecked (BitVec.ofNat 32 sum) =
      some (~~~ BitVec.ofNat 16 (foldCarries 0xFFFF 2 (sum % 2 ^ 32))) := by
  rw [complementChecked, foldChecked_eq 2 fits, Nat.mod_eq_of_lt fits]
  simp only [Option.bind_eq_bind, Option.bind_some, pure]
  rw [BitVec.setWidth_ofNat_of_le (by decide)]

theorem Ipv4.checksumChecked_eq {data : Bytes} (short : data.length ≤ maxPayloadLen) :
    checksumChecked data = some (checksum data) := by
  have words := wordSum_le data
  unfold maxPayloadLen at short
  rw [checksumChecked, show 0#32 = BitVec.ofNat 32 0 from rfl, sumChecked_eq data (by omega), Nat.zero_add]
  exact complementChecked_eq (by omega)

theorem Tcp.tcpChecksumChecked_eq {segment : Bytes} (srcIp dstIp : Ip)
    (short : segment.length ≤ maxPayloadLen) :
    tcpChecksumChecked segment srcIp dstIp = some (tcpChecksum segment srcIp dstIp) := by
  have fits := tcpSum_lt segment srcIp dstIp (by omega)
  have sum := complementChecked_eq fits
  unfold tcpSum pseudoHeaderSum at fits sum
  unfold tcpChecksumChecked
  simp only [setWidth_beU16, Option.bind_eq_bind]
  rw [show 0#32 = BitVec.ofNat 32 0 from rfl, add_ofNat (by omega), Nat.zero_add, Option.bind_some,
    add_ofNat (by omega), Option.bind_some, add_ofNat (by omega), Option.bind_some,
    add_ofNat (by omega), Option.bind_some, add_ofNat (by omega), Option.bind_some,
    add_ofNat (by omega), Option.bind_some, sumChecked_eq segment fits, Option.bind_some]
  exact sum

theorem EthernetFrame.parseChecked_eq (raw : Bytes) :
    EthernetFrame.parseChecked raw = some (EthernetFrame.parse raw) := by
  unfold EthernetFrame.parseChecked EthernetFrame.parse ethernetHeaderLen
  dsimp only
  split_ifs with short other
  · rfl
  · rw [u16At_eq (by omega)]
    simp only [Option.bind_eq_bind, Option.bind_some, other, if_true]
    rfl
  · rw [u16At_eq (by omega), macAt_eq (by omega), macAt_eq (by omega), slice_end (by omega)]
    simp only [Option.bind_eq_bind, Option.bind_some, other]
    rfl

theorem parseArpRequestChecked_eq (raw : Bytes) :
    parseArpRequestChecked raw = some (parseArpRequest raw) := by
  unfold parseArpRequestChecked parseArpRequest
  by_cases short : raw.length < arpFrameLen
  · rw [if_pos short, if_pos short]
    rfl
  · rw [if_neg short, if_neg short]
    have length : 28 ≤ (raw.drop ethernetHeaderLen).length := by
      unfold arpFrameLen arpPayloadLen at short
      rw [List.length_drop]
      omega
    rw [slice_end (by unfold arpFrameLen at short; omega)]
    dsimp only [Option.bind_eq_bind, Option.bind_some]
    generalize raw.drop ethernetHeaderLen = arp at length
    rw [slice_two (i := 0) (by omega), slice_two (i := 2) (by omega), slice_two (i := 6) (by omega),
      getElem?_of_lt (i := 4) (by omega), getElem?_of_lt (i := 5) (by omega), macAt_eq (by omega),
      ipAt_eq (by omega), ipAt_eq (by omega)]
    dsimp only [Option.bind_some]
    split_ifs <;> rfl

theorem Ipv4Packet.parseChecked_eq (raw : Bytes) :
    Ipv4Packet.parseChecked raw = some (Ipv4Packet.parse raw) := by
  unfold Ipv4Packet.parseChecked Ipv4Packet.parse ipv4MinHeaderLen
  by_cases short : raw.length < 20
  · rw [if_pos short, if_pos short]
    rfl
  · rw [if_neg short, if_neg short, getElem?_of_lt (i := 0) (by omega)]
    dsimp only [Option.bind_eq_bind, Option.bind_some]
    generalize raw.getD 0 0#8 &&& 0x0F#8 = ihl
    by_cases small : ihl < 5#8
    · rw [if_pos small, if_pos small]
      rfl
    · rw [if_neg small, if_neg small]
      by_cases header : raw.length < ihl.toNat * 4
      · rw [if_pos header, if_pos header]
        rfl
      · have length : (raw.take (ihl.toNat * 4)).length ≤ maxPayloadLen := by
          have := ihl.isLt
          unfold maxPayloadLen
          rw [List.length_take]
          omega
        rw [if_neg header, if_neg header, u16At_eq (i := 10) (by omega), slice_eq (Nat.zero_le _)
          (by omega), List.drop_zero]
        dsimp only [Option.bind_some]
        rw [Ipv4.checksumChecked_eq length, u16At_eq (i := 2) (by omega), u16At_eq (i := 6) (by omega),
          u16At_eq (i := 4) (by omega), ipAt_eq (by omega), ipAt_eq (by omega),
          getElem?_of_lt (i := 1) (by omega), getElem?_of_lt (i := 8) (by omega),
          getElem?_of_lt (i := 9) (by omega)]
        dsimp only [Option.bind_some]
        split_ifs with bad below truncated
        · rfl
        · rfl
        · rfl
        · rw [slice_eq (by omega) (by omega)]
          rfl

theorem Tcp.TcpSegment.parseChecked_eq {raw : Bytes} (srcIp dstIp : Ip)
    (small : raw.length ≤ maxPayloadLen) :
    TcpSegment.parseChecked raw srcIp dstIp = some (TcpSegment.parse raw srcIp dstIp) := by
  unfold TcpSegment.parseChecked TcpSegment.parse tcpMinHeaderLen
  by_cases short : raw.length < 20
  · rw [if_pos short, if_pos short]
    rfl
  · rw [if_neg short, if_neg short, getElem?_of_lt (i := 12) (by omega)]
    dsimp only [Option.bind_eq_bind, Option.bind_some]
    generalize (raw.getD 12 0#8 >>> 4 &&& 0x0F#8).toNat = dataOffset
    rw [u16At_eq (i := 16) (by omega), tcpChecksumChecked_eq srcIp dstIp small,
      u16At_eq (i := 0) (by omega), u16At_eq (i := 2) (by omega), u32At_eq (i := 4) (by omega),
      u32At_eq (i := 8) (by omega), getElem?_of_lt (i := 13) (by omega), u16At_eq (i := 14) (by omega),
      u16At_eq (i := 18) (by omega)]
    dsimp only [Option.bind_some]
    split_ifs with low header bad
    · rfl
    · rfl
    · rfl
    · rw [slice_end (by omega)]
      rfl

theorem EthernetFrame.parse_payload_length {raw : Bytes} {frame : EthernetFrame}
    (parsed : EthernetFrame.parse raw = .ok frame) : frame.payload.length ≤ raw.length := by
  unfold EthernetFrame.parse at parsed
  dsimp only at parsed
  split_ifs at parsed
  cases parsed
  exact (List.length_drop ..).trans_le (Nat.sub_le _ _)

theorem Ipv4Packet.parse_payload_length {raw : Bytes} {packet : Ipv4Packet}
    (parsed : Ipv4Packet.parse raw = .ok packet) : packet.payload.length ≤ raw.length := by
  unfold Ipv4Packet.parse at parsed
  dsimp only at parsed
  split_ifs at parsed
  cases parsed
  rw [List.length_drop, List.length_take]
  omega

theorem inboundDispatchChecked_eq {raw : Bytes} (short : raw.length ≤ stagingBuf)
    (d : AsyncDispatch) (ourIp : Ip) (ourMac : Mac) (moment : Moment) :
    inboundDispatchChecked raw d ourIp ourMac moment =
      some (inboundDispatch raw d ourIp ourMac moment) := by
  unfold inboundDispatchChecked inboundDispatch
  rw [EthernetFrame.parseChecked_eq, parseArpRequestChecked_eq]
  simp only [Option.bind_eq_bind, Option.bind_some]
  cases framed : EthernetFrame.parse raw with
  | error e =>
      cases e with
      | nonIpv4EtherType ethertype =>
          dsimp only
          split_ifs
          · cases parseArpRequest raw with
            | none => rfl
            | some req =>
                dsimp only
                split_ifs <;> rfl
          · rfl
      | _ => rfl
  | ok frame =>
      dsimp only
      rw [Ipv4Packet.parseChecked_eq]
      simp only [Option.bind_some]
      cases packed : Ipv4Packet.parse frame.payload with
      | error e => rfl
      | ok packet =>
          have fits : packet.payload.length ≤ maxPayloadLen := by
            have outer := EthernetFrame.parse_payload_length framed
            have inner := Ipv4Packet.parse_payload_length packed
            unfold stagingBuf at short
            unfold maxPayloadLen
            omega
          dsimp only
          rw [TcpSegment.parseChecked_eq _ _ fits]
          simp only [Option.bind_some]
          split_ifs
          · rfl
          · cases TcpSegment.parse packet.payload packet.header.src packet.header.dst <;> rfl
          · rfl

end MagnumTcp
