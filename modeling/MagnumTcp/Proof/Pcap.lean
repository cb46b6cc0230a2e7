import MagnumTcp.Net.Pcap
import MagnumTcp.Proof.Wire
import Mathlib.Data.List.GetD

namespace MagnumTcp

open Tcp

theorem leU32_append {front : Bytes} (back : Bytes) {i : Nat} (inside : i + 4 ≤ front.length) :
    leU32 (front ++ back) i = leU32 front i := by
  unfold leU32
  rw [List.getD_append _ _ _ _ (by omega), List.getD_append _ _ _ _ (by omega),
    List.getD_append _ _ _ _ (by omega), List.getD_append _ _ _ _ (by omega)]

theorem leU32_toLeBytes32 (front : Bytes) (x : U32) (back : Bytes) :
    leU32 (front ++ (toLeBytes32 x ++ back)) front.length = x := by
  have le (i : Nat) : front.length ≤ front.length + i := Nat.le_add_right _ _
  unfold leU32
  rw [List.getD_append_right _ _ _ _ (le 3), List.getD_append_right _ _ _ _ (le 2),
    List.getD_append_right _ _ _ _ (le 1), List.getD_append_right _ _ _ _ (Nat.le_refl _)]
  simp only [Nat.add_sub_cancel_left, Nat.sub_self]
  exact beU32_toBeBytes32 x

namespace PcapRecord

variable (r : PcapRecord) (rest : Bytes)

theorem header_length : r.header.length = recordHeaderLen := rfl

theorem header_fields :
    leU32 (r.header ++ rest) 0 = r.tsSec ∧ leU32 (r.header ++ rest) 4 = r.tsUsec ∧
      leU32 (r.header ++ rest) 8 = BitVec.ofNat 32 r.data.length ∧
      leU32 (r.header ++ rest) 12 = r.origLen := by
  have sec := leU32_toLeBytes32 [] r.tsSec (toLeBytes32 r.tsUsec ++
    toLeBytes32 (BitVec.ofNat 32 r.data.length) ++ toLeBytes32 r.origLen ++ rest)
  have usec := leU32_toLeBytes32 (toLeBytes32 r.tsSec) r.tsUsec
    (toLeBytes32 (BitVec.ofNat 32 r.data.length) ++ toLeBytes32 r.origLen ++ rest)
  have incl := leU32_toLeBytes32 (toLeBytes32 r.tsSec ++ toLeBytes32 r.tsUsec)
    (BitVec.ofNat 32 r.data.length) (toLeBytes32 r.origLen ++ rest)
  have orig := leU32_toLeBytes32 (toLeBytes32 r.tsSec ++ toLeBytes32 r.tsUsec ++
    toLeBytes32 (BitVec.ofNat 32 r.data.length)) r.origLen rest
  exact ⟨sec, usec, incl, orig⟩

end PcapRecord

def PcapRecord.encode (r : PcapRecord) : Bytes := r.header ++ r.data

def PcapRecord.Fits (r : PcapRecord) : Prop := r.data.length < 2 ^ 32

theorem readRecord_encode (r : PcapRecord) (rest : Bytes) (fits : r.Fits) :
    readRecord (r.encode ++ rest) = some (r, rest) := by
  have length : (BitVec.ofNat 32 r.data.length).toNat = r.data.length := Nat.mod_eq_of_lt fits
  obtain ⟨sec, usec, incl, orig⟩ := r.header_fields (r.data ++ rest)
  unfold readRecord PcapRecord.encode
  rw [List.append_assoc]
  simp only [sec, usec, incl, orig, length]
  have long : ¬ (r.header ++ (r.data ++ rest)).length < recordHeaderLen + r.data.length := by
    rw [List.length_append, List.length_append, r.header_length]
    omega
  rw [if_neg long, ← List.drop_drop, List.drop_left' r.header_length, List.take_left, List.drop_left]

theorem readRecord_cut (r : PcapRecord) (part : Bytes) (fits : r.Fits) (begins : part <+: r.encode)
    (other : part ≠ r.encode) : readRecord part = none := by
  have length : (BitVec.ofNat 32 r.data.length).toNat = r.data.length := Nat.mod_eq_of_lt fits
  have shorter : part.length < recordHeaderLen + r.data.length := by
    have le := begins.length_le
    have ne : part.length ≠ r.encode.length := fun same => other (begins.eq_of_length same)
    rw [PcapRecord.encode, List.length_append, r.header_length] at le ne
    omega
  unfold readRecord
  dsimp only
  rw [if_pos]
  by_cases header : recordHeaderLen ≤ part.length
  · obtain ⟨more, whole⟩ := begins
    have incl := (r.header_fields r.data).2.2.1
    have inside : leU32 (part ++ more) 8 = leU32 part 8 :=
      leU32_append more (by unfold recordHeaderLen at header; omega)
    rw [← PcapRecord.encode, ← whole, inside] at incl
    rw [incl, length]
    exact shorter
  · omega

theorem readRecord_shorter (text : Bytes) (r : PcapRecord) (rest : Bytes)
    (found : readRecord text = some (r, rest)) : rest.length < text.length := by
  unfold readRecord at found
  dsimp only at found
  split_ifs at found with short
  cases found
  rw [List.length_drop]
  unfold recordHeaderLen at *
  omega

def recordCode : Records.Code PcapRecord U8 where
  encode := PcapRecord.encode
  decode := readRecord
  Fits := PcapRecord.Fits
  whole := readRecord_encode
  cut := readRecord_cut
  shorter := readRecord_shorter

def readCapture (file : Bytes) : Option (U32 × List PcapRecord) :=
  if file.length < pcapHeaderLen then none
  else if leU32 file 0 ≠ pcapMagicLe then none
  else some (leU32 file 20, recordCode.read (file.drop pcapHeaderLen))

namespace PcapWriter

def record (packet : SystemTime × Bytes) : PcapRecord :=
  ⟨BitVec.ofNat 32 packet.1.secs, packet.1.subsecMicros, BitVec.ofNat 32 packet.2.length, packet.2⟩

theorem writeAll_writer (w : PcapWriter) (packets : List (SystemTime × Bytes)) :
    (w.writeAll packets).writer = w.writer ++ recordCode.log (packets.map record) := by
  induction packets generalizing w with
  | nil => exact (List.append_nil _).symm
  | cons packet later ih =>
      have first : (w.writePacket packet.1 packet.2).writer =
          w.writer ++ (record packet).encode := by
        simp only [writePacket, PcapRecord.encode, PcapRecord.header, record, List.append_assoc]
      change ((w.writePacket packet.1 packet.2).writeAll later).writer = _
      rw [ih, first, List.map_cons, Records.Code.log_cons, List.append_assoc]
      rfl

theorem new_header (linktype : U32) (rest : Bytes) :
    (new linktype).writer.length = pcapHeaderLen ∧
      leU32 ((new linktype).writer ++ rest) 0 = pcapMagicLe ∧
      leU32 ((new linktype).writer ++ rest) 20 = linktype := by
  have magic := leU32_toLeBytes32 [] pcapMagicLe
    (toLeBytes16 pcapVersionMajor ++ toLeBytes16 pcapVersionMinor ++ toLeBytes32 0#32 ++
      toLeBytes32 0#32 ++ toLeBytes32 pcapSnaplen ++ toLeBytes32 linktype ++ rest)
  have link := leU32_toLeBytes32
    (toLeBytes32 pcapMagicLe ++ toLeBytes16 pcapVersionMajor ++ toLeBytes16 pcapVersionMinor ++
      toLeBytes32 0#32 ++ toLeBytes32 0#32 ++ toLeBytes32 pcapSnaplen) linktype rest
  exact ⟨rfl, magic, link⟩

theorem record_fits {packets : List (SystemTime × Bytes)}
    (sized : ∀ packet ∈ packets, packet.2.length < 2 ^ 32) :
    ∀ r ∈ packets.map record, recordCode.Fits r := by
  intro r listed
  obtain ⟨packet, member, rfl⟩ := List.mem_map.mp listed
  exact sized packet member

theorem readCapture_new (linktype : U32) (records : Bytes) :
    readCapture ((new linktype).writer ++ records) = some (linktype, recordCode.read records) := by
  obtain ⟨header, magic, link⟩ := new_header linktype records
  have long : ¬ ((new linktype).writer ++ records).length < pcapHeaderLen := by
    rw [List.length_append, header]
    omega
  rw [readCapture, magic, link, if_neg long, if_neg (not_not.mpr rfl), List.drop_left' header]

/-- Cut off behind its first `n` bytes, a capture reads as its first `k` packets, those that lie before
the cut, or not at all if the cut goes through the header of the file. -/
theorem readCapture_take (linktype : U32) (packets : List (SystemTime × Bytes))
    (sized : ∀ packet ∈ packets, packet.2.length < 2 ^ 32) (n : Nat) :
    (n < pcapHeaderLen → readCapture (((new linktype).writeAll packets).writer.take n) = none) ∧
      (pcapHeaderLen ≤ n → ∃ k,
        readCapture (((new linktype).writeAll packets).writer.take n) =
            some (linktype, (packets.take k).map record) ∧
          ((new linktype).writeAll (packets.take k)).writer.length ≤ n ∧
          (k < packets.length → n < ((new linktype).writeAll (packets.take (k + 1))).writer.length)) := by
  constructor
  · intro headless
    rw [readCapture, if_pos]
    exact (List.length_take_le _ _).trans_lt headless
  · intro opened
    obtain ⟨k, reads, inside, next⟩ := Records.Code.read_take (record_fits sized) (n - pcapHeaderLen)
    have header := (new_header linktype []).1
    rw [List.length_map] at next
    refine ⟨k, ?_, ?_, ?_⟩
    · rw [writeAll_writer, List.take_append, header, List.take_of_length_le (by omega),
        readCapture_new, reads, List.map_take]
    · rw [writeAll_writer, List.length_append, List.map_take]
      omega
    · intro more
      have beyond := next more
      rw [writeAll_writer, List.length_append, List.map_take]
      omega

def twoPackets : List (SystemTime × Bytes) :=
  [(⟨1700000000, 5#32⟩, [1#8, 2#8, 3#8]), (⟨1700000001, 0#32⟩, [4#8])]

-- The file ends two bytes before the end of the second record, or in its own header.
theorem readCapture_take_twoPackets :
    readCapture (((new linktypeEthernet).writeAll twoPackets).writer.take 10) = none ∧
      ∃ k, readCapture (((new linktypeEthernet).writeAll twoPackets).writer.take 58) =
          some (linktypeEthernet, (twoPackets.take k).map record) ∧
        ((new linktypeEthernet).writeAll (twoPackets.take k)).writer.length ≤ 58 ∧
        (k < twoPackets.length →
          58 < ((new linktypeEthernet).writeAll (twoPackets.take (k + 1))).writer.length) :=
  ⟨(readCapture_take linktypeEthernet twoPackets (by decide) 10).1 (by decide),
    (readCapture_take linktypeEthernet twoPackets (by decide) 58).2 (by decide)⟩

end PcapWriter

end MagnumTcp
