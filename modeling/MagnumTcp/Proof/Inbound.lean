import MagnumTcp.Proof.Bounds
import MagnumTcp.Proof.Sync

namespace MagnumTcp

open Tcp

theorem Tcp.AsyncDispatch.dispatch_untouched_iff (d : AsyncDispatch) (a : Arrival) :
    (d.dispatch a).1 = d ∧ (d.dispatch a).2 = none ↔
      d.channels a.key = none ∧ a.opens d.listeners = false := by
  unfold dispatch
  cases channel : d.channels a.key with
  | none =>
      by_cases opens : a.opens d.listeners = true
      · simp [opens]
      · simp [opens]
  | some id =>
      simp only [reduceCtorEq, false_and, iff_false, not_and]
      cases sent : d.tasks[id]?.bind fun s => s.trySend a.seg with
      | some s =>
          -- The inbox has grown.
          intro same
          obtain ⟨before, found, accepted⟩ := Option.bind_eq_some_iff.mp sent
          have kept := congrArg (fun d => d.tasks[id]?) same
          have inside := (List.getElem?_eq_some_iff.mp found).1
          simp only [List.getElem?_set_self inside, found, Option.some.injEq] at kept
          unfold Spawned.trySend at accepted
          split_ifs at accepted
          rw [kept] at accepted
          have longer := congrArg (fun s => s.map fun s => s.inbox.length) accepted
          simp at longer
      | none =>
          intro same
          have kept := congrArg (fun d => d.channels a.key) same
          simp [channel] at kept

def CarriesTcp (raw : Bytes) (packet : Ipv4Packet) (seg : TcpSegment) : Prop :=
  ∃ frame, EthernetFrame.parse raw = .ok frame ∧ Ipv4Packet.parse frame.payload = .ok packet ∧
    packet.header.protocol = 6#8 ∧
    TcpSegment.parse packet.payload packet.header.src packet.header.dst = .ok seg

/-- An ARP request on Ethernet for the IPv4 address `ip`. -/
structure AsksFor (raw : Bytes) (ip : Ip) : Prop where
  length : 42 ≤ raw.length
  ethertype : (raw.drop 12).take 2 = [0x08#8, 0x06#8]
  request : (raw.drop 14).take 8 =
    [0x00#8, 0x01#8, 0x08#8, 0x00#8, 0x06#8, 0x04#8, 0x00#8, 0x01#8]
  target : (raw.drop 38).take 4 = ip.bytes

variable {raw : Bytes} (d : AsyncDispatch) (ourIp : Ip) (ourMac : Mac) (moment : Moment)

theorem inboundDispatch_tcp {packet : Ipv4Packet} {seg : TcpSegment}
    (tcp : CarriesTcp raw packet seg) :
    (inboundDispatch raw d ourIp ourMac moment).dispatch =
        (d.dispatch (arrivalOf moment packet seg)).1 ∧
      (inboundDispatch raw d ourIp ourMac moment).spawned =
        (d.dispatch (arrivalOf moment packet seg)).2 := by
  obtain ⟨frame, framed, packed, protocol, parsed⟩ := tcp
  unfold inboundDispatch
  rw [framed]
  dsimp only
  rw [packed]
  dsimp only
  rw [protocol, if_neg (by decide), if_pos (by decide), parsed]
  exact ⟨rfl, rfl⟩

theorem inboundDispatch_error {e : MagnumError} (refused : EthernetFrame.parse raw = .error e) :
    (inboundDispatch raw d ourIp ourMac moment).dispatch = d ∧
      (inboundDispatch raw d ourIp ourMac moment).spawned = none ∧
      ((inboundDispatch raw d ourIp ourMac moment).reply = none ∨
        e = .nonIpv4EtherType 0x0806#16 ∧
          ∃ req, parseArpRequest raw = some req ∧ req.targetIp = ourIp) := by
  unfold inboundDispatch
  rw [refused]
  cases e with
  | nonIpv4EtherType ethertype =>
      dsimp only
      by_cases arp : ethertype = 0x0806#16
      · rw [if_pos arp, arp]
        cases asked : parseArpRequest raw with
        | none => exact ⟨rfl, rfl, .inl rfl⟩
        | some req =>
            dsimp only
            by_cases target : req.targetIp = ourIp
            · rw [if_pos target]
              exact ⟨rfl, rfl, .inr ⟨rfl, req, rfl, target⟩⟩
            · rw [if_neg target]
              exact ⟨rfl, rfl, .inl rfl⟩
      · rw [if_neg arp]
        exact ⟨rfl, rfl, .inl rfl⟩
  | _ => exact ⟨rfl, rfl, .inl rfl⟩

theorem inboundDispatch_quiet (other : ∀ packet seg, ¬ CarriesTcp raw packet seg) :
    (inboundDispatch raw d ourIp ourMac moment).dispatch = d ∧
      (inboundDispatch raw d ourIp ourMac moment).spawned = none := by
  cases framed : EthernetFrame.parse raw with
  | error e =>
      obtain ⟨same, silent, -⟩ := inboundDispatch_error d ourIp ourMac moment framed
      exact ⟨same, silent⟩
  | ok frame =>
      unfold inboundDispatch
      rw [framed]
      dsimp only
      cases packed : Ipv4Packet.parse frame.payload with
      | error e => exact ⟨rfl, rfl⟩
      | ok packet =>
          dsimp only
          by_cases icmp : packet.header.protocol = protoIcmp
          · rw [if_pos icmp]
            exact ⟨rfl, rfl⟩
          · rw [if_neg icmp]
            by_cases protocol : packet.header.protocol = BitVec.ofNat 8 protoTcp
            · rw [if_pos protocol]
              cases parsed : TcpSegment.parse packet.payload packet.header.src packet.header.dst with
              | error e => exact ⟨rfl, rfl⟩
              | ok seg => exact absurd ⟨frame, framed, packed, protocol, parsed⟩ (other packet seg)
            · rw [if_neg protocol]
              exact ⟨rfl, rfl⟩

theorem CarriesTcp.unique {packet packet' : Ipv4Packet} {seg seg' : TcpSegment}
    (tcp : CarriesTcp raw packet seg) (tcp' : CarriesTcp raw packet' seg') :
    packet' = packet ∧ seg' = seg := by
  obtain ⟨frame, framed, packed, -, parsed⟩ := tcp
  obtain ⟨frame', framed', packed', -, parsed'⟩ := tcp'
  cases framed.symm.trans framed'
  cases packed.symm.trans packed'
  cases parsed.symm.trans parsed'
  exact ⟨rfl, rfl⟩

theorem beU16_inj {a b a' b' : U8} (same : beU16 a b = beU16 a' b') : a = a' ∧ b = b' := by
  have words := congrArg BitVec.toNat same
  rw [beU16_toNat, beU16_toNat] at words
  have := b.isLt
  have := b'.isLt
  constructor
  · apply BitVec.eq_of_toNat_eq
    omega
  · apply BitVec.eq_of_toNat_eq
    omega

theorem EthernetFrame.parse_nonIpv4 {ethertype : U16}
    (refused : EthernetFrame.parse raw = .error (.nonIpv4EtherType ethertype)) :
    14 ≤ raw.length ∧ beU16 (raw.getD 12 0#8) (raw.getD 13 0#8) = ethertype := by
  unfold EthernetFrame.parse ethernetHeaderLen at refused
  dsimp only at refused
  split_ifs at refused with short other
  · cases refused
  · simp only [Except.error.injEq, MagnumError.nonIpv4EtherType.injEq] at refused
    exact ⟨by omega, refused⟩

theorem asksFor_of_parse {req : ArpRequest}
    (refused : EthernetFrame.parse raw = .error (.nonIpv4EtherType 0x0806#16))
    (asked : parseArpRequest raw = some req) : AsksFor raw req.targetIp := by
  obtain ⟨-, ethertype⟩ := EthernetFrame.parse_nonIpv4 refused
  obtain ⟨high, low⟩ : raw.getD 12 0#8 = 0x08#8 ∧ raw.getD 13 0#8 = 0x06#8 := beU16_inj ethertype
  have byte : ∀ k, (raw.drop 14).getD k 0#8 = raw.getD (14 + k) 0#8 := by
    intro k
    rw [List.getD_eq_getElem?_getD, List.getD_eq_getElem?_getD, List.getElem?_drop]
  unfold parseArpRequest arpFrameLen arpPayloadLen ethernetHeaderLen at asked
  simp only [byte] at asked
  split_ifs at asked with short htype ptype sizes oper
  cases asked
  simp only [not_not, not_or, htypeEthernet, ptypeIpv4, operRequest, List.cons.injEq, and_true]
    at htype ptype sizes oper
  constructor
  · omega
  · rw [take_drop_eq (by omega)]
    change [raw.getD 12 0#8, raw.getD 13 0#8] = _
    rw [high, low]
  · rw [take_drop_eq (by omega)]
    change [raw.getD 14 0#8, raw.getD 15 0#8, raw.getD 16 0#8, raw.getD 17 0#8, raw.getD 18 0#8,
      raw.getD 19 0#8, raw.getD 20 0#8, raw.getD 21 0#8] = _
    rw [htype.1, htype.2, ptype.1, ptype.2, sizes.1, sizes.2, oper.1, oper.2]
    rfl
  · rw [take_drop_eq (by omega)]
    rfl

theorem inboundDispatch_silent (framed : EthernetFrame.parse raw = .ok frame) :
    (inboundDispatch raw d ourIp ourMac moment).reply = none := by
  unfold inboundDispatch
  rw [framed]
  dsimp only
  cases Ipv4Packet.parse frame.payload with
  | error e => rfl
  | ok packet =>
      dsimp only
      split_ifs
      · rfl
      · cases TcpSegment.parse packet.payload packet.header.src packet.header.dst <;> rfl
      · rfl

theorem inboundDispatch_reply (answered : (inboundDispatch raw d ourIp ourMac moment).reply ≠ none) :
    AsksFor raw ourIp := by
  cases framed : EthernetFrame.parse raw with
  | error e =>
      obtain ⟨-, -, silent | ⟨arp, req, asked, target⟩⟩ :=
        inboundDispatch_error d ourIp ourMac moment framed
      · exact absurd silent answered
      · rw [arp] at framed
        rw [← target]
        exact asksFor_of_parse framed asked
  | ok frame => exact absurd (inboundDispatch_silent d ourIp ourMac moment framed) answered

/-- What `inbound_dispatch` does with a frame, it does for the address `ourIp` only, and without a panic. -/
structure ActsForOwn (raw : Bytes) (d : AsyncDispatch) (ourIp : Ip) (ourMac : Mac)
    (moment : Moment) : Prop where
  total : inboundDispatchChecked raw d ourIp ourMac moment =
    some (inboundDispatch raw d ourIp ourMac moment)
  tcp : ¬ ((inboundDispatch raw d ourIp ourMac moment).dispatch = d ∧
      (inboundDispatch raw d ourIp ourMac moment).spawned = none) →
    ∃ packet seg, CarriesTcp raw packet seg ∧ packet.header.dst = ourIp
  arp : (inboundDispatch raw d ourIp ourMac moment).reply ≠ none → AsksFor raw ourIp

def Tcp.AsyncDispatch.Ignores (d : AsyncDispatch) (a : Arrival) : Prop :=
  d.channels a.key = none ∧ a.opens d.listeners = false

theorem acts_for_own_iff (raw : Bytes) (d : AsyncDispatch) (ourIp : Ip) (ourMac : Mac)
    (moment : Moment) (short : raw.length ≤ 3000) :
    ActsForOwn raw d ourIp ourMac moment ↔
      ∀ packet seg, CarriesTcp raw packet seg → packet.header.dst ≠ ourIp →
        d.Ignores (arrivalOf moment packet seg) := by
  constructor
  · intro acts packet seg tcp foreign
    obtain ⟨dispatched, spawned⟩ := inboundDispatch_tcp d ourIp ourMac moment tcp
    apply (d.dispatch_untouched_iff _).mp
    by_contra touched
    rw [← dispatched, ← spawned] at touched
    obtain ⟨packet', seg', tcp', own⟩ := acts.tcp touched
    obtain ⟨same, -⟩ := tcp.unique tcp'
    rw [same] at own
    exact foreign own
  · intro ignored
    constructor
    · exact inboundDispatchChecked_eq short d ourIp ourMac moment
    · intro touched
      by_contra nobody
      apply touched
      by_cases carries : ∃ packet seg, CarriesTcp raw packet seg
      · obtain ⟨packet, seg, tcp⟩ := carries
        obtain ⟨dispatched, spawned⟩ := inboundDispatch_tcp d ourIp ourMac moment tcp
        rw [dispatched, spawned]
        apply (d.dispatch_untouched_iff _).mpr
        apply ignored packet seg tcp
        intro own
        exact nobody ⟨packet, seg, tcp, own⟩
      · apply inboundDispatch_quiet
        intro packet seg tcp
        exact carries ⟨packet, seg, tcp⟩
    · exact inboundDispatch_reply d ourIp ourMac moment

def bindIp : Ip := ⟨192#8, 168#8, 100#8, 2#8⟩

def bindMac : Mac := ⟨0x0A#8, 0xB1#8, 0xE9#8, 0#8, 0#8, 1#8⟩

def straySyn : Bytes :=
  let segment : SegmentBuilder :=
    { srcIp := ⟨192#8, 168#8, 100#8, 1#8⟩
      dstIp := ⟨192#8, 168#8, 100#8, 77#8⟩
      srcPort := 40000#16
      dstPort := 80#16
      seq := 1000#32
      flags := { syn := true }
      window := 64240#16 }
  frameOutbound
    { srcIp := segment.srcIp, dstIp := segment.dstIp, tcpBytes := segment.build,
      etherSrc := ⟨2#8, 0#8, 0#8, 0#8, 0#8, 2#8⟩, etherDst := bindMac }

theorem straySyn_opens_connection :
    straySyn.length ≤ 3000 ∧
      (∀ packet seg, CarriesTcp straySyn packet seg → packet.header.dst ≠ bindIp) ∧
      (AsyncDispatch.start [80#16]).tasks.length = 0 ∧
      (inboundDispatch straySyn (.start [80#16]) bindIp bindMac ⟨0, 7#32⟩).dispatch.tasks.length = 1 ∧
      ¬ ActsForOwn straySyn (.start [80#16]) bindIp bindMac ⟨0, 7#32⟩ := by
  have opened : (inboundDispatch straySyn (.start [80#16]) bindIp bindMac
      ⟨0, 7#32⟩).dispatch.tasks.length = 1 := by decide +kernel
  have foreign : ∀ frame, EthernetFrame.parse straySyn = .ok frame →
      ∀ packet, Ipv4Packet.parse frame.payload = .ok packet → packet.header.dst ≠ bindIp := by
    decide +kernel
  refine ⟨by decide, ?_, rfl, opened, ?_⟩
  · rintro packet seg ⟨frame, framed, packed, -, -⟩
    exact foreign frame framed packet packed
  · intro acts
    obtain ⟨packet, seg, tcp, own⟩ := acts.tcp (by
      rintro ⟨same, -⟩
      rw [same] at opened
      cases opened)
    obtain ⟨frame, framed, packed, -, -⟩ := tcp
    exact foreign frame framed packet packed own

theorem acts_for_own_iff_closedPorts :
    straySyn.length ≤ 3000 ∧ ActsForOwn straySyn (.start [8080#16]) bindIp bindMac ⟨0, 7#32⟩ := by
  have short : straySyn.length ≤ 3000 := by decide
  refine ⟨short, (acts_for_own_iff straySyn (.start [8080#16]) bindIp bindMac ⟨0, 7#32⟩ short).mpr ?_⟩
  intro packet seg tcp _
  obtain ⟨frame, framed, packed, -, parsed⟩ := tcp
  have elsewhere : ∀ frame, EthernetFrame.parse straySyn = .ok frame →
      ∀ packet, Ipv4Packet.parse frame.payload = .ok packet →
      ∀ seg, TcpSegment.parse packet.payload packet.header.src packet.header.dst = .ok seg →
      seg.header.dstPort = 80#16 := by
    decide +kernel
  have port := elsewhere frame framed packet packed seg parsed
  constructor
  · rfl
  · unfold Arrival.opens arrivalOf
    simp [port, AsyncDispatch.start, AsyncDispatch.listen, AsyncDispatch.new]

end MagnumTcp
