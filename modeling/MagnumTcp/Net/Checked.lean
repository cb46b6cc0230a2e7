import MagnumTcp.Lib.CheckedWord
import MagnumTcp.Net.Inbound

namespace MagnumTcp

open OnesComplement Tcp

-- From here on `none` is the panic of an index, a slice or a checked operator.
def slice (raw : Bytes) (lo hi : Nat) : Option Bytes :=
  if lo ≤ hi ∧ hi ≤ raw.length then some ((raw.take hi).drop lo) else none

def u16At (raw : Bytes) (i : Nat) : Option U16 := do
  return beU16 (← raw[i]?) (← raw[i + 1]?)

def u32At (raw : Bytes) (i : Nat) : Option U32 := do
  return beU32 (← raw[i]?) (← raw[i + 1]?) (← raw[i + 2]?) (← raw[i + 3]?)

def ipAt (raw : Bytes) (i : Nat) : Option Ip := do
  return ⟨← raw[i]?, ← raw[i + 1]?, ← raw[i + 2]?, ← raw[i + 3]?⟩

def macAt (raw : Bytes) (i : Nat) : Option Mac := do
  return ⟨← raw[i]?, ← raw[i + 1]?, ← raw[i + 2]?, ← raw[i + 3]?, ← raw[i + 4]?, ← raw[i + 5]?⟩

def sumChecked : Bytes → U32 → Option U32
  | [], sum => some sum
  | [b], sum => CheckedWord.add sum (b.setWidth 32 <<< 8)
  | a :: b :: rest, sum => do
      let sum ← CheckedWord.add sum ((beU16 a b).setWidth 32)
      sumChecked rest sum

def foldChecked : Nat → U32 → Option U32
  | 0, sum => some sum
  | rounds + 1, sum =>
      if sum >>> 16 = 0#32 then some sum
      else do
        let next ← CheckedWord.add (sum &&& 0xFFFF#32) (sum >>> 16)
        foldChecked rounds next

def complementChecked (sum : U32) : Option U16 := do
  let folded ← foldChecked 2 sum
  return ~~~ folded.setWidth 16

def Ipv4.checksumChecked (data : Bytes) : Option U16 := do
  let sum ← sumChecked data 0#32
  complementChecked sum

def Tcp.tcpChecksumChecked (segment : Bytes) (srcIp dstIp : Ip) : Option U16 := do
  let sum ← CheckedWord.add 0#32 ((beU16 srcIp.a srcIp.b).setWidth 32)
  let sum ← CheckedWord.add sum ((beU16 srcIp.c srcIp.d).setWidth 32)
  let sum ← CheckedWord.add sum ((beU16 dstIp.a dstIp.b).setWidth 32)
  let sum ← CheckedWord.add sum ((beU16 dstIp.c dstIp.d).setWidth 32)
  let sum ← CheckedWord.add sum (BitVec.ofNat 32 protoTcp)
  let sum ← CheckedWord.add sum (BitVec.ofNat 32 segment.length)
  let sum ← sumChecked segment sum
  complementChecked sum

def EthernetFrame.parseChecked (raw : Bytes) : Option (Except MagnumError EthernetFrame) :=
  if raw.length < ethernetHeaderLen then
    return .error (.ethernetFrameTooShort raw.length ethernetHeaderLen)
  else do
    let ethertype ← u16At raw 12
    if ethertype != ethertypeIpv4 then
      return .error (.nonIpv4EtherType ethertype)
    else
      let dstMac ← macAt raw 0
      let srcMac ← macAt raw 6
      let payload ← slice raw ethernetHeaderLen raw.length
      return .ok { dstMac := dstMac, srcMac := srcMac, ethertype := ethertype, payload := payload }

def parseArpRequestChecked (rawFrame : Bytes) : Option (Option ArpRequest) :=
  if rawFrame.length < arpFrameLen then return none
  else do
    let arp ← slice rawFrame ethernetHeaderLen rawFrame.length
    if (← slice arp 0 2) ≠ htypeEthernet then return none
    else if (← slice arp 2 4) ≠ ptypeIpv4 then return none
    else if (← arp[4]?) ≠ hlenMac ∨ (← arp[5]?) ≠ plenIp then return none
    else if (← slice arp 6 8) ≠ operRequest then return none
    else
      let senderMac ← macAt arp 8
      let senderIp ← ipAt arp 14
      let targetIp ← ipAt arp 24
      return some { senderMac := senderMac, senderIp := senderIp, targetIp := targetIp }

def Ipv4Packet.parseChecked (raw : Bytes) : Option (Except MagnumError Ipv4Packet) :=
  if raw.length < ipv4MinHeaderLen then
    return .error (.ipv4HeaderTooShort raw.length ipv4MinHeaderLen)
  else do
    let ihl := (← raw[0]?) &&& 0x0F#8
    if ihl < 5#8 then
      return .error (.ipv4IhlTooSmall ihl)
    else
      let headerLen := ihl.toNat * 4
      if raw.length < headerLen then
        return .error (.ipv4HeaderTooShort raw.length headerLen)
      else
        let storedChecksum ← u16At raw 10
        let computed ← Ipv4.checksumChecked (← slice raw 0 headerLen)
        if computed != 0#16 then
          return .error (.ipv4ChecksumMismatch computed storedChecksum)
        else
          let totalLen := (← u16At raw 2).toNat
          if totalLen < headerLen then
            return .error (.ipv4TotalLenTooSmall totalLen headerLen)
          else if totalLen > raw.length then
            return .error (.ipv4TruncatedPacket totalLen raw.length)
          else
            let flagsFrag ← u16At raw 6
            let src ← ipAt raw 12
            let dst ← ipAt raw 16
            let dscp : U8 ← raw[1]?
            let id ← u16At raw 4
            let ttl : U8 ← raw[8]?
            let protocol : U8 ← raw[9]?
            let payload ← slice raw headerLen totalLen
            return .ok
              { header :=
                  { ihl := ihl
                    dscp := dscp >>> 2 &&& 0x3F#8
                    totalLen := BitVec.ofNat 16 totalLen
                    id := id
                    flags := (flagsFrag >>> 13 &&& 0x07#16).setWidth 8
                    fragOffset := flagsFrag &&& 0x1FFF#16
                    ttl := ttl
                    protocol := protocol
                    checksum := storedChecksum
                    src := src
                    dst := dst }
                payload := payload }

def Tcp.TcpSegment.parseChecked (raw : Bytes) (srcIp dstIp : Ip) :
    Option (Except MagnumError TcpSegment) :=
  if raw.length < tcpMinHeaderLen then
    return .error (.tcpHeaderTooShort raw.length tcpMinHeaderLen)
  else do
    let dataOffset := ((← raw[12]?) >>> 4 &&& 0x0F#8).toNat
    if dataOffset < 5 then
      return .error (.tcpDataOffsetTooSmall dataOffset)
    else
      let headerLen := dataOffset * 4
      if raw.length < headerLen then
        return .error (.tcpHeaderTooShort raw.length headerLen)
      else
        let storedChecksum ← u16At raw 16
        let computed ← tcpChecksumChecked raw srcIp dstIp
        if computed != 0#16 then
          return .error (.tcpChecksumMismatch computed storedChecksum)
        else
          let srcPort ← u16At raw 0
          let dstPort ← u16At raw 2
          let seq ← u32At raw 4
          let ackNum ← u32At raw 8
          let flags : U8 ← raw[13]?
          let window ← u16At raw 14
          let urgentPtr ← u16At raw 18
          let payload ← slice raw headerLen raw.length
          return .ok
            { header :=
                { srcPort := srcPort
                  dstPort := dstPort
                  seq := seq
                  ackNum := ackNum
                  dataOffset := dataOffset
                  flags := TcpFlags.fromByte flags
                  window := window
                  checksum := storedChecksum
                  urgentPtr := urgentPtr }
              payload := payload }

def inboundDispatchChecked (raw : Bytes) (d : AsyncDispatch) (ourIp : Ip) (ourMac : Mac)
    (moment : Moment) : Option Inbound := do
  match ← EthernetFrame.parseChecked raw with
  | .error (.nonIpv4EtherType ethertype) =>
      if ethertype = 0x0806#16 then
        match ← parseArpRequestChecked raw with
        | none => return .dropped d
        | some req =>
            if req.targetIp = ourIp then
              return ⟨d, none, some (buildArpReplyFrame ourMac ourIp req.senderMac req.senderIp)⟩
            else return .dropped d
      else return .dropped d
  | .error _ => return .dropped d
  | .ok frame =>
      match ← Ipv4Packet.parseChecked frame.payload with
      | .error _ => return .dropped d
      | .ok packet =>
          if packet.header.protocol = protoIcmp then return .dropped d
          else if packet.header.protocol = BitVec.ofNat 8 protoTcp then
            match ← TcpSegment.parseChecked packet.payload packet.header.src packet.header.dst with
            | .error _ => return .dropped d
            | .ok seg =>
                let (d, handle) := d.dispatch (arrivalOf moment packet seg)
                return ⟨d, handle, none⟩
          else return .dropped d

end MagnumTcp
