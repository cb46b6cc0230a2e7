import MagnumTcp.Lib.OnesComplement
import MagnumTcp.Tcp.Tcb

namespace MagnumTcp

inductive MagnumError where
  | ethernetFrameTooShort (got need : Nat)
  | nonIpv4EtherType (ethertype : U16)
  | ipv4HeaderTooShort (got need : Nat)
  | ipv4IhlTooSmall (ihl : U8)
  | ipv4ChecksumMismatch (computed got : U16)
  | ipv4TruncatedPacket (totalLen bufLen : Nat)
  | ipv4TotalLenTooSmall (totalLen headerLen : Nat)
  | tcpHeaderTooShort (got need : Nat)
  | tcpDataOffsetTooSmall (dataOffset : Nat)
  | tcpChecksumMismatch (computed got : U16)
deriving DecidableEq, Repr

namespace Tcp

open OnesComplement

def tcpMinHeaderLen : Nat := 20
def recvWindow : U16 := 65535#16
def protoTcp : Nat := 6

def beU16 (a b : U8) : U16 := BitVec.ofNat 16 (a.toNat * 256 + b.toNat)

def beU32 (a b c d : U8) : U32 :=
  BitVec.ofNat 32 (((a.toNat * 256 + b.toNat) * 256 + c.toNat) * 256 + d.toNat)

def toBeBytes16 (x : U16) : Bytes := [BitVec.ofNat 8 (x.toNat / 256), BitVec.ofNat 8 x.toNat]

def toBeBytes32 (x : U32) : Bytes :=
  [BitVec.ofNat 8 (x.toNat / 256 / 256 / 256), BitVec.ofNat 8 (x.toNat / 256 / 256),
    BitVec.ofNat 8 (x.toNat / 256), BitVec.ofNat 8 x.toNat]

structure TcpFlags where
  urg : Bool := false
  ack : Bool := false
  psh : Bool := false
  rst : Bool := false
  syn : Bool := false
  fin : Bool := false
deriving DecidableEq, Repr

def TcpFlags.fromByte (b : U8) : TcpFlags where
  urg := b &&& 0x20#8 != 0#8
  ack := b &&& 0x10#8 != 0#8
  psh := b &&& 0x08#8 != 0#8
  rst := b &&& 0x04#8 != 0#8
  syn := b &&& 0x02#8 != 0#8
  fin := b &&& 0x01#8 != 0#8

def boolByte (b : Bool) : U8 := if b then 1#8 else 0#8

def TcpFlags.toByte (f : TcpFlags) : U8 :=
  boolByte f.urg <<< 5 ||| boolByte f.ack <<< 4 ||| boolByte f.psh <<< 3 |||
    boolByte f.rst <<< 2 ||| boolByte f.syn <<< 1 ||| boolByte f.fin

structure TcpHeader where
  srcPort : U16
  dstPort : U16
  seq : U32
  ackNum : U32
  dataOffset : Nat
  flags : TcpFlags
  window : U16
  checksum : U16
  urgentPtr : U16
deriving DecidableEq, Repr

structure TcpSegment where
  header : TcpHeader
  payload : Bytes
deriving DecidableEq, Repr

def wordSum : Bytes → Nat
  | [] => 0
  | [b] => b.toNat * 256
  | a :: b :: rest => a.toNat * 256 + b.toNat + wordSum rest

def pseudoHeaderSum (tcpLen : Nat) (srcIp dstIp : Ip) : Nat :=
  (beU16 srcIp.a srcIp.b).toNat + (beU16 srcIp.c srcIp.d).toNat +
    (beU16 dstIp.a dstIp.b).toNat + (beU16 dstIp.c dstIp.d).toNat + protoTcp + tcpLen

/-- The accumulator is a `u32`. Two rounds of carry folding always end its loop. -/
def tcpChecksum (segment : Bytes) (srcIp dstIp : Ip) : U16 :=
  let sum := (pseudoHeaderSum segment.length srcIp dstIp + wordSum segment) % 2 ^ 32
  ~~~ BitVec.ofNat 16 (foldCarries 0xFFFF 2 sum)

def TcpSegment.parse (raw : Bytes) (srcIp dstIp : Ip) : Except MagnumError TcpSegment :=
  let byte (i : Nat) : U8 := raw.getD i 0#8
  if raw.length < tcpMinHeaderLen then
    .error (.tcpHeaderTooShort raw.length tcpMinHeaderLen)
  else
    let dataOffset := (byte 12 >>> 4 &&& 0x0F#8).toNat
    if dataOffset < 5 then
      .error (.tcpDataOffsetTooSmall dataOffset)
    else
      let headerLen := dataOffset * 4
      if raw.length < headerLen then
        .error (.tcpHeaderTooShort raw.length headerLen)
      else
        let storedChecksum := beU16 (byte 16) (byte 17)
        let computed := tcpChecksum raw srcIp dstIp
        if computed != 0#16 then
          .error (.tcpChecksumMismatch computed storedChecksum)
        else
          .ok
            { header :=
                { srcPort := beU16 (byte 0) (byte 1)
                  dstPort := beU16 (byte 2) (byte 3)
                  seq := beU32 (byte 4) (byte 5) (byte 6) (byte 7)
                  ackNum := beU32 (byte 8) (byte 9) (byte 10) (byte 11)
                  dataOffset := dataOffset
                  flags := TcpFlags.fromByte (byte 13)
                  window := beU16 (byte 14) (byte 15)
                  checksum := storedChecksum
                  urgentPtr := beU16 (byte 18) (byte 19) }
              payload := raw.drop headerLen }

structure SegmentBuilder where
  srcIp : Ip
  dstIp : Ip
  srcPort : U16
  dstPort : U16
  seq : U32 := 0#32
  ackNum : U32 := 0#32
  flags : TcpFlags := {}
  window : U16 := recvWindow
  payload : Bytes := []
deriving DecidableEq, Repr

def SegmentBuilder.layout (b : SegmentBuilder) (checksum : U16) : Bytes :=
  toBeBytes16 b.srcPort ++ toBeBytes16 b.dstPort ++ toBeBytes32 b.seq ++ toBeBytes32 b.ackNum ++
    [0x50#8, b.flags.toByte] ++ toBeBytes16 b.window ++ toBeBytes16 checksum ++ [0#8, 0#8] ++ b.payload

def SegmentBuilder.checksum (b : SegmentBuilder) : U16 :=
  tcpChecksum (b.layout 0#16) b.srcIp b.dstIp

def SegmentBuilder.build (b : SegmentBuilder) : Bytes := b.layout b.checksum

end Tcp

end MagnumTcp
