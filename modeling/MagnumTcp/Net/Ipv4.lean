import MagnumTcp.Tcp.Header

namespace MagnumTcp

open OnesComplement Tcp

def ipv4MinHeaderLen : Nat := 20

structure Ipv4Header where
  ihl : U8
  dscp : U8
  totalLen : U16
  id : U16
  flags : U8
  fragOffset : U16
  ttl : U8
  protocol : U8
  checksum : U16
  src : Ip
  dst : Ip
deriving DecidableEq, Repr

structure Ipv4Packet where
  header : Ipv4Header
  payload : Bytes
deriving DecidableEq, Repr

namespace Ipv4

def checksum (data : Bytes) : U16 :=
  ~~~ BitVec.ofNat 16 (foldCarries 0xFFFF 2 (wordSum data % 2 ^ 32))

def layout (src dst : Ip) (protocol : U8) (totalLen csum : U16) : Bytes :=
  [0x45#8, 0x00#8] ++ toBeBytes16 totalLen ++ [0x00#8, 0x00#8, 0x40#8, 0x00#8, 0x40#8, protocol] ++
    toBeBytes16 csum ++ [src.a, src.b, src.c, src.d, dst.a, dst.b, dst.c, dst.d]

def buildPacket (src dst : Ip) (protocol : U8) (payload : Bytes) : Bytes :=
  let totalLen := BitVec.ofNat 16 (ipv4MinHeaderLen + payload.length)
  let csum := checksum (layout src dst protocol totalLen 0#16)
  layout src dst protocol totalLen csum ++ payload

end Ipv4

def Ipv4Packet.parse (raw : Bytes) : Except MagnumError Ipv4Packet :=
  let byte (i : Nat) : U8 := raw.getD i 0#8
  if raw.length < ipv4MinHeaderLen then
    .error (.ipv4HeaderTooShort raw.length ipv4MinHeaderLen)
  else
    let ihl := byte 0 &&& 0x0F#8
    if ihl < 5#8 then
      .error (.ipv4IhlTooSmall ihl)
    else
      let headerLen := ihl.toNat * 4
      if raw.length < headerLen then
        .error (.ipv4HeaderTooShort raw.length headerLen)
      else
        let storedChecksum := beU16 (byte 10) (byte 11)
        let computed := Ipv4.checksum (raw.take headerLen)
        if computed != 0#16 then
          .error (.ipv4ChecksumMismatch computed storedChecksum)
        else
          let totalLen := (beU16 (byte 2) (byte 3)).toNat
          if totalLen < headerLen then
            .error (.ipv4TotalLenTooSmall totalLen headerLen)
          else if totalLen > raw.length then
            .error (.ipv4TruncatedPacket totalLen raw.length)
          else
            let flagsFrag := beU16 (byte 6) (byte 7)
            .ok
              { header :=
                  { ihl := ihl
                    dscp := byte 1 >>> 2 &&& 0x3F#8
                    totalLen := BitVec.ofNat 16 totalLen
                    id := beU16 (byte 4) (byte 5)
                    flags := (flagsFrag >>> 13 &&& 0x07#16).setWidth 8
                    fragOffset := flagsFrag &&& 0x1FFF#16
                    ttl := byte 8
                    protocol := byte 9
                    checksum := storedChecksum
                    src := ⟨byte 12, byte 13, byte 14, byte 15⟩
                    dst := ⟨byte 16, byte 17, byte 18, byte 19⟩ }
                payload := (raw.take totalLen).drop headerLen }

end MagnumTcp
