import MagnumTcp.Net.Ipv4

namespace MagnumTcp

open Tcp

def ethertypeIpv4 : U16 := 0x0800#16
def ethernetHeaderLen : Nat := 14

structure Mac where
  a : U8
  b : U8
  c : U8
  d : U8
  e : U8
  f : U8
deriving DecidableEq, Repr

def Mac.bytes (m : Mac) : Bytes := [m.a, m.b, m.c, m.d, m.e, m.f]

structure EthernetFrame where
  dstMac : Mac
  srcMac : Mac
  ethertype : U16
  payload : Bytes
deriving DecidableEq, Repr

def EthernetFrame.build (dstMac srcMac : Mac) (payload : Bytes) : Bytes :=
  dstMac.bytes ++ srcMac.bytes ++ toBeBytes16 ethertypeIpv4 ++ payload

def EthernetFrame.parse (raw : Bytes) : Except MagnumError EthernetFrame :=
  let byte (i : Nat) : U8 := raw.getD i 0#8
  if raw.length < ethernetHeaderLen then
    .error (.ethernetFrameTooShort raw.length ethernetHeaderLen)
  else
    let ethertype := beU16 (byte 12) (byte 13)
    if ethertype != ethertypeIpv4 then
      .error (.nonIpv4EtherType ethertype)
    else
      .ok
        { dstMac := ⟨byte 0, byte 1, byte 2, byte 3, byte 4, byte 5⟩
          srcMac := ⟨byte 6, byte 7, byte 8, byte 9, byte 10, byte 11⟩
          ethertype := ethertype
          payload := raw.drop ethernetHeaderLen }

structure OutboundMsg where
  srcIp : Ip
  dstIp : Ip
  tcpBytes : Bytes
  etherSrc : Mac
  etherDst : Mac
deriving DecidableEq, Repr

def frameOutbound (msg : OutboundMsg) : Bytes :=
  let ip := Ipv4.buildPacket msg.srcIp msg.dstIp (BitVec.ofNat 8 protoTcp) msg.tcpBytes
  EthernetFrame.build msg.etherDst msg.etherSrc ip

end MagnumTcp
