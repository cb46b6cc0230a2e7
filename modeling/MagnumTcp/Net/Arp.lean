import MagnumTcp.Net.Ethernet

namespace MagnumTcp

open Tcp

def arpPayloadLen : Nat := 28
def arpFrameLen : Nat := ethernetHeaderLen + arpPayloadLen

def htypeEthernet : Bytes := [0x00#8, 0x01#8]
def ptypeIpv4 : Bytes := [0x08#8, 0x00#8]
def hlenMac : U8 := 6#8
def plenIp : U8 := 4#8
def operRequest : Bytes := [0x00#8, 0x01#8]
def operReply : Bytes := [0x00#8, 0x02#8]
def ethertypeArp : Bytes := [0x08#8, 0x06#8]

def Ip.bytes (ip : Ip) : Bytes := [ip.a, ip.b, ip.c, ip.d]

structure ArpRequest where
  senderMac : Mac
  senderIp : Ip
  targetIp : Ip
deriving DecidableEq, Repr

def parseArpRequest (rawFrame : Bytes) : Option ArpRequest :=
  if rawFrame.length < arpFrameLen then none
  else
    let arp := rawFrame.drop ethernetHeaderLen
    let byte (i : Nat) : U8 := arp.getD i 0#8
    if [byte 0, byte 1] ≠ htypeEthernet then none
    else if [byte 2, byte 3] ≠ ptypeIpv4 then none
    else if byte 4 ≠ hlenMac ∨ byte 5 ≠ plenIp then none
    else if [byte 6, byte 7] ≠ operRequest then none
    else
      some
        { senderMac := ⟨byte 8, byte 9, byte 10, byte 11, byte 12, byte 13⟩
          senderIp := ⟨byte 14, byte 15, byte 16, byte 17⟩
          targetIp := ⟨byte 24, byte 25, byte 26, byte 27⟩ }

def buildArpReplyFrame (ourMac : Mac) (ourIp : Ip) (requesterMac : Mac) (requesterIp : Ip) : Bytes :=
  requesterMac.bytes ++ ourMac.bytes ++ ethertypeArp ++
    (htypeEthernet ++ ptypeIpv4 ++ [hlenMac, plenIp] ++ operReply ++ ourMac.bytes ++ ourIp.bytes ++
      requesterMac.bytes ++ requesterIp.bytes)

end MagnumTcp
