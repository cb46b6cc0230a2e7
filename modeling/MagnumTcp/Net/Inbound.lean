import MagnumTcp.Net.Arp
import MagnumTcp.Tcp.Stack

namespace MagnumTcp

open Tcp

def protoIcmp : U8 := 1#8

structure Moment where
  now : Instant
  isn : U32

structure Inbound where
  dispatch : AsyncDispatch
  -- The connection for which `handle_connection` is spawned, and the frame to send back.
  spawned : Option NewConnectionHandle
  reply : Option Bytes

def Inbound.dropped (d : AsyncDispatch) : Inbound := ⟨d, none, none⟩

def arrivalOf (moment : Moment) (packet : Ipv4Packet) (seg : TcpSegment) : Arrival where
  now := moment.now
  isn := moment.isn
  remoteIp := packet.header.src
  localIp := packet.header.dst
  seg := seg

def inboundDispatch (raw : Bytes) (d : AsyncDispatch) (ourIp : Ip) (ourMac : Mac)
    (moment : Moment) : Inbound :=
  match EthernetFrame.parse raw with
  | .error (.nonIpv4EtherType ethertype) =>
      if ethertype = 0x0806#16 then
        match parseArpRequest raw with
        | none => .dropped d
        | some req =>
            if req.targetIp = ourIp then
              ⟨d, none, some (buildArpReplyFrame ourMac ourIp req.senderMac req.senderIp)⟩
            else .dropped d
      else .dropped d
  | .error _ => .dropped d
  | .ok frame =>
      match Ipv4Packet.parse frame.payload with
      | .error _ => .dropped d
      | .ok packet =>
          if packet.header.protocol = protoIcmp then .dropped d
          else if packet.header.protocol = BitVec.ofNat 8 protoTcp then
            match TcpSegment.parse packet.payload packet.header.src packet.header.dst with
            | .error _ => .dropped d
            | .ok seg =>
                let (d, handle) := d.dispatch (arrivalOf moment packet seg)
                ⟨d, handle, none⟩
          else .dropped d

end MagnumTcp
