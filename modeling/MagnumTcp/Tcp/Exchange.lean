import MagnumTcp.Tcp.Network

namespace MagnumTcp.Tcp

structure Packet where
  dst : Side
  srcIp : Ip
  dstIp : Ip
  raw : Bytes

structure Exchange where
  party : Side → Session
  inFlight : List Packet

namespace Exchange

def reply (s : Session) (side : Side) (raw : Bytes) : Packet where
  dst := side.other
  srcIp := s.conn.tcb.localIp
  dstIp := s.conn.tcb.remoteIp
  raw := raw

def receive (x : Exchange) (now : Instant) (p : Packet) : Exchange :=
  match TcpSegment.parse p.raw p.srcIp p.dstIp with
  | .error _ => x
  | .ok seg =>
      let s := (x.party p.dst).step (.processSegment now seg)
      { party := Function.update x.party p.dst s
        inFlight := x.inFlight ++
          ((x.party p.dst).output (.processSegment now seg)).map (reply s p.dst) }

def deliver (x : Exchange) (now : Instant) (k : Nat) : Option Exchange :=
  x.inFlight[k]?.map fun p => { x with inFlight := x.inFlight.eraseIdx k }.receive now p

def Delivers (x y : Exchange) : Prop := ∃ now k, x.deliver now k = some y

end Exchange

end MagnumTcp.Tcp
