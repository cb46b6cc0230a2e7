import MagnumTcp.Tcp.Http
import MagnumTcp.Tcp.Network
import MagnumTcp.Tcp.Stack

namespace MagnumTcp.Tcp

structure Service where
  client : Session
  server : Served

inductive ServiceAction where
  -- The application or the timers of the client call a method.
  | call (event : Event)
  -- The segment that the server emitted as its `k`-th arrives at the client.
  | deliver (now : Instant) (k : Nat)
  -- The task or the handler goes on.
  | serve (event : ServedEvent)
  -- The segment that the client emitted as its `k`-th arrives at the task.
  | arrive (clock : Clock) (k : Nat)

def Session.segment (sender : Session) (k : Nat) : Option TcpSegment :=
  sender.emitted[k]?.bind fun raw =>
    (TcpSegment.parse raw sender.conn.tcb.localIp sender.conn.tcb.remoteIp).toOption

def Arrival.endpoint (a : Arrival) : Endpoint where
  localIp := a.localIp
  localPort := a.seg.header.dstPort
  remoteIp := a.remoteIp
  remotePort := a.seg.header.srcPort

def ServedEvent.isArrival : ServedEvent → Bool
  | .inbound _ _ => true
  | _ => false

namespace Service

def start (iss : U32) (a : Arrival) : Service where
  client := Opening.active.session iss a.endpoint.peer
  server := .start a.connection

def step (respond : Instant → Bytes → Bytes) (v : Service) : ServiceAction → Service
  | .call event => { v with client := v.client.step event }
  | .deliver now k =>
      (v.server.task.session.segment k).elim v fun seg =>
        { v with client := v.client.step (.processSegment now seg) }
  | .serve event => { v with server := v.server.step respond event }
  | .arrive clock k =>
      (v.client.segment k).elim v fun seg =>
        { v with server := v.server.step respond (.inbound clock seg) }

abbrev exec (respond : Instant → Bytes → Bytes) : Service → List ServiceAction → Service :=
  Runs.exec (step respond)

/-- Segments come from the network only, and the client calls `connect` first. -/
def Rule (v : Service) : ServiceAction → Prop
  | .call event => event.isArrival = false ∧ v.client.ConnectFirst event
  | .serve event => event.isArrival = false
  | .deliver _ _ | .arrive _ _ => True

instance (v : Service) : (action : ServiceAction) → Decidable (v.Rule action)
  | .call event => inferInstanceAs (Decidable (event.isArrival = false ∧ v.client.ConnectFirst event))
  | .serve event => inferInstanceAs (Decidable (event.isArrival = false))
  | .deliver _ _ | .arrive _ _ => isTrue trivial

end Service

end MagnumTcp.Tcp
