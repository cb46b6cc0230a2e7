import MagnumTcp.Lib.Runs
import MagnumTcp.Tcp.Connection

/-!
# Sessions

A connection used through its public methods, with the history that the application and the network see:
the bytes accepted by `write_data`, the bytes handed out by `read_received` and the segments put on
the wire. A run is a list of events, and an event is one call of a method with its arguments.
-/

namespace MagnumTcp.Tcp

inductive Event where
  | processSegment (now : Instant) (seg : TcpSegment)
  | writeData (data : Bytes)
  | nextSegmentToSend (now : Instant) (maxPayload : Nat)
  | readReceived (bufLen : Nat)
  | takeRetransmits (now : Instant)
  | initiateClose
  | tickTimeWait (now : Instant)
  | connect
  | zeroWindowProbe

structure Session where
  conn : Connection
  written : Bytes
  received : Bytes
  emitted : List Bytes
  -- Whether a method has been called, and whether ESTABLISHED has been reached.
  used : Bool
  established : Bool

namespace Session

def start (tcb : Tcb) : Session where
  conn := .new tcb
  written := []
  received := []
  emitted := []
  used := false
  established := false

def call (c : Connection) : Event → Connection × List Bytes
  | .processSegment now seg => (c.processSegment now seg).map id Option.toList
  | .writeData data => ((c.writeData data).1, [])
  | .nextSegmentToSend now maxPayload => (c.nextSegmentToSend now maxPayload).map id Option.toList
  | .readReceived bufLen => ((c.readReceived bufLen).1, [])
  | .takeRetransmits now => c.takeRetransmits now
  | .initiateClose => c.initiateClose.map id Option.toList
  | .tickTimeWait now => ((c.tickTimeWait now).1, [])
  | .connect => c.connect.map id Option.toList
  | .zeroWindowProbe => c.zeroWindowProbe.map id Option.toList

def output (s : Session) (event : Event) : List Bytes := (call s.conn event).2

def accepted (s : Session) : Event → Bytes
  | .writeData data => data.take (s.conn.writeData data).2
  | _ => []

def handedOut (s : Session) : Event → Bytes
  | .readReceived bufLen => (s.conn.readReceived bufLen).2
  | _ => []

def step (s : Session) (event : Event) : Session :=
  let conn := (call s.conn event).1
  { conn := conn
    written := s.written ++ s.accepted event
    received := s.received ++ s.handedOut event
    emitted := s.emitted ++ s.output event
    used := true
    established := s.established || conn.tcb.state == .established }

abbrev exec : Session → List Event → Session := Runs.exec step
abbrev Along (C : Session → Event → Prop) : Session → List Event → Prop := Runs.Along step C
abbrev Always (P : Session → Prop) : Session → List Event → Prop := Runs.Always step P

/-- `connect` is called at most once, as the first operation. -/
def ConnectFirst (s : Session) : Event → Prop
  | .connect => s.used = false
  | _ => True

/-- `write_data` is called only after ESTABLISHED was first reached. -/
def WriteEstablished (s : Session) : Event → Prop
  | .writeData _ => s.established = true
  | _ => True

instance (s : Session) : (event : Event) → Decidable (s.ConnectFirst event)
  | .connect => inferInstanceAs (Decidable (s.used = false))
  | .processSegment _ _ | .writeData _ | .nextSegmentToSend _ _ | .readReceived _
  | .takeRetransmits _ | .initiateClose | .tickTimeWait _ | .zeroWindowProbe => isTrue trivial

instance (s : Session) : (event : Event) → Decidable (s.WriteEstablished event)
  | .writeData _ => inferInstanceAs (Decidable (s.established = true))
  | .processSegment _ _ | .nextSegmentToSend _ _ | .readReceived _ | .takeRetransmits _
  | .initiateClose | .tickTimeWait _ | .connect | .zeroWindowProbe => isTrue trivial

end Session

structure Endpoint where
  localIp : Ip
  localPort : U16
  remoteIp : Ip
  remotePort : U16

def Endpoint.peer (e : Endpoint) : Endpoint where
  localIp := e.remoteIp
  localPort := e.remotePort
  remoteIp := e.localIp
  remotePort := e.localPort

inductive Opening where
  | passive
  | active

def Opening.tcb (o : Opening) (iss : U32) (e : Endpoint) : Tcb :=
  match o with
  | .passive => .newForListen iss e.localIp e.localPort e.remoteIp e.remotePort
  | .active => .newForConnect iss e.localIp e.localPort e.remoteIp e.remotePort

def Opening.session (o : Opening) (iss : U32) (e : Endpoint) : Session := .start (o.tcb iss e)

def Session.Reachable (s : Session) : Prop :=
  ∃ (o : Opening) (iss : U32) (e : Endpoint) (events : List Event), exec (o.session iss e) events = s

theorem Session.Reachable.induct {P : Session → Prop} {s : Session} (reached : s.Reachable)
    (start : ∀ o iss e, P (Opening.session o iss e)) (step : ∀ s event, P s → P (s.step event)) :
    P s := by
  obtain ⟨o, iss, e, events, rfl⟩ := reached
  exact Runs.exec_inv (C := fun _ _ => True) (fun s event holds _ => step s event holds)
    (start o iss e) (Runs.along_true _ _)

end MagnumTcp.Tcp
