import MagnumTcp.Tcp.Task

/-!
# Demultiplexing

`mod.rs`: the synchronous `Stack`, which owns its connections, and `AsyncDispatch`, which spawns a task
for each of them and passes segments on through a channel of bounded capacity. The maps from four-tuples
are functions; a spawned task is named by its place in the list of all that were ever spawned.
-/

namespace MagnumTcp.Tcp

structure FourTuple where
  remoteIp : Ip
  remotePort : U16
  localIp : Ip
  localPort : U16
deriving DecidableEq, Repr

-- A segment with the addresses of its packet, the clock when it is processed and the initial sequence
-- number that is chosen if it opens a connection.
structure Arrival where
  now : Instant
  isn : U32
  remoteIp : Ip
  localIp : Ip
  seg : TcpSegment

namespace Arrival

def key (a : Arrival) : FourTuple where
  remoteIp := a.remoteIp
  remotePort := a.seg.header.srcPort
  localIp := a.localIp
  localPort := a.seg.header.dstPort

def opens (listeners : List U16) (a : Arrival) : Bool :=
  a.seg.header.flags.syn && !a.seg.header.flags.ack && listeners.contains a.seg.header.dstPort

def connection (a : Arrival) : Connection :=
  .new (.newForListen a.isn a.localIp a.seg.header.dstPort a.remoteIp a.seg.header.srcPort)

end Arrival

/-! ## The synchronous stack -/

structure OutboundPacket where
  srcIp : Ip
  dstIp : Ip
  tcpBytes : Bytes

structure Stack where
  listeners : List U16
  connections : FourTuple → Option Connection

namespace Stack

def new : Stack := ⟨[], fun _ => none⟩

def listen (s : Stack) (port : U16) : Stack := { s with listeners := port :: s.listeners }

def start (ports : List U16) : Stack := ports.foldr (fun port s => s.listen port) new

def target (s : Stack) (a : Arrival) : Option Connection :=
  match s.connections a.key with
  | some conn => some conn
  | none => if a.opens s.listeners then some a.connection else none

def process (s : Stack) (a : Arrival) : Stack × Option OutboundPacket :=
  match s.target a with
  | none => (s, none)
  | some conn =>
      let (conn, reply) := conn.processSegment a.now a.seg
      ({ s with connections := Function.update s.connections a.key (some conn) },
        reply.map fun tcpBytes => ⟨a.localIp, a.remoteIp, tcpBytes⟩)

end Stack

/-! ## Connections as tasks -/

def inboxCapacity : Nat := 64

structure Spawned where
  key : FourTuple
  inbox : List TcpSegment
  task : Task

namespace Spawned

-- The receiving end of the channel is gone once the task has ended.
def trySend (s : Spawned) (seg : TcpSegment) : Option Spawned :=
  if s.task.running && s.inbox.length < inboxCapacity then
    some { s with inbox := s.inbox ++ [seg] }
  else none

-- The task looks into its inbox; `connected` tells whether the sending end still exists.
def receive (s : Spawned) (connected : Bool) (clock : Clock) : Spawned :=
  if s.task.running then
    match s.inbox with
    | seg :: rest => { s with inbox := rest, task := s.task.step (.inbound clock seg) }
    | [] => if connected then s else { s with task := s.task.step .inboundClosed }
  else s

def own (s : Spawned) : TaskEvent → Spawned
  | .inbound _ _ | .inboundClosed => s
  | event => { s with task := s.task.step event }

end Spawned

structure NewConnectionHandle where
  key : FourTuple
  task : Nat

structure AsyncDispatch where
  listeners : List U16
  channels : FourTuple → Option Nat
  tasks : List Spawned

inductive DispatchEvent where
  | dispatch (a : Arrival)
  | receive (id : Nat) (clock : Clock)
  | own (id : Nat) (event : TaskEvent)

namespace AsyncDispatch

def new : AsyncDispatch := ⟨[], fun _ => none, []⟩

def listen (d : AsyncDispatch) (port : U16) : AsyncDispatch :=
  { d with listeners := port :: d.listeners }

def dispatch (d : AsyncDispatch) (a : Arrival) : AsyncDispatch × Option NewConnectionHandle :=
  match d.channels a.key with
  | none =>
      if a.opens d.listeners then
        let id := d.tasks.length
        ({ d with
            channels := Function.update d.channels a.key (some id)
            tasks := d.tasks ++ [⟨a.key, [], .start a.connection⟩] },
          some ⟨a.key, id⟩)
      else (d, none)
  | some id =>
      match d.tasks[id]?.bind fun s => s.trySend a.seg with
      | some sent => ({ d with tasks := d.tasks.set id sent }, none)
      | none => ({ d with channels := Function.update d.channels a.key none }, none)

def step (d : AsyncDispatch) : DispatchEvent → AsyncDispatch
  | .dispatch a => (d.dispatch a).1
  | .receive id clock =>
      { d with
        tasks := d.tasks.modify id fun s => s.receive (d.channels s.key == some id) clock }
  | .own id event => { d with tasks := d.tasks.modify id fun s => s.own event }

abbrev exec : AsyncDispatch → List DispatchEvent → AsyncDispatch := Runs.exec step
abbrev Along (C : AsyncDispatch → DispatchEvent → Prop) :
    AsyncDispatch → List DispatchEvent → Prop := Runs.Along step C
abbrev Always (P : AsyncDispatch → Prop) : AsyncDispatch → List DispatchEvent → Prop :=
  Runs.Always step P

def start (ports : List U16) : AsyncDispatch := ports.foldr (fun port d => d.listen port) new

end AsyncDispatch

/-! ## What the connections have seen -/

/-- For each four-tuple the segments that `process_segment` was called with, and what was sent in
consequence. -/
structure Log where
  segments : FourTuple → List TcpSegment
  replies : FourTuple → List Bytes

namespace Log

def empty : Log := ⟨fun _ => [], fun _ => []⟩

def record (log : Log) (key : FourTuple) (seg : TcpSegment) (sent : List Bytes) : Log where
  segments := Function.update log.segments key (log.segments key ++ [seg])
  replies := Function.update log.replies key (log.replies key ++ sent)

end Log

structure StackRun where
  stack : Stack
  log : Log

def StackRun.step (r : StackRun) (a : Arrival) : StackRun where
  stack := (r.stack.process a).1
  log :=
    if (r.stack.target a).isSome then
      r.log.record a.key a.seg ((r.stack.process a).2.toList.map OutboundPacket.tcpBytes)
    else r.log

def StackRun.start (ports : List U16) : StackRun := ⟨.start ports, .empty⟩

structure DispatchRun where
  dispatch : AsyncDispatch
  log : Log

namespace DispatchRun

def start (ports : List U16) : DispatchRun := ⟨.start ports, .empty⟩

def logged (r : DispatchRun) : DispatchEvent → Log
  | .receive id clock =>
      match r.dispatch.tasks[id]? with
      | none => r.log
      | some s =>
          match s.task.running, s.inbox with
          | true, seg :: _ =>
              let after := s.task.step (.inbound clock seg)
              r.log.record s.key seg
                (after.session.emitted.drop s.task.session.emitted.length)
          | _, _ => r.log
  | .dispatch _ | .own _ _ => r.log

def step (r : DispatchRun) (event : DispatchEvent) : DispatchRun :=
  ⟨r.dispatch.step event, r.logged event⟩

end DispatchRun

def DispatchEvent.arrival : DispatchEvent → Option Arrival
  | .dispatch a => some a
  | .receive _ _ | .own _ _ => none

end MagnumTcp.Tcp
