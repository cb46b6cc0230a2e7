import MagnumTcp.Tcp.Session
import Mathlib.Logic.Function.Basic

/-!
# Two connections and a network

Two sessions that are peers of each other. The network keeps every segment that was ever emitted and may
deliver any of them, at any time and any number of times, or not at all; it alters none and invents
none. What it delivers is parsed under the addresses of the party that sent it.
-/

namespace MagnumTcp.Tcp

inductive Side where
  | left
  | right
deriving DecidableEq, Repr

def Side.other : Side → Side
  | .left => .right
  | .right => .left

@[simp] theorem Side.other_other (side : Side) : side.other.other = side := by cases side <;> rfl

@[simp] theorem Side.other_ne (side : Side) : side.other ≠ side := by cases side <;> nofun

def Endpoint.at (e : Endpoint) : Side → Endpoint
  | .left => e
  | .right => e.peer

def Event.isArrival : Event → Bool
  | .processSegment _ _ => true
  | _ => false

structure Network where
  party : Side → Session

inductive Action where
  -- The application or the timers of one side call a method.
  | call (side : Side) (event : Event)
  -- The segment that the other side emitted as its `k`-th arrives.
  | deliver (side : Side) (now : Instant) (k : Nat)

namespace Network

def start (o : Side → Opening) (iss : Side → U32) (e : Endpoint) : Network where
  party side := (o side).session (iss side) (e.at side)

def perform (n : Network) (side : Side) (event : Event) : Network where
  party := Function.update n.party side ((n.party side).step event)

def arrival (n : Network) (side : Side) (now : Instant) (k : Nat) : Option Event :=
  let sender := n.party side.other
  sender.emitted[k]?.bind fun raw =>
    match TcpSegment.parse raw sender.conn.tcb.localIp sender.conn.tcb.remoteIp with
    | .ok seg => some (.processSegment now seg)
    | .error _ => none

def step (n : Network) : Action → Network
  | .call side event => n.perform side event
  | .deliver side now k => (n.arrival side now k).elim n (n.perform side)

abbrev exec : Network → List Action → Network := Runs.exec step
abbrev Along (C : Network → Action → Prop) : Network → List Action → Prop := Runs.Along step C
abbrev Always (P : Network → Prop) : Network → List Action → Prop := Runs.Always step P

/-- Segments come from the network only, and every call of an application meets `C`. -/
def Rule (C : Session → Event → Prop) (n : Network) : Action → Prop
  | .call side event => event.isArrival = false ∧ C (n.party side) event
  | .deliver _ _ _ => True

instance {C : Session → Event → Prop} [∀ s event, Decidable (C s event)] (n : Network) :
    (action : Action) → Decidable (n.Rule C action)
  | .call _ _ => inferInstanceAs (Decidable (_ ∧ _))
  | .deliver _ _ _ => isTrue trivial

/-- Fewer than `2 ^ 31` bytes have been accepted in each direction. -/
def Short (n : Network) : Prop := ∀ side, (n.party side).written.length < 2 ^ 31

/-- Both ends are in ESTABLISHED, and everything that was written has been sent and acknowledged. -/
structure Settled (n : Network) : Prop where
  short : n.Short
  state : ∀ side, (n.party side).conn.tcb.state = .established
  idle : ∀ side, (n.party side).conn.tcb.snd.una = (n.party side).conn.tcb.snd.nxt
  empty : ∀ side, (n.party side).conn.sendBuf.len = 0
  queue : ∀ side, (n.party side).conn.retransmitQueue.entries = []

def Delivers (n : Network) (side : Side) (k : Nat) : Action → Prop
  | .call _ _ => False
  | .deliver side' _ k' => side' = side ∧ k' = k ∧ k < (n.party side.other).emitted.length

def Delivered (n : Network) (side : Side) (k : Nat) : List Action → Prop
  | [] => False
  | action :: rest => n.Delivers side k action ∨ (n.step action).Delivered side k rest

instance (n : Network) (side : Side) (k : Nat) : (action : Action) → Decidable (n.Delivers side k action)
  | .call _ _ => isFalse id
  | .deliver _ _ _ => inferInstanceAs (Decidable (_ ∧ _ ∧ _))

instance decidableDelivered (side : Side) (k : Nat) :
    (n : Network) → (actions : List Action) → Decidable (n.Delivered side k actions)
  | _, [] => isFalse id
  | n, action :: rest =>
      have : Decidable ((n.step action).Delivered side k rest) := decidableDelivered side k _ rest
      inferInstanceAs (Decidable (n.Delivers side k action ∨ (n.step action).Delivered side k rest))

/-- Everything that a side sent as its `mark`-th segment or later arrives at the other side. -/
def AllDelivered (mark : Side → Nat) (n : Network) (actions : List Action) : Prop :=
  ∀ side, ∀ k < ((exec n actions).party side.other).emitted.length, mark side.other ≤ k →
    n.Delivered side k actions

@[simp] theorem perform_self (n : Network) (side : Side) (event : Event) :
    (n.perform side event).party side = (n.party side).step event := Function.update_self ..

@[simp] theorem perform_other (n : Network) (side : Side) (event : Event) :
    (n.perform side event).party side.other = n.party side.other :=
  Function.update_of_ne (Side.other_ne side) ..

end Network

end MagnumTcp.Tcp
