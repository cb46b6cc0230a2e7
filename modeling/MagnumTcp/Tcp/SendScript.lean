import MagnumTcp.Lib.Runs
import MagnumTcp.Tcp.SendBuffer

namespace MagnumTcp.Tcp

inductive SendOp where
  | write (data : Bytes)
  | emit (maxLen : Nat)
  | acknowledge (ack : U32)

structure SendScript where
  buffer : SendBuffer
  -- Every byte that a `write` took, and every byte that an emission carried, the first one first.
  accepted : Bytes
  emitted : Bytes
  acknowledged : Nat

namespace SendScript

def start (iss : U32) : SendScript := ⟨.new iss, [], [], 0⟩

def step (s : SendScript) : SendOp → SendScript
  | .write data =>
      let (buffer, n) := s.buffer.write data
      { s with buffer := buffer, accepted := s.accepted ++ data.take n }
  | .emit maxLen =>
      match s.buffer.nextSegment maxLen with
      | none => s
      | some (_, bytes) =>
          { s with buffer := s.buffer.advanceNxt bytes.length, emitted := s.emitted ++ bytes }
  | .acknowledge ack =>
      { s with
          buffer := s.buffer.acknowledge ack
          acknowledged := s.acknowledged + (ack - s.buffer.una).toNat }

def Acknowledges (s : SendScript) : SendOp → Prop
  | .acknowledge ack => (ack - s.buffer.una).toNat ≤ (s.buffer.nxt - s.buffer.una).toNat
  | _ => True

instance (s : SendScript) : (op : SendOp) → Decidable (s.Acknowledges op)
  | .write _ => isTrue trivial
  | .emit _ => isTrue trivial
  | .acknowledge _ => inferInstanceAs (Decidable (_ ≤ _))

abbrev exec (s : SendScript) (ops : List SendOp) : SendScript := Runs.exec step s ops

abbrev Always (P : SendScript → Prop) (s : SendScript) (ops : List SendOp) : Prop :=
  Runs.Always step P s ops

abbrev Along (D : SendScript → SendOp → Prop) (s : SendScript) (ops : List SendOp) : Prop :=
  Runs.Along step D s ops

end SendScript

end MagnumTcp.Tcp
