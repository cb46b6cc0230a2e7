import MagnumTcp.Lib.Runs
import MagnumTcp.Tcp.RecvBuffer

namespace MagnumTcp.Tcp

inductive RecvOp where
  | insert (seq : U32) (data : Bytes)
  | read (bufLen : Nat)

structure Script where
  buffer : RecvBuffer
  -- What each `read` copied out, the first one first; its length is the value it returned.
  reads : List Bytes

namespace Script

def start (irs : U32) : Script := ⟨.new irs, []⟩

def step (s : Script) : RecvOp → Script
  | .insert seq data => { s with buffer := s.buffer.insert seq data }
  | .read bufLen =>
      let (buffer, bytes) := s.buffer.read bufLen
      ⟨buffer, s.reads ++ [bytes]⟩

def received (s : Script) : Bytes := s.reads.flatten

abbrev exec (s : Script) (ops : List RecvOp) : Script := Runs.exec step s ops

abbrev Always (P : Script → Prop) (s : Script) (ops : List RecvOp) : Prop := Runs.Always step P s ops

abbrev Along (D : Script → RecvOp → Prop) (s : Script) (ops : List RecvOp) : Prop :=
  Runs.Along step D s ops

end Script

end MagnumTcp.Tcp
