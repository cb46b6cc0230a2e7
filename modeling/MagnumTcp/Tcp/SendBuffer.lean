import MagnumTcp.Lib.RingBuffer
import MagnumTcp.Tcp.Tcb

namespace MagnumTcp.Tcp

def sendBufSize : Nat := 65536

structure SendBuffer where
  ring : RingBuffer U8 sendBufSize
  una : U32
  nxt : U32

namespace SendBuffer

def new (iss : U32) : SendBuffer where
  ring := .empty 0#8 (by decide)
  una := iss + 1#32
  nxt := iss + 1#32

def len (sb : SendBuffer) : Nat := sb.ring.len

def write (sb : SendBuffer) (data : Bytes) : SendBuffer × Nat :=
  let (ring, n) := sb.ring.write data
  ({ sb with ring := ring }, n)

def inflight (sb : SendBuffer) : Nat := (sb.nxt - sb.una).toNat

def nextSegment (sb : SendBuffer) (maxLen : Nat) : Option (U32 × Bytes) :=
  if sb.inflight ≥ sb.len then none
  else
    let available := sb.len - sb.inflight
    let n := min available maxLen
    if n = 0 then none
    else some (sb.nxt, sb.ring.peek sb.inflight n)

def advanceNxt (sb : SendBuffer) (n : Nat) : SendBuffer :=
  { sb with nxt := sb.nxt + BitVec.ofNat 32 n }

def acknowledge (sb : SendBuffer) (ack : U32) : SendBuffer :=
  let newlyAcked := (ack - sb.una).toNat
  if newlyAcked = 0 ∨ newlyAcked > sb.len then sb
  else { sb with ring := sb.ring.skip newlyAcked, una := ack }

def buffered (sb : SendBuffer) : Nat := sb.len

def isEmpty (sb : SendBuffer) : Bool := sb.len == 0

end SendBuffer

end MagnumTcp.Tcp
