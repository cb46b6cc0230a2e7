import MagnumTcp.Lib.RingBuffer
import MagnumTcp.Lib.SortedMap
import MagnumTcp.Tcp.Tcb

namespace MagnumTcp.Tcp

def recvBufSize : Nat := 65536

structure RecvBuffer where
  ring : RingBuffer U8 recvBufSize
  nxt : U32
  ooo : SortedMap U32 Bytes

namespace RecvBuffer

def new (irs : U32) : RecvBuffer where
  ring := .empty 0#8 (by decide)
  nxt := irs + 1#32
  ooo := .empty

def len (rb : RecvBuffer) : Nat := rb.ring.len

def commit (rb : RecvBuffer) (data : Bytes) : RecvBuffer :=
  let (ring, n) := rb.ring.write data
  { rb with ring := ring, nxt := rb.nxt + BitVec.ofNat 32 n }

-- The loop of `drain_ooo` removes one key in each round, so it recurses on what the map still holds.
def drain (rb : RecvBuffer) : (entries : List (U32 × Bytes)) → KeysIncrease entries → RecvBuffer
  | [], increasing => { rb with ooo := ⟨[], increasing⟩ }
  | (key, data) :: rest, increasing =>
      if key ≠ rb.nxt then { rb with ooo := ⟨(key, data) :: rest, increasing⟩ }
      else drain (rb.commit data) rest (List.Pairwise.of_cons increasing)

def drainOoo (rb : RecvBuffer) : RecvBuffer := rb.drain rb.ooo.entries rb.ooo.increasing

-- What is left of a segment once the bytes before `nxt` are trimmed: nothing, or where it starts
-- and its bytes.
def trimmed (rb : RecvBuffer) (seq : U32) (data : Bytes) : Option (U32 × Bytes) :=
  if seqLt seq rb.nxt then
    let past := (rb.nxt - seq).toNat
    if past ≥ data.length then none
    else some (seq + BitVec.ofNat 32 past, data.drop past)
  else some (seq, data)

def insert (rb : RecvBuffer) (seq : U32) (data : Bytes) : RecvBuffer :=
  if data.isEmpty then rb
  else
    match rb.trimmed seq data with
    | none => rb
    | some (effectiveSeq, effectiveData) =>
        if effectiveSeq = rb.nxt then (rb.commit effectiveData).drainOoo
        else { rb with ooo := rb.ooo.insertNew effectiveSeq effectiveData }

-- The bytes copied out, whose number is the value `read` returns, with a destination of `bufLen` bytes.
def read (rb : RecvBuffer) (bufLen : Nat) : RecvBuffer × Bytes :=
  let n := min bufLen rb.len
  ({ rb with ring := rb.ring.skip n }, rb.ring.peek 0 n)

def nextExpected (rb : RecvBuffer) : U32 := rb.nxt

def window (rb : RecvBuffer) : U16 := BitVec.ofNat 16 (min (recvBufSize - rb.len) 65535)

def available (rb : RecvBuffer) : Nat := rb.len

end RecvBuffer

end MagnumTcp.Tcp
