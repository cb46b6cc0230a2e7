import MagnumTcp.Tcp.Tcb

/-!
# The retransmit queue

`retransmit.rs`: the segments in flight, at most 128 of them, and the estimator of RFC 6298. The clock is
read by the caller and passed as `now`; `Instant::duration_since` stops at zero, as subtraction
of natural numbers does. The estimator works in binary64, which is Lean's `Float`.
-/

namespace MagnumTcp.Tcp

def mss : U32 := 1460#32
def retransmitQueueMax : Nat := 128

def initialRto : Duration := .fromMillis 1000
def minRto : Duration := .fromMillis 200
def maxRto : Duration := .fromSecs 60
def alpha : Float := 0.125
def beta : Float := 0.25

def asSecsF64 (d : Duration) : Float :=
  Float.ofNat (d / 1000000000) + Float.ofNat (d % 1000000000) / 1000000000.0

def clampF64 (x lo hi : Float) : Float := if x < lo then lo else if x > hi then hi else x

-- `Duration::from_secs_f64` rounds the exact value of its argument to the nearest nanosecond, ties to
-- even. It is only called on values clamped to the range from `minRto` to `maxRto`.
def fromSecsF64 (secs : Float) : Duration :=
  let (fraction, exponent) := secs.frExp
  let significand := (fraction * 9007199254740992.0).toUInt64.toNat
  let scaled := significand * 1000000000
  if exponent ≥ 53 then scaled * 2 ^ (exponent - 53).toNat
  else
    let unit := 2 ^ (53 - exponent).toNat
    let floor := scaled / unit
    let rest := 2 * (scaled % unit)
    if rest > unit ∨ rest = unit ∧ floor % 2 = 1 then floor + 1 else floor

structure RetransmitEntry where
  seq : U32
  data : Bytes
  sentAt : Instant
  retransmitted : Bool

structure RetransmitQueue where
  entries : List RetransmitEntry
  rto : Duration
  srtt : Option Float
  rttvar : Float

def fullyAcked (endSeq ack : U32) : Bool := seqLe endSeq ack

def RetransmitEntry.endSeq (e : RetransmitEntry) : U32 := e.seq + BitVec.ofNat 32 e.data.length

namespace RetransmitQueue

def new : RetransmitQueue where
  entries := []
  rto := initialRto
  srtt := none
  rttvar := 0.0

def push (q : RetransmitQueue) (now : Instant) (seq : U32) (data : Bytes) : RetransmitQueue :=
  if q.entries.length < retransmitQueueMax then
    { q with entries := q.entries ++
        [{ seq := seq, data := data, sentAt := now, retransmitted := false }] }
  else q

-- RFC 6298 §2.3: RTTVAR and SRTT update
def updateRto (q : RetransmitQueue) (rtt : Duration) : RetransmitQueue :=
  let r := asSecsF64 rtt
  let rttvar := match q.srtt with
    | none => r / 2.0
    | some srtt => (1.0 - beta) * q.rttvar + beta * (srtt - r).abs
  let srtt := match q.srtt with
    | none => r
    | some srtt => (1.0 - alpha) * srtt + alpha * r
  let rtoSecs := clampF64 (srtt + 4.0 * rttvar) (asSecsF64 minRto) (asSecsF64 maxRto)
  { q with srtt := some srtt, rttvar := rttvar, rto := fromSecsF64 rtoSecs }

-- RFC 6298 §4: only sample RTT from non-retransmitted segments
def rttSamples (q : RetransmitQueue) (now : Instant) (ack : U32) : List Duration :=
  (q.entries.filter fun e => fullyAcked e.endSeq ack && !e.retransmitted).map fun e => now - e.sentAt

def acknowledgeAndSampleRtt (q : RetransmitQueue) (now : Instant) (ack : U32) : RetransmitQueue :=
  (q.rttSamples now ack).foldl updateRto
    { q with entries := q.entries.filter fun e => !fullyAcked e.endSeq ack }

def expired (q : RetransmitQueue) (now : Instant) (e : RetransmitEntry) : Bool :=
  decide (now - e.sentAt ≥ q.rto)

def expiredSegments (q : RetransmitQueue) (now : Instant) :
    RetransmitQueue × List (U32 × Bytes) :=
  let segments := (q.entries.filter (q.expired now)).map fun e => (e.seq, e.data)
  let entries := q.entries.map fun e =>
    if q.expired now e then { e with sentAt := now, retransmitted := true } else e
  -- RFC 6298 §5.5: exponential backoff on retransmit
  let rto := if segments.isEmpty then q.rto else min (q.rto * 2) maxRto
  ({ q with entries := entries, rto := rto }, segments)

def firstUnacked (q : RetransmitQueue) : Option (U32 × Bytes) :=
  q.entries.head?.map fun e => (e.seq, e.data)

end RetransmitQueue

end MagnumTcp.Tcp
