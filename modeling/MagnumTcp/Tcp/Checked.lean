import MagnumTcp.Lib.CheckedWord
import MagnumTcp.Tcp.Connection

namespace MagnumTcp.Tcp

namespace Connection

-- From here on `none` is the panic of a checked operator on `u32`.
def inflightU32 (c : Connection) : U32 := c.tcb.snd.nxt - c.tcb.snd.una

def effectiveWindowU32 (c : Connection) : U32 := minU32 c.tcb.cwnd (c.tcb.snd.wnd.setWidth 32)

def nextSegmentToSendChecked (c : Connection) (now : Instant) (maxPayload : Nat) :
    Option (Connection × Option Bytes) :=
  if c.inflightU32 ≥ c.effectiveWindowU32 then some (c, none)
  else do
    let windowAvail ← CheckedWord.sub c.effectiveWindowU32 c.inflightU32
    let maxLen := min maxPayload windowAvail.toNat
    match c.sendBuf.nextSegment maxLen with
    | none => return (c, none)
    | some (seq, payload) =>
        let sendBuf := c.sendBuf.advanceNxt payload.length
        let c :=
          { c with
            sendBuf := sendBuf
            retransmitQueue := c.retransmitQueue.push now seq payload
            tcb := { c.tcb with snd := { c.tcb.snd with nxt := sendBuf.nxt } } }
        return (c, some (c.buildData seq payload))

def halvedWindowChecked (c : Connection) : Option U32 := do
  let half ← CheckedWord.div c.tcb.cwnd 2#32
  let least ← CheckedWord.mul 2#32 mss
  return maxU32 half least

def restartChecked (c : Connection) : Option Connection := do
  let ssthresh ← c.halvedWindowChecked
  return { c with tcb := { c.tcb with ssthresh := ssthresh, cwnd := mss } }

def takeRetransmitsChecked (c : Connection) (now : Instant) : Option (Connection × List Bytes) := do
  let (queue, expired) := c.retransmitQueue.expiredSegments now
  let c := { c with retransmitQueue := queue }
  let c ← if expired.isEmpty then some c else c.restartChecked
  return (c, expired.map fun (seq, payload) => c.buildData seq payload)

def grownWindowChecked (c : Connection) (seg : TcpSegment) : Option U32 :=
  let bytesAcked := seg.header.ackNum - c.tcb.snd.una
  if c.tcb.cwnd < c.tcb.ssthresh then some (saturatingAdd c.tcb.cwnd (minU32 bytesAcked mss))
  else do
    let square ← CheckedWord.mul mss mss
    let share ← CheckedWord.div square c.tcb.cwnd
    return saturatingAdd c.tcb.cwnd share

def countDupAckChecked (c : Connection) : Option (Connection × Option Bytes) :=
  let dupAckCount := saturatingAdd c.tcb.dupAckCount 1#8
  let c := { c with tcb := { c.tcb with dupAckCount := dupAckCount } }
  if dupAckCount = 3#8 then do
    let ssthresh ← c.halvedWindowChecked
    let inflation ← CheckedWord.mul 3#32 mss
    let cwnd ← CheckedWord.add ssthresh inflation
    let c := { c with tcb := { c.tcb with ssthresh := ssthresh, cwnd := cwnd } }
    return (c, c.fastRetransmitSegment)
  else if dupAckCount > 3#8 then
    some ({ c with tcb := { c.tcb with cwnd := saturatingAdd c.tcb.cwnd mss } }, none)
  else some (c, none)

def establishedAckChecked (c : Connection) (now : Instant) (seg : TcpSegment) :
    Option (Connection × Option Bytes) :=
  if !seg.header.flags.ack then some (c, none)
  else if c.acceptable seg then do
    let cwnd ← c.grownWindowChecked seg
    let c := c.acknowledge now seg
    return ({ c with tcb := { c.tcb with cwnd := cwnd, dupAckCount := 0#8 } }, none)
  else if c.isDupAck seg then c.countDupAckChecked
  else some (c, none)

def handleEstablishedChecked (c : Connection) (now : Instant) (seg : TcpSegment) :
    Option (Connection × Option Bytes) :=
  if seg.header.flags.rst then some (c.withState .closed, none)
  else do
    match ← c.establishedAckChecked now seg with
    | (c, some retransmit) => return (c, some retransmit)
    | (c, none) => return c.establishedReceive seg

end Connection

end MagnumTcp.Tcp
