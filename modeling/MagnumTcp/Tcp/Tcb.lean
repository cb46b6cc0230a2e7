import Mathlib.Data.BitVec

namespace MagnumTcp

abbrev U8 := BitVec 8
abbrev U16 := BitVec 16
abbrev U32 := BitVec 32
abbrev Bytes := List U8

abbrev Instant := Nat
abbrev Duration := Nat

def Duration.fromMillis (ms : Nat) : Duration := ms * 1000000
def Duration.fromSecs (secs : Nat) : Duration := secs * 1000000000

structure Ip where
  a : U8
  b : U8
  c : U8
  d : U8
deriving DecidableEq, Repr

namespace Tcp

inductive TcbState where
  | listen
  | synSent
  | synReceived
  | established
  | finWait1
  | finWait2
  | closeWait
  | closing
  | lastAck
  | timeWait
  | closed
deriving DecidableEq, Repr

structure SendSequence where
  una : U32
  nxt : U32
  wnd : U16
  iss : U32
deriving DecidableEq, Repr

structure RecvSequence where
  nxt : U32
  wnd : U16
  irs : U32
deriving DecidableEq, Repr

structure Tcb where
  state : TcbState
  localIp : Ip
  localPort : U16
  remoteIp : Ip
  remotePort : U16
  snd : SendSequence
  rcv : RecvSequence
  cwnd : U32
  ssthresh : U32
  dupAckCount : U8
deriving DecidableEq, Repr

def Tcb.fresh (state : TcbState) (iss : U32) (localIp : Ip) (localPort : U16) (remoteIp : Ip)
    (remotePort : U16) : Tcb where
  state := state
  localIp := localIp
  localPort := localPort
  remoteIp := remoteIp
  remotePort := remotePort
  snd := { una := iss, nxt := iss, wnd := 65535#16, iss := iss }
  rcv := { nxt := 0#32, wnd := 65535#16, irs := 0#32 }
  cwnd := 1460#32
  ssthresh := 65535#32
  dupAckCount := 0#8

def Tcb.newForListen := Tcb.fresh .listen
def Tcb.newForConnect := Tcb.fresh .closed

def seqLt (a b : U32) : Bool := a != b && decide (b - a < 0x80000000#32)

def seqLe (a b : U32) : Bool := a == b || seqLt a b

def ackAcceptable (una ack nxt : U32) : Bool := seqLt una ack && seqLe ack nxt

end Tcp

end MagnumTcp
