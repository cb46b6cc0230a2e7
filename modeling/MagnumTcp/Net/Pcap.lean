import MagnumTcp.Lib.Records
import MagnumTcp.Tcp.Header

namespace MagnumTcp

open Tcp

def toLeBytes16 (x : U16) : Bytes := (toBeBytes16 x).reverse
def toLeBytes32 (x : U32) : Bytes := (toBeBytes32 x).reverse

def linktypeEthernet : U32 := 1#32

def pcapMagicLe : U32 := 0xa1b2c3d4#32
def pcapVersionMajor : U16 := 2#16
def pcapVersionMinor : U16 := 4#16
def pcapSnaplen : U32 := 65535#32

structure SystemTime where
  secs : Nat
  subsecMicros : U32
deriving DecidableEq, Repr

structure PcapWriter where
  writer : Bytes
deriving DecidableEq, Repr

namespace PcapWriter

def new (linktype : U32) : PcapWriter where
  writer :=
    toLeBytes32 pcapMagicLe ++ toLeBytes16 pcapVersionMajor ++ toLeBytes16 pcapVersionMinor ++
      toLeBytes32 0#32 ++ toLeBytes32 0#32 ++ toLeBytes32 pcapSnaplen ++ toLeBytes32 linktype

def writePacket (w : PcapWriter) (now : SystemTime) (data : Bytes) : PcapWriter :=
  let tsSec := BitVec.ofNat 32 now.secs
  let tsUsec := now.subsecMicros
  let len := BitVec.ofNat 32 data.length
  { writer :=
      w.writer ++ toLeBytes32 tsSec ++ toLeBytes32 tsUsec ++ toLeBytes32 len ++ toLeBytes32 len ++
        data }

def writeAll (w : PcapWriter) (packets : List (SystemTime × Bytes)) : PcapWriter :=
  packets.foldl (fun w packet => w.writePacket packet.1 packet.2) w

end PcapWriter

structure PcapRecord where
  tsSec : U32
  tsUsec : U32
  origLen : U32
  data : Bytes
deriving DecidableEq, Repr

def leU32 (raw : Bytes) (i : Nat) : U32 :=
  beU32 (raw.getD (i + 3) 0#8) (raw.getD (i + 2) 0#8) (raw.getD (i + 1) 0#8) (raw.getD i 0#8)

def recordHeaderLen : Nat := 16

def PcapRecord.header (r : PcapRecord) : Bytes :=
  toLeBytes32 r.tsSec ++ toLeBytes32 r.tsUsec ++ toLeBytes32 (BitVec.ofNat 32 r.data.length) ++
    toLeBytes32 r.origLen

def readRecord (raw : Bytes) : Option (PcapRecord × Bytes) :=
  let inclLen := (leU32 raw 8).toNat
  if raw.length < recordHeaderLen + inclLen then none
  else
    some
      (⟨leU32 raw 0, leU32 raw 4, leU32 raw 12, (raw.drop recordHeaderLen).take inclLen⟩,
        raw.drop (recordHeaderLen + inclLen))

def pcapHeaderLen : Nat := 24

end MagnumTcp
