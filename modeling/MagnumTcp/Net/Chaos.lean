import MagnumTcp.Tcp.Tcb

namespace MagnumTcp

abbrev U64 := BitVec 64

structure ChaosConfig where
  dropRate : Float
  reorderRate : Float
  maxJitterMs : U64

-- What the random numbers decide about one packet.
structure Fate where
  dropped : Bool
  delayMs : Nat
  reorder : Bool
deriving DecidableEq, Repr

abbrev Pending := List (Bytes × Instant)

structure ChaosMiddleware where
  config : ChaosConfig
  pending : Pending
  rng : U64

-- `xorshift64`: the next state is also the number drawn.
def nextU64 (rng : U64) : U64 :=
  let x := rng ^^^ (rng <<< 13)
  let y := x ^^^ (x >>> 7)
  y ^^^ (y <<< 17)

def asF64 (n : U64) : Float := Float.ofNat (n >>> 11).toNat / Float.ofNat (2 ^ 53)

-- The loop of `flush_ready`.
def popReady (now : Instant) : Pending → List Bytes × Pending
  | [] => ([], [])
  | (packet, release) :: rest =>
      if release ≤ now then
        let (out, left) := popReady now rest
        (packet :: out, left)
      else ([], (packet, release) :: rest)

namespace ChaosMiddleware

def new (config : ChaosConfig) : ChaosMiddleware := ⟨config, [], 0x123456789abcdef0#64⟩

def flushReady (m : ChaosMiddleware) (now : Instant) : ChaosMiddleware × List Bytes :=
  let (out, left) := popReady now m.pending
  ({ m with pending := left }, out)

-- The numbers that `intercept` draws, in its order. With a `max_jitter_ms` of `u64::MAX` the source panics
-- where it adds one.
def fate (m : ChaosMiddleware) : ChaosMiddleware × Fate :=
  let rng := nextU64 m.rng
  if asF64 rng < m.config.dropRate then ({ m with rng := rng }, ⟨true, 0, false⟩)
  else
    let (rng, delayMs) :=
      if m.config.maxJitterMs > 0#64 then
        (nextU64 rng, (nextU64 rng).toNat % (m.config.maxJitterMs.toNat + 1))
      else (rng, 0)
    let rng := nextU64 rng
    ({ m with rng := rng }, ⟨false, delayMs, asF64 rng < m.config.reorderRate⟩)

def interceptWith (m : ChaosMiddleware) (packet : Bytes) (fate : Fate) (now : Instant) :
    ChaosMiddleware × List Bytes :=
  if fate.dropped then (m, [])
  else if fate.delayMs > 0 || fate.reorder then
    let release := now + Duration.fromMillis fate.delayMs
    { m with pending := m.pending ++ [(packet, release)] }.flushReady now
  else
    let (m, out) := m.flushReady now
    (m, out ++ [packet])

def intercept (m : ChaosMiddleware) (packet : Bytes) (now : Instant) :
    ChaosMiddleware × List Bytes :=
  let (m, fate) := m.fate
  m.interceptWith packet fate now

end ChaosMiddleware

inductive ChaosCall where
  | intercept (packet : Bytes) (fate : Fate) (now : Instant)
  | flushReady (now : Instant)

namespace ChaosCall

def now : ChaosCall → Instant
  | .intercept _ _ now => now
  | .flushReady now => now

def drops : ChaosCall → Bool
  | .intercept _ fate _ => fate.dropped
  | .flushReady _ => false

def kept : ChaosCall → Pending
  | .intercept packet fate now =>
      if fate.dropped then [] else [(packet, now + Duration.fromMillis fate.delayMs)]
  | .flushReady _ => []

def queues : ChaosCall → Bool
  | .intercept _ fate _ => fate.delayMs > 0 || fate.reorder
  | .flushReady _ => false

def held (c : ChaosCall) : Pending := if c.queues then c.kept else []
def direct (c : ChaosCall) : Pending := if c.queues then [] else c.kept

end ChaosCall

structure ChaosRun where
  chaos : ChaosMiddleware
  -- The time of the last call, and all packets that were kept, held and put out so far.
  now : Instant
  kept : Pending
  held : Pending
  emitted : List Bytes

namespace ChaosRun

def start (m : ChaosConfig) : ChaosRun := ⟨.new m, 0, [], [], []⟩

def call (r : ChaosRun) : ChaosCall → ChaosMiddleware × List Bytes
  | .intercept packet fate now => r.chaos.interceptWith packet fate now
  | .flushReady now => r.chaos.flushReady now

def step (r : ChaosRun) (c : ChaosCall) : ChaosRun where
  chaos := (r.call c).1
  now := c.now
  kept := r.kept ++ c.kept
  held := r.held ++ c.held
  emitted := r.emitted ++ (r.call c).2

end ChaosRun

end MagnumTcp
