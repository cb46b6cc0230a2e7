import MagnumTcp.Proof.Congestion
import MagnumTcp.Proof.Established

namespace MagnumTcp.Tcp

namespace Connection

variable {c c' : Connection} {now : Instant} {seg : TcpSegment} {n : Nat}

/-- A duplicate acknowledgement of RFC 5681 §2, its window aside. -/
def dupAck (c : Connection) (seg : TcpSegment) : Bool :=
  let flags := seg.header.flags
  flags.ack && !flags.syn && !flags.fin && !flags.rst && seg.payload.isEmpty && c.isDupAck seg

def acksAll (c : Connection) (seg : TcpSegment) : Bool :=
  seg.header.flags.ack && !seg.header.flags.rst && seg.header.ackNum == c.tcb.snd.nxt

def countsDupAck (c : Connection) (seg : TcpSegment) : Bool :=
  c.tcb.state == .established && !seg.header.flags.rst && seg.header.flags.ack && c.isDupAck seg

def reduces (c : Connection) (seg : TcpSegment) : Bool :=
  c.countsDupAck seg && c.tcb.dupAckCount == 2#8

def processAll (c : Connection) (segments : List (Instant × TcpSegment)) : Connection :=
  segments.foldl (fun c arrived => (c.processSegment arrived.1 arrived.2).1) c

theorem dupAck_congr (same : c'.tcb.snd = c.tcb.snd) (seg : TcpSegment) :
    c'.dupAck seg = c.dupAck seg := by
  simp only [dupAck, isDupAck, same]

theorem isDupAck_of_dupAck (dup : c.dupAck seg = true) : c.isDupAck seg = true := by
  simp only [dupAck, Bool.and_eq_true] at dup
  exact dup.2

theorem processSegment_dupAck (now : Instant) (state : c.tcb.state = .established)
    (dup : c.dupAck seg = true) : (c.processSegment now seg).1.tcb = c.countDupAck.1.tcb := by
  simp only [dupAck, Bool.and_eq_true, Bool.not_eq_true'] at dup
  obtain ⟨⟨⟨⟨⟨ack, -⟩, fin⟩, rst⟩, payload⟩, dup⟩ := dup
  rw [processSegment_established state, handleEstablished, if_neg (by simp [rst]),
    establishedAck_isDupAck now ack dup]
  cases c.countDupAck with
  | mk c' reply =>
      cases reply with
      | none => simp [establishedReceive, payload, fin]
      | some retransmit => rfl

structure Recovering (c c' : Connection) (n : Nat) : Prop where
  state : c'.tcb.state = .established
  snd : c'.tcb.snd = c.tcb.snd
  count : c'.tcb.dupAckCount.toNat = min n 255
  waiting : n < 3 → c'.tcb.cwnd = c.tcb.cwnd
  threshold : 3 ≤ n → c'.tcb.ssthresh = c.halvedWindow
  inflated : 3 ≤ n →
    c'.tcb.cwnd.toNat = min (c.halvedWindow.toNat + n * mss.toNat) (2 ^ 32 - 1)

theorem Recovering.start (state : c.tcb.state = .established) (fresh : c.tcb.dupAckCount = 0#8) :
    c.Recovering c 0 where
  state := state
  snd := rfl
  count := by rw [fresh]; rfl
  waiting := fun _ => rfl
  threshold := fun third => absurd third (by decide)
  inflated := fun third => absurd third (by decide)

theorem Recovering.third (recovering : c.Recovering c' n) : c'.tcb.dupAckCount = 2#8 ↔ n = 2 := by
  rw [← BitVec.toNat_inj, recovering.count, show (2#8).toNat = 2 from rfl]
  omega

theorem Recovering.past (recovering : c.Recovering c' n) : c'.tcb.dupAckCount > 2#8 ↔ 2 < n := by
  rw [gt_iff_lt, BitVec.lt_def, recovering.count, show (2#8).toNat = 2 from rfl]
  omega

theorem Recovering.step (recovering : c.Recovering c' n) (now : Instant)
    (dup : c.dupAck seg = true) : c.Recovering (c'.processSegment now seg).1 (n + 1) := by
  have tcb := processSegment_dupAck now recovering.state ((dupAck_congr recovering.snd seg).trans dup)
  rw [countDupAck_tcb] at tcb
  simp only [recovering.third, recovering.past] at tcb
  refine ⟨?_, ?_, ?_, ?_, ?_, ?_⟩ <;> rw [tcb]
  · exact recovering.state
  · exact recovering.snd
  · dsimp only
    rw [saturatingAdd_toNat, recovering.count, show (1#8).toNat = 1 from rfl]
    omega
  · intro early
    dsimp only
    rw [if_neg (by omega), if_neg (by omega)]
    exact recovering.waiting (by omega)
  · intro late
    dsimp only
    by_cases third : n = 2
    · rw [if_pos third, halvedWindow, halvedWindow, recovering.waiting (by omega)]
    · rw [if_neg third]
      exact recovering.threshold (by omega)
  · intro late
    dsimp only
    by_cases third : n = 2
    · obtain ⟨-, small⟩ := c.halvedWindow_bounds
      have same : c'.halvedWindow = c.halvedWindow := by
        rw [halvedWindow, halvedWindow, recovering.waiting (by omega)]
      rw [if_pos third, same, c.inflated_toNat, third]
      change c.halvedWindow.toNat + 4380 = min (c.halvedWindow.toNat + 4380) (2 ^ 32 - 1)
      omega
    · rw [if_neg third, if_pos (by omega), saturatingAdd_toNat, recovering.inflated (by omega),
        Nat.add_mul]
      omega

theorem Recovering.processAll (recovering : c.Recovering c' n) (dups : List (Instant × TcpSegment))
    (duplicates : ∀ arrived ∈ dups, c.dupAck arrived.2 = true) :
    c.Recovering (c'.processAll dups) (n + dups.length) := by
  induction dups generalizing c' n with
  | nil => exact recovering
  | cons arrived rest ih =>
      obtain ⟨first, later⟩ := List.forall_mem_cons.mp duplicates
      have all := ih (recovering.step arrived.1 first) later
      rwa [List.length_cons, ← Nat.add_assoc, Nat.add_right_comm]

theorem grownWindow_small (c : Connection) (seg : TcpSegment) (past : ¬ c.tcb.cwnd < c.tcb.ssthresh)
    (large : 7300 ≤ c.tcb.cwnd.toNat) : (c.grownWindow seg).toNat ≤ c.tcb.cwnd.toNat + 292 := by
  have quotient : (mss * mss / c.tcb.cwnd).toNat ≤ 292 := by
    rw [BitVec.toNat_udiv, show (mss * mss).toNat = 292 * 7300 from rfl]
    calc 292 * 7300 / c.tcb.cwnd.toNat ≤ 292 * 7300 / 7300 := Nat.div_le_div_left large (by decide)
      _ = 292 := by norm_num
  unfold grownWindow
  rw [if_neg past, saturatingAdd_toNat]
  omega

theorem processSegment_acksAll (now : Instant) (state : c.tcb.state = .established)
    (outstanding : c.tcb.snd.una ≠ c.tcb.snd.nxt) (all : c.acksAll seg = true) :
    (c.processSegment now seg).1.tcb.ssthresh = c.tcb.ssthresh ∧
      ((c.processSegment now seg).1.tcb.cwnd = c.tcb.cwnd ∨
        (c.processSegment now seg).1.tcb.cwnd = c.grownWindow seg) := by
  simp only [acksAll, Bool.and_eq_true, Bool.not_eq_true', beq_iff_eq] at all
  obtain ⟨⟨ack, rst⟩, number⟩ := all
  obtain ⟨rcv, after, tcb⟩ := handleEstablished_tcb (c := c) now rst
  have new : c.isDupAck seg = false := by
    simp [isDupAck, number, outstanding.symm]
  rw [processSegment_established state, tcb]
  unfold establishedAck
  rw [ack, new]
  by_cases good : c.acceptable seg = true
  · simp [good, acknowledge]
  · simp [good]

theorem Recovering.leave (recovering : c.Recovering c' n) (recovery : 3 ≤ n) (now : Instant)
    (outstanding : c.tcb.snd.una ≠ c.tcb.snd.nxt) (all : c.acksAll seg = true) :
    (c'.processSegment now seg).1.tcb.ssthresh = c.halvedWindow ∧
      c'.tcb.cwnd.toNat ≤ (c'.processSegment now seg).1.tcb.cwnd.toNat ∧
      (c'.processSegment now seg).1.tcb.cwnd.toNat ≤ c'.tcb.cwnd.toNat + 292 := by
  obtain ⟨large, small⟩ := c.halvedWindow_bounds
  have threshold := recovering.threshold recovery
  have inflated := recovering.inflated recovery
  have all' : c'.acksAll seg = true := by simpa only [acksAll, recovering.snd] using all
  rw [← recovering.snd] at outstanding
  obtain ⟨same, window⟩ := processSegment_acksAll now recovering.state outstanding all'
  refine ⟨same.trans threshold, ?_⟩
  have segment : mss.toNat = 1460 := rfl
  rw [segment] at large inflated
  rcases window with kept | grown
  · rw [kept]
    omega
  · have past : ¬ c'.tcb.cwnd < c'.tcb.ssthresh := by
      rw [BitVec.lt_def, inflated, threshold]
      omega
    rw [grown]
    exact ⟨c'.grownWindow_ge seg, c'.grownWindow_small seg past (by omega)⟩

theorem processAll_append (c : Connection) (before after : List (Instant × TcpSegment)) :
    c.processAll (before ++ after) = (c.processAll before).processAll after :=
  List.foldl_append

theorem outstanding_of_dupAck (dup : c.dupAck seg = true) : c.tcb.snd.una ≠ c.tcb.snd.nxt := by
  have counted := isDupAck_of_dupAck dup
  simp only [isDupAck, Bool.and_eq_true, bne_iff_ne] at counted
  exact counted.2

theorem processAll_leave (state : c.tcb.state = .established) (fresh : c.tcb.dupAckCount = 0#8)
    {dups : List (Instant × TcpSegment)} {last : Instant × TcpSegment} (enough : 3 ≤ dups.length)
    (duplicates : ∀ arrived ∈ dups, c.dupAck arrived.2 = true) (all : c.acksAll last.2 = true) :
    (c.processAll dups).tcb.ssthresh = c.halvedWindow ∧
      min (c.halvedWindow.toNat + dups.length * 1460) (2 ^ 32 - 1) ≤
        (c.processAll (dups ++ [last])).tcb.cwnd.toNat ∧
      (c.processAll (dups ++ [last])).tcb.cwnd.toNat ≤
        min (c.halvedWindow.toNat + dups.length * 1460) (2 ^ 32 - 1) + 292 := by
  have outstanding := outstanding_of_dupAck (duplicates dups[0] (List.getElem_mem _))
  have recovering := (Recovering.start state fresh).processAll dups duplicates
  rw [Nat.zero_add] at recovering
  obtain ⟨-, lower, upper⟩ := recovering.leave enough last.1 outstanding all
  rw [recovering.inflated enough, show mss.toNat = 1460 from rfl] at lower upper
  rw [processAll_append]
  exact ⟨recovering.threshold enough, lower, upper⟩

/-- Recovery is left with the inflated window: at least three segments above the threshold that the
third duplicate has set, and higher for four duplicates than for three. -/
theorem inflation_outlives_recovery (c : Connection) (state : c.tcb.state = .established)
    (fresh : c.tcb.dupAckCount = 0#8) (last : Instant × TcpSegment) (all : c.acksAll last.2 = true) :
    (∀ dups : List (Instant × TcpSegment), 3 ≤ dups.length →
      (∀ arrived ∈ dups, c.dupAck arrived.2 = true) →
      ¬ (c.processAll (dups ++ [last])).tcb.cwnd.toNat ≤
        (c.processAll dups).tcb.ssthresh.toNat + mss.toNat) ∧
    ∀ three four : List (Instant × TcpSegment), three.length = 3 → four.length = 4 →
      (∀ arrived ∈ three ++ four, c.dupAck arrived.2 = true) →
      (c.processAll (three ++ [last])).tcb.cwnd ≠ (c.processAll (four ++ [last])).tcb.cwnd := by
  obtain ⟨-, small⟩ := c.halvedWindow_bounds
  constructor
  · intro dups enough duplicates
    obtain ⟨threshold, lower, -⟩ := processAll_leave state fresh enough duplicates all
    rw [threshold, show mss.toNat = 1460 from rfl]
    omega
  · intro three four length₃ length₄ duplicates same
    rw [List.forall_mem_append] at duplicates
    obtain ⟨-, -, upper⟩ := processAll_leave state fresh (by omega) duplicates.1 all
    obtain ⟨-, lower, -⟩ := processAll_leave state fresh (by omega) duplicates.2 all
    rw [same] at upper
    omega

end Connection

namespace Session

def duplicates (k : Nat) : List (Instant × TcpSegment) :=
  List.replicate k (0, ackSegment (serverIsn + 1#32) 65535#16)

theorem three_duplicates_inflate :
    Along Orderly server flowing ∧
    (exec server flowing).conn.tcb.state = .established ∧
    (exec server flowing).conn.tcb.dupAckCount = 0#8 ∧
    (exec server flowing).conn.tcb.snd.una ≠ (exec server flowing).conn.tcb.snd.nxt ∧
    (∀ arrived ∈ duplicates 3, (exec server flowing).conn.dupAck arrived.2 = true) ∧
    (exec server flowing).conn.acksAll (ackSegment (serverIsn + 2#32) 65535#16) = true ∧
    ¬ ((exec server flowing).conn.processAll
        (duplicates 3 ++ [(0, ackSegment (serverIsn + 2#32) 65535#16)])).tcb.cwnd.toNat ≤
      ((exec server flowing).conn.processAll (duplicates 3)).tcb.ssthresh.toNat + mss.toNat := by
  decide +kernel

theorem inflation_outlives_recovery_flowing :
    ((exec server flowing).conn.tcb.state = .established ∧
      (exec server flowing).conn.tcb.dupAckCount = 0#8 ∧
      (exec server flowing).conn.acksAll (ackSegment (serverIsn + 2#32) 65535#16) = true ∧
      ∀ arrived ∈ duplicates 3 ++ duplicates 4,
        (exec server flowing).conn.dupAck arrived.2 = true) ∧
    ((exec server flowing).conn.processAll
        (duplicates 3 ++ [(0, ackSegment (serverIsn + 2#32) 65535#16)])).tcb.cwnd ≠
      ((exec server flowing).conn.processAll
        (duplicates 4 ++ [(0, ackSegment (serverIsn + 2#32) 65535#16)])).tcb.cwnd := by
  have state : (exec server flowing).conn.tcb.state = .established := by decide +kernel
  have fresh : (exec server flowing).conn.tcb.dupAckCount = 0#8 := by decide +kernel
  have all : (exec server flowing).conn.acksAll (ackSegment (serverIsn + 2#32) 65535#16) = true := by
    decide +kernel
  have duplicate : ∀ arrived ∈ duplicates 3 ++ duplicates 4,
      (exec server flowing).conn.dupAck arrived.2 = true := by decide +kernel
  exact ⟨⟨state, fresh, all, duplicate⟩,
    (Connection.inflation_outlives_recovery _ state fresh (0, _) all).2 _ _ rfl rfl duplicate⟩

end Session

end MagnumTcp.Tcp
