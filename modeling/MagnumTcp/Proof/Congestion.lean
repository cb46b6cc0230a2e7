import MagnumTcp.Proof.Frame
import MagnumTcp.Tcp.Checked

namespace MagnumTcp.Tcp

theorem saturatingAdd_toNat {w : Nat} (a b : BitVec w) :
    (saturatingAdd a b).toNat = min (a.toNat + b.toNat) (2 ^ w - 1) := by
  unfold saturatingAdd
  rw [BitVec.toNat_ofNat, Nat.mod_eq_of_lt]
  have := Nat.two_pow_pos w
  omega

theorem le_saturatingAdd {w : Nat} (a b : BitVec w) : a.toNat ≤ (saturatingAdd a b).toNat := by
  rw [saturatingAdd_toNat]
  have := a.isLt
  omega

theorem maxU32_toNat (a b : U32) : (maxU32 a b).toNat = max a.toNat b.toNat := by
  unfold maxU32
  split_ifs with le <;> rw [BitVec.le_def] at le <;> omega

theorem minU32_toNat (a b : U32) : (minU32 a b).toNat = min a.toNat b.toNat := by
  unfold minU32
  split_ifs with le <;> rw [BitVec.le_def] at le <;> omega

namespace Connection

structure InRange (c : Connection) : Prop where
  cwnd : mss.toNat ≤ c.tcb.cwnd.toNat
  ssthresh : 2 * mss.toNat ≤ c.tcb.ssthresh.toNat

variable {c : Connection} {now : Instant} {seg : TcpSegment}

theorem InRange.congr (range : c.InRange) {c' : Connection} (cwnd : c'.tcb.cwnd = c.tcb.cwnd)
    (ssthresh : c'.tcb.ssthresh = c.tcb.ssthresh) : c'.InRange :=
  ⟨cwnd ▸ range.cwnd, ssthresh ▸ range.ssthresh⟩

theorem halvedWindow_bounds (c : Connection) :
    2 * mss.toNat ≤ c.halvedWindow.toNat ∧ c.halvedWindow.toNat < 2 ^ 31 := by
  have bound := c.tcb.cwnd.isLt
  unfold halvedWindow
  rw [maxU32_toNat, BitVec.toNat_udiv]
  change 2920 ≤ max (c.tcb.cwnd.toNat / 2) 2920 ∧ max (c.tcb.cwnd.toNat / 2) 2920 < 2 ^ 31
  omega

theorem inflated_toNat (c : Connection) :
    (c.halvedWindow + 3#32 * mss).toNat = c.halvedWindow.toNat + 3 * mss.toNat := by
  obtain ⟨-, small⟩ := c.halvedWindow_bounds
  rw [BitVec.toNat_add, Nat.mod_eq_of_lt]
  · rfl
  · change c.halvedWindow.toNat + 4380 < 2 ^ 32
    omega

theorem countDupAck_inRange (range : c.InRange) : c.countDupAck.1.InRange := by
  unfold countDupAck
  dsimp only
  split_ifs with third more
  · obtain ⟨large, -⟩ := c.halvedWindow_bounds
    refine ⟨?_, large⟩
    change mss.toNat ≤ (c.halvedWindow + 3#32 * mss).toNat
    rw [inflated_toNat]
    omega
  · exact ⟨range.cwnd.trans (le_saturatingAdd _ _), range.ssthresh⟩
  · exact range.congr rfl rfl

theorem grownWindow_ge (c : Connection) (seg : TcpSegment) :
    c.tcb.cwnd.toNat ≤ (c.grownWindow seg).toNat := by
  unfold grownWindow
  dsimp only
  split_ifs <;> exact le_saturatingAdd _ _

theorem establishedAck_inRange (range : c.InRange) (now : Instant) (seg : TcpSegment) :
    (c.establishedAck now seg).1.InRange := by
  unfold establishedAck
  split_ifs with unset good dup
  · exact range
  · exact ⟨range.cwnd.trans (c.grownWindow_ge seg), range.ssthresh⟩
  · exact countDupAck_inRange range
  · exact range

theorem processSegment_inRange (range : c.InRange) : (c.processSegment now seg).1.InRange := by
  by_cases state : c.tcb.state = .established
  · rw [processSegment_established state]
    cases alive : seg.header.flags.rst with
    | true =>
        unfold handleEstablished
        rw [if_pos alive]
        exact range.congr rfl rfl
    | false =>
        obtain ⟨_, _, received⟩ := handleEstablished_tcb (c := c) now alive
        exact (establishedAck_inRange range now seg).congr (by rw [received]) (by rw [received])
  · obtain ⟨_, _, _, received⟩ := processSegment_tcb now seg state
    exact range.congr (by rw [received]) (by rw [received])

theorem Framed.inRange {c' : Connection} (framed : c.Framed c') (range : c.InRange) : c'.InRange := by
  obtain ⟨large, -⟩ := c.halvedWindow_bounds
  rcases framed.tcb with ⟨_, _, kept⟩ | restarted
  · exact range.congr (by rw [kept]) (by rw [kept])
  · constructor
    · rw [restarted]
    · rw [restarted]
      exact large

end Connection

theorem Session.step_inRange (s : Session) (event : Event) (range : s.conn.InRange) :
    (s.step event).conn.InRange := by
  cases event with
  | processSegment now seg => exact Connection.processSegment_inRange range
  | _ => exact (s.conn.call_framed (by simp)).inRange range

namespace Connection

variable {c : Connection} {now : Instant} {seg : TcpSegment}

theorem halvedWindowChecked_eq (c : Connection) : c.halvedWindowChecked = some c.halvedWindow := rfl

theorem takeRetransmitsChecked_eq (c : Connection) (now : Instant) :
    c.takeRetransmitsChecked now = some (c.takeRetransmits now) := by
  unfold takeRetransmitsChecked takeRetransmits restartChecked
  simp only [halvedWindowChecked_eq]
  split_ifs <;> rfl

theorem nextSegmentToSendChecked_eq (c : Connection) (now : Instant) (maxPayload : Nat) :
    c.nextSegmentToSendChecked now maxPayload = some (c.nextSegmentToSend now maxPayload) := by
  have window : c.effectiveWindowU32.toNat = c.effectiveWindow := by
    unfold effectiveWindowU32 effectiveWindow
    rw [minU32_toNat, BitVec.toNat_setWidth_of_le (by decide)]
  unfold nextSegmentToSendChecked nextSegmentToSend
  simp only [ge_iff_le, BitVec.le_def, window, show c.inflightU32.toNat = c.inflight from rfl]
  split_ifs with closed
  · rfl
  · have ordered : c.inflightU32.toNat ≤ c.effectiveWindowU32.toNat := by
      rw [window]
      exact (Nat.lt_of_not_le closed).le
    have avail : (c.effectiveWindowU32 - c.inflightU32).toNat = c.effectiveWindow - c.inflight := by
      rw [BitVec.toNat_sub_of_le (BitVec.le_def.mpr ordered), window]
      rfl
    rw [CheckedWord.sub_of_le ordered]
    simp only [Option.bind_eq_bind, Option.bind_some, avail]
    cases c.sendBuf.nextSegment (min maxPayload (c.effectiveWindow - c.inflight)) <;> rfl

theorem InRange.grownWindowChecked_eq (range : c.InRange) :
    c.grownWindowChecked seg = some (c.grownWindow seg) := by
  have nonzero : c.tcb.cwnd ≠ 0#32 := by
    intro zero
    have positive := range.cwnd
    rw [zero] at positive
    exact absurd positive (by decide)
  unfold grownWindowChecked grownWindow
  dsimp only
  split_ifs
  · rfl
  · rw [show CheckedWord.mul mss mss = some (mss * mss) from rfl]
    simp only [Option.bind_eq_bind, Option.bind_some, CheckedWord.div_of_ne_zero nonzero]
    rfl

theorem countDupAckChecked_eq (c : Connection) : c.countDupAckChecked = some c.countDupAck := by
  obtain ⟨-, small⟩ := c.halvedWindow_bounds
  have sum : CheckedWord.add c.halvedWindow (3#32 * mss) = some (c.halvedWindow + 3#32 * mss) := by
    apply CheckedWord.add_of_lt
    change c.halvedWindow.toNat + 4380 < 2 ^ 32
    omega
  unfold countDupAckChecked countDupAck
  dsimp only
  split_ifs
  · simp only [halvedWindowChecked_eq, show CheckedWord.mul 3#32 mss = some (3#32 * mss) from rfl,
      Option.bind_eq_bind, Option.bind_some]
    change (CheckedWord.add c.halvedWindow (3#32 * mss)).bind _ = _
    rw [sum]
    rfl
  · rfl
  · rfl

theorem InRange.establishedAckChecked_eq (range : c.InRange) :
    c.establishedAckChecked now seg = some (c.establishedAck now seg) := by
  unfold establishedAckChecked establishedAck
  rw [range.grownWindowChecked_eq, countDupAckChecked_eq]
  split_ifs <;> rfl

theorem InRange.handleEstablishedChecked_eq (range : c.InRange) :
    c.handleEstablishedChecked now seg = some (c.handleEstablished now seg) := by
  unfold handleEstablishedChecked handleEstablished
  rw [range.establishedAckChecked_eq]
  split_ifs
  · rfl
  · obtain ⟨c', reply⟩ := c.establishedAck now seg
    cases reply <;> rfl

/-- The bounds hold, and no check fails in any call that computes with the two windows. -/
structure CongestionSafe (c : Connection) : Prop where
  cwnd : 1460 ≤ c.tcb.cwnd.toNat
  ssthresh : 2 * 1460 ≤ c.tcb.ssthresh.toNat
  send : ∀ now maxPayload,
    c.nextSegmentToSendChecked now maxPayload = some (c.nextSegmentToSend now maxPayload)
  receive : ∀ now seg, c.handleEstablishedChecked now seg = some (c.handleEstablished now seg)
  retransmit : ∀ now, c.takeRetransmitsChecked now = some (c.takeRetransmits now)

end Connection

theorem Session.start_inRange (o : Opening) (iss : U32) (e : Endpoint) :
    (o.session iss e).conn.InRange := by
  cases o <;> exact ⟨(by decide : 1460 ≤ (1460#32).toNat), (by decide : 2920 ≤ (65535#32).toNat)⟩

theorem Session.congestion_safe (o : Opening) (iss : U32) (e : Endpoint) (events : List Event) :
    Always (fun s => s.conn.CongestionSafe) (o.session iss e) events := by
  apply Runs.always_inv (C := fun _ _ => True) (fun s event range _ => s.step_inRange event range)
  · intro s range
    exact ⟨range.cwnd, range.ssthresh, s.conn.nextSegmentToSendChecked_eq,
      fun _ _ => range.handleEstablishedChecked_eq, s.conn.takeRetransmitsChecked_eq⟩
  · exact start_inRange o iss e
  · exact Runs.along_true _ _

end MagnumTcp.Tcp
