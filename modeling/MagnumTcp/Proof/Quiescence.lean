import MagnumTcp.Proof.Congestion
import MagnumTcp.Proof.Network
import MagnumTcp.Tcp.Exchange
import Mathlib.Order.OrderIsoNat

/-!
# Deliveries come to an end

Every packet in flight has a weight and every connection a potential: the distance from `una` to `nxt`,
and one more until the third duplicate acknowledgement is counted. A delivery lowers their sum, since a
reply is lighter than what it answers, or paid for by the potential. FINs and SYNs without an ACK are
never sent in reply; they are heavier than all the potential that they can stir up.
-/

namespace MagnumTcp.Tcp

open MagnumTcp.Tcp.Core

/-! ## Weights and potentials -/

def TcpSegment.stirs (seg : TcpSegment) : Bool :=
  seg.header.flags.fin || seg.header.flags.syn && !seg.header.flags.ack

def TcpSegment.weight (seg : TcpSegment) : Nat :=
  if seg.stirs then 2 ^ 34
  else if seg.header.flags.rst then 1
  else if seg.payload.isEmpty && !seg.header.flags.syn then 2
  else 3

def weigh (out : List SegmentBuilder) : Nat := (out.map fun b => b.segment.weight).sum

def Core.gap (c : Core) : Nat := (c.nxt - c.una).toNat

namespace Connection

def credit (c : Connection) : Nat := if c.tcb.dupAckCount.toNat < 3 then 1 else 0

def potential (c : Connection) : Nat := c.core.gap + c.credit

/-- The reply can be parsed, and with it the connection is worth less than with the segment. -/
def Settles (c : Connection) (seg : TcpSegment) (result : Connection × Option Bytes) : Prop :=
  ∃ out : List SegmentBuilder, result.2.toList = out.map SegmentBuilder.build ∧
    (∀ b ∈ out,
      TcpSegment.parse b.build result.1.tcb.localIp result.1.tcb.remoteIp = .ok b.segment) ∧
    2 * result.1.potential + weigh out < 2 * c.potential + seg.weight

variable {c : Connection} {now : Instant} {seg : TcpSegment}

theorem credit_le (c : Connection) : c.credit ≤ 1 := by
  unfold credit
  split_ifs <;> decide

theorem potential_le (c : Connection) : c.potential ≤ 2 ^ 32 := by
  have small : c.core.gap < 2 ^ 32 := (c.core.nxt - c.core.una).isLt
  have one := c.credit_le
  unfold potential
  omega

theorem settles_none {c' : Connection} (less : 2 * c'.potential < 2 * c.potential + seg.weight) :
    c.Settles seg (c', none) :=
  ⟨[], rfl, List.forall_mem_nil _, less⟩

theorem settles_some {c' : Connection} {b : SegmentBuilder} (srcIp : b.srcIp = c'.tcb.localIp)
    (dstIp : b.dstIp = c'.tcb.remoteIp) (empty : b.payload = [])
    (less : 2 * c'.potential + b.segment.weight < 2 * c.potential + seg.weight) :
    c.Settles seg (c', some b.build) := by
  refine ⟨[b], rfl, ?_, by simpa [weigh] using less⟩
  intro b' member
  rw [List.mem_singleton.mp member, ← srcIp, ← dstIp]
  exact TcpSegment.parse_build b (by simp [empty])

end Connection

theorem TcpSegment.weight_pos (seg : TcpSegment) : 1 ≤ seg.weight := by
  unfold TcpSegment.weight
  split_ifs <;> decide

theorem TcpSegment.weight_alive {seg : TcpSegment} (alive : seg.header.flags.rst = false) :
    2 ≤ seg.weight := by
  unfold TcpSegment.weight
  split_ifs
  · decide
  · simp_all
  · decide
  · decide

@[simp] theorem weigh_nil : weigh [] = 0 := rfl
@[simp] theorem weigh_rst (c : Core) (seq : U32) : weigh [c.bare seq { rst := true }] = 1 := rfl
@[simp] theorem weigh_ack (c : Core) (w : U16) : weigh [c.ack w] = 2 := rfl
@[simp] theorem weigh_synAck (c : Core) (w : U16) : weigh [c.synAck w] = 3 := rfl

theorem weigh_data (c : Core) (w : U16) (segment : U32 × Bytes) : weigh [c.data w segment] ≤ 3 := by
  change (if segment.2.isEmpty && !false then 2 else 3) ≤ 3
  split_ifs <;> decide

theorem SegmentStep.weigh_le {early : Bool} {seg : TcpSegment} {c c' : Core}
    {out : List SegmentBuilder} (step : SegmentStep early seg c c' out) : weigh out ≤ 3 := by
  cases step with
  | fastRetransmit w segment => exact weigh_data c w segment
  | _ => simp

/-! ## One segment -/

theorem gap_acceptable {una ack nxt : U32} (good : ackAcceptable una ack nxt = true) :
    (nxt - ack).toNat < (nxt - una).toNat := by
  unfold ackAcceptable at good
  rw [Bool.and_eq_true, seqLt_iff_distance, seqLe_iff_distance] at good
  bv_omega

namespace Connection

variable {c : Connection} {now : Instant} {seg : TcpSegment}

theorem processSegment_dupAckCount (now : Instant) (state : c.tcb.state = .established)
    (alive : seg.header.flags.rst = false) :
    (c.processSegment now seg).1.tcb.dupAckCount =
      (c.establishedAck now seg).1.tcb.dupAckCount := by
  obtain ⟨_, _, received⟩ := handleEstablished_tcb (c := c) now alive
  rw [processSegment_established state, received]

theorem credit_antitone {c c' : Connection}
    (more : c.tcb.dupAckCount.toNat ≤ c'.tcb.dupAckCount.toNat) : c'.credit ≤ c.credit := by
  unfold credit
  split_ifs <;> omega

theorem processSegment_credit (now : Instant)
    (bad : c.tcb.state = .established → ¬ c.core.Acceptable seg)
    (alive : seg.header.flags.rst = false) : (c.processSegment now seg).1.credit ≤ c.credit := by
  apply credit_antitone
  by_cases state : c.tcb.state = .established
  · rw [processSegment_dupAckCount now state alive]
    unfold establishedAck
    split_ifs with unset good dup
    · exact le_rfl
    · exact absurd ((acceptable_core c seg).mpr (by simp_all)) (bad state)
    · rw [countDupAck_tcb]
      exact le_saturatingAdd _ _
    · exact le_rfl
  · obtain ⟨_, _, _, received⟩ := processSegment_tcb now seg state
    rw [received]

theorem processSegment_third (now : Instant) (third : c.fastRetransmits seg = true) :
    c.credit = 1 ∧ (c.processSegment now seg).1.credit = 0 := by
  simp only [fastRetransmits, Bool.and_eq_true, beq_iff_eq, Bool.not_eq_true'] at third
  obtain ⟨⟨⟨⟨⟨state, alive⟩, flag⟩, dup⟩, two⟩, -⟩ := third
  have counted : (c.processSegment now seg).1.tcb.dupAckCount = 3#8 := by
    rw [processSegment_dupAckCount now state alive, establishedAck_isDupAck now flag dup,
      countDupAck_tcb, two]
    rfl
  unfold credit
  rw [two, counted]
  exact ⟨rfl, rfl⟩

end Connection

theorem TcpSegment.weight_payload {seg : TcpSegment} (alive : seg.header.flags.rst = false)
    (payload : seg.payload ≠ []) : 3 ≤ seg.weight := by
  unfold TcpSegment.weight
  split_ifs
  · decide
  · simp_all
  · simp_all
  · decide

theorem Core.insert_gap (c : Core) (seg : TcpSegment) : (c.insert seg).gap = c.gap := by
  unfold Core.insert
  cases c.recvBuf <;> rfl

theorem SegmentStep.settles {early : Bool} {seg : TcpSegment} {c c' : Core}
    {out : List SegmentBuilder} (step : SegmentStep early seg c c' out)
    (calm : seg.stirs = false) (alive : seg.header.flags.rst = false)
    (opened : c.state.opening = false) (running : c.state ≠ .timeWait) :
    early = true ∧ c'.gap = c.gap ∨
    weigh out < seg.weight ∧
      (c'.gap < c.gap ∨ c'.gap = c.gap ∧ (c.state = .established → ¬ c.Acceptable seg)) := by
  have unfinished : seg.header.flags.fin = false := (Bool.or_eq_false_iff.mp calm).1
  have acked_gap : ∀ k, c.Acked seg k →
      k.gap < c.gap ∨ k.gap = c.gap ∧ (c.state = .established → ¬ c.Acceptable seg) := by
    rintro k (⟨bad, rfl⟩ | ⟨good, rfl⟩)
    · exact .inr ⟨rfl, fun _ => bad⟩
    · exact .inl (gap_acceptable good.2)
  have positive : weigh [] < seg.weight := seg.weight_pos
  cases step with
  | ignore idle => exact .inr ⟨positive, .inr ⟨rfl, fun state => absurd state idle.established⟩⟩
  | reset rst => simp [alive] at rst
  | fastRetransmit _ _ _ third => exact .inl ⟨third, rfl⟩
  | quiet _ _ _ acked => exact .inr ⟨positive, acked_gap _ acked⟩
  | receive k w _ _ acked payload =>
      refine .inr ⟨?_, ?_⟩
      · rw [weigh_ack]
        exact TcpSegment.weight_payload alive payload
      · rw [insert_gap]
        exact acked_gap k acked
  | receiveFin _ _ _ _ _ _ fin => simp [unfinished] at fin
  | finWait1Ack _ good => exact .inr ⟨positive, .inl (gap_acceptable good.2)⟩
  | finWait1Done _ acked => exact .inr ⟨positive, .inl (gap_acceptable acked.1.2)⟩
  | finWait1Both _ _ _ _ fin => simp [unfinished] at fin
  | finWait1Fin _ _ _ _ _ _ fin => simp [unfinished] at fin
  | finWait2Fin _ _ _ fin => simp [unfinished] at fin
  | closingAck _ _ good => exact .inr ⟨positive, .inl (gap_acceptable good.2)⟩
  | lastAckAck _ _ good => exact .inr ⟨positive, .inl (gap_acceptable good.2)⟩
  | timeWaitFin _ state => exact absurd state running
  | refuse opening => rcases opening with state | state | state <;> simp [state, TcbState.opening] at opened
  | _ =>
      rw [‹c.state = _›] at opened
      cases opened

namespace Connection

variable {c : Connection} {now : Instant} {seg : TcpSegment} {W : Bytes}

theorem processSegment_parse (sends : c.core.Sends W) {early : Bool} {out : List SegmentBuilder}
    (step : SegmentStep early seg c.core (c.processSegment now seg).1.core out) :
    ∀ b ∈ out, TcpSegment.parse b.build (c.processSegment now seg).1.tcb.localIp
      (c.processSegment now seg).1.tcb.remoteIp = .ok b.segment :=
  fun b member => (step.emitted b member).parse sends

theorem settles_stirring (sends : c.core.Sends W) (stirs : seg.stirs = true) :
    c.Settles seg (c.processSegment now seg) := by
  obtain ⟨out, step, built⟩ := c.processSegment_core now seg
  refine ⟨out, built, processSegment_parse sends step, ?_⟩
  have light := step.weigh_le
  have before := c.potential_le
  have after := (c.processSegment now seg).1.potential_le
  have heavy : seg.weight = 2 ^ 34 := if_pos stirs
  omega

theorem settles_opened (sends : c.core.Sends W) (calm : seg.stirs = false)
    (alive : seg.header.flags.rst = false) (opened : c.tcb.state.opening = false)
    (running : c.tcb.state ≠ .timeWait) : c.Settles seg (c.processSegment now seg) := by
  obtain ⟨out, step, built⟩ := c.processSegment_core now seg
  refine ⟨out, built, processSegment_parse sends step, ?_⟩
  unfold potential
  rcases step.settles calm alive opened running with ⟨third, same⟩ | ⟨lighter, gap⟩
  · -- the credit of the third duplicate pays for the data that is sent again
    obtain ⟨one, spent⟩ := processSegment_third now third
    have light := step.weigh_le
    have weight := TcpSegment.weight_alive alive
    omega
  · rcases gap with less | ⟨same, bad⟩
    · have one := (c.processSegment now seg).1.credit_le
      omega
    · have kept := processSegment_credit now bad alive
      omega

theorem settles_reset (alive : seg.header.flags.rst = true) (calm : seg.stirs = false) :
    c.Settles seg (c.processSegment now seg) := by
  have unfinished : seg.header.flags.fin = false := (Bool.or_eq_false_iff.mp calm).1
  have positive := seg.weight_pos
  have silent : ∀ state, c.Settles seg (c.withState state, none) := by
    intro state
    refine settles_none ?_
    change 2 * c.potential < 2 * c.potential + seg.weight
    omega
  have same : c.Settles seg (c, none) := silent c.tcb.state
  unfold processSegment
  cases c.tcb.state with
  | listen => simpa only [handleListen, alive, if_true] using same
  | synSent => simpa only [handleSynSent, alive, if_true] using silent _
  | synReceived => simpa only [handleSynReceived, alive, if_true] using silent _
  | established => simpa only [handleEstablished, alive, if_true] using silent _
  | closeWait => simpa only [handleCloseWait, alive, if_true] using silent _
  | finWait1 => simpa only [handleFinWait1, alive, if_true] using silent _
  | finWait2 => simpa only [handleFinWait2, alive, if_true] using silent _
  | closing => simpa only [handleClosing, alive, if_true] using silent _
  | lastAck => simpa only [handleLastAck, alive, if_true] using silent _
  | timeWait =>
      simpa only [handleTimeWait, unfinished, Bool.false_eq_true, if_false] using same
  | closed => exact same

theorem settles_refused (alive : seg.header.flags.rst = false) :
    c.Settles seg (c, some (c.buildRst seg.header.ackNum)) := by
  have weight := TcpSegment.weight_alive alive
  refine settles_some (b := c.core.bare seg.header.ackNum { rst := true }) rfl rfl rfl ?_
  change 2 * c.potential + 1 < 2 * c.potential + seg.weight
  omega

theorem settles_ack {c' : Connection} (less : 2 * c'.potential + 2 < 2 * c.potential + seg.weight) :
    c.Settles seg (c', some c'.buildAck) :=
  settles_some (b := c'.core.ack c'.currentWindow) rfl rfl rfl less

theorem settles_same : c.Settles seg (c, none) := by
  have positive := seg.weight_pos
  exact settles_none (by omega)

theorem settles_listen (calm : seg.stirs = false) (alive : seg.header.flags.rst = false) :
    c.Settles seg (c.handleListen seg) := by
  have answered := (Bool.or_eq_false_iff.mp calm).2
  unfold handleListen
  dsimp only
  split_ifs with rst ack quiet
  · exact settles_same
  · exact settles_refused alive
  · exact settles_same
  · simp_all

theorem settles_synSent (calm : seg.stirs = false) (alive : seg.header.flags.rst = false) :
    c.Settles seg (c.handleSynSent seg) := by
  have answered := (Bool.or_eq_false_iff.mp calm).2
  have weight := TcpSegment.weight_alive alive
  unfold handleSynSent
  dsimp only
  split_ifs with rst both bad syn
  · simp [alive] at rst
  · exact settles_refused alive
  · have good : c.acceptable seg = true := by simpa using bad
    have less : (c.tcb.snd.nxt - seg.header.ackNum).toNat < c.core.gap := gap_acceptable good
    refine settles_ack ?_
    change 2 * ((c.tcb.snd.nxt - seg.header.ackNum).toNat + c.credit) + 2 <
      2 * (c.core.gap + c.credit) + seg.weight
    omega
  · simp_all
  · exact settles_same

theorem settles_synReceived (calm : seg.stirs = false) (alive : seg.header.flags.rst = false) :
    c.Settles seg (c.handleSynReceived seg) := by
  have answered := (Bool.or_eq_false_iff.mp calm).2
  unfold handleSynReceived
  dsimp only
  split_ifs with rst again ack bad
  · simp [alive] at rst
  · simp_all
  · exact settles_same
  · exact settles_refused alive
  · have good : c.acceptable seg = true := by simpa using bad
    have less : (c.tcb.snd.nxt - seg.header.ackNum).toNat < c.core.gap := gap_acceptable good
    refine settles_none ?_
    change 2 * ((c.tcb.snd.nxt - seg.header.ackNum).toNat + c.credit) <
      2 * (c.core.gap + c.credit) + seg.weight
    omega

theorem settles_timeWait (calm : seg.stirs = false) : c.Settles seg (c.handleTimeWait seg) := by
  have unfinished : seg.header.flags.fin = false := (Bool.or_eq_false_iff.mp calm).1
  unfold handleTimeWait
  rw [unfinished, if_neg Bool.false_ne_true]
  exact settles_same

theorem settles (sends : c.core.Sends W) (now : Instant) (seg : TcpSegment) :
    c.Settles seg (c.processSegment now seg) := by
  cases calm : seg.stirs with
  | true => exact settles_stirring sends calm
  | false =>
      cases alive : seg.header.flags.rst with
      | true => exact settles_reset alive calm
      | false =>
          by_cases opening : c.tcb.state.opening = true ∨ c.tcb.state = .timeWait
          · unfold processSegment
            cases state : c.tcb.state with
            | listen => exact settles_listen calm alive
            | synSent => exact settles_synSent calm alive
            | synReceived => exact settles_synReceived calm alive
            | timeWait => exact settles_timeWait calm
            | _ => simp [state, TcbState.opening] at opening
          · rw [not_or, Bool.not_eq_true] at opening
            exact settles_opened sends calm alive opening.1 opening.2

end Connection

/-! ## Both ends -/

theorem Session.Reachable.step {s : Session} (reached : s.Reachable) (event : Event) :
    (s.step event).Reachable := by
  obtain ⟨o, iss, e, events, rfl⟩ := reached
  exact ⟨o, iss, e, events ++ [event], Runs.exec_append _ _ _ _⟩

theorem Session.Reachable.sends {s : Session} (reached : s.Reachable) :
    s.conn.core.Sends s.written := by
  refine reached.induct (P := fun s => s.conn.core.Sends s.written) ?_ ?_
  · exact fun o iss e => (start_sender o iss e).sends
  · exact fun s event sends => step_sends sends event

def Packet.weight (p : Packet) : Nat :=
  match TcpSegment.parse p.raw p.srcIp p.dstIp with
  | .ok seg => seg.weight
  | .error _ => 1

namespace Exchange

def Reachable (x : Exchange) : Prop := ∀ side, (x.party side).Reachable

def work (x : Exchange) : Nat :=
  2 * ((x.party .left).conn.potential + (x.party .right).conn.potential) +
    (x.inFlight.map Packet.weight).sum

variable {x y : Exchange} {now : Instant} {p : Packet}

theorem weight_replies (s : Session) (side : Side) {out : List SegmentBuilder}
    (parsed : ∀ b ∈ out,
      TcpSegment.parse b.build s.conn.tcb.localIp s.conn.tcb.remoteIp = .ok b.segment) :
    (((out.map SegmentBuilder.build).map (reply s side)).map Packet.weight).sum = weigh out := by
  unfold weigh
  congr 1
  rw [List.map_map, List.map_map]
  apply List.map_congr_left
  intro b member
  simp only [Function.comp, Packet.weight, reply, parsed b member]

theorem receive_work (reached : x.Reachable) : (x.receive now p).work < x.work + p.weight := by
  unfold receive Packet.weight
  cases TcpSegment.parse p.raw p.srcIp p.dstIp with
  | error failure => exact Nat.lt_succ_self _
  | ok seg =>
      obtain ⟨out, built, parsed, less⟩ :=
        Connection.settles (reached p.dst).sends now seg
      have output : (x.party p.dst).output (.processSegment now seg) =
        out.map SegmentBuilder.build := built
      have replies := weight_replies ((x.party p.dst).step (.processSegment now seg)) p.dst parsed
      simp only [work, output, List.map_append, List.sum_append, replies]
      change 2 * ((x.party p.dst).step (.processSegment now seg)).conn.potential + weigh out < _ at less
      cases dst : p.dst <;> simp only [dst, Function.update_self] at less ⊢
      · rw [Function.update_of_ne (by decide)]
        omega
      · rw [Function.update_of_ne (by decide)]
        omega

theorem receive_reachable (reached : x.Reachable) : (x.receive now p).Reachable := by
  unfold receive
  cases TcpSegment.parse p.raw p.srcIp p.dstIp with
  | error failure => exact reached
  | ok seg =>
      intro side
      dsimp only
      by_cases here : side = p.dst
      · subst here
        rw [Function.update_self]
        exact (reached p.dst).step _
      · rw [Function.update_of_ne here]
        exact reached side

theorem Delivers.work (delivers : x.Delivers y) (reached : x.Reachable) :
    y.work < x.work ∧ y.Reachable := by
  obtain ⟨now, k, delivered⟩ := delivers
  obtain ⟨p, taken, rfl⟩ := Option.map_eq_some_iff.mp delivered
  obtain ⟨inside, here⟩ := List.getElem?_eq_some_iff.mp taken
  have split := (List.getElem_cons_eraseIdx_perm inside).map Packet.weight |>.sum_eq
  have rest : Reachable { x with inFlight := x.inFlight.eraseIdx k } := reached
  refine ⟨(receive_work rest).trans_eq ?_, receive_reachable rest⟩
  rw [here, List.map_cons, List.sum_cons] at split
  simp only [work]
  omega

/-- Two reachable connections with anything in flight between them fall silent, in whatever order the
packets arrive. -/
theorem deliveries_end (x : Exchange) (reached : x.Reachable) :
    ¬ ∃ run : Nat → Exchange, run 0 = x ∧ ∀ i, (run i).Delivers (run (i + 1)) := by
  rintro ⟨run, rfl, delivers⟩
  have along : ∀ i, (run i).Reachable := by
    intro i
    induction i with
    | zero => exact reached
    | succ i ih => exact ((delivers i).work ih).2
  apply not_strictAnti_of_wellFoundedLT fun i => (run i).work
  exact strictAnti_nat_of_succ_lt fun i => ((delivers i).work (along i)).1

def duplicateSyn : Exchange where
  party
    | .left => Session.exec (Opening.active.session clientIsn serverEnd.peer) [.connect]
    | .right => server
  inFlight :=
    let syn : SegmentBuilder :=
      { srcIp := serverEnd.remoteIp
        dstIp := serverEnd.localIp
        srcPort := serverEnd.remotePort
        dstPort := serverEnd.localPort
        seq := clientIsn
        flags := { syn := true } }
    let forged := { syn with ackNum := 77#32, flags := { ack := true } }
    [syn, syn, forged].map fun b => ⟨.right, b.srcIp, b.dstIp, b.build⟩

theorem duplicateSyn_ends :
    duplicateSyn.Reachable ∧
      ¬ ∃ run : Nat → Exchange, run 0 = duplicateSyn ∧ ∀ i, (run i).Delivers (run (i + 1)) :=
  have reached : duplicateSyn.Reachable
    | .left => ⟨.active, _, _, [.connect], rfl⟩
    | .right => ⟨.passive, _, _, [], rfl⟩
  ⟨reached, deliveries_end _ reached⟩

end Exchange

end MagnumTcp.Tcp
