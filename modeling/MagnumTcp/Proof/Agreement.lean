import MagnumTcp.Proof.Network
import MagnumTcp.Proof.Queue

namespace MagnumTcp.Tcp

open MagnumTcp.Tcp.Core

/-! ## One end -/

theorem Core.Acked.una {c c' : Core} {seg : TcpSegment} (acked : c.Acked seg c') :
    c'.una = c.una ∨ seg.header.flags.ack = true ∧ c'.una = seg.header.ackNum := by
  rcases acked with ⟨-, rfl⟩ | ⟨good, rfl⟩
  · exact .inl rfl
  · exact .inr ⟨good.1, rfl⟩

theorem Core.insert_una (c : Core) (seg : TcpSegment) : (c.insert seg).una = c.una := by
  unfold Core.insert
  cases c.recvBuf <;> rfl

theorem SegmentStep.una {early : Bool} {seg : TcpSegment} {c c' : Core} {out : List SegmentBuilder}
    (step : SegmentStep early seg c c' out) :
    c'.una = c.una ∨ seg.header.flags.ack = true ∧ c'.una = seg.header.ackNum := by
  cases step with
  | synSentAck _ _ _ good => exact .inr ⟨good.1, rfl⟩
  | synReceivedAck _ good => exact .inr ⟨good.1, rfl⟩
  | quiet _ _ _ acked => exact acked.una
  | receive k _ _ _ acked =>
      rw [insert_una]
      exact acked.una
  | receiveFin k _ _ _ _ acked =>
      rw [show ((k.insert seg).acceptFin seg .closeWait).una = k.una from insert_una k seg]
      exact acked.una
  | finWait1Ack _ good => exact .inr ⟨good.1, rfl⟩
  | finWait1Done _ good => exact .inr ⟨good.1.1, rfl⟩
  | finWait1Both _ _ _ good => exact .inr ⟨good.1.1, rfl⟩
  | finWait1Fin _ _ _ _ acked => exact acked.una
  | closingAck _ _ good => exact .inr ⟨good.1, rfl⟩
  | lastAckAck _ _ good => exact .inr ⟨good.1, rfl⟩
  | _ => exact .inl rfl

theorem CoreStep.una {event : Event} {c c' : Core} {out : List SegmentBuilder}
    (step : CoreStep event c c' out) :
    c'.una = c.una ∨ ∃ now seg, event = .processSegment now seg ∧
      seg.header.flags.ack = true ∧ c'.una = seg.header.ackNum := by
  cases step with
  | segment step => exact step.una.imp_right fun moved => ⟨_, _, rfl, moved⟩
  | _ => exact .inl rfl

namespace Session

def Young (s : Session) : Prop :=
  s.used = false ∨ s.conn.core.state.opening = true ∨ s.conn.core.state = .established

variable {s : Session} {event : Event}

theorem Young.before (young : (s.step event).Young) (usage : s.ConnectFirst event) : s.Young := by
  obtain ⟨out, step, -⟩ := s.step_core event
  rcases young with unused | opening | state
  · exact nomatch unused
  · rcases step.leads.opening opening with before | rfl
    · exact .inr (.inl before)
    · exact .inl usage
  · have leads := step.leads
    rw [state] at leads
    exact .inr leads.established

end Session

def Window.stream (w : Window) (W : Bytes) : Bytes := W.take (w.bufNxt - 1)

theorem Window.stream_grows {w w' : Window} {W : Bytes} (more : Bytes) (forward : w.bufNxt ≤ w'.bufNxt)
    (inside : w.bufNxt ≤ W.length + 1) : ∃ new, w'.stream (W ++ more) = w.stream W ++ new := by
  have grows : w.stream W <+: w'.stream (W ++ more) := by
    unfold stream
    have same : (W ++ more).take (w.bufNxt - 1) = W.take (w.bufNxt - 1) :=
      List.take_append_of_le_length (by omega)
    rw [← same]
    exact List.take_prefix_take_left (by omega)
  obtain ⟨new, whole⟩ := grows
  exact ⟨new, whole.symm⟩

structure TcpSegment.Honest (seg : TcpSegment) (iss : U32) (S : Bytes) (peer : U32) (m : Nat) : Prop where
  comesFrom : seg.ComesFrom iss S
  acks : seg.header.flags.ack = true → ∃ x ≤ m + 1, seg.header.ackNum = peer + BitVec.ofNat 32 x

theorem Core.Counts.bufNxt_le {c : Core} {W : Bytes} {w : Window} (counts : c.Counts W w) :
    w.bufNxt ≤ W.length + 1 := by
  have filled := counts.filled
  have written := counts.written
  omega

namespace Emitted

variable {c c' : Core} {b : SegmentBuilder} {W more : Bytes} {w w' : Window}

theorem ends (emitted : Emitted c c' b) (counts : c.Counts W w) (recent : c.Recent w)
    (counts' : c'.Counts (W ++ more) w') (iss : c'.iss = c.iss)
    (forward : w.bufNxt ≤ w'.bufNxt) (short : (W ++ more).length < 2 ^ 31) (nonempty : b.payload ≠ []) :
    ∃ i, b.seq = c.iss + BitVec.ofNat 32 i ∧ i + b.payload.length ≤ w'.bufNxt := by
  cases emitted with
  | data segment psh v source =>
      rcases source with held | ⟨n, bounded, next, advanced⟩
      · obtain ⟨i, seq, -, inside⟩ := recent segment held
        exact ⟨i, seq, inside.trans forward⟩
      · obtain ⟨-, seq, -, inside⟩ := counts.nextSegment next
        have written := counts.written
        have bound := counts'.bufNxt_le
        have moved := counts'.bufNxt
        rw [advanced, iss] at moved
        have target : (c.sendBuf.advanceNxt segment.2.length).nxt =
            c.iss + BitVec.ofNat 32 (w.bufNxt + segment.2.length) := by
          rw [← Serial.add_ofNat_ofNat, ← counts.bufNxt]
          rfl
        rw [List.length_append] at short bound
        have reached : w.bufNxt + segment.2.length = w'.bufNxt :=
          Serial.eq_of_add_ofNat c.iss (by omega) (by omega) (target.symm.trans moved)
        exact ⟨w.bufNxt, seq, reached.le⟩
  | _ => exact absurd rfl nonempty

theorem within (emitted : Emitted c c' b) (counts : c.Counts W w) (sends : c.Sends W)
    (recent : b.payload ≠ [] → c.Recent w) (counts' : c'.Counts (W ++ more) w') (iss : c'.iss = c.iss)
    (forward : w.bufNxt ≤ w'.bufNxt) (short : (W ++ more).length < 2 ^ 31) :
    b.segment.ComesFrom c.iss (w'.stream (W ++ more)) := by
  have from_ := emitted.comesFrom sends iss
  refine ⟨from_.syn, fun nonempty => ?_⟩
  obtain ⟨j, number, slice⟩ := from_.payload nonempty
  obtain ⟨i, seq, inside⟩ := emitted.ends counts (recent nonempty) counts' iss forward short nonempty
  have bound := counts'.bufNxt_le
  have whole := slice.append more
  have fits := whole.inside
  have positive := List.length_pos_of_ne_nil nonempty
  have same : c.iss + BitVec.ofNat 32 i = c.iss + BitVec.ofNat 32 (1 + j) := by
    rw [← Serial.add_ofNat_ofNat]
    exact seq.symm.trans number
  have position := Serial.eq_of_add_ofNat c.iss (by omega) (by omega) same
  refine ⟨j, number, whole.within ?_⟩
  change j + b.payload.length ≤ w'.bufNxt - 1
  omega

theorem ackNum_of_flag (emitted : Emitted c c' b) (flag : b.flags.ack = true) :
    b.ackNum = c'.rcvNxt := by
  cases emitted with
  | rst => exact nomatch flag
  | syn => exact nomatch flag
  | _ => rfl

end Emitted

namespace Session

variable {s : Session} {event : Event} {w w' : Window}

theorem Outstanding.established (inv : s.Outstanding w) (young : s.Young) {c' : Core}
    {b : SegmentBuilder} (emitted : Emitted s.conn.core c' b) (nonempty : b.payload ≠ []) :
    s.conn.core.state = .established ∧ s.used = true := by
  have flag : s.established = true := by
    by_contra early
    have nothing := inv.synced.early (Bool.eq_false_of_not_eq_true early)
    rcases emitted.payload inv.sends with empty | ⟨⟨i, -, slice⟩, -⟩
    · exact nonempty empty
    · have inside := slice.inside
      rw [nothing, List.length_nil] at inside
      have positive := List.length_pos_of_ne_nil nonempty
      dsimp only at inside
      omega
  obtain ⟨used, synchronized⟩ := inv.synced.late flag
  rcases young with unused | opening | state
  · exact nomatch used.symm.trans unused
  · exact nomatch synchronized.symm.trans opening
  · exact ⟨state, used⟩

theorem Outstanding.answers (inv : s.Outstanding w) (young : (s.step event).Young)
    (usage : s.Orderly event) {b : SegmentBuilder}
    (emitted : Emitted s.conn.core (s.step event).conn.core b) (flag : b.flags.ack = true) :
    (s.step event).conn.core.state = .established ∨
      (s.step event).conn.core.state = .synReceived := by
  have settled : (s.step event).conn.core.state.opening = false →
      (s.step event).conn.core.state = .established := by
    intro synchronized
    rcases young with unused | opening | state
    · exact nomatch unused
    · exact nomatch synchronized.symm.trans opening
    · exact state
  cases emitted with
  | rst => exact nomatch flag
  | syn => exact nomatch flag
  | synAck _ state => exact .inr state
  | control _ _ _ live => exact .inl (settled live.1)
  | data segment psh v source =>
      have sized : Queueable segment := by
        rcases source with held | ⟨n, bounded, next, -⟩
        · exact inv.sends.sized segment held
        · exact queueable_of_nextSegment bounded next
      obtain ⟨state, used⟩ := inv.established (young.before usage.1) (.data segment psh v source) sized.1
      obtain ⟨out, step, -⟩ := s.step_core event
      refine .inl (settled (Bool.eq_false_of_not_eq_true fun opening => ?_))
      rcases step.leads.opening opening with before | rfl
      · rw [state] at before
        exact nomatch before
      · exact nomatch used.symm.trans usage.1

theorem Follows.le {iss : U32} {S : Bytes} {m : Nat} (follows : s.Follows iss S m) : m ≤ S.length := by
  cases buffer : s.conn.core.recvBuf with
  | none =>
      rw [(follows.receives.missing buffer).2]
      exact Nat.zero_le _
  | some rb => exact (follows.receives.buffer rb buffer).inside

theorem Follows.rcvNxt {iss : U32} {S : Bytes} {m : Nat} (follows : s.Follows iss S m)
    (state : s.conn.core.state = .established ∨ s.conn.core.state = .synReceived) :
    s.conn.core.irs = iss ∧ s.conn.core.rcvNxt = iss + BitVec.ofNat 32 (m + 1) := by
  obtain ⟨rb, buffer, next⟩ := follows.expects state
  have inv := follows.receives.buffer rb buffer
  have irs := follows.numbered (by simp [buffer])
  refine ⟨irs, ?_⟩
  rw [next, RecvBuffer.nextExpected, inv.nxt, irs, Nat.add_comm m, ← Serial.add_ofNat_ofNat]

theorem Outstanding.forward (inv : s.Outstanding w) (next : (s.step event).Outstanding w')
    (usage : s.Orderly event) (moves : event ≠ .connect → w.Moves w' s.conn.core.state) :
    w.bufNxt ≤ w'.bufNxt := by
  by_cases opens : event = .connect
  · subst opens
    rw [inv.synced.windowed.unused usage.1]
    exact next.synced.windowed.counts.begun
  · exact (moves opens).forward

theorem Outstanding.una_le (inv : s.Outstanding w) (next : (s.step event).Outstanding w') {k : Nat}
    (short : (s.step event).written.length < 2 ^ 31) (close : k < 2 ^ 32) (bound : w.una ≤ k)
    (acks : ∀ now seg, event = .processSegment now seg → seg.header.flags.ack = true →
      ∃ x ≤ k, seg.header.ackNum = s.conn.core.iss + BitVec.ofNat 32 x) : w'.una ≤ k := by
  obtain ⟨out, step, -⟩ := s.step_core event
  have counts := inv.synced.windowed.counts
  have counts' := next.synced.windowed.counts
  have number := counts'.una
  rw [step.fixed.2] at number
  have inside : w'.una < 2 ^ 32 := by
    have ordered := counts'.ordered
    have sent := counts'.sent
    have last := counts'.bufNxt_le
    omega
  have position : ∀ x ≤ k, (s.step event).conn.core.una = s.conn.core.iss + BitVec.ofNat 32 x →
      w'.una = x := fun x le same =>
    Serial.eq_of_add_ofNat s.conn.core.iss (by omega) (by omega) (number.symm.trans same)
  rcases step.una with same | ⟨now, seg, rfl, flag, moved⟩
  · rw [position w.una bound (same.trans counts.una)]
    exact bound
  · obtain ⟨x, le, ack⟩ := acks now seg rfl flag
    rw [position x le (moved.trans ack)]
    exact le

theorem Outstanding.honest {e : Endpoint} {iss peer : U32} {S : Bytes} {m m' : Nat}
    (inv : s.Outstanding w) (sender : s.Sender e iss)
    (emits : s.Emits e (TcpSegment.Honest · iss (w.stream s.written) peer m))
    (next : (s.step event).Outstanding w') (forward : w.bufNxt ≤ w'.bufNxt)
    (follows : (s.step event).Follows peer S m') (grows : m ≤ m')
    (young : (s.step event).Young) (usage : s.Orderly event)
    (short : (s.step event).written.length < 2 ^ 31) :
    (s.step event).Emits e (TcpSegment.Honest · iss (w'.stream (s.step event).written) peer m') := by
  obtain ⟨out, step, -⟩ := s.step_core event
  have counts := inv.synced.windowed.counts
  apply sender.emits emits
  · rintro seg ⟨from_, acks⟩
    constructor
    · obtain ⟨new, whole⟩ := w.stream_grows (s.accepted event) forward counts.bufNxt_le
      rw [show (s.step event).written = s.written ++ s.accepted event from rfl, whole]
      exact from_.append new
    · intro flag
      obtain ⟨x, le, number⟩ := acks flag
      exact ⟨x, by omega, number⟩
  · intro b emitted
    constructor
    · rw [← sender.iss]
      apply emitted.within counts inv.sends _ next.synced.windowed.counts step.fixed.2 forward short
      intro nonempty
      have state := (inv.established (young.before usage.1) emitted nonempty).1
      exact inv.recent (by rw [state]; rfl)
    · intro flag
      obtain ⟨-, rcvNxt⟩ := follows.rcvNxt (inv.answers young usage emitted flag)
      exact ⟨m' + 1, Nat.le_refl _, (emitted.ackNum_of_flag flag).trans rcvNxt⟩

end Session

/-! ## Both ends -/

namespace Network

variable {n : Network} {e : Endpoint} {iss : Side → U32} {side : Side} {event : Event}
  {w : Side → Window} {m : Side → Nat}

/-- Each side has sent up to its window `w` and has committed `m` bytes of what the other has sent. -/
structure Agreed (e : Endpoint) (iss : Side → U32) (w : Side → Window) (m : Side → Nat)
    (n : Network) : Prop where
  sender : ∀ side, (n.party side).Sender (e.at side) (iss side)
  outstanding : ∀ side, (n.party side).Outstanding (w side)
  follows : ∀ side, (n.party side).Follows (iss side.other)
    ((w side.other).stream (n.party side.other).written) (m side)
  acked : ∀ side, (w side).una ≤ m side.other + 1
  sent : ∀ side, (n.party side).Emits (e.at side) (TcpSegment.Honest · (iss side)
    ((w side).stream (n.party side).written) (iss side.other) (m side))

theorem start_agreed (o : Side → Opening) (iss : Side → U32) (e : Endpoint) :
    (start o iss e).Agreed e iss (fun _ => .fresh) (fun _ => 0) where
  sender _ := Session.start_sender _ _ _
  outstanding _ := Session.start_outstanding _ _ _
  follows _ := Session.start_follows _ _ _ _ _
  acked _ := Nat.zero_le _
  sent _ := Session.start_emits _ _ _ _

theorem Agreed.perform (agreed : n.Agreed e iss w m) (short : (n.perform side event).Short)
    (young : ((n.perform side event).party side).Young) (usage : (n.party side).Orderly event)
    (arrives : ∀ now seg, event = .processSegment now seg →
      seg.Honest (iss side.other) ((w side.other).stream (n.party side.other).written) (iss side)
        (m side.other)) :
    ∃ w' m', (n.perform side event).Agreed e iss w' m' := by
  have before := short.of_perform
  have here := short side
  rw [perform_self] at young here
  obtain ⟨v, next, moves⟩ := (agreed.outstanding side).step usage
  have forward := (agreed.outstanding side).forward next usage moves
  have sent_short : ∀ x, ((w x).stream (n.party x).written).length < 2 ^ 31 := by
    intro x
    have := before x
    simp only [Window.stream, List.length_take]
    omega
  obtain ⟨k, grows, follows⟩ := (agreed.follows side).step (sent_short side.other) usage.1
    fun now seg same => (arrives now seg same).comesFrom
  have window : Function.update w side v side.other = w side.other :=
    Function.update_of_ne (Side.other_ne side) ..
  have count : Function.update m side k side.other = m side.other :=
    Function.update_of_ne (Side.other_ne side) ..
  refine ⟨Function.update w side v, Function.update m side k, ?_, ?_, ?_, ?_, ?_⟩ <;>
    rw [Side.forall_iff side] <;>
    simp only [Side.other_other, perform_self, perform_other, Function.update_self, window, count]
  · exact ⟨(agreed.sender side).step event, agreed.sender side.other⟩
  · exact ⟨next, agreed.outstanding side.other⟩
  · refine ⟨follows, ?_⟩
    have there := agreed.follows side.other
    rw [Side.other_other] at there
    obtain ⟨new, whole⟩ := (w side).stream_grows ((n.party side).accepted event) forward
      (agreed.outstanding side).synced.windowed.counts.bufNxt_le
    rw [show ((n.party side).step event).written =
      (n.party side).written ++ (n.party side).accepted event from rfl, whole]
    exact there.append new
  · have there := agreed.acked side.other
    rw [Side.other_other] at there
    refine ⟨?_, by omega⟩
    apply (agreed.outstanding side).una_le next here _ (agreed.acked side)
    · intro now seg same flag
      obtain ⟨x, le, number⟩ := (arrives now seg same).acks flag
      exact ⟨x, le, by rw [(agreed.sender side).iss, number]⟩
    · have committed := (agreed.follows side.other).le
      have bound := sent_short side.other.other
      omega
  · have there := agreed.sent side.other
    rw [Side.other_other] at there
    exact ⟨(agreed.outstanding side).honest (agreed.sender side) (agreed.sent side) next forward
      follows grows young usage here, there⟩

def Young (n : Network) : Prop := ∀ side, (n.party side).Young

theorem agreed_step (n : Network) (action : Action)
    (agreed : n.Short → n.Young → ∃ w m, n.Agreed e iss w m)
    (rule : n.Rule Session.Orderly action) :
    (n.step action).Short → (n.step action).Young → ∃ w m, (n.step action).Agreed e iss w m := by
  rcases step_cases rule (fun _ _ _ => ⟨trivial, trivial⟩) with same | ⟨side, event, taken, usage, arrives⟩
  · rw [same]
    exact agreed
  · rw [taken]
    intro short young
    have here := young side
    have there := young side.other
    rw [perform_other] at there
    obtain ⟨w, m, before⟩ := agreed short.of_perform
      ((Side.forall_iff side).mpr ⟨(perform_self n side event ▸ here).before usage.1, there⟩)
    apply before.perform short here usage
    intro now seg same
    obtain ⟨raw, member, parsed⟩ := arrives now seg same
    obtain ⟨seg', parsed', honest⟩ := before.sent side.other raw member
    rw [Side.other_other] at honest
    rw [← (before.sender side.other).ends] at parsed'
    cases parsed.symm.trans parsed'
    exact honest

/-- The stream from `side` to the other side: both count it from the same number, and what is
acknowledged, expected and next to be sent come in this order. -/
structure SeqAgree (n : Network) (side : Side) : Prop where
  irs : (n.party side.other).conn.tcb.rcv.irs = (n.party side).conn.tcb.snd.iss
  una : ((n.party side).conn.tcb.snd.una - (n.party side).conn.tcb.snd.iss).toNat ≤
    ((n.party side.other).conn.tcb.rcv.nxt - (n.party side).conn.tcb.snd.iss).toNat
  nxt : ((n.party side.other).conn.tcb.rcv.nxt - (n.party side).conn.tcb.snd.iss).toNat ≤
    ((n.party side).conn.tcb.snd.nxt - (n.party side).conn.tcb.snd.iss).toNat

theorem Agreed.seqAgree (agreed : n.Agreed e iss w m) (short : n.Short)
    (state : ∀ x, (n.party x).conn.core.state = .established) (side : Side) : n.SeqAgree side := by
  have follows := agreed.follows side.other
  rw [Side.other_other] at follows
  obtain ⟨irs, rcvNxt⟩ := follows.rcvNxt (.inl (state side.other))
  have committed := follows.le
  have acked := agreed.acked side
  have synced := (agreed.outstanding side).synced
  have counts := synced.windowed.counts
  obtain ⟨-, aligned⟩ := synced.synced.aligned counts (by rw [state side]; rfl)
  have written := short side
  have last := counts.bufNxt_le
  have begun := counts.begun
  simp only [Window.stream, List.length_take] at committed
  have iss' : (n.party side).conn.tcb.snd.iss = iss side := (agreed.sender side).iss
  have una : (n.party side).conn.tcb.snd.una = iss side + BitVec.ofNat 32 (w side).una := by
    rw [← iss']
    exact counts.una
  have nxt : (n.party side).conn.tcb.snd.nxt = iss side + BitVec.ofNat 32 (w side).nxt := by
    rw [← iss']
    exact counts.nxt
  have expected : (n.party side.other).conn.tcb.rcv.nxt =
      iss side + BitVec.ofNat 32 (m side.other + 1) := rcvNxt
  have base : ∀ x < 2 ^ 32, (iss side + BitVec.ofNat 32 x - iss side).toNat = x :=
    fun x bound => Serial.sub_base_toNat _ bound
  refine ⟨irs.trans iss'.symm, ?_, ?_⟩
  · rw [una, expected, iss', base _ (by omega), base _ (by omega)]
    exact acked
  · rw [nxt, expected, iss', base _ (by omega), base _ (by omega)]
    omega

theorem sequence_agreement (o : Side → Opening) (iss : Side → U32) (e : Endpoint)
    (actions : List Action) (rule : Along (Rule Session.Orderly) (start o iss e) actions) :
    Always (fun n => n.Short → (∀ side, (n.party side).conn.tcb.state = .established) →
      ∀ side, n.SeqAgree side) (start o iss e) actions := by
  refine Runs.always_inv agreed_step ?_ (fun _ _ => ⟨_, _, start_agreed o iss e⟩) rule
  intro n agreed short state
  obtain ⟨w, m, agreed⟩ := agreed short fun side => .inr (.inr (state side))
  exact agreed.seqAgree short state

theorem sequence_agreement_reordered :
    Along (Rule Session.Orderly) clientServer reordered ∧
      (∀ side, ((exec clientServer reordered).party side).conn.tcb.state = .established) ∧
      Always (fun n => n.Short → (∀ side, (n.party side).conn.tcb.state = .established) →
        ∀ side, n.SeqAgree side) clientServer reordered :=
  have rule : Along (Rule Session.Orderly) clientServer reordered := by decide +kernel
  ⟨rule, by rintro (_ | _) <;> decide +kernel, sequence_agreement _ _ _ _ rule⟩

end Network

end MagnumTcp.Tcp
