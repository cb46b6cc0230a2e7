import MagnumTcp.Proof.Diagram
import MagnumTcp.Proof.Recovery

namespace MagnumTcp.Tcp

open MagnumTcp.Tcp.Session

namespace Connection

variable {c : Connection} {now : Instant} {seg : TcpSegment}

theorem countDupAck_reduces (third : c.tcb.dupAckCount = 2#8) :
    c.countDupAck.1.tcb.ssthresh = c.halvedWindow ∧
      c.countDupAck.1.tcb.cwnd = c.halvedWindow + 3#32 * mss := by
  rw [countDupAck_tcb]
  exact ⟨if_pos third, if_pos third⟩

theorem processSegment_reduces (now : Instant) (reduces : c.reduces seg = true) :
    (c.processSegment now seg).1.tcb.ssthresh = c.halvedWindow ∧
      (c.processSegment now seg).1.tcb.cwnd = c.halvedWindow + 3#32 * mss := by
  simp only [Connection.reduces, countsDupAck, Bool.and_eq_true, Bool.not_eq_true', beq_iff_eq] at reduces
  obtain ⟨⟨⟨⟨state, alive⟩, ack⟩, dup⟩, third⟩ := reduces
  obtain ⟨rcv, after, tcb⟩ := handleEstablished_tcb (c := c) now alive
  rw [processSegment_established state, tcb, establishedAck_isDupAck now ack dup]
  exact countDupAck_reduces third

theorem reduces_of_fastRetransmits (fast : c.fastRetransmits seg = true) : c.reduces seg = true := by
  simp only [fastRetransmits, Bool.and_eq_true] at fast
  simp only [reduces, countsDupAck, Bool.and_eq_true]
  exact fast.1

theorem Framed.dupAckCount {c' : Connection} (framed : c.Framed c') :
    c'.tcb.dupAckCount = c.tcb.dupAckCount := by
  rcases framed.tcb with ⟨nxt, state, kept⟩ | restarted
  · rw [kept]
  · rw [restarted]

theorem processSegment_counted (c : Connection) (now : Instant) (seg : TcpSegment) :
    (c.processSegment now seg).1.tcb.dupAckCount =
      if c.countsDupAck seg then saturatingAdd c.tcb.dupAckCount 1#8
      else if c.tcb.state = .established ∧ seg.header.flags.rst = false ∧
          seg.header.flags.ack = true ∧ c.acceptable seg = true then 0#8
      else c.tcb.dupAckCount := by
  by_cases state : c.tcb.state = .established
  · rw [processSegment_established state]
    cases alive : seg.header.flags.rst with
    | true => simp [handleEstablished, countsDupAck, alive, withState]
    | false =>
        obtain ⟨rcv, after, tcb⟩ := handleEstablished_tcb (c := c) now alive
        rw [tcb]
        cases ack : seg.header.flags.ack with
        | false => simp [establishedAck, countsDupAck, ack]
        | true =>
            by_cases dup : c.isDupAck seg = true
            · simp [establishedAck_isDupAck now ack dup, countDupAck_tcb, countsDupAck, state, alive,
                ack, dup]
            · by_cases good : c.acceptable seg = true
              · simp [establishedAck, countsDupAck, state, ack, dup, good]
              · simp [establishedAck, countsDupAck, ack, dup, good]
  · obtain ⟨snd, rcv, after, tcb⟩ := processSegment_tcb now seg state
    simp [tcb, countsDupAck, state]

end Connection

theorem Leads.reopens {before after : TcbState} (leads : Leads .connect before after)
    (opening : after.opening = true) (outside : ¬ before.opening = true) : before = .closed := by
  cases leads with
  | stay => exact absurd opening outside
  | connect => rfl

structure Watched where
  session : Session
  -- The window of the last incoming acknowledgement.
  window : Option U16
  genuine : Nat

namespace Watched

def start (o : Opening) (iss : U32) (e : Endpoint) : Watched := ⟨o.session iss e, none, 0⟩

def genuineDupAck (w : Watched) (seg : TcpSegment) : Bool :=
  w.session.conn.dupAck seg && w.window == some seg.header.window

def count (w : Watched) (seg : TcpSegment) : Nat :=
  if seg.header.flags.ack && w.session.conn.acceptable seg then 0
  else if w.genuineDupAck seg then w.genuine + 1
  else w.genuine

def step (w : Watched) (event : Event) : Watched :=
  match event with
  | .processSegment _ seg =>
      { session := w.session.step event
        window := if seg.header.flags.ack then some seg.header.window else w.window
        genuine := w.count seg }
  | _ => { w with session := w.session.step event }

abbrev exec : Watched → List Event → Watched := Runs.exec step
abbrev Along (C : Watched → Event → Prop) : Watched → List Event → Prop := Runs.Along step C

/-- A reduction or a fast retransmit is caused by three genuine duplicates, the last one included. -/
def Justified (w : Watched) (event : Event) : Prop :=
  match event with
  | .processSegment _ seg =>
      w.session.conn.reduces seg = true ∨ w.session.conn.fastRetransmits seg = true →
        3 ≤ (w.step event).genuine
  | _ => True

/-- The first three segments that are counted are genuine, and a connection that has counted some is
not opened again. -/
def CountsGenuine (w : Watched) : Event → Prop
  | .processSegment _ seg =>
      w.session.conn.countsDupAck seg = true → w.session.conn.tcb.dupAckCount < 3#8 →
        w.genuineDupAck seg = true
  | .connect => w.session.conn.tcb.state = .closed → w.session.conn.tcb.dupAckCount = 0#8
  | _ => True

structure Counted (w : Watched) : Prop where
  opening : w.session.conn.tcb.state.opening = true → w.session.conn.tcb.dupAckCount = 0#8
  established : w.session.conn.tcb.state = .established →
    min w.session.conn.tcb.dupAckCount.toNat 3 ≤ w.genuine

theorem step_session (w : Watched) (event : Event) :
    (w.step event).session = w.session.step event := by
  cases event <;> rfl

theorem step_leads (w : Watched) (event : Event) :
    Leads event w.session.conn.tcb.state (w.step event).session.conn.tcb.state := by
  obtain ⟨out, step, -⟩ := w.session.step_core event
  rw [step_session]
  exact step.leads

theorem start_counted (o : Opening) (iss : U32) (e : Endpoint) : (start o iss e).Counted := by
  cases o with
  | passive => exact ⟨fun _ => rfl, fun established => by cases established⟩
  | active => exact ⟨fun _ => rfl, fun established => by cases established⟩

theorem count_ge {w : Watched} {seg : TcpSegment}
    (old : (seg.header.flags.ack && w.session.conn.acceptable seg) = false) :
    w.genuine ≤ w.count seg := by
  unfold count
  rw [old, if_neg Bool.false_ne_true]
  split_ifs
  · exact Nat.le_succ _
  · exact Nat.le_refl _

theorem Counted.segment {w : Watched} {now : Instant} {seg : TcpSegment} (counted : w.Counted)
    (allowed : w.CountsGenuine (.processSegment now seg))
    (before : w.session.conn.tcb.state = .established)
    (after : (w.session.conn.processSegment now seg).1.tcb.state = .established) :
    min (w.session.conn.processSegment now seg).1.tcb.dupAckCount.toNat 3 ≤ w.count seg := by
  have enough := counted.established before
  rw [Connection.processSegment_counted]
  by_cases counts : w.session.conn.countsDupAck seg = true
  · rw [if_pos counts, saturatingAdd_toNat]
    have dup : w.session.conn.isDupAck seg = true := by
      simp only [Connection.countsDupAck, Bool.and_eq_true] at counts
      exact counts.2
    have old : (seg.header.flags.ack && w.session.conn.acceptable seg) = false := by
      simp [Connection.not_acceptable_of_isDupAck dup]
    have more := count_ge old
    by_cases early : w.session.conn.tcb.dupAckCount < 3#8
    · have genuine : w.count seg = w.genuine + 1 := by
        rw [count, old, if_neg Bool.false_ne_true, if_pos (allowed counts early)]
      rw [show (1#8).toNat = 1 from rfl]
      omega
    · rw [BitVec.lt_def, show (3#8).toNat = 3 from rfl] at early
      omega
  · rw [if_neg counts]
    split_ifs with new
    · exact Nat.zero_le _
    · -- A reset would have left ESTABLISHED, so an acceptable acknowledgement is excluded here.
      have alive : seg.header.flags.rst = false := by
        cases reset : seg.header.flags.rst with
        | false => rfl
        | true =>
            rw [Connection.processSegment_established before] at after
            simp [Connection.handleEstablished, reset, Connection.withState] at after
      have old : (seg.header.flags.ack && w.session.conn.acceptable seg) = false := by
        simpa [before, alive] using new
      exact le_trans enough (count_ge old)

theorem Counted.call {w : Watched} {event : Event} (counted : w.Counted) (allowed : w.CountsGenuine event)
    (calls : ∀ now seg, event ≠ .processSegment now seg) : (w.step event).Counted := by
  have leads := w.step_leads event
  have kept := (w.session.conn.call_framed calls).dupAckCount
  have same : (w.step event).session.conn.tcb.dupAckCount = w.session.conn.tcb.dupAckCount := by
    rw [step_session]
    exact kept
  have ghost : (w.step event).genuine = w.genuine := by
    cases event with
    | processSegment now seg => exact absurd rfl (calls now seg)
    | _ => rfl
  constructor
  · intro opening
    rw [same]
    by_cases before : w.session.conn.tcb.state.opening = true
    · exact counted.opening before
    · rcases leads.opening opening with already | rfl
      · exact absurd already before
      · exact allowed (leads.reopens opening before)
  · intro established
    rw [same, ghost]
    rw [established] at leads
    rcases leads.established with opening | before
    · rw [← leads.opening_kept calls opening] at opening
      cases opening
    · exact counted.established before

theorem step_counted (w : Watched) (event : Event) (counted : w.Counted) (allowed : w.CountsGenuine event) :
    (w.step event).Counted := by
  cases event with
  | processSegment now seg =>
      have leads := w.step_leads (.processSegment now seg)
      have fresh : w.session.conn.tcb.state.opening = true →
          (w.session.conn.processSegment now seg).1.tcb.dupAckCount = 0#8 := by
        intro opening
        have other : w.session.conn.tcb.state ≠ .established := by
          intro established
          rw [established] at opening
          cases opening
        obtain ⟨snd, rcv, after, tcb⟩ := Connection.processSegment_tcb now seg other
        rw [tcb]
        exact counted.opening opening
      constructor
      · intro opening
        rcases leads.opening opening with before | connect
        · exact fresh before
        · cases connect
      · intro established
        rw [established] at leads
        rcases leads.established with opening | before
        · have zero := fresh opening
          dsimp only [step, Session.step, Session.call, Prod.map, id]
          rw [zero]
          exact Nat.zero_le _
        · exact counted.segment allowed before established
  | _ => exact counted.call allowed (by simp)

theorem justified (w : Watched) (event : Event) (counted : w.Counted) (allowed : w.CountsGenuine event) :
    w.Justified event := by
  cases event with
  | processSegment now seg =>
      intro acts
      have reduces : w.session.conn.reduces seg = true := by
        rcases acts with reduces | fast
        · exact reduces
        · exact Connection.reduces_of_fastRetransmits fast
      simp only [Connection.reduces, Bool.and_eq_true, beq_iff_eq] at reduces
      obtain ⟨counts, third⟩ := reduces
      have genuine := allowed counts (by rw [third]; decide)
      simp only [Connection.countsDupAck, Bool.and_eq_true, beq_iff_eq] at counts
      have enough := counted.established counts.1.1.1
      have old : w.session.conn.acceptable seg = false :=
        Connection.not_acceptable_of_isDupAck counts.2
      rw [third, show (2#8).toNat = 2 from rfl] at enough
      simp only [step, count, old, genuine, Bool.and_false, if_neg Bool.false_ne_true, if_true]
      omega
  | _ => trivial

theorem fast_retransmit_justified (o : Opening) (iss : U32) (e : Endpoint) (events : List Event)
    (run : Along CountsGenuine (start o iss e) events) : Along Justified (start o iss e) events :=
  Runs.along_inv step_counted justified (start_counted o iss e) run

instance (w : Watched) : (event : Event) → Decidable (w.CountsGenuine event)
  | .processSegment _ _ => inferInstanceAs (Decidable (_ → _))
  | .connect => inferInstanceAs (Decidable (_ → _))
  | .writeData _ | .nextSegmentToSend _ _ | .readReceived _ | .takeRetransmits _ | .initiateClose
  | .tickTimeWait _ | .zeroWindowProbe => isTrue trivial

instance (w : Watched) : (event : Event) → Decidable (w.Justified event)
  | .processSegment _ _ => inferInstanceAs (Decidable (_ → _))
  | .writeData _ | .nextSegmentToSend _ _ | .readReceived _ | .takeRetransmits _ | .initiateClose
  | .tickTimeWait _ | .connect | .zeroWindowProbe => isTrue trivial

def streaming : List Event :=
  flowing ++ [.processSegment 0 (clientSegment (clientIsn + 1#32) (serverIsn + 1#32)
      { ack := true, psh := true } 65535#16 [1#8]),
    .processSegment 0 (clientSegment (clientIsn + 2#32) (serverIsn + 1#32)
      { ack := true, psh := true } 65535#16 [2#8]),
    .processSegment 0 (clientSegment (clientIsn + 3#32) (serverIsn + 1#32)
      { ack := true, psh := true } 65535#16 [3#8])]

theorem streaming_reduces_window :
    Session.Along Orderly server streaming ∧
    ¬ Along Justified (start .passive serverIsn serverEnd) streaming := by
  decide +kernel

def threeDuplicates : List Event :=
  flowing ++ List.replicate 3 (clientAck (serverIsn + 1#32) 65535#16)

theorem fast_retransmit_justified_threeDuplicates :
    Along CountsGenuine (start .passive serverIsn serverEnd) threeDuplicates ∧
    (exec (start .passive serverIsn serverEnd) threeDuplicates).session.conn.tcb.dupAckCount = 3#8 ∧
    Along Justified (start .passive serverIsn serverEnd) threeDuplicates := by
  have run : Along CountsGenuine (start .passive serverIsn serverEnd) threeDuplicates := by decide +kernel
  exact ⟨run, by decide +kernel, fast_retransmit_justified _ _ _ _ run⟩

end Watched

end MagnumTcp.Tcp
