import MagnumTcp.Proof.Task

namespace MagnumTcp.Tcp

open MagnumTcp.Tcp.Core

def TcbState.canClose : TcbState → Bool
  | .established | .closeWait => true
  | _ => false

def Connection.completesHandshake (c : Connection) (seg : TcpSegment) : Bool :=
  let flags := seg.header.flags
  match c.tcb.state with
  | .synReceived => !flags.rst && flags.ack && c.acceptable seg
  | .synSent => !flags.rst && flags.syn && flags.ack && c.acceptable seg
  | _ => false

theorem Connection.processSegment_canClose {c : Connection} (now : Instant) (seg : TcpSegment)
    (unable : c.tcb.state.canClose = false) :
    (c.processSegment now seg).1.tcb.state.canClose = c.completesHandshake seg := by
  unfold processSegment completesHandshake
  cases state : c.tcb.state with
  | established => rw [state] at unable; cases unable
  | closeWait => rw [state] at unable; cases unable
  | listen =>
      simp only [handleListen]
      split_ifs <;> simp [state, TcbState.canClose]
  | synReceived =>
      simp only [handleSynReceived]
      split_ifs <;> simp_all [TcbState.canClose, withState]
  | synSent =>
      simp only [handleSynSent]
      split_ifs <;> simp_all [TcbState.canClose, withState]
  | finWait1 =>
      simp only [handleFinWait1]
      split_ifs <;> simp [state, TcbState.canClose, withState, acceptFin, acknowledge]
  | finWait2 =>
      simp only [handleFinWait2]
      split_ifs <;> simp [state, TcbState.canClose, withState, acceptFin]
  | closing =>
      simp only [handleClosing]
      split_ifs <;> simp [state, TcbState.canClose, withState, withSnd]
  | lastAck =>
      simp only [handleLastAck]
      split_ifs <;> simp [state, TcbState.canClose, withState, withSnd]
  | timeWait =>
      simp only [handleTimeWait]
      split_ifs <;> simp [state, TcbState.canClose]
  | closed => simp [state, TcbState.canClose]

theorem Connection.initiateClose_canClose (c : Connection) :
    c.initiateClose.1.tcb.state.canClose = false := by
  unfold initiateClose
  cases state : c.tcb.state <;> simp [state, withState, TcbState.canClose]

structure TcbState.Stable (P : TcbState → Prop) : Prop where
  expire : P .timeWait → P .closed
  connect : P .closed → P .synSent

theorem TcbState.canClose_stable (b : Bool) : Stable fun state => state.canClose = b where
  expire := id
  connect := id

variable {P : TcbState → Prop}

theorem Leads.stable (stable : TcbState.Stable P) {event : Event} {before after : TcbState}
    (leads : Leads event before after) (calls : ∀ now seg, event ≠ .processSegment now seg)
    (other : event ≠ .initiateClose) (inv : P before) : P after := by
  cases leads with
  | stay => exact inv
  | expire => exact stable.expire inv
  | connect => exact stable.connect inv
  | close => exact absurd rfl other
  | closeAfter => exact absurd rfl other
  | _ => exact absurd rfl (calls _ _)

namespace Session

variable {s : Session}

theorem step_stable (stable : TcbState.Stable P) (event : Event)
    (calls : ∀ now seg, event ≠ .processSegment now seg) (other : event ≠ .initiateClose)
    (inv : P s.conn.tcb.state) : P (s.step event).conn.tcb.state := by
  obtain ⟨out, step, -⟩ := s.step_core event
  exact step.leads.stable stable calls other inv

theorem flushSendBuf_stable (stable : TcbState.Stable P) (clock : Nat → Instant)
    (inv : P s.conn.tcb.state) : P (s.flushSendBuf clock).conn.tcb.state :=
  flushRounds_inv (P := fun s' => P s'.conn.tcb.state)
    (fun _ _ inv => step_stable stable _ (by simp) (by simp) inv) _ _ inv

theorem forwardReceivedData_stable (stable : TcbState.Stable P) (inv : P s.conn.tcb.state) :
    P s.forwardReceivedData.conn.tcb.state := by
  unfold forwardReceivedData
  dsimp only
  split_ifs
  · exact step_stable stable _ (by simp) (by simp) inv
  · exact inv

def canClose (s : Session) : Bool := s.conn.tcb.state.canClose

theorem step_canClose (s : Session) {event : Event}
    (calls : ∀ now seg, event ≠ .processSegment now seg) (other : event ≠ .initiateClose) :
    (s.step event).canClose = s.canClose :=
  step_stable (TcbState.canClose_stable _) event calls other rfl

theorem flushSendBuf_canClose (s : Session) (clock : Nat → Instant) :
    (s.flushSendBuf clock).canClose = s.canClose :=
  flushSendBuf_stable (TcbState.canClose_stable _) clock rfl

theorem forwardReceivedData_canClose (s : Session) :
    s.forwardReceivedData.canClose = s.canClose :=
  forwardReceivedData_stable (TcbState.canClose_stable _) rfl

end Session

namespace Task

theorem finish_stable (stable : TcbState.Stable P) {t : Task} (now : Instant)
    (inv : P t.session.conn.tcb.state) : P (t.finish now).session.conn.tcb.state :=
  Session.step_stable stable (.tickTimeWait now) (by simp) (by simp) inv

theorem finish_canClose (t : Task) (now : Instant) :
    (t.finish now).session.canClose = t.session.canClose :=
  finish_stable (TcbState.canClose_stable _) now rfl

/-- Once a close was requested, the connection is not in a state that could still send its FIN. -/
def CloseTaken (t : Task) : Prop := t.closeInitiated = true → t.session.canClose = false

def NotTooEarly (t : Task) : TaskEvent → Prop
  | .inbound _ seg =>
      t.running = true → t.closeInitiated = true →
        t.session.conn.completesHandshake seg = false
  | _ => True

theorem inbound_canClose {t : Task} (running : t.running = true) (clock : Clock)
    (seg : TcpSegment) (unable : t.session.canClose = false) :
    (t.step (.inbound clock seg)).session.canClose =
      t.session.conn.completesHandshake seg := by
  unfold step
  rw [if_pos running]
  simp only [handle, finish_canClose, Session.flushSendBuf_canClose,
    Session.forwardReceivedData_canClose]
  exact t.session.conn.processSegment_canClose clock.call seg unable

theorem step_closeTaken {t : Task} (taken : t.CloseTaken) (event : TaskEvent) :
    (t.step event).CloseTaken ↔ t.NotTooEarly event := by
  cases running : t.running with
  | false =>
      have still : t.step event = t := by simp [step, running]
      rw [still]
      refine iff_of_true taken ?_
      cases event with
      | inbound clock seg =>
          intro runs
          rw [running] at runs
          cases runs
      | _ => trivial
  | true =>
      cases event with
      | inbound clock seg =>
          have flag : (t.step (.inbound clock seg)).closeInitiated = t.closeInitiated := by
            simp only [step, running, if_true, handle, finish]
          unfold CloseTaken
          rw [flag]
          constructor
          · intro after _ initiated
            rw [← inbound_canClose running clock seg (taken initiated)]
            exact after initiated
          · intro early initiated
            rw [inbound_canClose running clock seg (taken initiated)]
            exact early running initiated
      | inboundClosed =>
          refine iff_of_true (fun initiated => ?_) trivial
          simp only [step, running, if_true, handle] at initiated ⊢
          exact taken initiated
      | retransmitTick clock | zwpTick clock =>
          refine iff_of_true (fun initiated => ?_) trivial
          simp only [step, running, if_true, handle, finish_canClose] at initiated ⊢
          exact (t.session.step_canClose (by simp) (by simp)).trans (taken initiated)
      | appSend clock data =>
          refine iff_of_true (fun initiated => ?_) trivial
          simp only [step, running, if_true, handle, finish_canClose,
            Session.flushSendBuf_canClose] at initiated ⊢
          exact (t.session.step_canClose (by simp) (by simp)).trans (taken initiated)
      | close clock =>
          refine iff_of_true (fun initiated => ?_) trivial
          simp only [step, running, if_true, handle] at initiated ⊢
          split_ifs at initiated ⊢ with before
          · exact taken initiated
          · rw [finish_canClose]
            exact t.session.conn.initiateClose_canClose

theorem always_closeTaken_iff (conn : Connection) (events : List TaskEvent) :
    Always CloseTaken (start conn) events ↔ Along NotTooEarly (start conn) events := by
  refine Runs.always_iff_along (U := fun _ _ => True)
    (fun t event taken _ early => (step_closeTaken taken event).mpr early) (fun _ taken => taken)
    (fun t event taken _ after => (step_closeTaken taken event).mp after) ?_ (Runs.along_true _ _)
  exact fun initiated => absurd initiated Bool.false_ne_true

def closedEarly : List TaskEvent :=
  [.close still, .inbound still (clientSegment clientIsn 0#32 { syn := true } 65535#16 []),
    .inbound still (ackSegment (serverIsn + 1#32) 65535#16)]

theorem closedEarly_loses_close : ¬ Always CloseTaken listening closedEarly := by
  intro always
  have last := Runs.always_exec always
  exact absurd (last (by decide +kernel)) (by decide +kernel)

end Task

end MagnumTcp.Tcp
