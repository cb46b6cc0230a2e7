import MagnumTcp.Proof.Close
import MagnumTcp.Proof.Frame
import MagnumTcp.Proof.Handshake

namespace MagnumTcp.Tcp

open MagnumTcp.Tcp.Core

def TcbState.successors : TcbState → List TcbState
  | established => [closeWait, finWait1, closed]
  | closeWait => [lastAck, closed]
  | finWait1 => [finWait2, closing, timeWait, closed]
  | finWait2 => [timeWait, closed]
  | closing => [timeWait, closed]
  | lastAck => [closed]
  | timeWait => [closed]
  | _ => []

def TcbState.Proceeds (before after : TcbState) : Prop := after = before ∨ after ∈ before.successors

instance (before after : TcbState) : Decidable (before.Proceeds after) :=
  inferInstanceAs (Decidable (_ ∨ _))

theorem TcbState.proceeds_closed {state : TcbState} (opened : state.opening = false) :
    state.Proceeds .closed := by
  cases state <;> first | decide | cases opened

theorem Leads.proceeds {event : Event} {before after : TcbState} (leads : Leads event before after)
    (opened : before.opening = false) (used : event ≠ .connect) : before.Proceeds after := by
  cases leads with
  | stay => exact .inl rfl
  | reset => exact TcbState.proceeds_closed opened
  | syn => cases opened
  | relisten => cases opened
  | synAck => cases opened
  | simultaneousSyn => cases opened
  | ack => cases opened
  | connect => exact absurd rfl used
  | _ => decide

/-! ## TIME_WAIT -/

theorem Leads.timeWait {event : Event} {before : TcbState} (leads : Leads event before .timeWait)
    (outside : before ≠ .timeWait) :
    (∃ now seg, event = .processSegment now seg) ∧
      (before = .finWait1 ∨ before = .finWait2 ∨ before = .closing) := by
  cases leads with
  | stay => exact absurd rfl outside
  | finBoth now seg => exact ⟨⟨now, seg, rfl⟩, .inl rfl⟩
  | finAfter now seg => exact ⟨⟨now, seg, rfl⟩, .inr (.inl rfl)⟩
  | closingAcked now seg => exact ⟨⟨now, seg, rfl⟩, .inr (.inr rfl)⟩

theorem Leads.leaves_timeWait {event : Event} {after : TcbState} (leads : Leads event .timeWait after)
    (outside : after ≠ .timeWait) :
    (∃ now, event = .tickTimeWait now) ∨ ∃ now seg, event = .processSegment now seg := by
  cases leads with
  | stay => exact absurd rfl outside
  | reset now seg => exact .inr ⟨now, seg, rfl⟩
  | expire now => exact .inl ⟨now, rfl⟩

namespace Connection

variable {c : Connection} {now : Instant} {seg : TcpSegment}

theorem processSegment_enters
    (state : c.tcb.state = .finWait1 ∨ c.tcb.state = .finWait2 ∨ c.tcb.state = .closing)
    (inside : (c.processSegment now seg).1.tcb.state = .timeWait) :
    (c.processSegment now seg).1.timeWaitStart = some now := by
  unfold processSegment at inside ⊢
  rcases state with state | state | state <;> simp only [state] at inside ⊢
  · unfold handleFinWait1 at inside ⊢
    dsimp only at inside ⊢
    split_ifs at inside ⊢ <;> first | rfl | simp [withState, acceptFin, acknowledge, state] at inside
  · unfold handleFinWait2 at inside ⊢
    dsimp only at inside ⊢
    split_ifs at inside ⊢ <;> first | rfl | simp [withState, state] at inside
  · unfold handleClosing at inside ⊢
    dsimp only at inside ⊢
    split_ifs at inside ⊢ <;> first | rfl | simp [withState, state] at inside

theorem processSegment_timeWait (state : c.tcb.state = .timeWait) :
    (c.processSegment now seg).1 = c := by
  simp only [processSegment, state, handleTimeWait]
  split_ifs <;> rfl

theorem tickTimeWait_leaves {start : Instant} (running : c.timeWaitStart = some start)
    (state : c.tcb.state = .timeWait) (outside : (c.tickTimeWait now).1.tcb.state ≠ .timeWait) :
    start + twoMsl ≤ now := by
  unfold tickTimeWait at outside
  rw [if_neg (not_not.mpr state), running] at outside
  dsimp only at outside
  split_ifs at outside with elapsed
  · have positive : 0 < twoMsl := by decide
    have later : start < now := Nat.lt_of_sub_pos (positive.trans_le elapsed)
    exact Nat.add_le_of_le_sub' later.le elapsed
  · exact absurd state outside

end Connection

namespace Session

theorem timeWait_entered {s : Session} {event : Event} (outside : s.conn.tcb.state ≠ .timeWait)
    (inside : (s.step event).conn.tcb.state = .timeWait) :
    ∃ now seg, event = .processSegment now seg ∧ (s.step event).conn.timeWaitStart = some now := by
  obtain ⟨out, step, -⟩ := s.step_core event
  have leads := step.leads
  rw [show (s.step event).conn.core.state = .timeWait from inside] at leads
  obtain ⟨⟨now, seg, rfl⟩, state⟩ := leads.timeWait outside
  exact ⟨now, seg, rfl, Connection.processSegment_enters state inside⟩

theorem timeWait_kept {s : Session} (event : Event) (state : s.conn.tcb.state = .timeWait) :
    (s.step event).conn.timeWaitStart = s.conn.timeWaitStart := by
  cases event with
  | processSegment now seg =>
      exact congrArg Connection.timeWaitStart (Connection.processSegment_timeWait state)
  | _ => exact (s.conn.call_framed (by simp)).timeWaitStart

theorem timeWait_left {s : Session} {event : Event} {start : Instant}
    (state : s.conn.tcb.state = .timeWait) (running : s.conn.timeWaitStart = some start)
    (outside : (s.step event).conn.tcb.state ≠ .timeWait) :
    ∃ now, event = .tickTimeWait now ∧ start + twoMsl ≤ now := by
  obtain ⟨out, step, -⟩ := s.step_core event
  have leads := step.leads
  rw [show s.conn.core.state = .timeWait from state] at leads
  rcases leads.leaves_timeWait outside with ⟨now, rfl⟩ | ⟨now, seg, rfl⟩
  · exact ⟨now, rfl, Connection.tickTimeWait_leaves running state outside⟩
  · have same : (s.conn.processSegment now seg).1 = s.conn := Connection.processSegment_timeWait state
    exact absurd ((congrArg (fun c => c.tcb.state) same).trans state) outside

/-! ## Whole runs -/

/-- A step after ESTABLISHED was first reached follows an edge of the diagram, or stays. -/
def OneWay (s : Session) (event : Event) : Prop :=
  s.established = true → s.conn.tcb.state.Proceeds (s.step event).conn.tcb.state

def ClosesOnce (s : Session) (events : List Event) : Prop :=
  ∀ before between after, events = before ++ .initiateClose :: (between ++ .initiateClose :: after) →
    ∀ f, (exec s before).Closes f → ∀ f', ¬ (exec s (before ++ .initiateClose :: between)).Closes f'

/-- When TIME_WAIT is entered by one event and left by a later one, the first is an inbound segment and
the second a tick at least `twoMsl` after it. -/
def HoldsTimeWait (s : Session) (events : List Event) : Prop :=
  ∀ before enter during leave after, events = before ++ enter :: (during ++ leave :: after) →
    (exec s before).conn.tcb.state ≠ .timeWait →
    Always (fun s => s.conn.tcb.state = .timeWait) ((exec s before).step enter) during →
    (exec s (before ++ enter :: (during ++ [leave]))).conn.tcb.state ≠ .timeWait →
    ∃ entered seg now, enter = .processSegment entered seg ∧ leave = .tickTimeWait now ∧
      entered + twoMsl ≤ now

structure Phased (s : Session) : Prop where
  early : s.established = false → s.conn.core.state.synchronized = false
  late : s.established = true → s.used = true ∧ s.conn.core.state.opening = false

theorem start_phased (o : Opening) (iss : U32) (e : Endpoint) : (o.session iss e).Phased := by
  cases o <;> exact ⟨fun _ => rfl, fun flag => absurd flag Bool.false_ne_true⟩

end Session

theorem Leads.synchronizes {event : Event} {before after : TcbState} (leads : Leads event before after)
    (early : before.synchronized = false) (late : after.synchronized = true) :
    after = .established := by
  cases leads with
  | stay => exact absurd (early.symm.trans late) Bool.false_ne_true
  | synAck => rfl
  | ack => rfl
  | reset => cases late
  | syn => cases late
  | relisten => cases late
  | simultaneousSyn => cases late
  | connect => cases late
  | _ => cases early

namespace Session

theorem phased_step (s : Session) (event : Event) (inv : s.Phased) (usage : s.ConnectFirst event) :
    (s.step event).Phased := by
  obtain ⟨out, step, -⟩ := s.step_core event
  constructor
  · intro flag
    obtain ⟨before, now⟩ := Bool.or_eq_false_iff.mp flag
    refine Bool.eq_false_of_not_eq_true fun synchronized => ?_
    have state := step.leads.synchronizes (inv.early before) synchronized
    exact absurd state (beq_eq_false_iff_ne.mp now)
  · intro flag
    refine ⟨rfl, Bool.eq_false_of_not_eq_true fun opening => ?_⟩
    rcases Bool.or_eq_true_iff.mp flag with before | now
    · obtain ⟨used, opened⟩ := inv.late before
      rcases step.leads.opening opening with still | rfl
      · exact absurd (still.symm.trans opened) Bool.true_eq_false.mp
      · exact absurd (usage.symm.trans used) Bool.false_ne_true
    · have state : (s.step event).conn.core.state = .established := eq_of_beq now
      rw [state] at opening
      cases opening

theorem Phased.oneWay {s : Session} (inv : s.Phased) {event : Event} (usage : s.ConnectFirst event) :
    s.OneWay event := by
  intro flag
  obtain ⟨used, opened⟩ := inv.late flag
  obtain ⟨out, step, -⟩ := s.step_core event
  refine step.leads.proceeds opened ?_
  rintro rfl
  exact absurd (usage.symm.trans used) Bool.false_ne_true

theorem finished_step (s : Session) (event : Event)
    (inv : s.used = true ∧ s.conn.core.state.finished) (usage : s.ConnectFirst event) :
    (s.step event).used = true ∧ (s.step event).conn.core.state.finished := by
  obtain ⟨out, step, -⟩ := s.step_core event
  refine ⟨rfl, step.finished inv.2 ?_⟩
  rintro rfl
  exact absurd (usage.symm.trans inv.1) Bool.false_ne_true

theorem closes_once {s : Session} {events : List Event} (usage : Along ConnectFirst s events) :
    s.ClosesOnce events := by
  rintro before between after rfl f closes f' again
  obtain ⟨-, -, state, finished, next⟩ := closes.fin
  have closed : ((exec s before).step .initiateClose).conn.core.state.finished := by
    rw [next]
    exact finished
  have later := (Runs.along_append.mp (Runs.along_append.mp usage).2.2).1
  have final := Runs.exec_inv finished_step ⟨rfl, closed⟩ later
  rw [Session.exec, Runs.exec_append, Runs.exec_cons] at again
  exact absurd again.fin.1 (Bool.eq_false_iff.mp final.2.2)

theorem timeWaitStart_exec {s : Session} {events : List Event} {start : Instant}
    (running : s.conn.timeWaitStart = some start)
    (inside : Always (fun s => s.conn.tcb.state = .timeWait) s events) :
    (exec s events).conn.timeWaitStart = some start := by
  induction events generalizing s with
  | nil => exact running
  | cons event rest ih => exact ih ((timeWait_kept event inside.1).trans running) inside.2

theorem holds_timeWait (s : Session) (events : List Event) : s.HoldsTimeWait events := by
  rintro before enter during leave after rfl outside inside left
  have entered : ((exec s before).step enter).conn.tcb.state = .timeWait := by
    cases during with
    | nil => exact inside
    | cons event rest => exact inside.1
  obtain ⟨now, seg, rfl, started⟩ := timeWait_entered outside entered
  have running := timeWaitStart_exec started inside
  rw [Session.exec, Runs.exec_append, Runs.exec_cons, Runs.exec_append] at left
  obtain ⟨later, rfl, elapsed⟩ := timeWait_left (Runs.always_exec inside) running left
  exact ⟨now, seg, later, rfl, rfl, elapsed⟩

theorem lifecycle (o : Opening) (iss : U32) (e : Endpoint) (events : List Event)
    (usage : Along ConnectFirst (o.session iss e) events) :
    Along OneWay (o.session iss e) events ∧ (o.session iss e).ClosesOnce events ∧
      (o.session iss e).HoldsTimeWait events := by
  refine ⟨?_, closes_once usage, holds_timeWait _ _⟩
  exact Runs.along_inv phased_step (fun s event inv first => inv.oneWay first)
    (start_phased o iss e) usage

def activeClose : List Event :=
  establish ++ [.initiateClose, clientAck (serverIsn + 2#32) 65535#16, .initiateClose,
    .processSegment 5 (clientSegment (clientIsn + 1#32) (serverIsn + 2#32) { fin := true, ack := true }
      65535#16 []), .tickTimeWait 59999999999, .tickTimeWait 60000000005]

theorem lifecycle_activeClose :
    Along ConnectFirst server activeClose ∧ Along OneWay server activeClose ∧
      server.ClosesOnce activeClose ∧ server.HoldsTimeWait activeClose :=
  have usage : Along ConnectFirst server activeClose := by decide
  ⟨usage, lifecycle _ _ _ _ usage⟩

/-! ## The FIN and the timers -/

def RetransmitsFin (s : Session) (now : Instant) (f : U32) : Prop :=
  ∃ raw ∈ (s.conn.takeRetransmits now).2, ∃ seg,
    TcpSegment.parse raw s.conn.tcb.localIp s.conn.tcb.remoteIp = .ok seg ∧
      seg.header.flags.fin = true ∧ (f - seg.header.seq).toNat ≤ seg.payload.length

theorem Sender.retransmits_no_fin {e : Endpoint} {iss : U32} {s : Session} (sender : s.Sender e iss)
    (now : Instant) (f : U32) : ¬ s.RetransmitsFin now f := by
  rintro ⟨raw, member, seg, parsed, fin, -⟩
  obtain ⟨out, step, built⟩ := s.conn.takeRetransmits_core now
  rw [built] at member
  obtain ⟨b, inside, rfl⟩ := List.mem_map.mp member
  generalize (s.conn.takeRetransmits now).1.core = c' at step
  have read := (step.emitted b inside).parse sender.sends
  rw [step.fixed.1] at read
  cases parsed.symm.trans read
  cases step with
  | retransmit _ _ w segments held =>
      obtain ⟨segment, -, rfl⟩ := List.mem_map.mp inside
      cases fin

theorem fin_never_retransmitted (o : Opening) (iss : U32) (e : Endpoint) (events : List Event) :
    Always (fun s => ∀ now f, ¬ s.RetransmitsFin now f) (o.session iss e) events := by
  refine Runs.always_inv (C := fun _ _ => True) (fun s event sender _ => sender.step event) ?_
    (start_sender o iss e) (Runs.along_true _ _)
  exact fun s sender now f => sender.retransmits_no_fin now f

theorem fin_lost :
    (Along ConnectFirst server (establish ++ [.initiateClose]) ∧
      (exec server establish).Closes (serverIsn + 1#32) ∧
      (exec server (establish ++ [.initiateClose])).conn.tcb.state = .finWait1) ∧
    ¬ (exec server (establish ++ [.initiateClose])).RetransmitsFin maxRto (serverIsn + 1#32) := by
  have closes := closes_of_state (s := exec server establish) (.inl (by decide))
  have nothing : ((exec server (establish ++ [.initiateClose])).conn.takeRetransmits maxRto).2 = [] := by
    decide
  refine ⟨⟨by decide, closes, by decide⟩, ?_⟩
  rintro ⟨raw, member, -⟩
  rw [nothing] at member
  exact absurd member List.not_mem_nil

end Session

end MagnumTcp.Tcp
