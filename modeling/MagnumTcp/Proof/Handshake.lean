import MagnumTcp.Proof.Sync

namespace MagnumTcp.Tcp

open MagnumTcp.Tcp.Core

def TcbState.synchronized : TcbState → Bool
  | listen | synSent | synReceived | closed => false
  | _ => true

def Event.AcksIsn (iss : U32) : Event → Prop
  | .processSegment _ seg => seg.header.flags.ack = true ∧ seg.header.ackNum = iss + 1#32
  | _ => False

instance (iss : U32) : (event : Event) → Decidable (event.AcksIsn iss)
  | .processSegment _ seg =>
      inferInstanceAs (Decidable (seg.header.flags.ack = true ∧ seg.header.ackNum = iss + 1#32))
  | .writeData _ | .nextSegmentToSend _ _ | .readReceived _ | .takeRetransmits _
  | .initiateClose | .tickTimeWait _ | .connect | .zeroWindowProbe => isFalse id

/-! ## Before the SYN is acknowledged -/

structure Core.Unproven (c : Core) : Prop where
  early : c.state.synchronized = false
  una : c.una = c.iss
  nxt : c.state = .synSent ∨ c.state = .synReceived → c.nxt = c.iss + 1#32
  empty : c.sendBuf.len = 0

theorem ackAcceptable_syn {iss ack : U32} (good : ackAcceptable iss ack (iss + 1#32) = true) :
    ack = iss + 1#32 := by
  have one : (iss + 1#32 - iss).toNat = 1 := by bv_omega
  have bounds := (ackAcceptable_iff_distance (by omega)).mp good
  bv_omega

namespace Core.Unproven

variable {c c' : Core} {seg : TcpSegment} {out : List SegmentBuilder}

theorem acksIsn (unproven : c.Unproven) (pending : c.state = .synSent ∨ c.state = .synReceived)
    (good : c.Acceptable seg) : seg.header.flags.ack = true ∧ seg.header.ackNum = c.iss + 1#32 := by
  obtain ⟨ack, inside⟩ := good
  rw [unproven.una, unproven.nxt pending] at inside
  exact ⟨ack, ackAcceptable_syn inside⟩

theorem segment {early : Bool} (unproven : c.Unproven) (step : SegmentStep early seg c c' out)
    (forged : ¬ (seg.header.flags.ack = true ∧ seg.header.ackNum = c.iss + 1#32)) :
    c'.Unproven := by
  have pre := unproven.early
  cases step with
  | ignore => exact unproven
  | refuse => exact unproven
  | repeatSynAck => exact unproven
  | reset => exact ⟨rfl, unproven.una, by simp, unproven.empty⟩
  | relisten => exact ⟨rfl, unproven.una, by simp, unproven.empty⟩
  | listenSyn => exact ⟨rfl, unproven.una, fun _ => rfl, unproven.empty⟩
  | synSentSyn w state =>
      exact ⟨rfl, unproven.una, fun _ => unproven.nxt (.inl state), unproven.empty⟩
  -- the two ways into ESTABLISHED
  | synSentAck w state _ good => exact absurd (unproven.acksIsn (.inl state) good) forged
  | synReceivedAck state good => exact absurd (unproven.acksIsn (.inr state) good) forged
  | _ =>
      rw [‹c.state = _›] at pre
      cases pre

theorem step {event : Event} (unproven : c.Unproven) (step : CoreStep event c c' out)
    (silent : ∀ data, event ≠ .writeData data) (forged : ¬ event.AcksIsn c.iss) :
    c'.Unproven := by
  have unsent := SendBuffer.nextSegment_none unproven.empty
  cases step with
  | segment step => exact unproven.segment step forged
  | write data => exact absurd rfl (silent data)
  | send _ _ _ _ _ _ _ next => cases (unsent _).symm.trans next
  | probe _ _ _ _ next => cases (unsent _).symm.trans next
  | close _ _ _ able =>
      have early := unproven.early
      rcases able with ⟨state, -⟩ | ⟨state, -⟩ <;> simp [state, TcbState.synchronized] at early
  | expire => exact ⟨rfl, unproven.una, by simp, unproven.empty⟩
  | connect => exact ⟨rfl, unproven.una, fun _ => rfl, unproven.empty⟩
  | read => exact ⟨unproven.early, unproven.una, unproven.nxt, unproven.empty⟩
  | _ => exact unproven

end Core.Unproven

namespace Session

structure Unproven (s : Session) (iss : U32) : Prop where
  core : s.conn.core.Unproven
  iss : s.conn.core.iss = iss
  early : s.established = false

theorem start_unproven (o : Opening) (iss : U32) (e : Endpoint) :
    (o.session iss e).Unproven iss := by
  cases o <;> exact ⟨⟨rfl, rfl, nofun, rfl⟩, rfl, rfl⟩

theorem unproven_step (iss : U32) (s : Session) (event : Event) (inv : s.Unproven iss)
    (condition : s.WriteEstablished event ∧ ¬ event.AcksIsn iss) :
    (s.step event).Unproven iss := by
  obtain ⟨usage, forged⟩ := condition
  obtain ⟨out, step, -⟩ := s.step_core event
  have silent : ∀ data, event ≠ .writeData data := by
    rintro data rfl
    exact absurd (inv.early.symm.trans usage) Bool.false_ne_true
  rw [← inv.iss] at forged
  have next := inv.core.step step silent forged
  refine ⟨next, step.fixed.2.trans inv.iss, ?_⟩
  have early := next.early
  change (s.established || (s.step event).conn.core.state == .established) = false
  rw [inv.early, Bool.false_or, beq_eq_false_iff_ne]
  intro state
  simp [state, TcbState.synchronized] at early

/-- ESTABLISHED is only reached when the peer has acknowledged our initial sequence number. -/
theorem established_requires_isn (o : Opening) (iss : U32) (e : Endpoint) (events : List Event)
    (usage : Along WriteEstablished (o.session iss e) events)
    (forged : ∀ event ∈ events, ¬ event.AcksIsn iss) :
    Always (fun s => s.conn.tcb.state.synchronized = false) (o.session iss e) events := by
  have run := Runs.along_and.mpr ⟨usage, Runs.along_of_mem forged (o.session iss e)⟩
  exact Runs.always_inv (unproven_step iss) (fun s inv => inv.core.early) (start_unproven o iss e) run

def guesses : List Event :=
  [.processSegment 0 (clientSegment clientIsn 0#32 { syn := true } 65535#16 []),
    clientAck (serverIsn + 2#32) 100#16,
    .processSegment 0 (clientSegment (clientIsn + 1#32) 0#32 { rst := true } 0#16 []),
    .processSegment 0 (clientSegment 77#32 0#32 { syn := true } 0#16 []), .nextSegmentToSend 0 1460,
    clientAck serverIsn 100#16, .initiateClose, .connect]

theorem established_requires_isn_guesses :
    (Along WriteEstablished server guesses ∧ ∀ event ∈ guesses, ¬ event.AcksIsn serverIsn) ∧
    Always (fun s => s.conn.tcb.state.synchronized = false) server guesses :=
  have usage : Along WriteEstablished server guesses := by decide
  have forged : ∀ event ∈ guesses, ¬ event.AcksIsn serverIsn := by decide
  ⟨⟨usage, forged⟩, established_requires_isn _ _ _ _ usage forged⟩

/-! ## An RST during a simultaneous open -/

def ResetsHandshake (s : Session) : Event → Prop
  | .processSegment _ seg => s.conn.tcb.state = .synReceived ∧ seg.header.flags.rst = true
  | _ => False

instance (s : Session) : (event : Event) → Decidable (s.ResetsHandshake event)
  | .processSegment _ seg => inferInstanceAs
      (Decidable (s.conn.tcb.state = .synReceived ∧ seg.header.flags.rst = true))
  | .writeData _ | .nextSegmentToSend _ _ | .readReceived _ | .takeRetransmits _
  | .initiateClose | .tickTimeWait _ | .connect | .zeroWindowProbe => isFalse id

end Session

theorem Connection.processSegment_synReceived {c : Connection} {now : Instant} {seg : TcpSegment}
    (state : c.tcb.state = .synReceived) :
    (c.processSegment now seg).1.tcb.state = .listen ↔ seg.header.flags.rst = true := by
  simp only [processSegment, state, handleSynReceived]
  split_ifs with rst <;> simp [withState, withSnd, state, rst]

namespace Session

theorem step_listen {s : Session} (event : Event) (active : s.conn.tcb.state ≠ .listen) :
    (s.step event).conn.tcb.state = .listen ↔ s.ResetsHandshake event := by
  obtain ⟨out, step, -⟩ := s.step_core event
  constructor
  · intro listens
    have leads := step.leads
    rw [show (s.step event).conn.core.state = .listen from listens] at leads
    obtain listening | ⟨state, now, seg, rfl⟩ := leads.listen
    · exact absurd listening active
    · exact ⟨state, (Connection.processSegment_synReceived state).mp listens⟩
  · intro reset
    cases event with
    | processSegment now seg => exact (Connection.processSegment_synReceived reset.1).mpr reset.2
    | _ => exact reset.elim

/-- An active opener stays out of LISTEN, and an RST closes it, exactly when no RST arrives in
SYN_RECEIVED. -/
theorem active_never_listens_iff (iss : U32) (e : Endpoint) (events : List Event) :
    Always (fun s => s.conn.tcb.state ≠ .listen) (Opening.active.session iss e) events ∧
      Along (fun s event => s.ResetsHandshake event → (s.step event).conn.tcb.state = .closed)
        (Opening.active.session iss e) events ↔
    Along (fun s event => ¬ s.ResetsHandshake event) (Opening.active.session iss e) events := by
  have listens :
      Always (fun s => s.conn.tcb.state ≠ .listen) (Opening.active.session iss e) events ↔
      Along (fun s event => ¬ s.ResetsHandshake event) (Opening.active.session iss e) events := by
    apply Runs.always_iff_along (U := fun _ _ => True)
    · exact fun s event active _ quiet => mt (step_listen event active).mp quiet
    · exact fun s active => active
    · exact fun s event active _ next => mt (step_listen event active).mpr next
    · exact show TcbState.closed ≠ .listen by decide
    · exact Runs.along_true _ _
  rw [listens]
  refine ⟨And.left, fun quiet => ⟨quiet, ?_⟩⟩
  exact Runs.along_mono (fun s event none reset => absurd reset none) quiet

def client : Session := Opening.active.session clientIsn serverEnd.peer

def serverSegment (seq ackNum : U32) (flags : TcpFlags) (window : U16) (payload : Bytes) :
    TcpSegment :=
  SegmentBuilder.segment
    { srcIp := serverEnd.localIp
      dstIp := serverEnd.remoteIp
      srcPort := serverEnd.localPort
      dstPort := serverEnd.remotePort
      seq := seq
      ackNum := ackNum
      flags := flags
      window := window
      payload := payload }

def simultaneousReset : List Event :=
  [.connect, .processSegment 0 (serverSegment serverIsn 0#32 { syn := true } 65535#16 []),
    .processSegment 0 (serverSegment (serverIsn + 1#32) 0#32 { rst := true } 0#16 [])]

theorem active_listens_after_reset :
    ¬ Always (fun s => s.conn.tcb.state ≠ .listen) client simultaneousReset := by
  decide

end Session

end MagnumTcp.Tcp
