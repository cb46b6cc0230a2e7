import MagnumTcp.Proof.Frame
import MagnumTcp.Proof.Task

namespace MagnumTcp.Tcp

open MagnumTcp.Tcp.Core

/-! ## A listening connection -/

namespace Connection

structure Waiting (c : Connection) : Prop where
  state : c.tcb.state = .listen ∨ c.tcb.state = .synReceived
  cwnd : c.tcb.cwnd = mss
  wnd : c.tcb.snd.wnd = 65535#16

namespace Waiting

variable {c : Connection}

theorem processSegment (waiting : c.Waiting) (now : Instant) (seg : TcpSegment)
    (early : (c.processSegment now seg).1.tcb.state ≠ .established) :
    (c.processSegment now seg).1.Waiting := by
  obtain ⟨state, cwnd, wnd⟩ := waiting
  rcases state with state | state
  · simp only [Connection.processSegment, state, handleListen] at early ⊢
    split_ifs
    · exact ⟨.inl state, cwnd, wnd⟩
    · exact ⟨.inl state, cwnd, wnd⟩
    · exact ⟨.inl state, cwnd, wnd⟩
    · exact ⟨.inr rfl, cwnd, wnd⟩
  · simp only [Connection.processSegment, state, handleSynReceived] at early ⊢
    split_ifs at early ⊢
    · exact ⟨.inl rfl, cwnd, wnd⟩
    · exact ⟨.inr state, cwnd, wnd⟩
    · exact ⟨.inr state, cwnd, wnd⟩
    · exact ⟨.inr state, cwnd, wnd⟩
    · exact absurd rfl early

theorem framed (waiting : c.Waiting) {c' : Connection} (framed : c.Framed c')
    (state : c'.tcb.state = c.tcb.state) : c'.Waiting := by
  refine ⟨state ▸ waiting.state, ?_, ?_⟩
  · rcases framed.tcb with ⟨_, _, kept⟩ | restarted
    · rw [kept]
      exact waiting.cwnd
    · rw [restarted]
  · rcases framed.tcb with ⟨_, _, kept⟩ | restarted
    · rw [kept]
      exact waiting.wnd
    · rw [restarted]
      exact waiting.wnd

theorem opening (waiting : c.Waiting) : c.core.state.opening = true := by
  rcases waiting.state with state | state <;>
    (rw [show c.core.state = c.tcb.state from rfl, state]; rfl)

theorem tickTimeWait (waiting : c.Waiting) (now : Instant) : c.tickTimeWait now = (c, false) := by
  rcases waiting.state with state | state <;> simp [Connection.tickTimeWait, state]

end Waiting

end Connection

/-! ## Sessions that hold data back -/

namespace Session

variable {s : Session} {e : Endpoint} {iss : U32}

theorem waiting_call (waiting : s.conn.Waiting) {event : Event}
    (calls : ∀ now seg, event ≠ .processSegment now seg) : (s.step event).conn.Waiting := by
  obtain ⟨out, step, -⟩ := s.step_core event
  exact waiting.framed (s.conn.call_framed calls) (step.leads.opening_kept calls waiting.opening)

def Streams (e : Endpoint) (start : U32) (s : Session) : Prop :=
  s.Emits e fun seg => seg.payload = [] ∨ InStream start s.written (seg.header.seq, seg.payload)

theorem streams_step (sender : s.Sender e iss) (streams : s.Streams e (iss + 1#32)) (event : Event) :
    (s.step event).Streams e (iss + 1#32) := by
  apply sender.emits streams
  · exact fun seg part => part.imp_right fun inside => inside.append _
  · intro b emitted
    rcases emitted.payload sender.sends with empty | ⟨inside, -⟩
    · exact .inl empty
    · rw [Core.start, sender.iss] at inside
      exact .inr (inside.append _)

structure HeldBack (e : Endpoint) (iss : U32) (s : Session) : Prop where
  synced : ∃ w, s.Synced w
  sender : s.Sender e iss
  streams : s.Streams e (iss + 1#32)
  waiting : s.established = false → s.conn.Waiting

theorem start_heldBack (iss : U32) (e : Endpoint) : (Opening.passive.session iss e).HeldBack e iss where
  synced := ⟨_, start_synced .passive iss e⟩
  sender := start_sender .passive iss e
  streams := start_emits .passive iss e _
  waiting := fun _ => ⟨.inl rfl, rfl, rfl⟩

theorem HeldBack.step (inv : s.HeldBack e iss) {event : Event} (usage : s.Orderly event) :
    (s.step event).HeldBack e iss where
  synced := synced_step s event inv.synced usage
  sender := inv.sender.step event
  streams := streams_step inv.sender inv.streams event
  waiting := by
    intro early
    obtain ⟨before, state⟩ := Bool.or_eq_false_iff.mp early
    cases event with
    | processSegment now seg =>
        exact (inv.waiting before).processSegment now seg (beq_eq_false_iff_ne.mp state)
    | _ => exact waiting_call (inv.waiting before) (by simp)

theorem HeldBack.routine (inv : s.HeldBack e iss) {event : Event} (routine : event.Routine) :
    (s.step event).HeldBack e iss := by
  apply inv.step
  cases event with
  | writeData data => exact routine.elim
  | connect => exact routine.elim
  | _ => exact ⟨trivial, trivial⟩

theorem HeldBack.writeNothing (inv : s.HeldBack e iss) (early : s.established = false) :
    (s.step (.writeData [])).HeldBack e iss := by
  have same : s.step (.writeData []) = s.step (.tickTimeWait 0) := by
    have idle := (inv.waiting early).tickTimeWait 0
    simp only [Session.step, Session.call, Session.accepted, Session.handedOut, Session.output, idle]
    rfl
  rw [same]
  exact inv.routine trivial

theorem HeldBack.sendable (inv : s.HeldBack e iss) (early : s.established = false) {data : Bytes}
    (nonempty : data ≠ []) : (s.step (.writeData data)).conn.Sendable mss.toNat := by
  obtain ⟨w, synced⟩ := inv.synced
  have waiting := inv.waiting early
  have opening := waiting.opening
  have counts := synced.windowed.counts
  rw [synced.early early] at counts
  have written : w.bufUna + s.conn.sendBuf.len = 1 := counts.written
  have filled : w.bufNxt ≤ w.bufUna + s.conn.sendBuf.len := counts.filled
  have first := counts.first
  have unacked := synced.windowed.stage.unacked opening
  have unfinished := synced.windowed.stage.unfinished (.inl opening)
  have length := List.length_pos_of_ne_nil nonempty
  have inflight : s.conn.inflight = w.nxt - w.una := counts.outstanding
  have unsent := SendBuffer.inflight_position counts.bufUna counts.bufNxt (by omega) (by omega)
  refine ⟨?_, ?_, by decide⟩
  · change s.conn.inflight < min s.conn.tcb.cwnd.toNat s.conn.tcb.snd.wnd.toNat
    have open_ : min mss.toNat (65535#16).toNat = 1460 := by decide
    rw [waiting.cwnd, waiting.wnd, inflight, open_]
    omega
  · change s.conn.sendBuf.inflight <
      s.conn.sendBuf.len + min data.length (sendBufSize - s.conn.sendBuf.len)
    have unsent : s.conn.sendBuf.inflight = w.bufNxt - w.bufUna := unsent
    have size : sendBufSize = 65536 := rfl
    omega

structure Pending (s : Session) : Prop where
  early : s.established = false
  waiting : s.conn.Waiting

theorem Pending.step (pending : s.Pending) {event : Event}
    (calls : ∀ now seg, event ≠ .processSegment now seg) : (s.step event).Pending := by
  have waiting := waiting_call pending.waiting calls
  refine ⟨?_, waiting⟩
  change (s.established || (s.step event).conn.tcb.state == .established) = false
  rcases waiting.state with state | state <;> simp [pending.early, state]

theorem Pending.flushSendBuf (pending : s.Pending) (clock : Nat → Instant) :
    (s.flushSendBuf clock).Pending :=
  flushRounds_inv (fun _ _ pending => pending.step (by simp)) _ _ pending

theorem emitted_kept {raw : Bytes} (member : raw ∈ s.emitted) (event : Event) :
    raw ∈ (s.step event).emitted :=
  List.mem_append_left _ member

theorem Sender.sends_data (sender : s.Sender e iss) (able : s.conn.Sendable mss.toNat)
    (now : Instant) : ∃ raw ∈ s.output (.nextSegmentToSend now mss.toNat),
      ∃ seg, TcpSegment.parse raw e.localIp e.remoteIp = .ok seg ∧ seg.payload ≠ [] := by
  have data : s.SendsData (.nextSegmentToSend now mss.toNat) := trivial
  have nonempty := mt (s.output_isEmpty now).mp (not_not.mpr able)
  obtain ⟨raw, member⟩ := List.exists_mem_of_ne_nil _ (mt List.isEmpty_iff.mpr nonempty)
  obtain ⟨b, rfl, emitted, carried⟩ := output_data data sender.sends member
  exact ⟨b.build, member, b.segment, sender.parse emitted, carried⟩

theorem flushSendBuf_emits (s : Session) (clock : Nat → Instant) :
    s.output (.nextSegmentToSend (clock 0) mss.toNat) ⊆ (s.flushSendBuf clock).emitted := by
  intro raw member
  have sent : raw ∈ (s.step (.nextSegmentToSend (clock 0) mss.toNat)).emitted :=
    List.mem_append_right _ member
  unfold flushSendBuf flushRounds
  dsimp only
  split_ifs
  · exact sent
  · exact flushRounds_inv (P := fun s => raw ∈ s.emitted)
      (fun s _ old => emitted_kept old _) _ _ sent

end Session

namespace Task

variable {t : Task} {e : Endpoint} {iss : U32}

/-- No data is sent before ESTABLISHED. What was written is kept until then, and sent from the number after
that of the SYN. -/
structure HoldsBack (e : Endpoint) (iss : U32) (t : Task) : Prop where
  silent : t.session.established = false → t.session.Emits e fun seg => seg.payload = []
  kept : t.session.established = false → t.session.conn.sendBuf.ring.contents = t.session.written
  synced : t.session.conn.tcb.state = .established →
    t.session.conn.tcb.snd.nxt = t.session.conn.sendBuf.nxt
  streams : t.session.Streams e (iss + 1#32)

def EarlyChunkEmpty (t : Task) : TaskEvent → Prop
  | .appSend _ data => t.running = true → t.session.established = false → data = []
  | _ => True

theorem holdsBack_of_heldBack (inv : t.session.HeldBack e iss) : t.HoldsBack e iss := by
  obtain ⟨w, synced⟩ := inv.synced
  refine ⟨?_, ?_, ?_, inv.streams⟩
  · intro early raw member
    obtain ⟨seg, parsed, empty | ⟨i, -, slice⟩⟩ := inv.streams raw member
    · exact ⟨seg, parsed, empty⟩
    · refine ⟨seg, parsed, List.eq_nil_of_length_eq_zero ?_⟩
      have inside : i + seg.payload.length ≤ t.session.written.length := slice.inside
      rw [synced.early early, List.length_nil] at inside
      omega
  · intro early
    have contents := inv.sender.sends.buffer.contents
    rw [synced.early early, List.drop_nil] at contents
    rw [synced.early early]
    exact contents
  · intro state
    apply synced.synced.nxt
    rw [show t.session.conn.core.state = t.session.conn.tcb.state from rfl, state]
    rfl

theorem heldBack_step (t : Task) (event : TaskEvent) (inv : t.session.HeldBack e iss)
    (empty : t.EarlyChunkEmpty event) : (t.step event).session.HeldBack e iss := by
  have keep (s : Session) (event : Event) (routine : event.Routine) (inv : s.HeldBack e iss) :
      (s.step event).HeldBack e iss := inv.routine routine
  cases event with
  | appSend clock data =>
      cases running : t.running with
      | false => simpa [step, running] using inv
      | true =>
          apply appSend_inv keep running
          cases early : t.session.established with
          | true => exact inv.step ⟨trivial, early⟩
          | false =>
              rw [empty running early]
              exact inv.writeNothing early
  | _ => exact step_inv keep (by simp) inv

theorem early_chunk_sent (inv : t.session.HeldBack e iss) (running : t.running = true)
    (early : t.session.established = false) (clock : Clock) {data : Bytes} (nonempty : data ≠ []) :
    ¬ (t.step (.appSend clock data)).HoldsBack e iss := by
  intro holds
  have stepped : t.step (.appSend clock data) = t.handle (.appSend clock data) := if_pos running
  rw [stepped] at holds
  -- The handshake does not go on before the end of the round.
  have pending : t.session.Pending := ⟨early, inv.waiting early⟩
  have wrote : (t.session.step (.writeData data)).Pending := pending.step (by simp)
  have ended : (Session.step _ (.tickTimeWait clock.tick)).Pending :=
    (wrote.flushSendBuf clock.flush).step (by simp)
  obtain ⟨raw, sent, seg, parsed, carries⟩ := (inv.sender.step (.writeData data)).sends_data
    (inv.sendable early nonempty) (clock.flush 0)
  have member := Session.emitted_kept (Session.flushSendBuf_emits _ clock.flush sent)
    (.tickTimeWait clock.tick)
  obtain ⟨seg', again, empty⟩ := holds.silent ended.early raw member
  cases again.symm.trans parsed
  exact carries empty

/-- A task holds its data back until ESTABLISHED exactly when the application does. -/
theorem holds_back_iff (iss : U32) (e : Endpoint) (events : List TaskEvent) :
    Always (HoldsBack e iss) (start (.new (Opening.passive.tcb iss e))) events ↔
      Along EarlyChunkEmpty (start (.new (Opening.passive.tcb iss e))) events := by
  refine Runs.always_iff_along (U := fun _ _ => True)
    (fun t event inv _ empty => heldBack_step t event inv empty)
    (fun t inv => holdsBack_of_heldBack inv) ?_ (Session.start_heldBack iss e) (Runs.along_true _ _)
  intro t event inv _ holds
  cases event with
  | appSend clock data =>
      intro running early
      by_contra nonempty
      exact early_chunk_sent inv running early clock nonempty holds
  | _ => trivial

theorem early_byte_sent : ¬ Always (HoldsBack serverEnd serverIsn) listening [.appSend still [1#8]] := by
  intro always
  have early : (listening.step (.appSend still [1#8])).session.established = false := by decide +kernel
  have sent : (listening.step (.appSend still [1#8])).session.emitted.map (fun raw =>
      (TcpSegment.parse raw serverEnd.localIp serverEnd.remoteIp).toOption.map TcpSegment.payload) =
      [some [1#8]] := by decide +kernel
  obtain ⟨raw, member, carries⟩ := List.mem_map.mp (sent ▸ List.mem_singleton_self (some [1#8]))
  obtain ⟨seg, parsed, empty⟩ := (Runs.always_exec always).silent early raw member
  rw [parsed] at carries
  simp [Except.toOption, empty] at carries

end Task

end MagnumTcp.Tcp
