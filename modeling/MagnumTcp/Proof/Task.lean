import MagnumTcp.Proof.Queue
import MagnumTcp.Tcp.Task

namespace MagnumTcp.Tcp

open MagnumTcp.Tcp.Core

def Event.Routine : Event → Prop
  | .writeData _ | .connect => False
  | _ => True

/-! ## Flushing -/

theorem SendBuffer.advanceNxt_inflight {sb : SendBuffer} {n : Nat} (fits : sb.inflight + n ≤ 65536) :
    (sb.advanceNxt n).inflight = sb.inflight + n := by
  unfold SendBuffer.inflight at fits ⊢
  unfold SendBuffer.advanceNxt
  bv_omega

namespace Session

variable {s : Session} {clock : Nat → Instant}

theorem flushRounds_inv {P : Session → Prop}
    (keep : ∀ s now, P s → P (s.step (.nextSegmentToSend now mss.toNat))) (rounds i : Nat)
    (holds : P s) : P (flushRounds clock rounds i s) := by
  induction rounds generalizing i s with
  | zero => exact holds
  | succ rounds ih =>
      unfold flushRounds
      dsimp only
      split_ifs
      · exact keep s _ holds
      · exact ih _ (keep s _ holds)

def unsent (s : Session) : Nat := s.conn.sendBuf.len - s.conn.sendBuf.inflight

theorem output_isEmpty (s : Session) (now : Instant) :
    (s.output (.nextSegmentToSend now mss.toNat)).isEmpty = true ↔ ¬ s.conn.Sendable mss.toNat := by
  by_cases able : s.conn.Sendable mss.toNat
  · obtain ⟨segment, -, -, reply⟩ := Connection.nextSegmentToSend_next now able
    simp [output, call, Prod.map, reply, able]
  · simp [output, call, Prod.map, Connection.nextSegmentToSend_idle now able, able]

theorem unsent_step (now : Instant) (able : s.conn.Sendable mss.toNat) :
    (s.step (.nextSegmentToSend now mss.toNat)).unsent < s.unsent := by
  obtain ⟨segment, next, sent, -⟩ := Connection.nextSegmentToSend_next now able
  have next : s.conn.sendBuf.nextSegment _ = some segment := next
  obtain ⟨-, inside, positive, -, length⟩ := SendBuffer.nextSegment_some next
  have buffer : (s.step (.nextSegmentToSend now mss.toNat)).conn.sendBuf =
    s.conn.sendBuf.advanceNxt segment.2.length := congrArg Core.sendBuf sent
  have full := s.conn.sendBuf.len_le
  unfold unsent
  rw [buffer, SendBuffer.advanceNxt_inflight (by omega),
    show (s.conn.sendBuf.advanceNxt segment.2.length).len = s.conn.sendBuf.len from rfl]
  omega

theorem flushSendBuf_drains (s : Session) (clock : Nat → Instant) :
    ¬ (s.flushSendBuf clock).conn.Sendable mss.toNat := by
  have rounds : ∀ rounds i (s : Session), s.unsent < rounds →
      ¬ (flushRounds clock rounds i s).conn.Sendable mss.toNat := by
    intro rounds
    induction rounds with
    | zero => exact fun i s short => absurd short (Nat.not_lt_zero _)
    | succ rounds ih =>
        intro i s enough
        unfold flushRounds
        dsimp only
        split_ifs with silent
        · have idle := (s.output_isEmpty _).mp silent
          change ¬ (s.conn.nextSegmentToSend (clock i) mss.toNat).1.Sendable mss.toNat
          rw [Connection.nextSegmentToSend_idle _ idle]
          exact idle
        · have able := not_not.mp (mt (s.output_isEmpty _).mpr silent)
          have shorter := unsent_step (clock i) able
          exact ih _ _ (by omega)
  exact rounds _ _ _ (Nat.lt_succ_of_le (Nat.sub_le _ _))

end Session

namespace Task

section

variable {P : Session → Prop} (keep : ∀ s event, Event.Routine event → P s → P (s.step event))
include keep

theorem flush_inv {s : Session} (clock : Nat → Instant) (holds : P s) : P (s.flushSendBuf clock) :=
  Session.flushRounds_inv (fun s _ => keep s _ trivial) _ _ holds

theorem forward_inv {s : Session} (holds : P s) : P s.forwardReceivedData := by
  unfold Session.forwardReceivedData
  dsimp only
  split_ifs
  · exact keep s _ trivial holds
  · exact holds

theorem finish_inv {t : Task} (now : Instant) (holds : P t.session) : P (t.finish now).session :=
  keep t.session _ trivial holds

/-- What all the routine calls keep is kept from the `write_data` of a round to its end. -/
theorem appSend_inv {t : Task} {clock : Clock} {data : Bytes} (running : t.running = true)
    (holds : P (t.session.step (.writeData data))) : P (t.step (.appSend clock data)).session := by
  unfold step
  rw [if_pos running]
  exact finish_inv keep _ (flush_inv keep _ holds)

theorem step_inv {t : Task} {event : TaskEvent} (other : ∀ clock data, event ≠ .appSend clock data)
    (holds : P t.session) : P (t.step event).session := by
  unfold step
  split_ifs with running
  · cases event with
    | inbound clock seg =>
        exact finish_inv keep _ (flush_inv keep _ (forward_inv keep (keep _ _ trivial holds)))
    | inboundClosed => exact holds
    | retransmitTick clock => exact finish_inv keep _ (keep _ _ trivial holds)
    | zwpTick clock => exact finish_inv keep _ (keep _ _ trivial holds)
    | appSend clock data => exact absurd rfl (other clock data)
    | close clock =>
        dsimp only [handle]
        split_ifs
        · exact holds
        · exact finish_inv keep _ (keep _ _ trivial holds)
  · exact holds

end

/-! ## Chunks -/

def taken (t : Task) : TaskEvent → List Bytes
  | .appSend _ data => if t.running then [data] else []
  | _ => []

def stored (t : Task) : TaskEvent → Bytes
  | .appSend _ data => if t.running then data.take (t.session.conn.writeData data).2 else []
  | _ => []

theorem step_chunks (t : Task) (event : TaskEvent) :
    (t.step event).chunks = t.chunks ++ t.taken event := by
  unfold step
  cases event with
  | appSend clock data =>
      dsimp only [taken]
      split_ifs
      · rfl
      · simp
  | close clock =>
      simp only [taken, handle, List.append_nil]
      split_ifs <;> rfl
  | _ =>
      simp only [taken, List.append_nil]
      split_ifs <;> rfl

theorem written_routine (s : Session) {event : Event} (routine : event.Routine) :
    (s.step event).written = s.written := by
  cases event with
  | writeData data => exact routine.elim
  | _ => exact List.append_nil _

theorem step_written (t : Task) (event : TaskEvent) :
    (t.step event).session.written = t.session.written ++ t.stored event := by
  have keep (W : Bytes) (s : Session) (event : Event) (routine : event.Routine)
      (same : s.written = W) : (s.step event).written = W := (written_routine s routine).trans same
  cases event with
  | appSend clock data =>
      cases running : t.running with
      | true =>
          simp only [stored, running, if_true]
          exact appSend_inv (keep _) running rfl
      | false => simp [stored, step, running]
  | _ =>
      simp only [stored, List.append_nil]
      exact step_inv (keep t.session.written) (by simp) rfl

/-- A chunk is only stored, be it in part, when every earlier one was stored whole. -/
def Gapless (t : Task) : TaskEvent → Prop
  | .appSend _ data => t.running = true →
      t.session.written.length = t.chunks.flatten.length ∨ data = [] ∨
        t.session.conn.sendBuf.len = sendBufSize
  | _ => True

instance (t : Task) : (event : TaskEvent) → Decidable (t.Gapless event)
  | .appSend _ data => inferInstanceAs (Decidable (t.running = true →
      t.session.written.length = t.chunks.flatten.length ∨ data = [] ∨
        t.session.conn.sendBuf.len = sendBufSize))
  | .inbound _ _ | .inboundClosed | .retransmitTick _ | .zwpTick _ | .close _ => isTrue trivial

def InOrder (t : Task) : Prop := t.session.written <+: t.chunks.flatten

theorem inOrder_step (t : Task) (event : TaskEvent) (inOrder : t.InOrder) (gapless : t.Gapless event) :
    (t.step event).InOrder := by
  unfold InOrder at inOrder ⊢
  rw [step_written, step_chunks, List.flatten_append]
  cases event with
  | appSend clock data =>
      cases running : t.running with
      | false => simpa [stored, taken, running] using inOrder
      | true =>
          simp only [stored, taken, running, if_true, List.flatten_singleton]
          rcases gapless running with whole | rfl | full
          · rw [inOrder.eq_of_length whole]
            exact (List.prefix_append_right_inj _).mpr (List.take_prefix _ _)
          · simpa using inOrder
          · have none : (t.session.conn.writeData data).2 = 0 := by
              change min data.length (sendBufSize - t.session.conn.sendBuf.len) = 0
              omega
            rw [none, List.take_zero, List.append_nil]
            exact inOrder.trans (List.prefix_append _ _)
  | _ => simpa [stored, taken] using inOrder

theorem stream_in_order (conn : Connection) (events : List TaskEvent)
    (gapless : Along Gapless (start conn) events) : Always InOrder (start conn) events :=
  Runs.always_inv inOrder_step (fun _ inOrder => inOrder) List.nil_prefix gapless

def still : Clock := ⟨0, fun _ => 0, 0⟩

def listening : Task := start server.conn

def chunked : List TaskEvent :=
  [.appSend still [1#8], .inbound still (clientSegment clientIsn 0#32 { syn := true } 65535#16 []),
    .inbound still (ackSegment (serverIsn + 1#32) 500#16), .appSend still [2#8, 3#8],
    .retransmitTick still, .appSend still [4#8]]

theorem stream_in_order_chunked :
    Along Gapless listening chunked ∧ Always InOrder listening chunked :=
  have gapless : Along Gapless listening chunked := by decide +kernel
  ⟨gapless, stream_in_order _ _ gapless⟩

/-! ## A chunk that does not fit -/

structure SameLoop (t u : Task) : Prop where
  conn : t.session.conn = u.session.conn
  closeInitiated : t.closeInitiated = u.closeInitiated
  running : t.running = u.running

theorem step_conn {s s' : Session} (same : s.conn = s'.conn) (event : Event) :
    (s.step event).conn = (s'.step event).conn := by
  unfold Session.step
  rw [same]

theorem flushRounds_conn {clock : Nat → Instant} {s s' : Session} (same : s.conn = s'.conn)
    (rounds i : Nat) :
    (Session.flushRounds clock rounds i s).conn = (Session.flushRounds clock rounds i s').conn := by
  induction rounds generalizing i s s' with
  | zero => exact same
  | succ rounds ih =>
      unfold Session.flushRounds Session.output
      simp only [same]
      split_ifs
      · exact step_conn same _
      · exact ih (step_conn same _) _

theorem flushSendBuf_conn (clock : Nat → Instant) {s s' : Session} (same : s.conn = s'.conn) :
    (s.flushSendBuf clock).conn = (s'.flushSendBuf clock).conn := by
  unfold Session.flushSendBuf
  rw [same]
  exact flushRounds_conn same _ _

theorem forwardReceivedData_conn {s s' : Session} (same : s.conn = s'.conn) :
    s.forwardReceivedData.conn = s'.forwardReceivedData.conn := by
  unfold Session.forwardReceivedData
  simp only [same]
  split_ifs
  · exact step_conn same _
  · exact same

namespace SameLoop

variable {t u : Task}

theorem finish (same : t.SameLoop u) (now : Instant) : (t.finish now).SameLoop (u.finish now) := by
  have conn := step_conn same.conn (.tickTimeWait now)
  refine ⟨conn, same.closeInitiated, ?_⟩
  dsimp only [Task.finish]
  rw [conn, same.conn]

theorem step (same : t.SameLoop u) (event : TaskEvent) : (t.step event).SameLoop (u.step event) := by
  have conn := same.conn
  unfold Task.step
  rw [same.running]
  split_ifs with running
  · cases event with
    | inbound clock seg =>
        apply finish
        have received := flushSendBuf_conn clock.flush
          (forwardReceivedData_conn (step_conn conn (.processSegment clock.call seg)))
        exact ⟨received, same.closeInitiated, same.running⟩
    | inboundClosed => exact ⟨conn, same.closeInitiated, rfl⟩
    | retransmitTick clock =>
        apply finish
        exact ⟨step_conn conn _, same.closeInitiated, same.running⟩
    | zwpTick clock =>
        apply finish
        exact ⟨step_conn conn _, same.closeInitiated, same.running⟩
    | appSend clock data =>
        apply finish
        exact ⟨flushSendBuf_conn _ (step_conn conn _), same.closeInitiated, same.running⟩
    | close clock =>
        simp only [handle, same.closeInitiated]
        split_ifs
        · exact same
        · apply finish
          exact ⟨step_conn conn _, rfl, same.running⟩
  · exact same

theorem exec (same : t.SameLoop u) (events : List TaskEvent) :
    (t.exec events).SameLoop (u.exec events) := by
  induction events generalizing t u with
  | nil => exact same
  | cons event rest ih => exact ih (same.step event)

end SameLoop

def shut : List TaskEvent :=
  [.inbound still (clientSegment clientIsn 0#32 { syn := true } 65535#16 []),
    .inbound still (ackSegment (serverIsn + 1#32) 0#16)]

def probed : List TaskEvent := [.zwpTick still, .inbound still (ackSegment (serverIsn + 2#32) 0#16)]

def oversized : Bytes := List.replicate 65537 0#8

theorem sendBufSize_pos : 0 < sendBufSize := by decide

def filled (c : Connection) : Connection :=
  { c with
    sendBuf :=
      { c.sendBuf with
        ring :=
          { buf := fun _ => 0#8
            head := 0
            len := 65536
            head_lt := sendBufSize_pos
            len_le := Nat.le_refl _ } } }

theorem writeData_oversized {c : Connection}
    (empty : c.sendBuf.ring = .empty 0#8 sendBufSize_pos) : (c.writeData oversized).1 = filled c := by
  have written : (c.writeData oversized).1 =
    { c with sendBuf := { c.sendBuf with ring := (c.sendBuf.ring.write oversized).1 } } := rfl
  rw [written, empty, oversized, RingBuffer.write_replicate _ _ (by decide)]
  rfl

-- The first chunk is in the buffer, and a probe has made room for one byte.
def refilled : Task :=
  let t := start (filled (exec listening shut).session.conn)
  exec ({ t with session := t.session.flushSendBuf still.flush }.finish 0) probed

theorem refilled_loop (running : (exec listening shut).running = true)
    (open_ : (exec listening shut).closeInitiated = false) :
    (exec ((exec listening shut).step (.appSend still oversized)) probed).SameLoop refilled := by
  have sent : (exec listening shut).step (.appSend still oversized) =
      (exec listening shut).handle (.appSend still oversized) := if_pos running
  have empty : (exec listening shut).session.conn.sendBuf.ring = .empty 0#8 sendBufSize_pos := rfl
  have wrote : ((exec listening shut).session.step (.writeData oversized)).conn =
      (start (filled (exec listening shut).session.conn)).session.conn := writeData_oversized empty
  have flushed := flushSendBuf_conn still.flush wrote
  rw [sent]
  apply SameLoop.exec
  apply SameLoop.finish
  exact ⟨flushed, open_, running⟩

theorem exec_probed (t : Task) : (exec t probed).session.written = t.session.written ∧
    (exec t probed).chunks = t.chunks := by
  unfold probed
  simp only [exec, Runs.exec_cons, Runs.exec_nil, step_written, step_chunks, stored, taken,
    List.append_nil, and_self]

theorem stored_replicate {t : Task} (running : t.running = true)
    (empty : t.session.conn.sendBuf.len = 0) (clock : Clock) (n : Nat) (a : U8) :
    t.stored (.appSend clock (List.replicate n a)) = List.replicate (min n sendBufSize) a := by
  have accepted : (t.session.conn.writeData (List.replicate n a)).2 = min n sendBufSize := by
    change min (List.replicate n a).length (sendBufSize - t.session.conn.sendBuf.len) = _
    rw [empty, List.length_replicate, Nat.sub_zero]
  simp only [stored, running, if_true, accepted, List.take_replicate]
  congr 1
  omega

-- After a chunk that was cut short, a byte is stored that is not the next one of the stream.
theorem not_inOrder {t : Task} {D P rest : Bytes} {x y : U8} (running : t.running = true)
    (room : t.session.conn.sendBuf.len < sendBufSize) (written : t.session.written = P)
    (chunks : t.chunks = [D]) (cut : D = P ++ x :: rest) (other : y ≠ x) (clock : Clock) :
    ¬ (t.step (.appSend clock [y])).InOrder := by
  have one : (t.session.conn.writeData [y]).2 = 1 := by
    change min 1 (sendBufSize - t.session.conn.sendBuf.len) = 1
    omega
  intro inOrder
  unfold InOrder at inOrder
  rw [step_written, step_chunks, written, chunks, cut] at inOrder
  simp only [stored, taken, running, if_true, one, List.flatten_append, List.flatten_singleton,
    List.append_assoc] at inOrder
  have next := (List.prefix_append_right_inj _).mp inOrder
  exact other (List.cons_prefix_cons.mp next).1

def holed : List TaskEvent := (shut ++ .appSend still oversized :: probed) ++ [.appSend still [1#8]]

theorem stream_with_hole : ¬ Always InOrder listening holed := by
  have begun : (exec listening shut).running = true ∧
      (exec listening shut).closeInitiated = false ∧ (exec listening shut).chunks = [] ∧
      (exec listening shut).session.written = [] ∧
      (exec listening shut).session.conn.sendBuf.len = 0 := by decide +kernel
  have room : refilled.running = true ∧ refilled.session.conn.sendBuf.len < sendBufSize := by
    decide +kernel
  obtain ⟨running, open_, chunks, written, empty⟩ := begun
  have loop := refilled_loop running open_
  have left : (exec ((exec listening shut).step (.appSend still oversized))
      probed).session.conn.sendBuf.len < sendBufSize := by
    rw [loop.conn]
    exact room.2
  obtain ⟨kept, held⟩ := exec_probed ((exec listening shut).step (.appSend still oversized))
  rw [step_written, written, List.nil_append, oversized, stored_replicate running empty,
    Nat.min_eq_right (by decide), ← oversized] at kept
  rw [step_chunks, chunks, List.nil_append] at held
  simp only [taken, running, if_true] at held
  have cut : oversized = List.replicate sendBufSize 0#8 ++ 0#8 :: [] := by
    rw [← List.replicate_succ']
    rfl
  intro always
  have inOrder := Runs.always_exec always
  rw [holed, Runs.exec_append, Runs.exec_append, Runs.exec_cons, Runs.exec_cons, Runs.exec_nil]
    at inOrder
  exact not_inOrder (loop.running.trans room.1) left kept held cut (by decide) still inOrder

end Task

end MagnumTcp.Tcp
