import MagnumTcp.Proof.EndOfStream
import MagnumTcp.Proof.Quiescence
import MagnumTcp.Proof.Segmentation
import MagnumTcp.Proof.Task

namespace MagnumTcp.Tcp

/-! ## The calls of the task -/

/-- The calls of the task. It takes segments of one size only. -/
def Event.OfTask : Event → Prop
  | .connect => False
  | .nextSegmentToSend _ maxPayload => maxPayload = mss.toNat
  | _ => True

def Event.Local (event : Event) : Prop := event.OfTask ∧ event.isArrival = false

def Event.Own : Event → Prop
  | .nextSegmentToSend _ maxPayload => maxPayload = mss.toNat
  | .takeRetransmits _ | .initiateClose | .tickTimeWait _ | .zeroWindowProbe => True
  | _ => False

theorem Event.Own.local {event : Event} (own : event.Own) : event.Local := by
  cases event with
  | processSegment | connect | writeData | readReceived => exact own.elim
  | nextSegmentToSend now maxPayload => exact ⟨own, rfl⟩
  | _ => exact ⟨trivial, rfl⟩

def Session.Calls (P : Event → Prop) (s u : Session) : Prop :=
  ∃ events, (∀ event ∈ events, P event) ∧ s.exec events = u

namespace Session

variable {P Q : Event → Prop} {s u v : Session}

theorem Calls.refl (s : Session) : s.Calls P s := ⟨[], List.forall_mem_nil _, rfl⟩

theorem Calls.single {event : Event} (allowed : P event) : s.Calls P (s.step event) :=
  ⟨[event], List.forall_mem_singleton.mpr allowed, rfl⟩

theorem Calls.trans (first : s.Calls P u) (second : u.Calls P v) : s.Calls P v := by
  obtain ⟨events, allowed, rfl⟩ := first
  obtain ⟨events', allowed', rfl⟩ := second
  refine ⟨events ++ events', ?_, Runs.exec_append _ _ _ _⟩
  rw [List.forall_mem_append]
  exact ⟨allowed, allowed'⟩

theorem Calls.mono (calls : s.Calls P u) (weaker : ∀ event, P event → Q event) : s.Calls Q u := by
  obtain ⟨events, allowed, same⟩ := calls
  exact ⟨events, fun event member => weaker event (allowed event member), same⟩

theorem Calls.reachable (calls : s.Calls P u) (reached : s.Reachable) : u.Reachable := by
  obtain ⟨events, -, rfl⟩ := calls
  exact Runs.exec_inv (C := fun _ _ => True) (fun _ event reached _ => reached.step event) reached
    (Runs.along_true _ _)

theorem flushRounds_calls (s : Session) (clock : Nat → Instant) (rounds i : Nat) :
    s.Calls Event.Own (flushRounds clock rounds i s) := by
  induction rounds generalizing s i with
  | zero => exact .refl s
  | succ rounds ih =>
      have once : s.Calls Event.Own (s.step (.nextSegmentToSend (clock i) mss.toNat)) :=
        .single rfl
      unfold flushRounds
      dsimp only
      split_ifs
      · exact once
      · exact once.trans (ih _ _)

theorem own_kept {event : Event} (own : event.Own) :
    (s.step event).received = s.received ∧ (s.step event).written = s.written := by
  cases event with
  | processSegment | writeData | readReceived | connect => exact own.elim
  | _ => exact ⟨List.append_nil _, List.append_nil _⟩

theorem Calls.kept (calls : s.Calls Event.Own u) : u.received = s.received ∧ u.written = s.written := by
  obtain ⟨events, own, rfl⟩ := calls
  have keep : ∀ (u : Session) (event : Event),
      u.received = s.received ∧ u.written = s.written → event.Own →
        (u.step event).received = s.received ∧ (u.step event).written = s.written := by
    intro u event same own
    exact ⟨(own_kept own).1.trans same.1, (own_kept own).2.trans same.2⟩
  exact Runs.exec_inv keep ⟨rfl, rfl⟩ (Runs.along_of_mem own s)

end Session

namespace Task

variable {t : Task}

theorem finish_calls (t : Task) (now : Instant) :
    t.session.Calls Event.Own (t.finish now).session := .single trivial

theorem resume_calls (t : Task) (clock : Clock) :
    t.session.Calls Event.Own (t.resume clock).session := by
  have flushed : t.session.Calls Event.Own (t.session.flushSendBuf clock.flush) :=
    t.session.flushRounds_calls _ _ _
  exact flushed.trans (finish_calls { t with session := t.session.flushSendBuf clock.flush } clock.tick)

theorem appSend_calls (running : t.running = true) (clock : Clock) (data : Bytes) :
    (t.session.step (.writeData data)).Calls Event.Own (t.step (.appSend clock data)).session := by
  unfold step
  rw [if_pos running]
  exact resume_calls { t with session := t.session.step (.writeData data) } clock

theorem receive_calls (t : Task) (clock : Clock) (seg : TcpSegment) :
    (t.session.step (.processSegment clock.call seg)).Calls Event.Local
      (t.receive clock seg).1.session := by
  unfold receive Session.forwardReceivedData
  dsimp only
  split_ifs
  · exact .single ⟨trivial, rfl⟩
  · exact .refl _

theorem receive_written (t : Task) (clock : Clock) (seg : TcpSegment) :
    (t.receive clock seg).1.session.written = t.session.written := by
  unfold receive Session.forwardReceivedData
  dsimp only
  split_ifs <;> simp [Session.step, Session.accepted]

theorem receive_received (t : Task) (clock : Clock) (seg : TcpSegment) :
    (t.receive clock seg).1.session.received = t.session.received ++ (t.receive clock seg).2 := by
  unfold receive Session.forwardReceivedData
  dsimp only
  split_ifs
  · simp [Session.step, Session.handedOut]
  · simp [Session.step, Session.handedOut]

end Task

theorem TaskEvent.inboundClosed_dataless : TaskEvent.Dataless .inboundClosed := trivial

theorem TaskEvent.close_dataless (clock : Clock) : TaskEvent.Dataless (.close clock) := trivial

theorem Task.step_dataless (t : Task) {event : TaskEvent} (dataless : event.Dataless) :
    t.session.Calls Event.Own (t.step event).session ∧ (t.step event).chunks = t.chunks := by
  unfold Task.step
  split_ifs
  · cases event with
    | inbound | appSend => exact dataless.elim
    | inboundClosed => exact ⟨.refl _, rfl⟩
    | retransmitTick clock => exact ⟨(Session.Calls.single trivial).trans (.single trivial), rfl⟩
    | zwpTick clock => exact ⟨(Session.Calls.single trivial).trans (.single trivial), rfl⟩
    | close clock =>
        dsimp only [Task.handle]
        split_ifs
        · exact ⟨.refl _, rfl⟩
        · exact ⟨(Session.Calls.single trivial).trans (.single trivial), rfl⟩
  · exact ⟨.refl _, rfl⟩

theorem Task.step_calls (t : Task) (event : TaskEvent) :
    t.session.Calls Event.OfTask (t.step event).session := by
  have own {s u : Session} (calls : s.Calls Event.Local u) : s.Calls Event.OfTask u :=
    calls.mono fun _ local_ => local_.1
  cases event with
  | inbound clock seg =>
      unfold Task.step
      split_ifs
      · rw [← t.receive_resume]
        have processed : t.session.Calls Event.OfTask
            (t.session.step (.processSegment clock.call seg)) := .single trivial
        have resumed := (t.receive clock seg).1.resume_calls clock
        exact (processed.trans (own (t.receive_calls clock seg))).trans
          (own (resumed.mono fun _ own => own.local))
      · exact .refl _
  | appSend clock data =>
      cases running : t.running with
      | true =>
          have written : t.session.Calls Event.OfTask (t.session.step (.writeData data)) :=
            .single trivial
          exact written.trans (own ((t.appSend_calls running clock data).mono fun _ own => own.local))
      | false => simpa [Task.step, running] using Session.Calls.refl t.session
  | _ =>
      refine own (Session.Calls.mono (t.step_dataless ?_).1 fun _ own => own.local)
      trivial

namespace Served

variable {respond : Instant → Bytes → Bytes} {s : Served}

theorem step_calls (respond : Instant → Bytes → Bytes) (s : Served) (event : ServedEvent) :
    s.task.session.Calls Event.Local (s.step respond event).task.session ∨
      ∃ clock seg, event = .inbound clock seg ∧
        (s.task.session.step (.processSegment clock.call seg)).Calls Event.Local
          (s.step respond event).task.session := by
  have moves := step_moves respond s event
  generalize s.step respond event = s' at moves ⊢
  have own {s u : Session} (calls : s.Calls Event.Own u) : s.Calls Event.Local u :=
    calls.mono fun _ own => own.local
  cases moves with
  | received clock seg =>
      have resumed := (s.task.receive clock seg).1.resume_calls clock
      exact .inr ⟨clock, seg, rfl, (s.task.receive_calls clock seg).trans (own resumed)⟩
  | handsOver clock seg => exact .inr ⟨clock, seg, rfl, s.task.receive_calls clock seg⟩
  | handedOver clock => exact .inl (own (s.task.resume_calls clock))
  | discarded clock => exact .inl (own (s.task.resume_calls clock))
  | disconnected => exact .inl (own (s.task.step_dataless TaskEvent.inboundClosed_dataless).1)
  | ticked event idle taskEvent peaceful dataless =>
      exact .inl (own (s.task.step_dataless dataless).1)
  | close clock => exact .inl (own (s.task.step_dataless (TaskEvent.close_dataless clock)).1)
  | stored clock idle data =>
      have wrote : s.task.session.Calls Event.Local (s.task.session.step (.writeData data)) :=
        .single ⟨trivial, rfl⟩
      exact .inl (wrote.trans (own (Task.appSend_calls (idle_iff.mp idle).1 clock data)))
  | _ => exact .inl (.refl _)

theorem step_reachable (respond : Instant → Bytes → Bytes) (reached : s.task.session.Reachable)
    (event : ServedEvent) : (s.step respond event).task.session.Reachable := by
  rcases step_calls respond s event with calls | ⟨clock, seg, -, calls⟩
  · exact calls.reachable reached
  · exact calls.reachable (reached.step _)

/-! ## Every chunk, once and in order -/

def onTheWay (s : Served) : Bytes := (s.pending.map Prod.snd).getD []

structure Handed (s : Served) : Prop where
  bytes : s.handler.requestBuf ++ s.appData.flatten ++ s.onTheWay = s.task.session.received
  filled : ∀ chunk ∈ s.appData, chunk ≠ []
  waits : ∀ round ∈ s.pending, round.2 ≠ []
  room : s.appData.length ≤ appChannelCapacity

theorem onTheWay_none (idle : s.idle = true) : s.onTheWay = [] := by
  simp [onTheWay, (idle_iff.mp idle).2]

theorem receive_requestBuf (respond : Bytes → Bytes) (h : Handler) (chunk : Bytes) :
    (h.receive respond chunk).requestBuf = h.requestBuf ++ chunk := by
  simp only [Handler.receive]
  split_ifs <;> rfl

theorem Handed.withTask (handed : s.Handed) {task : Task}
    (same : task.session.received = s.task.session.received) (appSend : List Bytes)
    (closeSignal : Bool) : ({ s with
      task := task
      appSend := appSend
      closeSignal := closeSignal } : Served).Handed :=
  ⟨handed.bytes.trans same.symm, handed.filled, handed.waits, handed.room⟩

theorem step_handed (waiting : s.Waiting) (handed : s.Handed) (event : ServedEvent) :
    (s.step respond event).Handed := by
  have moves := step_moves respond s event
  generalize s.step respond event = s' at moves ⊢
  cases moves with
  | stay => exact handed
  | received clock seg idle nothing =>
      apply handed.withTask
      rw [((s.task.receive clock seg).1.resume_calls clock).kept.1, s.task.receive_received,
        nothing, List.append_nil]
  | handsOver clock seg idle chunk filled read =>
      have bytes := handed.bytes
      rw [onTheWay_none idle, List.append_nil] at bytes
      refine ⟨?_, handed.filled, ?_, handed.room⟩
      · change s.handler.requestBuf ++ s.appData.flatten ++ chunk = _
        rw [bytes, s.task.receive_received, read]
      · rintro round ⟨⟩
        exact filled
  | handedOver clock chunk waits present room =>
      have bytes := handed.bytes
      rw [onTheWay, waits] at bytes
      refine ⟨?_, ?_, by simp, ?_⟩
      · change s.handler.requestBuf ++ (s.appData ++ [chunk]).flatten ++ [] = _
        rw [(s.task.resume_calls clock).kept.1, ← bytes]
        simp
      · intro other member
        rcases List.mem_append.mp member with old | new
        · exact handed.filled other old
        · rw [List.mem_singleton.mp new]
          exact handed.waits (clock, chunk) waits
      · rw [List.length_append]
        exact room
  | discarded clock chunk waits gone =>
      have running := waiting.midRound (by rw [waits]; rfl)
      exact absurd gone (waiting.reading running).2
  | disconnected =>
      exact handed.withTask (s.task.step_dataless TaskEvent.inboundClosed_dataless).1.kept.1 _ _
  | ticked event idle taskEvent peaceful dataless =>
      exact handed.withTask (s.task.step_dataless dataless).1.kept.1 _ _
  | close clock =>
      exact handed.withTask (s.task.step_dataless (TaskEvent.close_dataless clock)).1.kept.1 _ _
  | stored clock idle data rest queue =>
      have calls := Task.appSend_calls (idle_iff.mp idle).1 clock data
      have stored : (s.task.session.step (.writeData data)).received = s.task.session.received :=
        List.append_nil _
      exact handed.withTask (calls.kept.1.trans stored) _ _
  | taken now reading chunk rest queue =>
      have bytes := handed.bytes
      have filled := handed.filled
      have room := handed.room
      rw [queue] at bytes filled room
      refine ⟨?_, fun other member => filled other (List.mem_cons_of_mem _ member), handed.waits,
        Nat.le_of_succ_le room⟩
      change (s.handler.receive (respond now) chunk).requestBuf ++ rest.flatten ++ s.onTheWay = _
      rw [receive_requestBuf, ← bytes, List.flatten_cons, List.append_assoc s.handler.requestBuf]
  | replied now resp replying appSend sent =>
      exact ⟨handed.bytes, handed.filled, handed.waits, handed.room⟩
  | closes => exact ⟨handed.bytes, handed.filled, handed.waits, handed.room⟩
  | returns => exact ⟨handed.bytes, handed.filled, handed.waits, handed.room⟩

end Served

/-! ## One message at most -/

namespace Handler

variable {respond : Instant → Bytes → Bytes} {c : List Bytes} {sent : List Bytes} {h : Handler}
variable {chunk : Bytes}

theorem loop_append (respond : Bytes → Bytes) (h : Handler) (before after : List Bytes) :
    h.loop respond (before ++ after) =
      (((h.loop respond before).1.loop respond after).1,
        (h.loop respond before).2 ++ ((h.loop respond before).1.loop respond after).2) := by
  induction before generalizing h with
  | nil => rfl
  | cons chunk rest ih =>
      have first (later : List Bytes) : h.loop respond (chunk :: later) =
          (((h.round respond chunk).1.loop respond later).1,
            (h.round respond chunk).2 ++ ((h.round respond chunk).1.loop respond later).2) := rfl
      rw [List.cons_append, first, first, ih]
      simp only [List.append_assoc]

/-- The handler has taken the chunks `c`, and `sent` is what it has sent. It answers once, with what the loop
makes of `c` if the clock shows `now`. -/
inductive Stage (respond : Instant → Bytes → Bytes) (c : List Bytes) : Handler → List Bytes → Prop
  | waiting (phase : HandlerPhase) (silent : ∀ resp, phase ≠ .replying resp)
      (quiet : ∀ now, start.loop (respond now) c = (awaiting c.flatten, [])) :
      Stage respond c ⟨phase, c.flatten, false⟩ []
  | replying (now : Instant) (resp : Bytes)
      (answers : start.loop (respond now) c = (⟨.reading, c.flatten, true⟩, [resp])) :
      Stage respond c ⟨.replying resp, c.flatten, false⟩ []
  | answered (phase : HandlerPhase) (silent : ∀ resp, phase ≠ .replying resp) (now : Instant)
      (resp : Bytes) (answers : start.loop (respond now) c = (⟨.reading, c.flatten, true⟩, [resp]))
      (sent : List Bytes) (once : sent = [] ∨ sent = [resp]) :
      Stage respond c ⟨phase, c.flatten, true⟩ sent

namespace Stage

theorem requestBuf (stage : Stage respond c h sent) : h.requestBuf = c.flatten := by
  cases stage <;> rfl

theorem receive (stage : Stage respond c h sent) (reading : h.phase = .reading) (now : Instant)
    (filled : chunk ≠ []) : Stage respond (c ++ [chunk]) (h.receive (respond now) chunk) sent := by
  have whole : (c ++ [chunk]).flatten = c.flatten ++ chunk := by simp
  cases stage with
  | waiting phase silent quiet =>
      obtain rfl : phase = .reading := reading
      have next (now : Instant) : start.loop (respond now) (c ++ [chunk]) =
          (awaiting c.flatten).round (respond now) chunk := by
        rw [loop_append, quiet now]
        simp [loop]
      have some : c.flatten ++ chunk ≠ [] := List.append_ne_nil_of_right_ne_nil _ filled
      cases http : isHttp (c.flatten ++ chunk) with
      | false =>
          have received : (awaiting c.flatten).receive (respond now) chunk =
              ⟨.replying (c.flatten ++ chunk), (c ++ [chunk]).flatten, false⟩ := by
            simp [Handler.receive, awaiting, http, some]
          rw [awaiting] at received
          rw [received]
          refine .replying now _ ?_
          rw [next now, round_raw http some, whole]
      | true =>
          cases complete : headersComplete (c.flatten ++ chunk) with
          | true =>
              have received : (awaiting c.flatten).receive (respond now) chunk =
                  ⟨.replying (respond now (c.flatten ++ chunk)), (c ++ [chunk]).flatten, false⟩ := by
                simp [Handler.receive, awaiting, http, complete]
              rw [awaiting] at received
              rw [received]
              refine .replying now _ ?_
              rw [next now, round_request http complete, whole]
          | false =>
              have received : (awaiting c.flatten).receive (respond now) chunk =
                  ⟨.reading, (c ++ [chunk]).flatten, false⟩ := by
                simp [Handler.receive, awaiting, http, complete]
              rw [awaiting] at received
              rw [received]
              refine .waiting _ silent ?_
              intro now
              rw [next now, round_pending http complete, whole]
  | replying => cases reading
  | answered phase silent earlier resp answers sent once =>
      obtain rfl : phase = .reading := reading
      have received : Handler.receive (respond now) ⟨.reading, c.flatten, true⟩ chunk =
          ⟨.reading, (c ++ [chunk]).flatten, true⟩ := by simp [Handler.receive]
      rw [received]
      refine .answered _ silent earlier resp ?_ sent once
      rw [loop_append, answers, whole]
      simp [loop, round, Handler.receive]

theorem reply {resp : Bytes} (stage : Stage respond c h sent) (replying : h.phase = .replying resp)
    {sent' : List Bytes} (sends : sent' = sent ∨ sent' = sent ++ [resp]) :
    Stage respond c { h with phase := .reading, responded := true } sent' := by
  cases stage with
  | waiting phase silent => exact absurd replying (silent resp)
  | replying now resp' answers =>
      cases replying
      exact .answered _ (by simp) now resp answers sent' sends
  | answered phase silent => exact absurd replying (silent resp)

theorem leave (stage : Stage respond c h sent) (silent : ∀ resp, h.phase ≠ .replying resp)
    {phase : HandlerPhase} (silent' : ∀ resp, phase ≠ .replying resp) :
    Stage respond c { h with phase := phase } sent := by
  cases stage with
  | waiting _ _ quiet => exact .waiting phase silent' quiet
  | replying now resp => exact absurd rfl (silent resp)
  | answered _ _ now resp answers sent once => exact .answered phase silent' now resp answers sent once

theorem once (stage : Stage respond c h sent) :
    ∃ now, sent <+: (start.loop (respond now) c).2 ∧ (start.loop (respond now) c).2.length ≤ 1 := by
  cases stage with
  | waiting phase silent quiet => exact ⟨0, List.nil_prefix, by simp [quiet]⟩
  | replying now resp answers => exact ⟨now, List.nil_prefix, by simp [answers]⟩
  | answered phase silent now resp answers sent once =>
      refine ⟨now, ?_, by simp [answers]⟩
      rcases once with rfl | rfl
      · exact List.nil_prefix
      · rw [answers]

end Stage

end Handler

namespace Served

variable {respond : Instant → Bytes → Bytes} {s : Served}

def sent (s : Served) : List Bytes := s.task.chunks ++ s.appSend

def Staged (respond : Instant → Bytes → Bytes) (c : List Bytes) (s : Served) : Prop :=
  (∀ chunk ∈ c, chunk ≠ []) ∧ Handler.Stage respond c s.handler s.sent

theorem takes_cases (s : Served) (event : ServedEvent) :
    s.takes event = [] ∨ ∃ now chunk rest, event = .handler now ∧ s.handler.phase = .reading ∧
      s.appData = chunk :: rest ∧ s.takes event = [chunk] := by
  cases event with
  | handler now =>
      unfold takes
      split_ifs with reading
      · cases queue : s.appData with
        | nil => exact .inl rfl
        | cons chunk rest => exact .inr ⟨now, chunk, rest, rfl, reading, rfl, rfl⟩
      · exact .inl rfl
  | _ => exact .inl rfl

theorem step_staged {c : List Bytes} (handed : s.Handed) (staged : s.Staged respond c) (event : ServedEvent) :
    (s.step respond event).Staged respond (c ++ s.takes event) := by
  obtain ⟨filled, stage⟩ := staged
  rcases s.takes_cases event with none | ⟨now, chunk, rest, rfl, reading, queue, taken⟩
  · rw [none, List.append_nil]
    have unsent {taskEvent : TaskEvent} (dataless : taskEvent.Dataless) (closeSignal : Bool) :
        ({ s with closeSignal := closeSignal, task := s.task.step taskEvent } : Served).Staged respond c := by
      refine ⟨filled, ?_⟩
      rw [sent, (s.task.step_dataless dataless).2]
      exact stage
    have moves := step_moves respond s event
    generalize s.step respond event = s' at moves ⊢
    cases moves with
    | disconnected idle => exact unsent TaskEvent.inboundClosed_dataless s.closeSignal
    | ticked event idle taskEvent peaceful dataless => exact unsent dataless s.closeSignal
    | close clock => exact unsent (TaskEvent.close_dataless clock) false
    | stored clock idle data rest queue =>
        refine ⟨filled, ?_⟩
        have chunks : (s.task.step (.appSend clock data)).chunks = s.task.chunks ++ [data] := by
          rw [Task.step_chunks, Task.taken, if_pos (idle_iff.mp idle).1]
        rw [sent, queue] at stage
        rw [sent, chunks, List.append_assoc]
        exact stage
    | taken now reading chunk rest queue => simp [takes, reading, queue] at none
    | replied now resp replying appSend sends =>
        refine ⟨filled, stage.reply replying ?_⟩
        rcases sends with rfl | rfl
        · exact .inl rfl
        · exact .inr (List.append_assoc _ _ _).symm
    | closes now reading => exact ⟨filled, stage.leave (by simp [reading]) (by simp)⟩
    | returns now closing => exact ⟨filled, stage.leave (by simp [closing]) (by simp)⟩
    | _ => exact ⟨filled, stage⟩
  · have some := handed.filled chunk (queue ▸ List.mem_cons_self)
    have received : s.step respond (.handler now) =
        { s with appData := rest, handler := s.handler.receive (respond now) chunk } := by
      simp [step, stepHandler, reading, queue]
    rw [received, taken]
    refine ⟨?_, stage.receive reading now some⟩
    rw [List.forall_mem_append, List.forall_mem_singleton]
    exact ⟨filled, some⟩

structure Stored (s : Served) : Prop where
  reached : s.task.session.Reachable
  written : s.task.session.written = s.task.chunks.flatten.take sendBufSize

theorem Staged.sent_le {c : List Bytes} (staged : s.Staged respond c) : s.sent.length ≤ 1 := by
  obtain ⟨-, stage⟩ := staged
  obtain ⟨now, begins, one⟩ := stage.once
  exact begins.length_le.trans one

theorem Stored.kept (stored : s.Stored) {s' : Served} (reached : s'.task.session.Reachable)
    (written : s'.task.session.written = s.task.session.written)
    (chunks : s'.task.chunks = s.task.chunks) : s'.Stored :=
  ⟨reached, by rw [written, stored.written, chunks]⟩

theorem step_stored {c : List Bytes} (staged : s.Staged respond c) (stored : s.Stored) (event : ServedEvent) :
    (s.step respond event).Stored := by
  have reached := step_reachable respond stored.reached event
  have moves := step_moves respond s event
  generalize s.step respond event = s' at moves reached ⊢
  cases moves with
  | received clock seg =>
      have resumed := (s.task.receive clock seg).1.resume_calls clock
      exact stored.kept reached (resumed.kept.2.trans (s.task.receive_written clock seg)) rfl
  | handsOver clock seg => exact stored.kept reached (s.task.receive_written clock seg) rfl
  | handedOver clock => exact stored.kept reached (s.task.resume_calls clock).kept.2 rfl
  | discarded clock => exact stored.kept reached (s.task.resume_calls clock).kept.2 rfl
  | disconnected =>
      obtain ⟨calls, chunks⟩ := s.task.step_dataless TaskEvent.inboundClosed_dataless
      exact stored.kept reached calls.kept.2 chunks
  | ticked event idle taskEvent peaceful dataless =>
      obtain ⟨calls, chunks⟩ := s.task.step_dataless dataless
      exact stored.kept reached calls.kept.2 chunks
  | close clock =>
      obtain ⟨calls, chunks⟩ := s.task.step_dataless (TaskEvent.close_dataless clock)
      exact stored.kept reached calls.kept.2 chunks
  | stored clock idle data rest queue =>
      have running := (idle_iff.mp idle).1
      have first : s.task.chunks = [] := by
        have one := staged.sent_le
        rw [sent, queue, List.length_append, List.length_cons] at one
        exact List.eq_nil_of_length_eq_zero (by omega)
      have nothing : s.task.session.written = [] := by rw [stored.written, first]; rfl
      have empty : s.task.session.conn.sendBuf.len = 0 := by
        have fits : s.task.session.conn.sendBuf.len ≤ s.task.session.written.length :=
          stored.reached.sends.buffer.fits
        rw [nothing, List.length_nil] at fits
        omega
      have accepted : (s.task.session.conn.writeData data).2 = min data.length sendBufSize := by
        change min data.length (sendBufSize - s.task.session.conn.sendBuf.len) = _
        rw [empty, Nat.sub_zero]
      refine ⟨reached, ?_⟩
      change (s.task.step (.appSend clock data)).session.written =
        (s.task.step (.appSend clock data)).chunks.flatten.take sendBufSize
      rw [Task.step_written, Task.step_chunks, nothing, first, Task.stored, Task.taken,
        if_pos running, if_pos running, accepted]
      simp [← List.take_eq_take_min, Nat.min_comm data.length]
  | _ => exact ⟨stored.reached, stored.written⟩

/-! ## Any run -/

structure Coupled (respond : Instant → Bytes → Bytes) (s : Served) : Prop where
  waiting : s.Waiting
  handed : s.Handed
  staged : ∃ c, s.Staged respond c
  stored : s.Stored

theorem start_coupled (respond : Instant → Bytes → Bytes) (a : Arrival) :
    (start a.connection).Coupled respond where
  waiting := start_waiting a
  handed := ⟨rfl, by simp [start], by simp [start], Nat.zero_le _⟩
  staged := ⟨[], List.forall_mem_nil _, .waiting .reading (by simp) fun _ => rfl⟩
  stored :=
    ⟨⟨.passive, a.isn, ⟨a.localIp, a.seg.header.dstPort, a.remoteIp, a.seg.header.srcPort⟩, [], rfl⟩,
      rfl⟩

theorem step_coupled (s : Served) (event : ServedEvent) (inv : s.Coupled respond) :
    (s.step respond event).Coupled respond where
  waiting := step_waiting s event inv.waiting
  handed := step_handed inv.waiting inv.handed event
  staged := by
    obtain ⟨c, staged⟩ := inv.staged
    exact ⟨_, step_staged inv.handed staged event⟩
  stored := by
    obtain ⟨c, staged⟩ := inv.staged
    exact step_stored staged inv.stored event

theorem exec_coupled (respond : Instant → Bytes → Bytes) (a : Arrival)
    (events : List ServedEvent) : (exec respond (start a.connection) events).Coupled respond :=
  Runs.exec_inv (C := fun _ _ => True) (fun s event inv _ => step_coupled s event inv)
    (start_coupled respond a) (Runs.along_true _ _)

/-- Every byte read from the receive buffer is with the handler, in its channel or waits to be handed
over, once and in order, and the channel holds no more than its capacity. -/
theorem handed_over_in_order (respond : Instant → Bytes → Bytes) (a : Arrival)
    (events : List ServedEvent) :
    Runs.Always (step respond)
      (fun s => s.handler.requestBuf ++ s.appData.flatten ++ s.onTheWay = s.task.session.received ∧
        s.appData.length ≤ appChannelCapacity)
      (start a.connection) events := by
  refine Runs.always_inv (C := fun _ _ => True) (fun s event inv _ => step_coupled s event inv) ?_
    (start_coupled respond a) (Runs.along_true _ _)
  exact fun s inv => ⟨inv.handed.bytes, inv.handed.room⟩

/-- The handler answers once, with what the loop makes of the chunks that it has taken, and the
connection stores the first bytes of that answer and nothing else. -/
theorem answers_once (respond : Instant → Bytes → Bytes) (a : Arrival) (events : List ServedEvent) :
    Runs.Always (ServedRun.step respond)
      (fun r => r.served.sent.length ≤ 1 ∧
        r.served.task.session.written = r.served.task.chunks.flatten.take sendBufSize ∧
        (∀ chunk ∈ r.taken, chunk ≠ []) ∧ r.taken.flatten = r.served.handler.requestBuf ∧
        ∃ now, r.served.sent <+: (Handler.start.loop (respond now) r.taken).2)
      (.start a.connection) events := by
  have keep : ∀ (r : ServedRun) (event : ServedEvent),
      r.served.Coupled respond ∧ r.served.Staged respond r.taken → True →
      (r.step respond event).served.Coupled respond ∧
        (r.step respond event).served.Staged respond (r.step respond event).taken := by
    rintro r event ⟨inv, staged⟩ -
    exact ⟨step_coupled _ event inv, step_staged inv.handed staged event⟩
  have begins : (ServedRun.start a.connection).served.Staged respond [] :=
    ⟨List.forall_mem_nil _, .waiting .reading (by simp) fun _ => rfl⟩
  refine Runs.always_inv keep ?_ ⟨start_coupled respond a, begins⟩ (Runs.along_true _ _)
  rintro r ⟨inv, staged⟩
  obtain ⟨now, first, -⟩ := staged.2.once
  exact ⟨staged.sent_le, inv.stored.written, staged.1, staged.2.requestBuf.symm, now, first⟩

theorem Coupled.makes_room (inv : s.Coupled respond) (running : s.task.running = true)
    (now : Instant) : ∃ n ≤ 2, ∃ s', exec respond s (List.replicate n (.handler now)) = s' ∧
      s'.pending = s.pending ∧ s'.handler.phase ≠ .returned ∧
      s'.appData.length < appChannelCapacity := by
  have reads : ∀ u : Served, u.Coupled respond → u.task.running = true →
      u.handler.phase = .reading → ∃ n ≤ 1, ∃ s', exec respond u (List.replicate n (.handler now)) = s' ∧
        s'.pending = u.pending ∧ s'.handler.phase ≠ .returned ∧
        s'.appData.length < appChannelCapacity := by
    intro u inv running reading
    cases queue : u.appData with
    | nil =>
        refine ⟨0, Nat.zero_le _, u, rfl, rfl, (inv.waiting.reading running).2, ?_⟩
        rw [queue]
        decide
    | cons chunk rest =>
        have room := inv.handed.room
        rw [queue] at room
        have taken : u.stepHandler respond now =
            { u with appData := rest, handler := u.handler.receive (respond now) chunk } := by
          simp only [stepHandler, reading, queue]
        exact ⟨1, Nat.le_refl 1, _, taken, rfl, (receive_phase _ chunk reading).2, room⟩
  cases phase : s.handler.phase with
  | reading =>
      obtain ⟨n, few, made⟩ := reads s inv running phase
      exact ⟨n, few.trans (by decide), made⟩
  | replying resp =>
      have room : s.appSend.length < appChannelCapacity := by
        have one := inv.staged.choose_spec.sent_le
        rw [sent, List.length_append] at one
        exact Nat.lt_of_le_of_lt (by omega) (by decide : 1 < appChannelCapacity)
      have replied : s.step respond (.handler now) =
          { s with
            appSend := s.appSend ++ [resp]
            handler := { s.handler with phase := .reading, responded := true } } := by
        change s.stepHandler respond now = _
        simp only [stepHandler, phase, running, Bool.not_true, Bool.false_eq_true, if_false, room,
          if_true]
      have next := step_coupled s (.handler now) inv
      rw [replied] at next
      obtain ⟨n, few, s', reached, made⟩ := reads _ next running rfl
      refine ⟨n + 1, Nat.succ_le_succ few, s', ?_, made⟩
      rw [List.replicate_succ, exec, Runs.exec_cons, replied]
      exact reached
  | closing => exact absurd phase (inv.waiting.reading running).1
  | returned => exact absurd phase (inv.waiting.reading running).2

/-- The two bounded channels go in opposite directions, but the task and the handler never wait for each
other with data in hand: after at most two rounds of the handler the task hands over what it holds. -/
theorem hands_over_after (respond : Instant → Bytes → Bytes) (a : Arrival)
    (events : List ServedEvent) (now : Instant) :
    ∃ n ≤ 2,
      (exec respond (start a.connection)
        (events ++ (List.replicate n (.handler now) ++ [.forwarded]))).pending = none := by
  have inv := exec_coupled respond a events
  have split (rest : List ServedEvent) : exec respond (start a.connection) (events ++ rest) =
      exec respond (exec respond (start a.connection) events) rest := Runs.exec_append _ _ _ _
  simp only [split]
  generalize exec respond (start a.connection) events = s at inv ⊢
  cases waits : s.pending with
  | none => exact ⟨0, Nat.zero_le _, by simp [step, waits]⟩
  | some round =>
      obtain ⟨clock, chunk⟩ := round
      have running := inv.waiting.midRound (by rw [waits]; rfl)
      obtain ⟨n, few, s', reached, still, present, room⟩ := inv.makes_room running now
      refine ⟨n, few, ?_⟩
      rw [exec, Runs.exec_append]
      change ((exec respond s (List.replicate n (.handler now))).step respond .forwarded).pending = _
      rw [reached]
      simp [step, still, waits, present, room]

end Served

end MagnumTcp.Tcp
