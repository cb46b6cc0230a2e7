import MagnumTcp.Proof.RetransmitRound

/-!
# Both sides take leave

When everything that was written has been acknowledged, a connection comes to its end through two FINs and
two acknowledgements. Each side is then told by three bits: its FIN is sent, the other FIN is
received, its own FIN is acknowledged. No segment does more than set one bit or two of its receiver,
so the order in which the segments come, and how often, makes no difference.
-/

namespace MagnumTcp.Tcp

open MagnumTcp.Tcp.Core

namespace TcbState

def finSent : TcbState → Bool
  | finWait1 | finWait2 | closing | timeWait | lastAck | closed => true
  | _ => false

def finReceived : TcbState → Bool
  | closeWait | closing | timeWait | lastAck | closed => true
  | _ => false

def finAcked : TcbState → Bool
  | finWait2 | timeWait | closed => true
  | _ => false

theorem left {state : TcbState} (received : state.finReceived = true) (acked : state.finAcked = true) :
    state = timeWait ∨ state = closed := by
  cases state <;> simp_all [finReceived, finAcked]

end TcbState

def Event.leaves : Event → Bool
  | .processSegment _ _ | .writeData _ | .connect => false
  | _ => true

/-! ## One end -/

/-- A segment of the one that has sent everything up to `own` to the one that has sent everything up to
`peer`: it may be a FIN, and it may acknowledge one. -/
structure TcpSegment.Parting (seg : TcpSegment) (own peer : U32) (fin acked : Bool) : Prop where
  payload : seg.payload = []
  flags : seg.header.flags = { fin := fin, ack := true }
  number : seg.header.ackNum = past peer acked
  seq : fin = true → seg.header.seq = own

structure Core.Parting (c : Core) (own peer : U32) : Prop where
  opened : c.state.opening = false
  una : c.una = past own c.state.finAcked
  nxt : c.nxt = past own c.state.finSent
  rcvNxt : c.rcvNxt = past peer c.state.finReceived
  empty : c.sendBuf.len = 0
  queue : c.queue = []

structure Core.Parts (own peer : U32) (fin acked : Bool) (c c' : Core) (out : List SegmentBuilder) :
    Prop where
  parting : c'.Parting own peer
  sent : c.state.finSent = true → c'.state.finSent = true
  received : c'.state.finReceived = (c.state.finReceived || fin)
  acked : c'.state.finAcked = (c.state.finAcked || acked)
  control : ∀ b ∈ out, ∃ f, b.segment.Parting own peer f c'.state.finReceived ∧
    (f = true → c'.state.finSent = true)
  tells : c'.state.finSent = true → c.state.finSent = true ∨ ∃ b ∈ out, b.flags.fin = true
  answers : c'.state.finReceived = true → c.state.finReceived = true ∨ out ≠ []

namespace Core

variable {own peer : U32} {fin acked : Bool} {c c' : Core} {seg : TcpSegment}

theorem Parting.acceptable (parting : c.Parting own peer) (part : seg.Parting peer own fin acked) :
    c.Acceptable seg ↔ c.state.finAcked = false ∧ acked = true ∧ c.state.finSent = true := by
  unfold Acceptable
  rw [part.flags, part.number, parting.una, parting.nxt, ackAcceptable_past]
  simp [and_assoc]

theorem Parting.finAcked_iff (parting : c.Parting own peer) (part : seg.Parting peer own fin acked) :
    c.FinAcked seg ↔ c.Acceptable seg := by
  refine ⟨And.left, fun acceptable => ⟨acceptable, ?_⟩⟩
  obtain ⟨-, given, sent⟩ := (parting.acceptable part).mp acceptable
  rw [part.number, parting.nxt, given, sent]
  exact seqLe_past own true

theorem Parting.stays (parting : c.Parting own peer) (sent : acked = true → c.state.finAcked = true)
    (received : fin = true → c.state.finReceived = true) : Parts own peer fin acked c c [] where
  parting := parting
  sent := id
  received := by cases fin <;> simp_all
  acked := by cases acked <;> simp_all
  control := by simp
  tells := .inl
  answers := .inl

theorem Parting.ack (parting : c.Parting own peer) (v : U16) :
    ∀ b ∈ [c.ack v], ∃ f, b.segment.Parting own peer f c.state.finReceived ∧
      (f = true → c.state.finSent = true) := by
  intro b member
  rw [List.mem_singleton.mp member]
  exact ⟨false, ⟨rfl, rfl, parting.rcvNxt, fun fin => absurd fin Bool.false_ne_true⟩, fun fin =>
    absurd fin Bool.false_ne_true⟩

end Core

namespace SegmentStep

variable {own peer : U32} {fin acked : Bool} {c c' : Core} {seg : TcpSegment} {out : List SegmentBuilder}

theorem fin_parts (parting : c.Parting own peer) (part : seg.Parting peer own true acked) {k : Core}
    {state : TcbState} (v : U16) (una : k.una = past own state.finAcked) (nxt : k.nxt = c.nxt)
    (empty : k.sendBuf.len = 0) (queue : k.queue = []) (opened : state.opening = false)
    (sent : state.finSent = c.state.finSent) (received : state.finReceived = true)
    (given : state.finAcked = (c.state.finAcked || acked)) :
    Parts own peer true acked c (k.acceptFin seg state) [(k.acceptFin seg state).ack v] := by
  have parting' : (k.acceptFin seg state).Parting own peer := by
    refine ⟨opened, una, ?_, ?_, empty, queue⟩
    · exact nxt.trans (parting.nxt.trans (congrArg (past own) sent.symm))
    · change seg.header.seq + BitVec.ofNat 32 seg.payload.length + 1#32 = past peer state.finReceived
      rw [part.seq rfl, part.payload, received]
      simp [past]
  refine ⟨parting', fun before => sent.trans before, ?_, given, parting'.ack v,
    fun after => .inl (sent.symm.trans after), fun _ => .inr (List.cons_ne_nil _ _)⟩
  rw [Bool.or_true]
  exact received

theorem acked_parts (parting : c.Parting own peer) (part : seg.Parting peer own fin acked)
    (good : c.Acceptable seg) {k : Core} (una : k.una = seg.header.ackNum) (nxt : k.nxt = c.nxt)
    (rcvNxt : k.rcvNxt = c.rcvNxt) (empty : k.sendBuf.len = 0) (queue : k.queue = [])
    (opened : k.state.opening = false) (sent : k.state.finSent = true)
    (received : k.state.finReceived = c.state.finReceived) (given : k.state.finAcked = true)
    (quiet : fin = true → c.state.finReceived = true) : Parts own peer fin acked c k [] := by
  obtain ⟨-, answered, before⟩ := (parting.acceptable part).mp good
  have number := part.number
  refine ⟨⟨opened, ?_, ?_, ?_, empty, queue⟩, fun _ => sent, ?_, ?_, List.forall_mem_nil _,
    fun _ => .inl before, fun after => .inl (received.symm.trans after)⟩
  · rw [una, number, given, answered]
  · rw [nxt, parting.nxt, before, sent]
  · rw [rcvNxt, parting.rcvNxt, received]
  · rw [received]
    cases fin <;> simp_all
  · rw [given, answered, Bool.or_true]

theorem parts (step : SegmentStep false seg c c' out) (parting : c.Parting own peer)
    (part : seg.Parting peer own fin acked) (sent : acked = true → c.state.finSent = true) :
    Parts own peer fin acked c c' out := by
  have acceptable := parting.acceptable part
  have whole := parting.finAcked_iff part
  have opened := parting.opened
  have nothing : c.sendBuf.acknowledge seg.header.ackNum = c.sendBuf := by
    unfold SendBuffer.acknowledge
    rw [if_pos (by rw [parting.empty]; omega)]
  have flags := part.flags
  have number := part.number
  cases step with
  | ignore idle =>
      have waits := idle.unacked
      have open_ := idle.established
      have quiet := idle.finWait
      rw [acceptable] at waits
      rw [flags] at quiet
      apply parting.stays
      · intro given
        have before := sent given
        cases state : c.state <;> simp_all [TcbState.finSent, TcbState.finAcked, TcbState.opening]
      · intro given
        cases state : c.state <;> simp_all [TcbState.finReceived, TcbState.opening]
  | refuse opening => rcases opening with state | state | state <;> simp [state, TcbState.opening] at opened
  | reset rst => simp [flags] at rst
  | relisten state => simp [state, TcbState.opening] at opened
  | listenSyn _ state => simp [state, TcbState.opening] at opened
  | synSentAck _ state => simp [state, TcbState.opening] at opened
  | synSentSyn _ state => simp [state, TcbState.opening] at opened
  | repeatSynAck _ state => simp [state, TcbState.opening] at opened
  | synReceivedAck state => simp [state, TcbState.opening] at opened
  | fastRetransmit _ _ _ third => exact absurd third Bool.false_ne_true
  | quiet k state _ answered _ quiet =>
      rw [flags] at quiet
      rcases answered with ⟨-, rfl⟩ | ⟨good, -⟩
      · apply parting.stays
        · exact fun given => absurd (sent given) (by simp [state, TcbState.finSent])
        · exact fun given => absurd (given.symm.trans quiet) (by simp)
      · simp [acceptable, state, TcbState.finSent] at good
  | receive _ _ _ _ _ nonempty => exact absurd part.payload nonempty
  | receiveFin k v state _ _ answered given =>
      rw [flags] at given
      subst given
      rcases answered with ⟨-, rfl⟩ | ⟨good, -⟩
      · have none : acked = false := by
          simpa [state, TcbState.finSent] using sent
        have inserted := k.insert_sends seg
        apply fin_parts parting part v
        · rw [Core.insert_una, parting.una, state]
          rfl
        · exact k.insert_nxt seg
        · rw [inserted.1, parting.empty]
        · rw [inserted.2, parting.queue]
        · rfl
        · rw [state]
          rfl
        · rfl
        · rw [state, none]
          rfl
      · simp [acceptable, state, TcbState.finSent] at good
  | finWait1Ack state good unfinished => exact absurd (whole.mpr good) unfinished
  | finWait1Done state done quiet =>
      rw [flags] at quiet
      refine acked_parts parting part done.1 rfl rfl rfl ?_ ?_ rfl rfl ?_ rfl fun given => ?_
      · rw [Core.acknowledge, nothing, parting.empty]
      · rw [Core.acknowledge, parting.queue, List.filter_nil]
      · rw [state]
        rfl
      · exact absurd (given.symm.trans quiet) Bool.true_eq_false.mp
  | finWait1Both v state _ done given =>
      rw [flags] at given
      subst given
      obtain ⟨-, answered, before⟩ := acceptable.mp done.1
      refine fin_parts parting part v ?_ rfl ?_ ?_ rfl ?_ rfl ?_
      · rw [Core.acknowledge, number, answered]
        rfl
      · rw [Core.acknowledge, nothing, parting.empty]
      · rw [Core.acknowledge, parting.queue, List.filter_nil]
      · rw [before]
        rfl
      · rw [answered, Bool.or_true]
        rfl
  | finWait1Fin k v state _ answered unfinished given =>
      rw [flags] at given
      subst given
      rcases answered with ⟨bad, rfl⟩ | ⟨good, -⟩
      · have none : acked = false := by
          rw [acceptable, state] at bad
          simpa [TcbState.finAcked, TcbState.finSent] using bad
        refine fin_parts parting part v ?_ rfl parting.empty parting.queue rfl ?_ rfl ?_
        · rw [parting.una, state]
          rfl
        · rw [state]
          rfl
        · rw [state, none]
          rfl
      · exact absurd (whole.mpr good) unfinished
  | finWait2Fin v state _ given =>
      rw [flags] at given
      subst given
      refine fin_parts parting part v ?_ rfl parting.empty parting.queue rfl ?_ rfl ?_
      · rw [parting.una, state]
        rfl
      · rw [state]
        rfl
      · rw [state]
        rfl
  | closingAck state _ good =>
      have received : c.state.finReceived = true := congrArg TcbState.finReceived state
      exact acked_parts parting part good rfl rfl rfl parting.empty parting.queue rfl rfl received.symm rfl
        fun _ => received
  | lastAckAck state _ good =>
      have received : c.state.finReceived = true := congrArg TcbState.finReceived state
      exact acked_parts parting part good rfl rfl rfl parting.empty parting.queue rfl rfl received.symm rfl
        fun _ => received
  | timeWaitFin v state =>
      have received : c.state.finReceived = true := congrArg TcbState.finReceived state
      have given : c.state.finAcked = true := congrArg TcbState.finAcked state
      have stays : Parts own peer fin acked c c [] := parting.stays (fun _ => given) fun _ => received
      exact { stays with control := parting.ack v, tells := .inl, answers := .inl }

end SegmentStep

theorem CoreStep.parts {own peer : U32} {event : Event} {c c' : Core} {out : List SegmentBuilder}
    (step : CoreStep event c c' out) (parting : c.Parting own peer) (leaves : event.leaves = true) :
    Parts own peer false false c c' out ∧ (event = .initiateClose → c'.state.finSent = true) := by
  have same : Parts own peer false false c c [] := parting.stays (by simp) (by simp)
  have opened := parting.opened
  have unsent := SendBuffer.nextSegment_none parting.empty
  cases step with
  | segment => simp [Event.leaves] at leaves
  | write => simp [Event.leaves] at leaves
  | connect => simp [Event.leaves] at leaves
  | connectNothing => simp [Event.leaves] at leaves
  | send _ _ _ _ _ _ _ next => cases (unsent _).symm.trans next
  | probe _ _ _ _ next => cases (unsent _).symm.trans next
  | sendNothing => exact ⟨same, by simp⟩
  | probeNothing => exact ⟨same, by simp⟩
  | tickNothing => exact ⟨same, by simp⟩
  | read =>
      obtain ⟨opened, una, nxt, rcvNxt, empty, queue⟩ := parting
      exact ⟨{ same with parting := ⟨opened, una, nxt, rcvNxt, empty, queue⟩ }, by simp⟩
  | retransmit _ _ w segments held =>
      have none : segments = [] := by
        rw [parting.queue] at held
        exact List.eq_nil_iff_forall_not_mem.mpr fun segment member => List.not_mem_nil (held segment member)
      subst none
      exact ⟨same, by simp⟩
  | closeNothing _ unable =>
      refine ⟨same, fun _ => ?_⟩
      cases state : c.state <;> simp_all [TcbState.finSent, TcbState.opening]
  | expire _ _ state =>
      obtain ⟨-, una, nxt, rcvNxt, empty, queue⟩ := parting
      rw [state] at una nxt rcvNxt
      have parting' : Core.Parting { c with state := .closed } own peer :=
        ⟨rfl, una, nxt, rcvNxt, empty, queue⟩
      refine ⟨⟨parting', fun _ => rfl, ?_, ?_, List.forall_mem_nil _, fun _ => .inl ?_, fun _ => .inl ?_⟩,
        by simp⟩ <;> rw [state] <;> rfl
  | close _ w state able =>
      obtain ⟨before, sent, given, given', received, opened'⟩ : c.state.finSent = false ∧
          state.finSent = true ∧ c.state.finAcked = false ∧ state.finAcked = false ∧
          state.finReceived = c.state.finReceived ∧ state.opening = false := by
        rcases able with ⟨before, rfl⟩ | ⟨before, rfl⟩ <;> rw [before] <;> decide
      have number : c.nxt = own := by
        rw [parting.nxt, before]
        exact BitVec.add_zero own
      refine ⟨⟨⟨opened', ?_, ?_, ?_, parting.empty, parting.queue⟩, fun _ => sent, ?_, ?_, ?_,
        fun _ => .inr ⟨_, List.mem_singleton_self _, rfl⟩, fun after => .inl ?_⟩, fun _ => sent⟩
      · rw [parting.una, given, given']
      · rw [sent, number]
        rfl
      · rw [parting.rcvNxt, received]
      · rw [received, Bool.or_false]
      · rw [given, given']
        rfl
      · intro b member
        rw [List.mem_singleton.mp member]
        refine ⟨true, ⟨rfl, rfl, ?_, fun _ => number⟩, fun _ => sent⟩
        rw [received]
        exact parting.rcvNxt
      · exact received.symm.trans after

namespace Session

def Tells (s : Session) (e : Endpoint) (own peer : U32) (raw : Bytes) (fin acked : Bool) : Prop :=
  ∃ seg, TcpSegment.parse raw e.localIp e.remoteIp = .ok seg ∧ seg.Parting own peer fin acked ∧
    (fin = true → s.conn.core.state.finSent = true) ∧
    (acked = true → s.conn.core.state.finReceived = true)

/-- The side takes leave, and its segments from the one numbered `mark` on speak about nothing else. -/
structure Parting (s : Session) (e : Endpoint) (iss own peer : U32) (mark : Nat) : Prop where
  sender : s.Sender e iss
  core : s.conn.core.Parting own peer
  reached : mark ≤ s.emitted.length
  control : ∀ k, mark ≤ k → ∀ raw, s.emitted[k]? = some raw →
    ∃ fin acked, s.Tells e own peer raw fin acked
  fin : s.conn.core.state.finSent = true → ∃ k, mark ≤ k ∧ ∃ raw, s.emitted[k]? = some raw ∧
    ∃ acked, s.Tells e own peer raw true acked
  ack : s.conn.core.state.finReceived = true → ∃ k, mark ≤ k ∧ ∃ raw, s.emitted[k]? = some raw ∧
    ∃ fin, s.Tells e own peer raw fin true

variable {s : Session} {e : Endpoint} {iss own peer : U32} {mark : Nat} {event : Event}
  {fin acked : Bool} {out : List SegmentBuilder}

theorem Parting.keeps (inv : s.Parting e iss own peer mark) (step : CoreStep event s.conn.core
      (s.step event).conn.core out) (built : s.output event = out.map SegmentBuilder.build)
    (parts : Parts own peer fin acked s.conn.core (s.step event).conn.core out) :
    (s.step event).Parting e iss own peer mark := by
  have emitted : (s.step event).emitted = s.emitted ++ out.map SegmentBuilder.build :=
    congrArg (s.emitted ++ ·) built
  have kept : ∀ {raw fin acked}, s.Tells e own peer raw fin acked →
      (s.step event).Tells e own peer raw fin acked := by
    rintro raw fin acked ⟨seg, parsed, part, sent, received⟩
    refine ⟨seg, parsed, part, fun given => parts.sent (sent given), fun given => ?_⟩
    rw [parts.received, received given, Bool.true_or]
  have old : ∀ {k : Nat} {raw : Bytes}, s.emitted[k]? = some raw → (s.step event).emitted[k]? = some raw := by
    intro k raw found
    rw [emitted, List.getElem?_append_left (List.getElem?_eq_some_iff.mp found).1]
    exact found
  have new : ∀ b ∈ out, ∃ f, f = b.flags.fin ∧ (s.step event).Tells e own peer b.build f
      (s.step event).conn.core.state.finReceived := by
    intro b member
    obtain ⟨f, part, sent⟩ := parts.control b member
    have parsed := inv.sender.parse (step.emitted b member)
    exact ⟨f, (congrArg TcpFlags.fin part.flags).symm, _, parsed, part, sent, id⟩
  have place : ∀ b ∈ out, ∃ k, mark ≤ k ∧ (s.step event).emitted[k]? = some b.build := by
    intro b member
    obtain ⟨i, found⟩ := List.getElem?_of_mem (List.mem_map_of_mem (f := SegmentBuilder.build) member)
    refine ⟨s.emitted.length + i, inv.reached.trans (Nat.le_add_right _ _), ?_⟩
    rw [emitted, List.getElem?_append_right (Nat.le_add_right _ _), Nat.add_sub_cancel_left]
    exact found
  refine ⟨inv.sender.step event, parts.parting, ?_, ?_, ?_, ?_⟩
  · rw [emitted, List.length_append]
    exact inv.reached.trans (Nat.le_add_right _ _)
  · intro k late raw found
    rw [emitted, List.getElem?_append] at found
    split_ifs at found with before
    · obtain ⟨f, a, tells⟩ := inv.control k late raw found
      exact ⟨f, a, kept tells⟩
    · obtain ⟨b, member, rfl⟩ := List.mem_map.mp (List.mem_of_getElem? found)
      obtain ⟨f, -, tells⟩ := new b member
      exact ⟨f, _, tells⟩
  · intro sent
    rcases parts.tells sent with before | ⟨b, member, flag⟩
    · obtain ⟨k, late, raw, found, a, tells⟩ := inv.fin before
      exact ⟨k, late, raw, old found, a, kept tells⟩
    · obtain ⟨k, late, found⟩ := place b member
      obtain ⟨f, same, tells⟩ := new b member
      rw [flag] at same
      subst same
      exact ⟨k, late, _, found, _, tells⟩
  · intro received
    rcases parts.answers received with before | some
    · obtain ⟨k, late, raw, found, f, tells⟩ := inv.ack before
      exact ⟨k, late, raw, old found, f, kept tells⟩
    · obtain ⟨b, member⟩ := List.exists_mem_of_ne_nil _ some
      obtain ⟨k, late, found⟩ := place b member
      obtain ⟨f, -, tells⟩ := new b member
      rw [received] at tells
      exact ⟨k, late, _, found, f, tells⟩

structure Parted (s : Session) (event : Event) (e : Endpoint) (iss own peer : U32) (mark : Nat)
    (fin acked : Bool) : Prop where
  parting : (s.step event).Parting e iss own peer mark
  sent : s.conn.core.state.finSent = true → (s.step event).conn.core.state.finSent = true
  received : (s.step event).conn.core.state.finReceived = (s.conn.core.state.finReceived || fin)
  acked : (s.step event).conn.core.state.finAcked = (s.conn.core.state.finAcked || acked)

theorem Parting.call (inv : s.Parting e iss own peer mark) (leaves : event.leaves = true) :
    s.Parted event e iss own peer mark false false ∧
      (event = .initiateClose → (s.step event).conn.core.state.finSent = true) := by
  obtain ⟨out, step, built⟩ := s.step_core event
  obtain ⟨parts, closes⟩ := step.parts inv.core leaves
  exact ⟨⟨inv.keeps step built parts, parts.sent, parts.received, parts.acked⟩, closes⟩

theorem Parting.arrival (inv : s.Parting e iss own peer mark) {seg : TcpSegment}
    (part : seg.Parting peer own fin acked) (sent : acked = true → s.conn.core.state.finSent = true)
    (now : Instant) : s.Parted (.processSegment now seg) e iss own peer mark fin acked := by
  obtain ⟨out, step, built⟩ := s.conn.processSegment_core now seg
  have late : s.conn.fastRetransmits seg = false := by
    have una : s.conn.tcb.snd.una = past own s.conn.tcb.state.finAcked := inv.core.una
    have nxt : s.conn.tcb.snd.nxt = past own s.conn.tcb.state.finSent := inv.core.nxt
    by_cases state : s.conn.tcb.state = .established
    · rw [state] at una nxt
      have idle : s.conn.tcb.snd.una = s.conn.tcb.snd.nxt := una.trans nxt.symm
      simp [Connection.fastRetransmits, Connection.isDupAck, idle]
    · simp [Connection.fastRetransmits, state]
  rw [late] at step
  have parts := step.parts inv.core part sent
  exact ⟨inv.keeps (.segment step) built parts, parts.sent, parts.received, parts.acked⟩

end Session

/-! ## Both ends -/

namespace Network

/-- Nobody writes or opens, and of the segments those arrive that a side sent as its `mark`-th or later. -/
def Leaves (mark : Side → Nat) (_ : Network) : Action → Prop
  | .call _ event => event.leaves = true
  | .deliver side _ k => mark side.other ≤ k

instance (mark : Side → Nat) (n : Network) : (action : Action) → Decidable (n.Leaves mark action)
  | .call _ event => inferInstanceAs (Decidable (event.leaves = true))
  | .deliver side _ k => inferInstanceAs (Decidable (mark side.other ≤ k))

structure Agree (n : Network) : Prop where
  received : ∀ side, (n.party side).conn.tcb.state.finReceived = true →
    (n.party side.other).conn.tcb.state.finSent = true
  acked : ∀ side, (n.party side).conn.tcb.state.finAcked = true →
    (n.party side.other).conn.tcb.state.finReceived = true

structure Parting (e : Endpoint) (iss base : Side → U32) (mark : Side → Nat) (n : Network) : Prop where
  party : ∀ side, (n.party side).Parting (e.at side) (iss side) (base side) (base side.other) (mark side)
  agree : n.Agree

structure Grows (n n' : Network) : Prop where
  sent : ∀ side, (n.party side).conn.tcb.state.finSent = true →
    (n'.party side).conn.tcb.state.finSent = true
  received : ∀ side, (n.party side).conn.tcb.state.finReceived = true →
    (n'.party side).conn.tcb.state.finReceived = true
  acked : ∀ side, (n.party side).conn.tcb.state.finAcked = true →
    (n'.party side).conn.tcb.state.finAcked = true
  emitted : ∀ side, (n.party side).emitted <+: (n'.party side).emitted

theorem Grows.refl (n : Network) : n.Grows n :=
  ⟨fun _ => id, fun _ => id, fun _ => id, fun _ => List.prefix_rfl⟩

theorem Grows.trans {n n' n'' : Network} (first : n.Grows n') (second : n'.Grows n'') : n.Grows n'' where
  sent side before := second.sent side (first.sent side before)
  received side before := second.received side (first.received side before)
  acked side before := second.acked side (first.acked side before)
  emitted side := (first.emitted side).trans (second.emitted side)

variable {n : Network} {e : Endpoint} {iss base : Side → U32} {mark : Side → Nat} {side : Side}
  {event : Event} {fin acked : Bool}

theorem Parting.moved (inv : n.Parting e iss base mark)
    (parted : (n.party side).Parted event (e.at side) (iss side) (base side) (base side.other) (mark side)
      fin acked)
    (sent : fin = true → (n.party side.other).conn.tcb.state.finSent = true)
    (received : acked = true → (n.party side.other).conn.tcb.state.finReceived = true) :
    (n.perform side event).Parting e iss base mark ∧ n.Grows (n.perform side event) := by
  have received' : ((n.party side).step event).conn.tcb.state.finReceived =
      ((n.party side).conn.tcb.state.finReceived || fin) := parted.received
  have acked' : ((n.party side).step event).conn.tcb.state.finAcked =
      ((n.party side).conn.tcb.state.finAcked || acked) := parted.acked
  have there := inv.agree.received side.other
  have there' := inv.agree.acked side.other
  rw [Side.other_other] at there there'
  refine ⟨⟨?_, ⟨?_, ?_⟩⟩, ⟨?_, ?_, ?_, ?_⟩⟩ <;>
    rw [Side.forall_iff side, perform_self, perform_other]
  · exact ⟨parted.parting, inv.party side.other⟩
  · rw [Side.other_other, perform_self, received', Bool.or_eq_true]
    exact ⟨fun now => now.elim (inv.agree.received side) sent, fun now => parted.sent (there now)⟩
  · rw [Side.other_other, perform_self, acked', received', Bool.or_eq_true, Bool.or_eq_true]
    exact ⟨fun now => now.elim (inv.agree.acked side) received, fun now => .inl (there' now)⟩
  · exact ⟨parted.sent, id⟩
  · rw [received', Bool.or_eq_true]
    exact ⟨.inl, id⟩
  · rw [acked', Bool.or_eq_true]
    exact ⟨.inl, id⟩
  · exact ⟨List.prefix_append _ _, List.prefix_rfl⟩

theorem Parting.arrives (inv : n.Parting e iss base mark) {k : Nat} (late : mark side.other ≤ k)
    (now : Instant) {raw : Bytes} (found : (n.party side.other).emitted[k]? = some raw) :
    ∃ seg fin acked, TcpSegment.parse raw (e.at side.other).localIp (e.at side.other).remoteIp = .ok seg ∧
      seg.Parting (base side.other) (base side) fin acked ∧
      (n.step (.deliver side now k)).Parting e iss base mark ∧ n.Grows (n.step (.deliver side now k)) ∧
      (fin = true → ((n.step (.deliver side now k)).party side).conn.tcb.state.finReceived = true) ∧
      (acked = true → ((n.step (.deliver side now k)).party side).conn.tcb.state.finAcked = true) := by
  obtain ⟨fin, acked, seg, parsed, part, sent, received⟩ := (inv.party side.other).control k late raw found
  rw [Side.other_other] at part
  have waiting : acked = true → (n.party side).conn.core.state.finSent = true := by
    intro given
    have there := inv.agree.received side.other (received given)
    rwa [Side.other_other] at there
  have parted := (inv.party side).arrival part waiting now
  have arrived := step_deliver now found (inv.party side.other).sender.ends parsed
  obtain ⟨next, grows⟩ := inv.moved parted sent received
  refine ⟨seg, fin, acked, parsed, part, arrived ▸ next, arrived ▸ grows, fun given => ?_, fun given => ?_⟩
  · rw [arrived, perform_self]
    refine parted.received.trans ?_
    rw [given, Bool.or_true]
  · rw [arrived, perform_self]
    refine parted.acked.trans ?_
    rw [given, Bool.or_true]

theorem parting_step (n : Network) (action : Action) (inv : n.Parting e iss base mark)
    (leaves : n.Leaves mark action) : (n.step action).Parting e iss base mark ∧ n.Grows (n.step action) := by
  cases action with
  | call side event =>
      obtain ⟨parted, -⟩ := (inv.party side).call leaves
      exact inv.moved parted (fun given => absurd given Bool.false_ne_true) fun given =>
        absurd given Bool.false_ne_true
  | deliver side now k =>
      cases found : (n.party side.other).emitted[k]? with
      | none =>
          rw [step_deliver_none now found]
          exact ⟨inv, .refl n⟩
      | some raw =>
          obtain ⟨_, _, _, -, -, next, grows, -⟩ := inv.arrives leaves now found
          exact ⟨next, grows⟩

theorem parting_exec (inv : n.Parting e iss base mark) {actions : List Action}
    (leaves : Along (Leaves mark) n actions) :
    (exec n actions).Parting e iss base mark ∧ n.Grows (exec n actions) := by
  have keep : ∀ n' action, n'.Parting e iss base mark ∧ n.Grows n' → Leaves mark n' action →
      (n'.step action).Parting e iss base mark ∧ n.Grows (n'.step action) := by
    intro n' action before leaving
    obtain ⟨next, grows⟩ := parting_step n' action before.1 leaving
    exact ⟨next, before.2.trans grows⟩
  exact Runs.exec_inv keep ⟨inv, .refl n⟩ leaves

theorem Parting.delivered (inv : n.Parting e iss base mark) {actions : List Action}
    (leaves : Along (Leaves mark) n actions) {k : Nat} (late : mark side.other ≤ k)
    (delivered : n.Delivered side k actions) {raw : Bytes}
    (found : ((exec n actions).party side.other).emitted[k]? = some raw) {fin acked : Bool}
    (tells : ((exec n actions).party side.other).Tells (e.at side.other) (base side.other) (base side) raw
      fin acked) :
    (fin = true → ((exec n actions).party side).conn.tcb.state.finReceived = true) ∧
      (acked = true → ((exec n actions).party side).conn.tcb.state.finAcked = true) := by
  obtain ⟨before, now, rest, rfl, sent⟩ := delivered.split
  obtain ⟨first, arrival, last⟩ := Runs.along_append.mp leaves
  obtain ⟨inv', -⟩ := parting_exec inv first
  rw [exec, Runs.exec_append, Runs.exec_cons] at found tells ⊢
  set n₁ := Runs.exec step n before
  obtain ⟨raw', before'⟩ : ∃ raw', (n₁.party side.other).emitted[k]? = some raw' :=
    ⟨_, List.getElem?_eq_getElem sent⟩
  obtain ⟨seg, f, a, parsed, part, next, grows, received, answered⟩ := inv'.arrives late now before'
  obtain ⟨-, later⟩ := parting_exec next last
  have same : raw' = raw := by
    obtain ⟨more, kept⟩ := (grows.trans later).emitted side.other
    rw [← kept, List.getElem?_append_left sent, before'] at found
    exact Option.some.inj found
  subst same
  obtain ⟨seg', parsed', part', -⟩ := tells
  cases parsed.symm.trans parsed'
  have flag := congrArg TcpFlags.fin (part.flags.symm.trans part'.flags)
  have number := part.number.symm.trans part'.number
  refine ⟨fun given => later.received side (received (flag.trans given)),
    fun given => later.acked side (answered ?_)⟩
  rw [given] at number
  cases a with
  | false => simp [past] at number
  | true => rfl

def sentCount (n : Network) (side : Side) : Nat := (n.party side).emitted.length

theorem Settled.parting {w : Side → Window} {m : Side → Nat} (settled : n.Settled)
    (agreed : n.Agreed e iss w m) :
    n.Parting e iss (fun side => (n.party side).conn.tcb.snd.nxt) n.sentCount := by
  obtain ⟨short, state, idle, empty, queue⟩ := settled
  have bits : ∀ x, (n.party x).conn.core.state.finSent = false ∧
      (n.party x).conn.core.state.finReceived = false ∧ (n.party x).conn.core.state.finAcked = false := by
    intro x
    rw [show (n.party x).conn.core.state = .established from state x]
    decide
  refine ⟨fun side => ?_, ⟨fun side given => ?_, fun side given => ?_⟩⟩
  · obtain ⟨sent, received, acked⟩ := bits side
    obtain ⟨-, after, before⟩ := agreed.seqAgree short state side.other
    refine ⟨agreed.sender side, ⟨?_, ?_, ?_, ?_, empty side, ?_⟩, Nat.le_refl _, ?_, ?_, ?_⟩
    · rw [show (n.party side).conn.core.state = .established from state side]
      rfl
    · rw [acked]
      exact (idle side).trans (BitVec.add_zero _).symm
    · rw [sent]
      exact (BitVec.add_zero _).symm
    · rw [received]
      have same : (n.party side).conn.tcb.rcv.nxt = (n.party side.other).conn.tcb.snd.nxt := by
        rw [Side.other_other] at after before
        rw [idle] at after
        bv_omega
      exact same.trans (BitVec.add_zero _).symm
    · rw [show (n.party side).conn.core.queue = _ from
        congrArg (List.map RetransmitEntry.segment) (queue side)]
      rfl
    · intro k late raw found
      rw [List.getElem?_eq_none late] at found
      cases found
    · rw [sent]
      exact fun given => absurd given Bool.false_ne_true
    · rw [received]
      exact fun given => absurd given Bool.false_ne_true
  · exact absurd (given.symm.trans (bits side).2.1) (by simp)
  · exact absurd (given.symm.trans (bits side).2.2) (by simp)

theorem Parting.closes (inv : n.Parting e iss base mark) {actions : List Action}
    (leaves : Along (Leaves mark) n actions) (closed : .call side .initiateClose ∈ actions) :
    ((exec n actions).party side).conn.tcb.state.finSent = true := by
  obtain ⟨before, rest, rfl⟩ := List.append_of_mem closed
  obtain ⟨first, leaving, last⟩ := Runs.along_append.mp leaves
  obtain ⟨inv', -⟩ := parting_exec inv first
  obtain ⟨next, -⟩ := parting_step _ _ inv' leaving
  obtain ⟨-, later⟩ := parting_exec next last
  rw [exec, Runs.exec_append, Runs.exec_cons]
  refine later.sent side ?_
  change (((Runs.exec step n before).perform side .initiateClose).party side).conn.tcb.state.finSent = true
  rw [perform_self]
  exact ((inv'.party side).call rfl).2 rfl

theorem Parting.heard (inv : n.Parting e iss base mark) {actions : List Action}
    (leaves : Along (Leaves mark) n actions) (all : n.AllDelivered mark actions) (side : Side)
    (sent : ((exec n actions).party side).conn.tcb.state.finSent = true) :
    ((exec n actions).party side.other).conn.tcb.state.finReceived = true ∧
      ((exec n actions).party side).conn.tcb.state.finAcked = true := by
  obtain ⟨final, -⟩ := parting_exec inv leaves
  obtain ⟨k, late, raw, found, a, tells⟩ := (final.party side).fin sent
  have there := all side.other k
  have delivered := @Parting.delivered n e iss base mark side.other inv actions leaves k
  rw [Side.other_other] at there delivered
  have received :=
    (delivered late (there (List.getElem?_eq_some_iff.mp found).1 late) found tells).1 rfl
  obtain ⟨k, late, raw, found, f, tells⟩ := (final.party side.other).ack received
  rw [Side.other_other] at tells
  have here := all side k (List.getElem?_eq_some_iff.mp found).1 late
  exact ⟨received, (inv.delivered leaves late here found tells).2 rfl⟩

/-- From a settled state on, whatever the network loses, repeats or reorders and whenever the two sides close,
a FIN that one side has received was sent by the other, and one that is acknowledged was received. -/
theorem release_agrees (o : Side → Opening) (iss : Side → U32) (e : Endpoint) (actions : List Action)
    (rule : Along (Rule Session.Orderly) (start o iss e) actions)
    (settled : (exec (start o iss e) actions).Settled) (leaving : List Action)
    (leaves : Along (Leaves (exec (start o iss e) actions).sentCount) (exec (start o iss e) actions) leaving) :
    Always Agree (exec (start o iss e) actions) leaving := by
  obtain ⟨w, m, agreed⟩ := Runs.exec_inv agreed_step (fun _ _ => ⟨_, _, start_agreed o iss e⟩) rule
    settled.short fun side => .inr (.inr (settled.state side))
  have inv := settled.parting agreed
  generalize exec (start o iss e) actions = n at inv leaves
  generalize n.sentCount = mark at inv leaves
  exact Runs.always_inv (fun n action inv leaving => (parting_step n action inv leaving).1)
    (fun _ inv => inv.agree) inv leaves

theorem Settled.releases {w : Side → Window} {m : Side → Nat} (settled : n.Settled)
    (agreed : n.Agreed e iss w m) {leaving : List Action} (leaves : Along (Leaves n.sentCount) n leaving)
    (closed : ∀ side, .call side .initiateClose ∈ leaving) (all : n.AllDelivered n.sentCount leaving)
    (side : Side) : ((exec n leaving).party side).conn.tcb.state = .timeWait ∨
      ((exec n leaving).party side).conn.tcb.state = .closed := by
  have inv := settled.parting agreed
  obtain ⟨-, acked⟩ := inv.heard leaves all side (inv.closes leaves (closed side))
  obtain ⟨received, -⟩ := inv.heard leaves all side.other (inv.closes leaves (closed side.other))
  rw [Side.other_other] at received
  exact TcbState.left received acked

/-- When both sides close and all that they send from the settled state on arrives, in any order and any
number of times, both end in TIME_WAIT or in CLOSED. -/
theorem release_completes (o : Side → Opening) (iss : Side → U32) (e : Endpoint) (actions : List Action)
    (rule : Along (Rule Session.Orderly) (start o iss e) actions) (leaving : List Action) :
    let n := exec (start o iss e) actions
    n.Settled → Along (Leaves n.sentCount) n leaving → (∀ side, .call side .initiateClose ∈ leaving) →
    n.AllDelivered n.sentCount leaving →
    ∀ side, ((exec n leaving).party side).conn.tcb.state = .timeWait ∨
      ((exec n leaving).party side).conn.tcb.state = .closed := by
  intro n settled leaves closed all side
  obtain ⟨w, m, agreed⟩ := Runs.exec_inv agreed_step (fun _ _ => ⟨_, _, start_agreed o iss e⟩) rule
    settled.short fun side => .inr (.inr (settled.state side))
  exact settled.releases agreed leaves closed all side

theorem handshake_settled : (exec clientServer handshake).Settled := by
  constructor <;> rintro (_ | _) <;> decide +kernel

def crossing : List Action :=
  [.call .left .initiateClose, .call .right .initiateClose, .deliver .right 0 2, .deliver .left 0 1,
    .deliver .right 0 2, .deliver .right 0 3, .deliver .left 0 2]

theorem release_agrees_crossing :
    Along (Leaves (exec clientServer handshake).sentCount) (exec clientServer handshake) crossing ∧
      Always Agree (exec clientServer handshake) crossing := by
  have rule : Along (Rule Session.Orderly) clientServer handshake := by decide +kernel
  have leaves : Along (Leaves (exec clientServer handshake).sentCount) (exec clientServer handshake) crossing := by
    decide +kernel
  exact ⟨leaves, release_agrees _ _ _ handshake rule handshake_settled crossing leaves⟩

theorem release_completes_crossing :
    let n := exec clientServer handshake
    Along (Leaves n.sentCount) n crossing ∧ n.AllDelivered n.sentCount crossing ∧
      ∀ side, ((exec n crossing).party side).conn.tcb.state = .timeWait ∨
        ((exec n crossing).party side).conn.tcb.state = .closed := by
  have rule : Along (Rule Session.Orderly) clientServer handshake := by decide +kernel
  have leaves : Along (Leaves (exec clientServer handshake).sentCount) (exec clientServer handshake) crossing := by
    decide +kernel
  have closed : ∀ side, .call side .initiateClose ∈ crossing := by rintro (_ | _) <;> simp [crossing]
  have all : (exec clientServer handshake).AllDelivered (exec clientServer handshake).sentCount crossing := by
    rintro (_ | _) <;> decide +kernel
  exact ⟨leaves, all, release_completes _ _ _ handshake rule crossing handshake_settled leaves closed all⟩

end Network

end MagnumTcp.Tcp
