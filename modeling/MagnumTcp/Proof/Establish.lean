import MagnumTcp.Proof.Handshake
import MagnumTcp.Proof.Network

namespace MagnumTcp.Tcp

open MagnumTcp.Tcp.Core

namespace TcbState

def said : TcbState → Bool
  | closed | listen => false
  | _ => true

def heard : TcbState → Bool
  | closed | listen | synSent => false
  | _ => true

theorem heard_of_synchronized {state : TcbState} (acked : state.synchronized = true) : state.heard = true := by
  cases state <;> simp_all [synchronized, heard]

theorem said_of_heard {state : TcbState} (received : state.heard = true) : state.said = true := by
  cases state <;> simp_all [heard, said]

end TcbState

def Event.opens : Event → Bool
  | .processSegment _ _ | .writeData _ | .initiateClose => false
  | _ => true

/-! ## One end -/

structure TcpSegment.Greeting (seg : TcpSegment) (own peer : U32) (syn answer : Bool) : Prop where
  payload : seg.payload = []
  flags : seg.header.flags = { syn := syn, ack := answer }
  number : answer = true → seg.header.ackNum = past peer true
  seq : syn = true → seg.header.seq = own

structure Core.Greeting (c : Core) (o : Opening) (own peer : U32) : Prop where
  early : c.state.synchronized = true → c.state = .established
  active : c.state = .closed → o = .active
  passive : c.state = .listen → o = .passive
  iss : c.iss = own
  una : c.una = past own c.state.synchronized
  nxt : c.nxt = past own c.state.said
  peer : c.state.heard = true → c.irs = peer ∧ c.rcvNxt = past peer true
  empty : c.sendBuf.len = 0
  queue : c.queue = []

structure Core.Hails (c : Core) (own peer : U32) (syn answer : Bool) (seg : TcpSegment) : Prop where
  greeting : seg.Greeting own peer syn answer
  said : syn = true → c.state.said = true
  heard : answer = true → c.state.heard = true
  bare : syn = false → answer = true ∧ c.state.synchronized = true

/-- What a step that brings a SYN and an acknowledgement, or neither, does to the three bits, and what it
sends. -/
structure Core.Greets (o : Opening) (own peer : U32) (syn answer : Bool) (c c' : Core)
    (out : List SegmentBuilder) : Prop where
  greeting : c'.Greeting o own peer
  said : c.state.said = true → c'.state.said = true
  heard : c'.state.heard = (c.state.heard || (syn && c.state != .closed))
  acked : c'.state.synchronized = (c.state.synchronized || answer)
  control : ∀ b ∈ out, ∃ s a, c'.Hails own peer s a b.segment
  tells : c'.state.said = true → c.state.said = true ∨ ∃ b ∈ out, b.flags.syn = true
  answers : c'.state.heard = true → c.state.heard = true ∨ ∃ b ∈ out, b.flags.ack = true

namespace Core

variable {o : Opening} {own peer : U32} {syn answer : Bool} {c c' : Core} {seg : TcpSegment}

theorem Greeting.stays (greeting : c.Greeting o own peer) (heard : syn = true → c.state ≠ .closed →
      c.state.heard = true) (acked : answer = true → c.state.synchronized = true) :
    Greets o own peer syn answer c c [] where
  greeting := greeting
  said := id
  heard := by
    rw [Bool.eq_iff_iff, Bool.or_eq_true, Bool.and_eq_true, bne_iff_ne]
    exact ⟨.inl, fun now => now.elim id fun ⟨given, live⟩ => heard given live⟩
  acked := by
    rw [Bool.eq_iff_iff, Bool.or_eq_true]
    exact ⟨.inl, fun now => now.elim id acked⟩
  control := by simp
  tells := .inl
  answers := .inl

theorem Greeting.acceptable (greeting : c.Greeting o own peer) (greets : seg.Greeting peer own syn true)
    (said : c.state.said = true) (waits : c.state.synchronized = false) : c.Acceptable seg := by
  refine ⟨by rw [greets.flags], ?_⟩
  rw [greets.number rfl, greeting.una, greeting.nxt, ackAcceptable_past, said, waits]
  rfl

theorem Greeting.synAck (greeting : c.Greeting o own peer) (heard : c.state.heard = true) (w : U16) :
    ∀ b ∈ [c.synAck w], ∃ s a, c.Hails own peer s a b.segment := by
  intro b member
  rw [List.mem_singleton.mp member]
  exact ⟨true, true, ⟨rfl, rfl, fun _ => (greeting.peer heard).2, fun _ => greeting.iss⟩,
    fun _ => TcbState.said_of_heard heard, fun _ => heard, by simp⟩

theorem Greeting.ack (greeting : c.Greeting o own peer) (acked : c.state.synchronized = true) (w : U16) :
    ∀ b ∈ [c.ack w], ∃ s a, c.Hails own peer s a b.segment := by
  have heard := TcbState.heard_of_synchronized acked
  intro b member
  rw [List.mem_singleton.mp member]
  exact ⟨false, true, ⟨rfl, rfl, fun _ => (greeting.peer heard).2, by simp⟩, by simp, fun _ => heard,
    fun _ => ⟨rfl, acked⟩⟩

theorem Greeting.receives (greeting : c.Greeting o own peer) (greets : seg.Greeting peer own true false)
    (before : c.state = .listen ∨ c.state = .synSent)
    (after : c' = { c.acceptSyn seg with nxt := own + 1#32, state := .synReceived }) (w : U16) :
    Greets o own peer true false c c' [c'.synAck w] := by
  have waits : c.state.synchronized = false := by rcases before with state | state <;> rw [state] <;> rfl
  have seq := greets.seq rfl
  have greeting' : c'.Greeting o own peer := by
    subst after
    refine ⟨by simp [TcbState.synchronized], by simp, by simp, greeting.iss, ?_, rfl, fun _ => ⟨seq, ?_⟩,
      greeting.empty, greeting.queue⟩
    · exact greeting.una.trans (congrArg (past own) waits)
    · exact congrArg (· + 1#32) seq
  have state : c'.state = .synReceived := congrArg Core.state after
  refine ⟨greeting', fun _ => by rw [state]; rfl, ?_, ?_, greeting'.synAck (by rw [state]; rfl) w, fun _ =>
    .inr ⟨_, List.mem_singleton_self _, rfl⟩, fun _ => .inr ⟨_, List.mem_singleton_self _, rfl⟩⟩
  · rw [state]
    rcases before with state | state <;> rw [state] <;> rfl
  · rw [state, waits]
    rfl

theorem Greeting.finishes (greeting : c.Greeting o own peer) (greets : seg.Greeting peer own syn true)
    (before : c.state = .synSent ∧ syn = true ∨ c.state = .synReceived) (state : c'.state = .established)
    (iss : c'.iss = c.iss) (una : c'.una = seg.header.ackNum) (nxt : c'.nxt = c.nxt)
    (there : c'.irs = peer ∧ c'.rcvNxt = past peer true) (empty : c'.sendBuf.len = 0) (queue : c'.queue = [])
    {out : List SegmentBuilder} (w : U16)
    (shown : out = [] ∧ c.state = .synReceived ∨ out = [c'.ack w]) :
    Greets o own peer syn true c c' out := by
  have said : c.state.said = true := by rcases before with ⟨state, -⟩ | state <;> rw [state] <;> rfl
  have greeting' : c'.Greeting o own peer := by
    refine ⟨fun _ => state, by simp [state], by simp [state], iss.trans greeting.iss, ?_, ?_, fun _ => there,
      empty, queue⟩
    · rw [una, greets.number rfl, state]
      rfl
    · rw [nxt, greeting.nxt, said, state]
      rfl
  have acked : c'.state.synchronized = true := by rw [state]; rfl
  refine ⟨greeting', fun _ => by rw [state]; rfl, ?_, ?_, ?_, fun _ => .inl said, ?_⟩
  · rw [state]
    rcases before with ⟨state, rfl⟩ | state <;> rw [state] <;> rfl
  · rw [acked, Bool.or_true]
  · rcases shown with ⟨rfl, -⟩ | rfl
    · exact List.forall_mem_nil _
    · exact greeting'.ack acked w
  · rcases shown with ⟨-, state⟩ | rfl
    · exact fun _ => .inl (by rw [state]; rfl)
    · exact fun _ => .inr ⟨_, List.mem_singleton_self _, rfl⟩

end Core

namespace Connection

variable {o : Opening} {own peer : U32} {syn answer : Bool} {c : Connection} {seg : TcpSegment}

theorem greets (greeting : c.core.Greeting o own peer) (greets : seg.Greeting peer own syn answer)
    (said : answer = true → c.tcb.state.said = true)
    (bare : syn = false → answer = true ∧ c.tcb.state.heard = true) (now : Instant) :
    ∃ out, SegmentStep false seg c.core (c.processSegment now seg).1.core out ∧
      (c.processSegment now seg).2.toList = out.map SegmentBuilder.build ∧
      Greets o own peer syn answer c.core (c.processSegment now seg).1.core out := by
  have early := greeting.early
  have flags := greets.flags
  unfold processSegment
  cases state : c.tcb.state with
  | closed =>
      have none : answer = false := by simpa [state, TcbState.said] using said
      have closed : c.core.state = .closed := state
      refine ⟨[], .ignore _ ⟨by simp [closed], by simp [closed], by simp [closed]⟩, rfl, ?_⟩
      apply greeting.stays
      · exact fun _ live => absurd closed live
      · exact fun given => absurd (given.symm.trans none) (by simp)
  | listen =>
      have none : answer = false := by simpa [state, TcbState.said] using said
      subst none
      have syn : syn = true := by simpa [state, TcbState.heard] using bare
      subst syn
      have listens : c.core.state = .listen := state
      simp only [handleListen, flags, Bool.false_eq_true, if_false, Bool.not_true]
      refine ⟨_, .listenSyn _ (c.acceptSyn seg).currentWindow listens (by rw [flags]), rfl, ?_⟩
      exact greeting.receives greets (.inl listens) (by rw [← greeting.iss]; rfl) _
  | synSent =>
      have given : syn = true := by simpa [state, TcbState.heard] using bare
      subst given
      have sent : c.core.state = .synSent := state
      cases answer with
      | false =>
          simp only [handleSynSent, flags, Bool.false_eq_true, if_false, Bool.and_false, if_true]
          refine ⟨_, .synSentSyn _ (c.acceptSyn seg).currentWindow sent (by rw [flags]), rfl, ?_⟩
          refine greeting.receives greets (.inr sent) ?_ _
          have nxt : c.core.nxt = own + 1#32 := by rw [greeting.nxt, sent]; rfl
          rw [← nxt]
          rfl
      | true =>
          have good := greeting.acceptable greets (by rw [sent]; rfl) (by rw [sent]; rfl)
          have accepts : c.acceptable seg = true := good.2
          simp only [handleSynSent, flags, accepts, Bool.false_eq_true, if_false, Bool.and_true, if_true,
            Bool.not_true]
          refine ⟨_, .synSentAck _ (c.acceptSyn seg).currentWindow sent (by rw [flags]) good, rfl, ?_⟩
          have seq := greets.seq rfl
          apply greeting.finishes greets (.inl ⟨sent, rfl⟩)
          case there => exact ⟨seq, congrArg (· + 1#32) seq⟩
          case empty => exact greeting.empty
          case queue => exact greeting.queue
          case shown => exact .inr rfl
          all_goals rfl
  | synReceived =>
      have received : c.core.state = .synReceived := state
      have there := greeting.peer (by rw [received]; rfl)
      cases answer with
      | false =>
          have given : syn = true := by simpa using bare
          subst given
          have irs : (seg.header.seq == c.tcb.rcv.irs) = true :=
            beq_iff_eq.mpr ((greets.seq rfl).trans there.1.symm)
          simp only [handleSynReceived, flags, irs, Bool.false_eq_true, if_false, Bool.not_false, Bool.and_self,
            if_true]
          refine ⟨_, .repeatSynAck _ c.currentWindow received, rfl, ?_⟩
          have heard : c.core.state.heard = true := by rw [received]; rfl
          have stays : Greets o own peer true false c.core c.core [] :=
            greeting.stays (fun _ _ => heard) (by simp)
          exact { stays with control := greeting.synAck heard _, tells := .inl, answers := .inl }
      | true =>
          have good := greeting.acceptable greets (by rw [received]; rfl) (by rw [received]; rfl)
          have accepts : c.acceptable seg = true := good.2
          have nothing : c.sendBuf.acknowledge seg.header.ackNum = c.sendBuf := by
            unfold SendBuffer.acknowledge
            rw [if_pos (by rw [show c.sendBuf.len = 0 from greeting.empty]; omega)]
          simp only [handleSynReceived, flags, accepts, Bool.false_eq_true, if_false, Bool.not_true,
            Bool.and_false, Bool.false_and]
          refine ⟨[], .synReceivedAck _ received good, rfl, ?_⟩
          apply greeting.finishes greets (.inr received)
          case there => exact there
          case empty => exact (congrArg SendBuffer.len nothing).trans greeting.empty
          case queue => exact greeting.queue
          case w => exact 0#16
          case shown => exact .inl ⟨rfl, received⟩
          all_goals rfl
  | established =>
      have settled : c.core.state = .established := state
      have idle : c.tcb.snd.una = c.tcb.snd.nxt := by
        have una : c.tcb.snd.una = past own c.core.state.synchronized := greeting.una
        have nxt : c.tcb.snd.nxt = past own c.core.state.said := greeting.nxt
        rw [una, nxt, settled]
        rfl
      have bad : ¬ c.core.Acceptable seg := by
        rintro ⟨flag, good⟩
        rw [flags] at flag
        rw [greets.number flag, greeting.una, greeting.nxt, settled, ackAcceptable_past] at good
        cases good
      have refuses : (answer && c.acceptable seg) = false := by
        rw [acceptable_core, flags] at bad
        exact Bool.eq_false_of_not_eq_true bad
      have ignores : c.handleEstablished now seg = (c, none) := by
        have payload := greets.payload
        cases answer <;>
          simp_all [handleEstablished, establishedAck, isDupAck, establishedReceive]
      rw [ignores]
      refine ⟨[], .quiet _ _ settled rfl (.inl ⟨bad, rfl⟩) greets.payload (by rw [flags]), rfl, ?_⟩
      apply greeting.stays
      · exact fun _ _ => by rw [settled]; rfl
      · exact fun _ => by rw [settled]; rfl
  | _ =>
      have there := early (congrArg TcbState.synchronized state)
      exact absurd (state.symm.trans there) (by simp)

end Connection

theorem CoreStep.greets {o : Opening} {own peer : U32} {event : Event} {c c' : Core}
    {out : List SegmentBuilder} (step : CoreStep event c c' out) (greeting : c.Greeting o own peer)
    (opens : event.opens = true) :
    Greets o own peer false false c c' out ∧ (event = .connect → o = .active → c'.state.said = true) := by
  have same : Greets o own peer false false c c [] := greeting.stays (by simp) (by simp)
  have unsent := SendBuffer.nextSegment_none greeting.empty
  cases step with
  | segment => simp [Event.opens] at opens
  | write => simp [Event.opens] at opens
  | close => simp [Event.opens] at opens
  | closeNothing => simp [Event.opens] at opens
  | send _ _ _ _ _ _ _ next => cases (unsent _).symm.trans next
  | probe _ _ _ _ next => cases (unsent _).symm.trans next
  | sendNothing => exact ⟨same, by simp⟩
  | probeNothing => exact ⟨same, by simp⟩
  | tickNothing => exact ⟨same, by simp⟩
  | expire _ _ state =>
      have early := greeting.early (by rw [state]; rfl)
      exact absurd (state.symm.trans early) (by simp)
  | read =>
      obtain ⟨early, active, passive, iss, una, nxt, there, empty, queue⟩ := greeting
      exact ⟨{ same with
        greeting := ⟨early, active, passive, iss, una, nxt, there, empty, queue⟩
        control := List.forall_mem_nil _ }, by simp⟩
  | retransmit _ _ w segments held =>
      have none : segments = [] := by
        rw [greeting.queue] at held
        exact List.eq_nil_iff_forall_not_mem.mpr fun segment member => List.not_mem_nil (held segment member)
      subst none
      exact ⟨same, by simp⟩
  | connectNothing _ opened =>
      refine ⟨same, fun _ active => ?_⟩
      have passive := greeting.passive
      cases state : c.state <;> simp_all [TcbState.said]
  | connect _ state =>
      have una : c.una = own := by
        rw [greeting.una, state]
        exact BitVec.add_zero own
      refine ⟨⟨⟨by simp [TcbState.synchronized], by simp, by simp, greeting.iss, ?_, ?_, ?_, greeting.empty,
        greeting.queue⟩, fun _ => rfl, ?_, ?_, ?_, fun _ => .inr ⟨_, List.mem_singleton_self _, rfl⟩, ?_⟩,
        fun _ _ => rfl⟩
      · exact una.trans (BitVec.add_zero own).symm
      · exact congrArg (· + 1#32) greeting.iss
      · exact fun heard => absurd heard (by simp [TcbState.heard])
      · rw [state]
        rfl
      · rw [state]
        rfl
      · intro b member
        rw [List.mem_singleton.mp member]
        exact ⟨true, false, ⟨rfl, rfl, by simp, fun _ => greeting.iss⟩, fun _ => rfl, by simp, by simp⟩
      · exact fun heard => absurd heard (by simp [TcbState.heard])

namespace Session

def Hails (s : Session) (e : Endpoint) (own peer : U32) (raw : Bytes) (syn answer : Bool) : Prop :=
  ∃ seg, TcpSegment.parse raw e.localIp e.remoteIp = .ok seg ∧ s.conn.core.Hails own peer syn answer seg

/-- The side opens, and its segments speak about nothing else. -/
structure Greeting (s : Session) (o : Opening) (e : Endpoint) (own peer : U32) : Prop where
  sender : s.Sender e own
  core : s.conn.core.Greeting o own peer
  unwritten : s.written = []
  control : ∀ raw ∈ s.emitted, ∃ syn answer, s.Hails e own peer raw syn answer
  syn : s.conn.core.state.said = true → ∃ raw ∈ s.emitted, ∃ answer, s.Hails e own peer raw true answer
  ack : s.conn.core.state.heard = true → ∃ raw ∈ s.emitted, ∃ syn, s.Hails e own peer raw syn true

variable {s : Session} {o : Opening} {e : Endpoint} {own peer : U32} {event : Event} {syn answer : Bool}
  {out : List SegmentBuilder}

theorem start_greeting (o : Opening) (own peer : U32) (e : Endpoint) :
    (o.session own e).Greeting o e own peer := by
  have zero : own = past own false := (BitVec.add_zero own).symm
  have silent : ∀ {P : Prop}, false = true → P := fun none => absurd none Bool.false_ne_true
  cases o with
  | passive =>
      exact ⟨start_sender _ _ _, ⟨silent, fun none => (by cases none), fun _ => rfl, rfl, zero, zero,
        silent, rfl, rfl⟩, rfl, List.forall_mem_nil _, silent, silent⟩
  | active =>
      exact ⟨start_sender _ _ _, ⟨silent, fun _ => rfl, fun none => (by cases none), rfl, zero, zero,
        silent, rfl, rfl⟩, rfl, List.forall_mem_nil _, silent, silent⟩

structure Greeted (s : Session) (event : Event) (o : Opening) (e : Endpoint) (own peer : U32)
    (syn answer : Bool) : Prop where
  greeting : (s.step event).Greeting o e own peer
  said : s.conn.core.state.said = true → (s.step event).conn.core.state.said = true
  heard : (s.step event).conn.core.state.heard =
    (s.conn.core.state.heard || (syn && s.conn.core.state != .closed))
  acked : (s.step event).conn.core.state.synchronized = (s.conn.core.state.synchronized || answer)

theorem Greeting.keeps (inv : s.Greeting o e own peer) (step : CoreStep event s.conn.core
      (s.step event).conn.core out) (built : s.output event = out.map SegmentBuilder.build)
    (unwritten : s.accepted event = [])
    (greets : Greets o own peer syn answer s.conn.core (s.step event).conn.core out) :
    s.Greeted event o e own peer syn answer := by
  have emitted : (s.step event).emitted = s.emitted ++ out.map SegmentBuilder.build :=
    congrArg (s.emitted ++ ·) built
  have kept : ∀ {raw syn answer}, s.Hails e own peer raw syn answer →
      (s.step event).Hails e own peer raw syn answer := by
    rintro raw syn answer ⟨seg, parsed, hails⟩
    refine ⟨seg, parsed, hails.greeting, fun given => greets.said (hails.said given), fun given => ?_,
      fun given => ⟨(hails.bare given).1, ?_⟩⟩
    · rw [greets.heard, hails.heard given, Bool.true_or]
    · rw [greets.acked, (hails.bare given).2, Bool.true_or]
  have old : ∀ {raw : Bytes}, raw ∈ s.emitted → raw ∈ (s.step event).emitted := by
    intro raw member
    rw [emitted]
    exact List.mem_append_left _ member
  have new : ∀ b ∈ out, b.build ∈ (s.step event).emitted ∧
      (s.step event).Hails e own peer b.build b.flags.syn b.flags.ack := by
    intro b member
    obtain ⟨syn, answer, hails⟩ := greets.control b member
    have flags : b.flags = { syn := syn, ack := answer } := hails.greeting.flags
    rw [emitted, flags]
    exact ⟨List.mem_append_right _ (List.mem_map_of_mem member), _,
      inv.sender.parse (step.emitted b member), hails⟩
  refine ⟨⟨inv.sender.step event, greets.greeting, ?_, ?_, ?_, ?_⟩, greets.said, greets.heard,
    greets.acked⟩
  · exact (congrArg₂ (· ++ ·) inv.unwritten unwritten).trans (List.append_nil _)
  · intro raw member
    rw [emitted] at member
    rcases List.mem_append.mp member with before | now
    · obtain ⟨syn, answer, hails⟩ := inv.control raw before
      exact ⟨syn, answer, kept hails⟩
    · obtain ⟨b, here, rfl⟩ := List.mem_map.mp now
      exact ⟨_, _, (new b here).2⟩
  · intro said
    rcases greets.tells said with before | ⟨b, member, flag⟩
    · obtain ⟨raw, member, answer, hails⟩ := inv.syn before
      exact ⟨raw, old member, answer, kept hails⟩
    · obtain ⟨member, hails⟩ := new b member
      rw [flag] at hails
      exact ⟨_, member, _, hails⟩
  · intro heard
    rcases greets.answers heard with before | ⟨b, member, flag⟩
    · obtain ⟨raw, member, syn, hails⟩ := inv.ack before
      exact ⟨raw, old member, syn, kept hails⟩
    · obtain ⟨member, hails⟩ := new b member
      rw [flag] at hails
      exact ⟨_, member, _, hails⟩

theorem Greeting.call (inv : s.Greeting o e own peer) (opens : event.opens = true) :
    s.Greeted event o e own peer false false ∧
      (event = .connect → o = .active → (s.step event).conn.core.state.said = true) := by
  obtain ⟨out, step, built⟩ := s.step_core event
  obtain ⟨greets, connects⟩ := step.greets inv.core opens
  refine ⟨inv.keeps step built ?_ greets, connects⟩
  cases event with
  | writeData => simp [Event.opens] at opens
  | _ => rfl

theorem Greeting.arrival (inv : s.Greeting o e own peer) {seg : TcpSegment}
    (greets : seg.Greeting peer own syn answer) (said : answer = true → s.conn.core.state.said = true)
    (bare : syn = false → answer = true ∧ s.conn.core.state.heard = true) (now : Instant) :
    s.Greeted (.processSegment now seg) o e own peer syn answer := by
  obtain ⟨out, step, built, greets⟩ := s.conn.greets inv.core greets said bare now
  exact inv.keeps (.segment step) built rfl greets

end Session

/-! ## Both ends -/

namespace Network

def Opens (_ : Network) : Action → Prop
  | .call _ event => event.opens = true
  | .deliver _ _ _ => True

instance (n : Network) : (action : Action) → Decidable (n.Opens action)
  | .call _ event => inferInstanceAs (Decidable (event.opens = true))
  | .deliver _ _ _ => isTrue trivial

/-- A SYN that is received was sent, and one that is acknowledged was received. -/
structure Greeting (o : Side → Opening) (e : Endpoint) (iss : Side → U32) (n : Network) : Prop where
  party : ∀ side, (n.party side).Greeting (o side) (e.at side) (iss side) (iss side.other)
  heard : ∀ side, (n.party side).conn.tcb.state.heard = true →
    (n.party side.other).conn.tcb.state.said = true
  acked : ∀ side, (n.party side).conn.tcb.state.synchronized = true →
    (n.party side.other).conn.tcb.state.heard = true

structure Hears (n n' : Network) : Prop where
  said : ∀ side, (n.party side).conn.tcb.state.said = true → (n'.party side).conn.tcb.state.said = true
  heard : ∀ side, (n.party side).conn.tcb.state.heard = true → (n'.party side).conn.tcb.state.heard = true
  acked : ∀ side, (n.party side).conn.tcb.state.synchronized = true →
    (n'.party side).conn.tcb.state.synchronized = true
  emitted : ∀ side, (n.party side).emitted <+: (n'.party side).emitted

theorem Hears.refl (n : Network) : n.Hears n :=
  ⟨fun _ => id, fun _ => id, fun _ => id, fun _ => List.prefix_rfl⟩

theorem Hears.trans {n n' n'' : Network} (first : n.Hears n') (second : n'.Hears n'') : n.Hears n'' where
  said side before := second.said side (first.said side before)
  heard side before := second.heard side (first.heard side before)
  acked side before := second.acked side (first.acked side before)
  emitted side := (first.emitted side).trans (second.emitted side)

variable {n : Network} {o : Side → Opening} {e : Endpoint} {iss : Side → U32} {side : Side} {event : Event}
  {syn answer : Bool}

theorem start_greeting (o : Side → Opening) (iss : Side → U32) (e : Endpoint) :
    (start o iss e).Greeting o e iss := by
  refine ⟨fun side => Session.start_greeting _ _ _ _, fun side none => ?_, fun side none => ?_⟩
  · change ((o side).session (iss side) (e.at side)).conn.tcb.state.heard = true at none
    cases kind : o side <;> rw [kind] at none <;> cases none
  · change ((o side).session (iss side) (e.at side)).conn.tcb.state.synchronized = true at none
    cases kind : o side <;> rw [kind] at none <;> cases none

theorem Greeting.moved (inv : n.Greeting o e iss)
    (greeted : (n.party side).Greeted event (o side) (e.at side) (iss side) (iss side.other) syn answer)
    (said : syn = true → (n.party side.other).conn.tcb.state.said = true)
    (heard : answer = true → (n.party side.other).conn.tcb.state.heard = true) :
    (n.perform side event).Greeting o e iss ∧ n.Hears (n.perform side event) := by
  have heard' : ((n.party side).step event).conn.tcb.state.heard =
      ((n.party side).conn.tcb.state.heard || (syn && (n.party side).conn.tcb.state != .closed)) :=
    greeted.heard
  have acked' : ((n.party side).step event).conn.tcb.state.synchronized =
      ((n.party side).conn.tcb.state.synchronized || answer) := greeted.acked
  have there := inv.heard side.other
  have there' := inv.acked side.other
  rw [Side.other_other] at there there'
  refine ⟨⟨?_, ?_, ?_⟩, ⟨?_, ?_, ?_, ?_⟩⟩ <;> rw [Side.forall_iff side, perform_self, perform_other]
  · exact ⟨greeted.greeting, inv.party side.other⟩
  · rw [Side.other_other, perform_self, heard', Bool.or_eq_true, Bool.and_eq_true]
    exact ⟨fun now => now.elim (inv.heard side) fun now => said now.1, fun now => greeted.said (there now)⟩
  · rw [Side.other_other, perform_self, acked', heard', Bool.or_eq_true, Bool.or_eq_true]
    exact ⟨fun now => now.elim (inv.acked side) heard, fun now => .inl (there' now)⟩
  · exact ⟨greeted.said, id⟩
  · rw [heard', Bool.or_eq_true]
    exact ⟨.inl, id⟩
  · rw [acked', Bool.or_eq_true]
    exact ⟨.inl, id⟩
  · exact ⟨List.prefix_append _ _, List.prefix_rfl⟩

theorem Greeting.arrives (inv : n.Greeting o e iss) {k : Nat} (now : Instant) {raw : Bytes}
    (found : (n.party side.other).emitted[k]? = some raw) :
    ∃ syn answer, (n.party side.other).Hails (e.at side.other) (iss side.other) (iss side) raw syn answer ∧
      (n.step (.deliver side now k)).Greeting o e iss ∧ n.Hears (n.step (.deliver side now k)) ∧
      (syn = true → (n.party side).conn.tcb.state ≠ .closed →
        ((n.step (.deliver side now k)).party side).conn.tcb.state.heard = true) ∧
      (answer = true → ((n.step (.deliver side now k)).party side).conn.tcb.state.synchronized = true) := by
  obtain ⟨syn, answer, seg, parsed, hails⟩ :=
    (inv.party side.other).control raw (List.mem_of_getElem? found)
  rw [Side.other_other] at hails
  have said : answer = true → (n.party side).conn.core.state.said = true := by
    intro given
    have there := inv.heard side.other (hails.heard given)
    rwa [Side.other_other] at there
  have bare : syn = false → answer = true ∧ (n.party side).conn.core.state.heard = true := by
    intro given
    have there := inv.acked side.other (hails.bare given).2
    rw [Side.other_other] at there
    exact ⟨(hails.bare given).1, there⟩
  have greeted := (inv.party side).arrival hails.greeting said bare now
  have arrived := step_deliver now found (inv.party side.other).sender.ends parsed
  obtain ⟨next, hears⟩ := inv.moved greeted hails.said hails.heard
  refine ⟨syn, answer, ⟨seg, parsed, hails⟩, arrived ▸ next, arrived ▸ hears, fun given live => ?_,
    fun given => ?_⟩
  · rw [arrived, perform_self]
    refine greeted.heard.trans ?_
    rw [given, Bool.true_and, Bool.or_eq_true, bne_iff_ne]
    exact .inr live
  · rw [arrived, perform_self]
    refine greeted.acked.trans ?_
    rw [given, Bool.or_true]

theorem greeting_step (n : Network) (action : Action) (inv : n.Greeting o e iss) (opens : n.Opens action) :
    (n.step action).Greeting o e iss ∧ n.Hears (n.step action) := by
  cases action with
  | call side event =>
      obtain ⟨greeted, -⟩ := (inv.party side).call opens
      exact inv.moved greeted (fun given => absurd given Bool.false_ne_true) fun given =>
        absurd given Bool.false_ne_true
  | deliver side now k =>
      cases found : (n.party side.other).emitted[k]? with
      | none =>
          rw [step_deliver_none now found]
          exact ⟨inv, .refl n⟩
      | some raw =>
          obtain ⟨_, _, -, next, hears, -⟩ := inv.arrives now found
          exact ⟨next, hears⟩

theorem greeting_exec (inv : n.Greeting o e iss) {actions : List Action} (opens : Along Opens n actions) :
    (exec n actions).Greeting o e iss ∧ n.Hears (exec n actions) := by
  have keep : ∀ n' action, n'.Greeting o e iss ∧ n.Hears n' → Opens n' action →
      (n'.step action).Greeting o e iss ∧ n.Hears (n'.step action) := by
    intro n' action before opens
    obtain ⟨next, hears⟩ := greeting_step n' action before.1 opens
    exact ⟨next, before.2.trans hears⟩
  exact Runs.exec_inv keep ⟨inv, .refl n⟩ opens

theorem Greeting.hears_later (inv : n.Greeting o e iss) {before after : List Action}
    (opens : Along Opens n after) (part : before <+: after) : (exec n before).Hears (exec n after) := by
  obtain ⟨rest, rfl⟩ := part
  obtain ⟨first, last⟩ := Runs.along_append.mp opens
  obtain ⟨inv', -⟩ := greeting_exec inv first
  rw [exec, Runs.exec_append]
  exact (greeting_exec inv' last).2

theorem Greeting.delivered (inv : n.Greeting o e iss) {actions : List Action} (opens : Along Opens n actions)
    {k : Nat} (delivered : n.Delivered side k actions) {raw : Bytes}
    (found : ((exec n actions).party side.other).emitted[k]? = some raw)
    (hails : ((exec n actions).party side.other).Hails (e.at side.other) (iss side.other) (iss side) raw syn
      answer) :
    ∃ before, before <+: actions ∧ k < ((exec n before).party side.other).emitted.length ∧
      (syn = true → ((exec n before).party side).conn.tcb.state ≠ .closed →
        ((exec n actions).party side).conn.tcb.state.heard = true) ∧
      (answer = true → ((exec n actions).party side).conn.tcb.state.synchronized = true) := by
  obtain ⟨before, now, rest, rfl, sent⟩ := delivered.split
  refine ⟨before, List.prefix_append _ _, sent, ?_⟩
  obtain ⟨first, -, last⟩ := Runs.along_append.mp opens
  obtain ⟨inv', -⟩ := greeting_exec inv first
  rw [exec, Runs.exec_append, Runs.exec_cons] at found hails ⊢
  set n₁ := Runs.exec step n before
  obtain ⟨raw', before'⟩ : ∃ raw', (n₁.party side.other).emitted[k]? = some raw' :=
    ⟨_, List.getElem?_eq_getElem sent⟩
  obtain ⟨s, a, ⟨seg, parsed, part⟩, next, hears, heard, acked⟩ := inv'.arrives now before'
  obtain ⟨-, later⟩ := greeting_exec next last
  have same : raw' = raw := by
    obtain ⟨more, kept⟩ := (hears.trans later).emitted side.other
    rw [← kept, List.getElem?_append_left sent, before'] at found
    exact Option.some.inj found
  subst same
  obtain ⟨seg', parsed', part'⟩ := hails
  cases parsed.symm.trans parsed'
  have flags := part.greeting.flags.symm.trans part'.greeting.flags
  have syn' : s = syn := congrArg TcpFlags.syn flags
  have ack' : a = answer := congrArg TcpFlags.ack flags
  subst syn' ack'
  exact ⟨fun given live => later.heard side (heard given live), fun given => later.acked side (acked given)⟩

theorem Greeting.said_of_sent (inv : n.Greeting o e iss) {k : Nat}
    (sent : k < (n.party side).emitted.length) : (n.party side).conn.tcb.state.said = true := by
  obtain ⟨syn, answer, seg, -, hails⟩ := (inv.party side).control _ (List.getElem_mem sent)
  cases syn with
  | true => exact hails.said rfl
  | false => exact TcbState.said_of_heard (TcbState.heard_of_synchronized (hails.bare rfl).2)

theorem Greeting.connects (inv : n.Greeting o e iss) {actions : List Action} (opens : Along Opens n actions)
    (active : o side = .active) (called : .call side .connect ∈ actions) :
    ((exec n actions).party side).conn.tcb.state.said = true := by
  obtain ⟨before, rest, rfl⟩ := List.append_of_mem called
  obtain ⟨first, opening, last⟩ := Runs.along_append.mp opens
  obtain ⟨inv', -⟩ := greeting_exec inv first
  obtain ⟨next, -⟩ := greeting_step _ _ inv' opening
  obtain ⟨-, later⟩ := greeting_exec next last
  rw [exec, Runs.exec_append, Runs.exec_cons]
  refine later.said side ?_
  change (((Runs.exec step n before).perform side .connect).party side).conn.tcb.state.said = true
  rw [perform_self]
  exact ((inv'.party side).call rfl).2 rfl active

theorem Greeting.answered (inv : n.Greeting o e iss) {actions : List Action} (opens : Along Opens n actions)
    (all : n.AllDelivered (fun _ => 0) actions)
    (heard : ((exec n actions).party side.other).conn.tcb.state.heard = true) :
    ((exec n actions).party side).conn.tcb.state.synchronized = true := by
  obtain ⟨final, -⟩ := greeting_exec inv opens
  obtain ⟨raw, member, syn, hails⟩ := (final.party side.other).ack heard
  rw [Side.other_other] at hails
  obtain ⟨k, found⟩ := List.getElem?_of_mem member
  have delivered := all side k (List.getElem?_eq_some_iff.mp found).1 (Nat.zero_le _)
  obtain ⟨-, -, -, -, acked⟩ := inv.delivered opens delivered found hails
  exact acked rfl

/-- The SYN of a side arrives at the other while that one is not in CLOSED, or else the SYN of the other comes
later and finds this one waiting. -/
theorem Greeting.someone_hears (inv : n.Greeting o e iss) {actions : List Action}
    (opens : Along Opens n actions) (all : n.AllDelivered (fun _ => 0) actions)
    (called : ∀ x, o x = .active → .call x .connect ∈ actions) (active : o side = .active) :
    ∃ x, ((exec n actions).party x).conn.tcb.state.heard = true := by
  obtain ⟨final, -⟩ := greeting_exec inv opens
  have opens_to : ∀ {before}, before <+: actions → Along Opens n before := by
    rintro before ⟨rest, rfl⟩
    exact (Runs.along_append.mp opens).1
  have arrives : ∀ x, ((exec n actions).party x.other).conn.tcb.state.said = true →
      ∃ before, before <+: actions ∧ ((exec n before).party x.other).conn.tcb.state.said = true ∧
        (((exec n before).party x).conn.tcb.state ≠ .closed →
          ((exec n actions).party x).conn.tcb.state.heard = true) := by
    intro x said
    obtain ⟨raw, member, answer, hails⟩ := (final.party x.other).syn said
    rw [Side.other_other] at hails
    obtain ⟨k, found⟩ := List.getElem?_of_mem member
    have delivered := all x k (List.getElem?_eq_some_iff.mp found).1 (Nat.zero_le _)
    obtain ⟨before, part, sent, heard, -⟩ := inv.delivered opens delivered found hails
    obtain ⟨inv', -⟩ := greeting_exec inv (opens_to part)
    exact ⟨before, part, inv'.said_of_sent sent, heard rfl⟩
  have said := inv.connects opens active (called side active)
  have first := arrives side.other
  rw [Side.other_other] at first
  obtain ⟨before, part, said₁, heard⟩ := first said
  by_cases closed : ((exec n before).party side.other).conn.tcb.state = .closed
  · have active' : o side.other = .active := by
      obtain ⟨inv', -⟩ := greeting_exec inv (opens_to part)
      exact (inv'.party side.other).core.active closed
    have said' := inv.connects opens active' (called side.other active')
    obtain ⟨before', part', said₂, heard'⟩ := arrives side said'
    refine ⟨side, heard' fun none => ?_⟩
    rcases List.prefix_or_prefix_of_prefix part part' with early | late
    · have kept := (inv.hears_later (opens_to part') early).said side said₁
      rw [none] at kept
      cases kept
    · have kept := (inv.hears_later (opens_to part) late).said side.other said₂
      rw [closed] at kept
      cases kept
  · exact ⟨side.other, heard closed⟩

/-- When every active side calls and all that is sent arrives, in any order and any number of times,
both sides end in ESTABLISHED, with nothing outstanding. -/
theorem open_completes (o : Side → Opening) (iss : Side → U32) (e : Endpoint) (actions : List Action)
    (opens : Along Opens (start o iss e) actions) (side : Side) (active : o side = .active)
    (called : ∀ x, o x = .active → .call x .connect ∈ actions)
    (all : (start o iss e).AllDelivered (fun _ => 0) actions) : (exec (start o iss e) actions).Settled := by
  have inv := start_greeting o iss e
  obtain ⟨final, -⟩ := greeting_exec inv opens
  obtain ⟨x, heard⟩ := inv.someone_hears opens all called active
  have acked : ∀ y, ((exec (start o iss e) actions).party y).conn.tcb.state.synchronized = true := by
    have there : ((exec (start o iss e) actions).party x.other).conn.tcb.state.synchronized = true := by
      apply inv.answered opens all
      rwa [Side.other_other]
    rw [Side.forall_iff x]
    exact ⟨inv.answered opens all (TcbState.heard_of_synchronized there), there⟩
  have state : ∀ y, ((exec (start o iss e) actions).party y).conn.core.state = .established :=
    fun y => (final.party y).core.early (acked y)
  refine ⟨fun y => ?_, state, fun y => ?_, fun y => (final.party y).core.empty, fun y => ?_⟩
  · rw [(final.party y).unwritten]
    decide
  · have una := (final.party y).core.una
    have nxt := (final.party y).core.nxt
    rw [state y] at una nxt
    exact una.trans nxt.symm
  · exact List.map_eq_nil_iff.mp (final.party y).core.queue

def callers : Network :=
  start (fun _ => .active) (fun | .left => clientIsn | .right => serverIsn) serverEnd.peer

-- The first SYN comes before the other side has called, and is lost on it.
def lateCall : List Action :=
  [.call .left .connect, .deliver .right 0 0, .call .right .connect, .deliver .left 0 0, .deliver .right 0 1,
    .deliver .left 0 1]

theorem open_completes_lateCall : Along Opens callers lateCall ∧ (exec callers lateCall).Settled := by
  have opens : Along Opens callers lateCall := by decide +kernel
  have called : ∀ x, .call x .connect ∈ lateCall := by rintro (_ | _) <;> simp [lateCall]
  have all : callers.AllDelivered (fun _ => 0) lateCall := by rintro (_ | _) <;> decide +kernel
  exact ⟨opens, open_completes _ _ _ lateCall opens .left rfl (fun x _ => called x) all⟩

end Network

end MagnumTcp.Tcp
