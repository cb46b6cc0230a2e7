import MagnumTcp.Proof.LateCall
import MagnumTcp.Proof.Release
import MagnumTcp.Proof.Transfer

namespace MagnumTcp.Tcp

open MagnumTcp.Tcp.Core

structure Message where
  side : Side
  data : Bytes
  clock : Nat → Instant

def Message.accepted (message : Message) : Bytes := message.data.take sendBufSize

def Side.writes (side : Side) (messages : List Message) : Bytes :=
  (messages.filter fun message => message.side = side).flatMap Message.accepted

namespace Network

def converse (n : Network) : List Message → Network
  | [] => n
  | message :: rest =>
      let n := n.perform message.side (.writeData message.data)
      (n.transfer message.side message.clock (n.rounds message.side)).converse rest

/-- Both ends are in ESTABLISHED, and each has read all that the other has written. -/
structure Calm (e : Endpoint) (iss : Side → U32) (n : Network) : Prop where
  agreed : ∃ w m, n.Agreed e iss w m
  settled : n.Settled
  established : ∀ side, (n.party side).established = true
  range : ∀ side, (n.party side).conn.InRange
  received : ∀ side, (n.party side).received = (n.party side.other).written
  drained : ∀ side, (n.party side).conn.receivedAvailable = 0

variable {n : Network} {e : Endpoint} {iss : Side → U32} {side : Side}

theorem Calm.accepts (calm : n.Calm e iss) (side : Side) (data : Bytes) :
    ((n.party side).step (.writeData data)).written = (n.party side).written ++ data.take sendBufSize := by
  have empty : (n.party side).conn.sendBuf.ring.len = 0 := calm.settled.empty side
  refine congrArg ((n.party side).written ++ ·) ?_
  change data.take ((n.party side).conn.sendBuf.ring.write data).2 = _
  rw [RingBuffer.write_snd, empty, Nat.sub_zero, ← List.take_take]
  exact List.take_of_length_le (List.length_take_le' _ _)

theorem Calm.quiet (calm : n.Calm e iss) (side : Side) (data : Bytes)
    (short : (n.perform side (.writeData data)).Short) :
    (n.perform side (.writeData data)).Quiet e iss side := by
  have rule : n.Rule Session.Orderly (.call side (.writeData data)) :=
    ⟨rfl, trivial, calm.established side⟩
  have young : (n.perform side (.writeData data)).Young := by
    rw [Young, Side.forall_iff side, perform_self, perform_other]
    exact ⟨.inr (.inr (calm.settled.state side)), .inr (.inr (calm.settled.state side.other))⟩
  have agreed := agreed_step n _ (fun _ _ => calm.agreed) rule short young
  refine ⟨agreed, short, ?_, ?_, ?_, ?_, ?_⟩
  · rw [perform_self]
    exact calm.settled.state side
  · rw [perform_self]
    exact calm.settled.idle side
  · rw [perform_other]
    exact ⟨calm.settled.state side.other, calm.settled.idle side.other⟩
  · rw [perform_other]
    exact calm.drained side.other
  · rw [perform_self]
    exact Session.step_inRange _ _ (calm.range side)

theorem Quiet.empties (quiet : n.Quiet e iss side)
    (full : (n.party side).sent = (n.party side).written.length) :
    (n.party side).conn.sendBuf.len = 0 ∧ (n.party side).conn.retransmitQueue.entries = [] := by
  obtain ⟨w, m, level⟩ := quiet.level
  have outstanding := level.agreed.outstanding side
  obtain ⟨una, -⟩ := outstanding.synced.positions quiet.state
  have begun := level.una
  have last := level.bufNxt
  have fits := outstanding.sends.1.fits
  constructor
  · have acked : (n.party side).acked = (n.party side).written.length := by omega
    unfold Session.acked SendBuffer.base at acked
    change (n.party side).conn.sendBuf.len ≤ _ at fits
    omega
  · have recent := outstanding.recent (by
      rw [show (n.party side).conn.core.state = .established from quiet.state]
      rfl)
    apply List.map_eq_nil_iff.mp
    apply List.eq_nil_iff_forall_not_mem.mpr
    intro segment held
    obtain ⟨i, -, beyond, below⟩ := recent segment held
    omega

theorem Calm.message (calm : n.Calm e iss) (side : Side) (data : Bytes) (clock : Nat → Instant)
    (short : (n.perform side (.writeData data)).Short) :
    let n₁ := n.perform side (.writeData data)
    let n₂ := n₁.transfer side clock (n₁.rounds side)
    n₂.Calm e iss ∧ (n₂.party side).written = (n.party side).written ++ data.take sendBufSize ∧
      (n₂.party side.other).written = (n.party side.other).written := by
  intro n₁ n₂
  have quiet := calm.quiet side data short
  obtain ⟨ends, carried, full⟩ := quiet.ends clock rfl
  obtain ⟨received, -⟩ := quiet.completes clock
  have written := carried.written
  rw [Side.forall_iff side, perform_self, perform_other, calm.accepts] at written
  obtain ⟨here, there⟩ := written
  obtain ⟨empty, queue⟩ := ends.empties (full.trans (congrArg List.length (carried.written side)).symm)
  have kept := carried.recvBuf
  have heard := carried.received
  have sendBuf := carried.sendBuf
  have queue' := carried.queue
  rw [perform_self] at kept heard
  rw [perform_other] at sendBuf queue'
  refine ⟨⟨ends.agreed, ⟨ends.short, ?_, ?_, ?_, ?_⟩, ?_, ?_, ?_, ?_⟩, here, there⟩ <;>
    rw [Side.forall_iff side]
  · exact ⟨ends.state, ends.receptive.state⟩
  · exact ⟨ends.idle, ends.receptive.idle⟩
  · exact ⟨empty, (congrArg SendBuffer.len sendBuf).trans (calm.settled.empty side.other)⟩
  · refine ⟨queue, List.map_eq_nil_iff.mp (queue'.trans ?_)⟩
    exact List.map_eq_nil_iff.mpr (calm.settled.queue side.other)
  · refine ⟨carried.established side ?_, carried.established side.other ?_⟩
    · rw [perform_self]
      exact Bool.or_eq_true_iff.mpr (.inl (calm.established side))
    · rw [perform_other]
      exact calm.established side.other
  · refine ⟨ends.range, carried.range ?_⟩
    rw [perform_other]
    exact calm.range side.other
  · rw [Side.other_other]
    refine ⟨?_, ?_⟩
    · rw [there, heard]
      exact (List.append_nil _).trans (calm.received side)
    · exact received.trans (carried.written side).symm
  · refine ⟨?_, ends.drained⟩
    have drained := calm.drained side
    have same : (n₂.party side).conn.recvBuf = (n.party side).conn.recvBuf := kept
    unfold Connection.receivedAvailable at drained ⊢
    rwa [same]

theorem Calm.converse (calm : n.Calm e iss) (messages : List Message)
    (short : ∀ side, (n.party side).written.length + (side.writes messages).length < 2 ^ 31) :
    (n.converse messages).Calm e iss ∧
      ∀ side, ((n.converse messages).party side).written = (n.party side).written ++ side.writes messages := by
  induction messages generalizing n with
  | nil => exact ⟨calm, fun side => (List.append_nil _).symm⟩
  | cons message rest ih =>
      have writes : ∀ x : Side, x.writes (message :: rest) =
          (if message.side = x then message.accepted else []) ++ x.writes rest := by
        intro x
        unfold Side.writes
        by_cases own : message.side = x <;> simp [own]
      have here := short message.side
      have there := short message.side.other
      rw [writes, if_pos rfl, List.length_append] at here
      rw [writes, if_neg (Side.other_ne _).symm, List.nil_append] at there
      have room : (n.perform message.side (.writeData message.data)).Short := by
        rw [Short, Side.forall_iff message.side, perform_self, perform_other, calm.accepts, List.length_append]
        exact ⟨by change _ + message.accepted.length < _; omega, by omega⟩
      obtain ⟨next, own, other⟩ := calm.message message.side message.data message.clock room
      rw [Network.converse]
      set n' := (n.perform message.side (.writeData message.data)).transfer message.side message.clock
        ((n.perform message.side (.writeData message.data)).rounds message.side)
      obtain ⟨final, total⟩ := ih next (by
        rw [Side.forall_iff message.side, own, other, List.length_append]
        exact ⟨by change _ + message.accepted.length + _ < _; omega, there⟩)
      refine ⟨final, ?_⟩
      rw [Side.forall_iff message.side, total, total, own, other, writes, writes, if_pos rfl,
        if_neg (Side.other_ne _).symm, List.append_assoc]
      exact ⟨rfl, rfl⟩

theorem Agreed.linked {w : Side → Window} {m : Side → Nat} (agreed : n.Agreed e iss w m) : n.Linked e iss := by
  have whole : ∀ side, (w side).stream (n.party side).written ++
      (n.party side).written.drop ((w side).bufNxt - 1) = (n.party side).written :=
    fun side => List.take_append_drop _ _
  refine ⟨agreed.sender, fun side raw member => ?_, fun side => ⟨m side, ?_⟩⟩
  · obtain ⟨seg, parsed, honest⟩ := agreed.sent side raw member
    have from_ := honest.comesFrom.append ((n.party side).written.drop ((w side).bufNxt - 1))
    rw [whole] at from_
    exact ⟨seg, parsed, from_⟩
  · have follows := (agreed.follows side).append
      ((n.party side.other).written.drop ((w side.other).bufNxt - 1))
    rwa [whole] at follows

theorem Session.arrived_nil {s : Session} (none : s.arrived = []) :
    s.received = [] ∧ s.conn.receivedAvailable = 0 := by
  unfold Session.arrived at none
  obtain ⟨received, waiting⟩ := List.append_eq_nil_iff.mp none
  refine ⟨received, ?_⟩
  unfold Connection.receivedAvailable
  cases buffer : s.conn.recvBuf with
  | none => rfl
  | some rb =>
      rw [buffer] at waiting
      exact rb.ring.contents_length.symm.trans (congrArg List.length waiting)

theorem opened_calm (o : Side → Opening) (iss : Side → U32) (e : Endpoint) (opening : List Action)
    (opens : Along Opens (start o iss e) opening)
    (settled : (exec (start o iss e) opening).Settled) :
    (exec (start o iss e) opening).Calm e iss ∧
      ∀ side, ((exec (start o iss e) opening).party side).written = [] := by
  obtain ⟨orderly, rule, twin⟩ := opens_orderly opens
  have same := twin.eq fun side => by rw [settled.state side]; exact TcbState.noConfusion
  have agreed : ∃ w m, (exec (start o iss e) opening).Agreed e iss w m := by
    have orderly := Runs.exec_inv agreed_step (fun _ _ => ⟨_, _, start_agreed o iss e⟩) rule
    rw [← exec, ← same] at orderly
    exact orderly settled.short fun side => .inr (.inr (settled.state side))
  have range : ∀ side, ((exec (start o iss e) orderly).party side).conn.InRange :=
    Runs.exec_inv inRange_step (fun side => Session.start_inRange (o side) _ _) rule
  have noted := twin.noted
  rw [← same] at range noted
  obtain ⟨greeting, -⟩ := greeting_exec (start_greeting o iss e) opens
  have unwritten := fun side => (greeting.party side).unwritten
  have nothing : ∀ side, ((exec (start o iss e) opening).party side).arrived = [] := by
    intro side
    obtain ⟨w, m, agreed⟩ := agreed
    have arrived := (agreed.follows side).arrived
    rw [unwritten side.other, Window.stream, List.take_nil, List.take_nil] at arrived
    exact arrived
  refine ⟨⟨agreed, settled, fun side => noted side (settled.state side), range, fun side => ?_,
      fun side => ?_⟩,
    unwritten⟩
  · rw [unwritten side.other]
    exact (Session.arrived_nil (nothing side)).1
  · exact (Session.arrived_nil (nothing side)).2

theorem Leaves.rule {mark : Side → Nat} {action : Action} {C : Session → Event → Prop}
    (leaves : n.Leaves mark action) (calls : ∀ s event, event.leaves = true → C s event) :
    n.Rule C action := by
  cases action with
  | deliver => trivial
  | call side event =>
      refine ⟨?_, calls _ event leaves⟩
      cases event with
      | processSegment => exact absurd leaves Bool.false_ne_true
      | _ => rfl

theorem Calm.leaves (calm : n.Calm e iss) {mark : Side → Nat} {leaving : List Action}
    (leaves : Along (Leaves mark) n leaving) (side : Side) :
    ((exec n leaving).party side).received = (n.party side).received := by
  obtain ⟨w, m, agreed⟩ := calm.agreed
  have silent : Along (Rule Session.Silent) n leaving := by
    refine Runs.along_mono (fun n action leaves => leaves.rule ?_) leaves
    rintro s event leaving data rfl
    exact absurd leaving Bool.false_ne_true
  have kept := Runs.exec_inv kept_step (.refl n) silent
  have usage : Along (Rule Session.ConnectFirst) n leaving := by
    refine Runs.along_mono (fun n action leaves => leaves.rule fun s event calls => ?_) leaves
    cases event with
    | connect => exact absurd calls Bool.false_ne_true
    | _ => trivial
  have linked := Runs.exec_inv linked_step (fun _ => agreed.linked) usage
  have short : (exec n leaving).Short := fun x => kept.written x ▸ calm.settled.short x
  obtain ⟨_, follows⟩ := (linked short).follows side
  have begins := follows.begins
  rw [kept.written side.other, ← calm.received side] at begins
  exact begins.eq_of_length_le (kept.received side).length_le

/-- A connection over a network that loses nothing: it is opened in any order, both sides talk, it is
closed in any order. Each side has then read all that the other has written, and both are in TIME_WAIT
or in CLOSED. -/
theorem connection_completes (o : Side → Opening) (iss : Side → U32) (e : Endpoint) (opening : List Action)
    (opens : Along Opens (start o iss e) opening) (side : Side) (active : o side = .active)
    (called : ∀ x, o x = .active → .call x .connect ∈ opening)
    (all : (start o iss e).AllDelivered (fun _ => 0) opening) (messages : List Message)
    (short : ∀ x : Side, (x.writes messages).length < 2 ^ 31) (leaving : List Action) :
    let n := (exec (start o iss e) opening).converse messages
    Along (Leaves n.sentCount) n leaving → (∀ x, .call x .initiateClose ∈ leaving) →
    n.AllDelivered n.sentCount leaving →
    ∀ x, ((exec n leaving).party x).received = x.other.writes messages ∧
      (((exec n leaving).party x).conn.tcb.state = .timeWait ∨
        ((exec n leaving).party x).conn.tcb.state = .closed) := by
  intro n leaves closed all' x
  have settled := open_completes o iss e opening opens side active called all
  obtain ⟨opened, unwritten⟩ := opened_calm o iss e opening opens settled
  obtain ⟨calm, written⟩ := opened.converse messages fun x => by
    rw [unwritten, List.length_nil, Nat.zero_add]
    exact short x
  obtain ⟨w, m, agreed⟩ := calm.agreed
  refine ⟨?_, calm.settled.releases agreed leaves closed all' x⟩
  rw [calm.leaves leaves, calm.received, written, unwritten, List.nil_append]

def talk : List Message := [⟨.left, [1#8, 2#8, 3#8], fun _ => 0⟩, ⟨.right, [4#8, 5#8], fun _ => 0⟩]

def farewell : List Action :=
  [.call .left .initiateClose, .deliver .right 0 4, .call .right .initiateClose, .deliver .left 0 5,
    .deliver .left 0 4, .deliver .right 0 5]

theorem connection_completes_talk :
    let n := (exec callers lateCall).converse talk
    Along Opens callers lateCall ∧ Along (Leaves n.sentCount) n farewell ∧
      ∀ x, ((exec n farewell).party x).received = x.other.writes talk ∧
        (((exec n farewell).party x).conn.tcb.state = .timeWait ∨
          ((exec n farewell).party x).conn.tcb.state = .closed) := by
  have opens : Along Opens callers lateCall := by decide +kernel
  have called : ∀ x, .call x .connect ∈ lateCall := by rintro (_ | _) <;> simp [lateCall]
  have all : callers.AllDelivered (fun _ => 0) lateCall := by rintro (_ | _) <;> decide +kernel
  have short : ∀ x : Side, (x.writes talk).length < 2 ^ 31 := by rintro (_ | _) <;> decide +kernel
  have leaves : Along (Leaves ((exec callers lateCall).converse talk).sentCount)
      ((exec callers lateCall).converse talk) farewell := by decide +kernel
  have closed : ∀ x, .call x .initiateClose ∈ farewell := by rintro (_ | _) <;> simp [farewell]
  have all' : ((exec callers lateCall).converse talk).AllDelivered
      ((exec callers lateCall).converse talk).sentCount farewell := by
    rintro (_ | _) <;> decide +kernel
  have done := connection_completes _ _ _ lateCall opens .left rfl (fun x _ => called x) all talk short farewell
  rw [← callers] at done
  exact ⟨opens, leaves, done leaves closed all'⟩

end Network

end MagnumTcp.Tcp
