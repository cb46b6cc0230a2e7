import MagnumTcp.Proof.Agreement
import MagnumTcp.Proof.Karn
import MagnumTcp.Proof.Queue

namespace MagnumTcp.Tcp

open MagnumTcp.Tcp.Core

/-! ## The receiving end -/

namespace RecvBuffer

variable {S received : Bytes} {first : U32} {m i : Nat} {rb : RecvBuffer} {data : Bytes}

theorem Reassembles.insert_reaches (short : S.length < 2 ^ 31)
    (inv : rb.Reassembles S first received m) (slice : SliceAt S i data) (start : i ≤ m) :
    ∃ m', min (i + data.length) (received.length + recvBufSize) ≤ m' ∧
      (rb.insert (first + BitVec.ofNat 32 i) data).Reassembles S first received m' := by
  have inside := inv.inside
  have committed := inv.committed
  unfold RecvBuffer.insert
  rw [inv.trimmed short slice]
  split_ifs with empty old covered
  · rw [List.isEmpty_iff.mp empty, List.length_nil]
    exact ⟨m, by omega, inv⟩
  · exact ⟨m, by omega, inv⟩
  · have rest := slice.drop (show m - i ≤ data.length by omega)
    rw [Nat.add_sub_cancel' old.le] at rest
    dsimp only
    rw [if_pos inv.nxt.symm]
    obtain ⟨m', more, final⟩ := inv.commit_drainOoo short rest
    rw [room, List.length_drop] at more
    exact ⟨m', by omega, final⟩
  · have here : i = m := by omega
    subst here
    dsimp only
    rw [if_pos inv.nxt.symm]
    obtain ⟨m', more, final⟩ := inv.commit_drainOoo short slice
    rw [room] at more
    exact ⟨m', by omega, final⟩

end RecvBuffer

structure TcpSegment.Plain (seg : TcpSegment) : Prop where
  syn : seg.header.flags.syn = false
  fin : seg.header.flags.fin = false
  rst : seg.header.flags.rst = false
  payload : seg.payload ≠ []

/-- In ESTABLISHED with nothing of its own outstanding, so that no segment counts as a duplicate ACK. -/
structure Connection.Receptive (c : Connection) : Prop where
  state : c.tcb.state = .established
  idle : c.tcb.snd.una = c.tcb.snd.nxt

theorem Core.insert_nxt (c : Core) (seg : TcpSegment) : (c.insert seg).nxt = c.nxt := by
  unfold Core.insert
  cases c.recvBuf <;> rfl

theorem Core.insert_sends (c : Core) (seg : TcpSegment) :
    (c.insert seg).sendBuf = c.sendBuf ∧ (c.insert seg).queue = c.queue := by
  unfold Core.insert
  cases c.recvBuf <;> exact ⟨rfl, rfl⟩

namespace Connection.Receptive

variable {c : Connection} {seg : TcpSegment}

theorem establishedAck (receptive : c.Receptive) (now : Instant) :
    c.establishedAck now seg = (c, none) := by
  have duplicate : c.isDupAck seg = false := by simp [isDupAck, receptive.idle]
  have acceptable : c.acceptable seg = false := by
    rw [Bool.eq_false_iff, ne_eq, Connection.acceptable, receptive.idle,
      ackAcceptable_iff_distance (by rw [BitVec.sub_self]; decide), BitVec.sub_self]
    exact fun between => Nat.not_lt_zero _ (between.1.trans_le between.2)
  simp [Connection.establishedAck, duplicate, acceptable]

theorem processSegment (receptive : c.Receptive) (now : Instant) (plain : seg.Plain) :
    c.processSegment now seg = (c.insertPayload seg, some (c.insertPayload seg).buildAck) := by
  have some : seg.payload.isEmpty = false := by
    rw [Bool.eq_false_iff, ne_eq, List.isEmpty_iff]
    exact plain.payload
  rw [processSegment_established receptive.state, handleEstablished, plain.rst,
    if_neg Bool.false_ne_true, receptive.establishedAck now]
  simp [establishedReceive, some, plain.fin]

theorem insert (receptive : c.Receptive) (now : Instant) (plain : seg.Plain) :
    (c.processSegment now seg).1.core = c.core.insert seg := by
  rw [receptive.processSegment now plain]
  exact insertPayload_core c seg

theorem process (receptive : c.Receptive) (now : Instant) (plain : seg.Plain) :
    (c.processSegment now seg).1.Receptive := by
  have core := receptive.insert now plain
  constructor
  · exact (congrArg Core.state core).trans ((c.core.insert_state seg).trans receptive.state)
  · have una := (congrArg Core.una core).trans (c.core.insert_una seg)
    have nxt := (congrArg Core.nxt core).trans (c.core.insert_nxt seg)
    exact una.trans (receptive.idle.trans nxt.symm)

end Connection.Receptive

namespace Session

variable {s : Session} {iss : U32} {S : Bytes} {m i : Nat} {seg : TcpSegment}

theorem Follows.reaches (follows : s.Follows iss S m) (short : S.length < 2 ^ 31)
    (receptive : s.conn.Receptive) (now : Instant) (plain : seg.Plain)
    (seq : seg.header.seq = iss + 1#32 + BitVec.ofNat 32 i) (slice : SliceAt S i seg.payload)
    (reached : min i (s.received.length + recvBufSize) ≤ m) :
    ∃ m', min (i + seg.payload.length) (s.received.length + recvBufSize) ≤ m' ∧
      (s.step (.processSegment now seg)).Follows iss S m' := by
  have from_ : seg.ComesFrom iss S := by
    refine ⟨fun syn => ?_, fun _ => ⟨i, seq, slice⟩⟩
    rw [plain.syn] at syn
    exact absurd syn Bool.false_ne_true
  have usage : s.ConnectFirst (.processSegment now seg) := trivial
  obtain ⟨m', more, next⟩ := follows.step short usage (by
    rintro _ _ ⟨⟩
    exact from_)
  refine ⟨m', ?_, next⟩
  by_cases start : i ≤ m
  · obtain ⟨rb, buffer, -⟩ := follows.expects (.inl receptive.state)
    have irs := follows.numbered (by simp [buffer])
    have inv := follows.receives.buffer rb buffer
    rw [irs] at inv
    have core := receptive.insert now plain
    have after : (s.step (.processSegment now seg)).conn.core = s.conn.core.insert seg := core
    have inserted : (s.conn.core.insert seg).recvBuf = some (rb.insert seg.header.seq seg.payload) ∧
        (s.conn.core.insert seg).irs = iss := by
      unfold Core.insert
      rw [buffer]
      exact ⟨rfl, irs⟩
    have received : (s.step (.processSegment now seg)).received = s.received := List.append_nil _
    have inv' := next.receives.buffer _ (after ▸ inserted.1)
    rw [after, inserted.2, received, seq] at inv'
    obtain ⟨m'', reaches, inv''⟩ := inv.insert_reaches short slice start
    rwa [inv'.unique short inv'' rfl] at reaches
  · omega

def arrived (s : Session) : Bytes := s.received ++ s.conn.recvBuf.elim [] fun rb => rb.ring.contents

theorem Follows.arrived (follows : s.Follows iss S m) : s.arrived = S.take m := by
  unfold Session.arrived
  cases buffer : s.conn.recvBuf with
  | none =>
      obtain ⟨nothing, zero⟩ := follows.receives.missing buffer
      simp [nothing, zero]
  | some rb => exact (follows.receives.buffer rb buffer).bytes

def arrivals (times : Nat → Instant) : Nat → List TcpSegment → List Event
  | _, [] => []
  | k, seg :: rest => .processSegment (times k) seg :: arrivals times (k + 1) rest

/-- From `s` to `t` the segments `queue`, which end at the position `hi`, have arrived. -/
structure CaughtUp (s t : Session) (iss : U32) (S : Bytes) (queue : List (U32 × Bytes)) (hi : Nat) :
    Prop where
  receptive : t.conn.Receptive
  ends : t.conn.core.ends = s.conn.core.ends
  received : t.received = s.received
  follows : ∃ m, min (hi - 1) (s.received.length + recvBufSize) ≤ m ∧ t.Follows iss S m
  answers : t.emitted.length = s.emitted.length + queue.length
  last : queue ≠ [] → t.emitted.getLast? = some t.conn.buildAck

end Session

namespace Tiles

variable {iss : U32} {W : Bytes} {lo hi n m : Nat} {queue : List (U32 × Bytes)}

theorem within (tiles : Tiles iss W lo queue hi) (bound : hi - 1 ≤ n) (start : 1 ≤ lo) :
    Tiles iss (W.take n) lo queue hi := by
  induction queue generalizing lo with
  | nil => exact tiles
  | cons first rest ih =>
      obtain ⟨⟨seq, nonempty, slice⟩, tail⟩ := tiles
      have ends := tail.le
      exact ⟨⟨seq, nonempty, slice.within (by omega)⟩, ih tail (by omega)⟩

theorem arrive (tiles : Tiles iss W lo queue hi) (short : W.length < 2 ^ 31) (start : 1 ≤ lo)
    (c : Core) (v : U16) (times : Nat → Instant) (k : Nat) {s : Session} (follows : s.Follows iss W m)
    (receptive : s.conn.Receptive) (reached : min (lo - 1) (s.received.length + recvBufSize) ≤ m) :
    s.CaughtUp (Session.exec s
      (Session.arrivals times k (queue.map fun segment => (c.data v segment).segment))) iss W queue hi := by
  induction queue generalizing lo k s m with
  | nil =>
      have same : lo = hi := tiles
      subst same
      exact ⟨receptive, rfl, rfl, ⟨m, reached, follows⟩, rfl, fun some => absurd rfl some⟩
  | cons first rest ih =>
      obtain ⟨⟨seq, nonempty, slice⟩, tail⟩ := tiles
      have plain : (c.data v first).segment.Plain := ⟨rfl, rfl, rfl, nonempty⟩
      have number : (c.data v first).segment.header.seq = iss + 1#32 + BitVec.ofNat 32 (lo - 1) := by
        rw [Serial.add_ofNat_ofNat, Nat.add_sub_cancel' start]
        exact seq
      obtain ⟨m', reached', follows'⟩ :=
        follows.reaches short receptive (times k) plain number slice reached
      have core := receptive.insert (times k) plain
      have answer := receptive.processSegment (times k) plain
      have receptive' := receptive.process (times k) plain
      have received : (s.step (.processSegment (times k) (c.data v first).segment)).received =
          s.received := List.append_nil _
      have emitted : (s.step (.processSegment (times k) (c.data v first).segment)).emitted =
          s.emitted ++
            [(s.step (.processSegment (times k) (c.data v first).segment)).conn.buildAck] := by
        simp [Session.step, Session.output, Session.call, answer]
      have caught := ih tail (by omega) (k + 1) follows' receptive' (by
        rw [received, Nat.sub_add_comm start]
        exact reached')
      rw [List.map_cons, Session.arrivals, Session.exec, Runs.exec_cons]
      refine ⟨caught.receptive, ?_, caught.received.trans received, ?_, ?_, fun _ => ?_⟩
      · exact caught.ends.trans ((congrArg Core.ends core).trans (s.conn.core.insert_fixed _).1)
      · rw [← received]
        exact caught.follows
      · refine caught.answers.trans ?_
        rw [emitted, List.length_append, List.length_singleton, List.length_cons]
        omega
      · cases rest with
        | nil =>
            change (s.step _).emitted.getLast? = some (s.step _).conn.buildAck
            rw [emitted, List.getLast?_concat]
        | cons second rest => exact caught.last (List.cons_ne_nil second rest)

end Tiles

/-! ## The sending end -/

namespace Connection

def Expired (c : Connection) (now : Instant) : Prop :=
  ∀ entry ∈ c.retransmitQueue.entries, c.retransmitQueue.expired now entry = true

instance (c : Connection) (now : Instant) : Decidable (c.Expired now) :=
  inferInstanceAs (Decidable (∀ entry ∈ c.retransmitQueue.entries, _))

variable {c : Connection} {now : Instant}

theorem takeRetransmits_same (c : Connection) (now : Instant) :
    (c.takeRetransmits now).1.core = c.core := by
  obtain ⟨out, step, -⟩ := c.takeRetransmits_core now
  generalize (c.takeRetransmits now).1.core = c' at step
  cases step
  rfl

theorem Expired.takeRetransmits (expired : c.Expired now) :
    (c.takeRetransmits now).2 = c.core.queue.map fun segment =>
      (c.core.data c.currentWindow segment).build := by
  rw [takeRetransmits_resends, List.filter_eq_self.mpr expired, core, List.map_map]
  rfl

structure AcksAll (c : Connection) (seg : TcpSegment) : Prop where
  flags : seg.header.flags = { ack := true }
  payload : seg.payload = []
  number : seg.header.ackNum = c.tcb.snd.nxt
  outstanding : c.tcb.snd.una ≠ c.tcb.snd.nxt

theorem AcksAll.process {seg : TcpSegment} (acks : c.AcksAll seg) (state : c.core.state = .established)
    (acceptable : c.core.Acceptable seg) (later : Instant) :
    (c.processSegment later seg).1.core = c.core.acknowledge seg := by
  obtain ⟨out, step, -⟩ := c.processSegment_core later seg
  have late : c.fastRetransmits seg = false := by
    simp [fastRetransmits, isDupAck, acks.number, acks.outstanding.symm]
  generalize (c.processSegment later seg).1.core = c' at step
  have flags := acks.flags
  have payload := acks.payload
  rw [late] at step
  cases step with
  | quiet _ _ _ acked =>
      rcases acked with ⟨bad, -⟩ | ⟨-, rfl⟩
      · exact absurd acceptable bad
      · rfl
  | ignore idle => exact absurd state idle.established
  | refuse opening => simp [state] at opening
  | _ => simp_all

end Connection

namespace Session

variable {s : Session} {e : Endpoint} {iss : U32}

theorem Sender.parse_data (sender : s.Sender e iss) (v : U16) {segment : U32 × Bytes}
    (held : segment ∈ s.conn.core.queue) :
    TcpSegment.parse (s.conn.core.data v segment).build e.localIp e.remoteIp =
      .ok (s.conn.core.data v segment).segment := by
  have emitted : Emitted s.conn.core s.conn.core (s.conn.core.data v segment) :=
    .data segment true v (.inl held)
  rw [← sender.ends]
  exact emitted.parse sender.sends

end Session

/-! ## Both ends -/

namespace Network

variable {n : Network} {side : Side} {e : Endpoint} {iss : Side → U32}

def deliveries (side : Side) (times : Nat → Instant) : Nat → Nat → List Action
  | _, 0 => []
  | k, count + 1 => .deliver side (times k) k :: deliveries side times (k + 1) count

theorem exec_deliveries (n : Network) (side : Side) (times : Nat → Instant) (before : List Bytes)
    {e : Endpoint} {raws : List Bytes} {segs : List TcpSegment}
    (parses : List.Forall₂ (fun raw seg => TcpSegment.parse raw e.localIp e.remoteIp = .ok seg) raws segs)
    (emitted : (n.party side.other).emitted = before ++ raws)
    (ends : (n.party side.other).conn.core.ends = e) :
    (exec n (deliveries side times before.length raws.length)).party side =
        Session.exec (n.party side) (Session.arrivals times before.length segs) ∧
      (exec n (deliveries side times before.length raws.length)).party side.other =
        n.party side.other := by
  induction parses generalizing n before with
  | nil => exact ⟨rfl, rfl⟩
  | @cons raw seg raws segs parse rest ih =>
      have found : (n.party side.other).emitted[before.length]? = some raw := by
        rw [emitted, List.getElem?_append_right (Nat.le_refl _), Nat.sub_self]
        rfl
      have arrives := step_deliver (times before.length) found ends parse
      have other := perform_other n side (.processSegment (times before.length) seg)
      have later := ih (n.perform side (.processSegment (times before.length) seg)) (before ++ [raw])
        (by rw [other, emitted, List.append_assoc]; rfl) (by rw [other]; exact ends)
      rw [List.length_append, List.length_singleton, perform_self, other] at later
      rw [List.length_cons, deliveries, exec, Runs.exec_cons, arrives]
      exact later

def retransmitRound (n : Network) (side : Side) (now : Instant) (times : Nat → Instant) : List Action :=
  .call side (.takeRetransmits now) ::
    deliveries side.other times (n.party side).emitted.length
      (n.party side).conn.retransmitQueue.entries.length

/-- Both ends are in ESTABLISHED, the other side has nothing outstanding, and all of the queue that tiles
what this side has outstanding has expired. -/
structure Due (e : Endpoint) (iss : Side → U32) (w : Side → Window) (m : Side → Nat) (side : Side)
    (now : Instant) (n : Network) : Prop where
  agreed : n.Agreed e iss w m
  short : n.Short
  queued : (n.party side).Queued (w side)
  state : (n.party side).conn.core.state = .established
  receptive : (n.party side.other).conn.Receptive
  expired : (n.party side).conn.Expired now

namespace Due

variable {w : Side → Window} {m : Side → Nat} {now : Instant}

theorem positions (due : n.Due e iss w m side now) : (w side).una = (n.party side).acked + 1 ∧
    (w side).nxt = (n.party side).sent + 1 ∧ (w side).bufNxt = (n.party side).sent + 1 ∧
    (n.party side).sent ≤ (n.party side).written.length := by
  have synced := (due.agreed.outstanding side).synced
  obtain ⟨una, -, nxt, bufNxt⟩ := synced.positions due.state
  have inside := synced.windowed.counts.bufNxt_le
  exact ⟨una, nxt, bufNxt, by omega⟩

theorem caughtUp (due : n.Due e iss w m side now) (times : Nat → Instant) :
    (n.party side.other).CaughtUp ((exec n (n.retransmitRound side now times)).party side.other)
        (iss side) ((n.party side).written.take (n.party side).sent) (n.party side).conn.core.queue
        ((n.party side).sent + 1) ∧
      ((exec n (n.retransmitRound side now times)).party side).conn.core = (n.party side).conn.core := by
  obtain ⟨una, -, bufNxt, inside⟩ := due.positions
  obtain ⟨lo, start, before, tiles, -⟩ := due.queued.tiled due.state
  have follows := due.agreed.follows side.other
  have acked := due.agreed.acked side
  have sender := due.agreed.sender side
  rw [Side.other_other, Window.stream, bufNxt, Nat.add_sub_cancel] at follows
  rw [bufNxt] at tiles
  have shorter : ((n.party side).written.take (n.party side).sent).length < 2 ^ 31 := by
    have := due.short side
    rw [List.length_take]
    omega
  have parts := tiles.within (Nat.le_refl _) start
  rw [sender.iss] at parts
  set sent := n.perform side (.takeRetransmits now) with performed
  have self : sent.party side = (n.party side).step (.takeRetransmits now) := perform_self ..
  have other : sent.party side.other = n.party side.other := perform_other ..
  have same : (sent.party side).conn.core = (n.party side).conn.core := by
    rw [self]
    exact Connection.takeRetransmits_same _ now
  have emitted : (sent.party side).emitted = (n.party side).emitted ++
      (n.party side).conn.core.queue.map fun segment =>
        ((n.party side).conn.core.data (n.party side).conn.currentWindow segment).build := by
    rw [self, ← due.expired.takeRetransmits]
    rfl
  have ends : (sent.party side).conn.core.ends = e.at side := (congrArg Core.ends same).trans sender.ends
  have parses : List.Forall₂ (fun raw seg =>
      TcpSegment.parse raw (e.at side).localIp (e.at side).remoteIp = .ok seg)
      ((n.party side).conn.core.queue.map fun segment =>
        ((n.party side).conn.core.data (n.party side).conn.currentWindow segment).build)
      ((n.party side).conn.core.queue.map fun segment =>
        ((n.party side).conn.core.data (n.party side).conn.currentWindow segment).segment) := by
    rw [List.forall₂_map_left_iff, List.forall₂_map_right_iff, List.forall₂_same]
    exact fun segment held => sender.parse_data _ held
  have delivered := exec_deliveries sent side.other times (n.party side).emitted parses
  rw [Side.other_other, List.length_map] at delivered
  obtain ⟨there, here⟩ := delivered emitted ends
  have count : (n.party side).conn.retransmitQueue.entries.length =
      (n.party side).conn.core.queue.length := (List.length_map _).symm
  rw [retransmitRound, exec, Runs.exec_cons, count]
  change (n.party side.other).CaughtUp ((exec sent _).party side.other) _ _ _ _ ∧
    ((exec sent _).party side).conn.core = _
  rw [there, here, other]
  exact ⟨parts.arrive shorter start _ _ times _ follows due.receptive (by omega), same⟩

end Due

end Network

namespace Session.CaughtUp

variable {s t : Session} {iss : U32} {W : Bytes} {queue : List (U32 × Bytes)} {sent : Nat}

theorem arrived (caught : s.CaughtUp t iss (W.take sent) queue (sent + 1)) (inside : sent ≤ W.length) :
    t.arrived = W.take (min sent (s.received.length + recvBufSize)) := by
  obtain ⟨m, reached, follows⟩ := caught.follows
  have bytes := follows.arrived
  have le := follows.le
  obtain ⟨rb, buffer, -⟩ := follows.expects (.inl caught.receptive.state)
  have committed := (follows.receives.buffer rb buffer).committed
  have full := rb.ring.len_le
  rw [caught.received, show rb.len = rb.ring.len from rfl] at committed
  rw [List.length_take] at le
  rw [bytes, List.take_take]
  congr 1
  omega

theorem acked (caught : s.CaughtUp t iss (W.take sent) queue (sent + 1)) (inside : sent ≤ W.length)
    (room : sent ≤ s.received.length + recvBufSize) :
    t.conn.core.rcvNxt = iss + BitVec.ofNat 32 (sent + 1) := by
  obtain ⟨m, reached, follows⟩ := caught.follows
  have le := follows.le
  rw [List.length_take] at le
  rw [(follows.rcvNxt (.inl caught.receptive.state)).2, show m = sent by omega]

end Session.CaughtUp

namespace Tiles

theorem acknowledge_end {c : Core} {W : Bytes} {lo hi : Nat} {seg : TcpSegment}
    (tiles : Tiles c.iss W lo c.queue hi) (close : hi < lo + 2 ^ 31)
    (number : seg.header.ackNum = c.iss + BitVec.ofNat 32 hi) : (c.acknowledge seg).queue = [] := by
  apply List.filter_eq_nil_iff.mpr
  intro segment member
  obtain ⟨i, seq, after, before⟩ := tiles.ends segment member
  have gone := fullyAcked_iff (x := hi) seq (by omega) (by omega)
  rw [number]
  simpa using gone.mpr before

end Tiles

/-! ## Runs -/

namespace Session

/-- Orderly use in which every segment that is sent finds room in the queue, and nothing is probed. -/
def KeepsSent (s : Session) (event : Event) : Prop := s.Orderly event ∧ s.QueueRoom event ∧ s.NoProbe event

instance (s : Session) (event : Event) : Decidable (s.KeepsSent event) :=
  inferInstanceAs (Decidable (_ ∧ _ ∧ _))

end Session

namespace Network

variable {n : Network} {side : Side}

theorem queued_step (n : Network) (action : Action) (queued : ∀ side, ∃ w, (n.party side).Queued w)
    (rule : n.Rule Session.KeepsSent action) : ∀ side, ∃ w, ((n.step action).party side).Queued w := by
  rcases step_cases rule (fun _ _ _ => ⟨⟨trivial, trivial⟩, trivial, trivial⟩) with
    same | ⟨side, event, taken, usage, -⟩
  · rw [same]
    exact queued
  · rw [taken, Side.forall_iff side, perform_self, perform_other]
    exact ⟨Session.queued_step _ event (queued side) usage.1 usage.2.2 usage.2.1, queued side.other⟩

theorem Rule.orderly {action : Action} (rule : n.Rule Session.KeepsSent action) :
    n.Rule Session.Orderly action := by
  cases action with
  | call side event => exact ⟨rule.1, rule.2.1⟩
  | deliver => trivial

namespace Due

variable {e : Endpoint} {iss : Side → U32} {w : Side → Window} {m : Side → Nat} {now : Instant}

theorem awaits (due : n.Due e iss w m side now)
    (outstanding : (n.party side).conn.tcb.snd.una ≠ (n.party side).conn.tcb.snd.nxt) :
    (n.party side).acked < (n.party side).sent ∧ (n.party side).conn.core.queue ≠ [] := by
  obtain ⟨una, nxt, bufNxt, -⟩ := due.positions
  have counts := due.queued.synced.windowed.counts
  have ordered := counts.ordered
  have some : (n.party side).acked < (n.party side).sent := by
    apply Nat.lt_of_le_of_ne (by omega)
    intro equal
    apply outstanding
    have number : (n.party side).conn.tcb.snd.una = _ := counts.una
    rw [number, una, equal, ← nxt]
    exact counts.nxt.symm
  refine ⟨some, fun none => ?_⟩
  obtain ⟨lo, -, before, tiles, -⟩ := due.queued.tiled due.state
  rw [none] at tiles
  have : lo = (w side).bufNxt := tiles
  omega

theorem acknowledged (due : n.Due e iss w m side now) (times : Nat → Instant) (later : Instant)
    (outstanding : (n.party side).conn.tcb.snd.una ≠ (n.party side).conn.tcb.snd.nxt)
    (room : (n.party side).sent ≤ (n.party side.other).received.length + recvBufSize) {n' : Network}
    (round : exec n (n.retransmitRound side now times) = n') :
    ∃ answer : TcpSegment,
      answer.header.ackNum = (n.party side).conn.core.iss + BitVec.ofNat 32 (w side).bufNxt ∧
      answer.header.ackNum = (n.party side).conn.tcb.snd.nxt ∧
      n'.step (.deliver side later ((n'.party side.other).emitted.length - 1)) =
        n'.perform side (.processSegment later answer) ∧
      ((n'.party side).step (.processSegment later answer)).conn.core =
        (n.party side).conn.core.acknowledge answer := by
  obtain ⟨caught, same⟩ := due.caughtUp times
  rw [round] at caught same
  obtain ⟨una, nxt, bufNxt, inside⟩ := due.positions
  obtain ⟨awaited, some⟩ := due.awaits outstanding
  have counts := due.queued.synced.windowed.counts
  have answer := caught.last some
  rw [List.getLast?_eq_getElem?] at answer
  set v := (n'.party side.other).conn.currentWindow
  have parse := TcpSegment.parse_build ((n'.party side.other).conn.core.ack v) (Nat.zero_le _)
  have number := caught.acked inside room
  have iss' := (due.agreed.sender side).iss
  rw [← iss', ← bufNxt] at number
  have next : (n.party side).conn.tcb.snd.nxt = (n'.party side.other).conn.core.rcvNxt := by
    rw [number, bufNxt, ← nxt]
    exact counts.nxt
  have acks : (n'.party side).conn.AcksAll ((n'.party side.other).conn.core.ack v).segment := by
    refine ⟨rfl, rfl, ?_, ?_⟩
    · exact next.symm.trans (congrArg Core.nxt same).symm
    · rw [show (n'.party side).conn.tcb.snd.una = _ from congrArg Core.una same,
        show (n'.party side).conn.tcb.snd.nxt = _ from congrArg Core.nxt same]
      exact outstanding
  have acceptable : (n'.party side).conn.core.Acceptable
      ((n'.party side.other).conn.core.ack v).segment := by
    rw [same, counts.acceptable]
    exact ⟨rfl, (w side).bufNxt, number, by omega, by omega⟩
  have core := acks.process (by rw [same]; exact due.state) acceptable later
  rw [same] at core
  exact ⟨_, number, next.symm, step_deliver later answer rfl parse, core⟩

theorem emptied (due : n.Due e iss w m side now) (times : Nat → Instant) (later : Instant)
    (outstanding : (n.party side).conn.tcb.snd.una ≠ (n.party side).conn.tcb.snd.nxt)
    (room : (n.party side).sent ≤ (n.party side.other).received.length + recvBufSize) {n' : Network}
    (round : exec n (n.retransmitRound side now times) = n') :
    let last := (n'.party side.other).emitted.length - 1
    ((n'.step (.deliver side later last)).party side).conn.tcb.snd.una =
        (n.party side).conn.tcb.snd.nxt ∧
      ((n'.step (.deliver side later last)).party side).conn.retransmitQueue.entries = [] := by
  intro last
  obtain ⟨answer, number, next, arrives, core⟩ := due.acknowledged times later outstanding room round
  rw [arrives, perform_self]
  obtain ⟨lo, start, before, tiles, -⟩ := due.queued.tiled due.state
  have close : (w side).bufNxt < lo + 2 ^ 31 := by
    obtain ⟨-, -, bufNxt, inside⟩ := due.positions
    have := due.short side
    omega
  refine ⟨(congrArg Core.una core).trans next, ?_⟩
  have queue := (congrArg Core.queue core).trans (tiles.acknowledge_end close number)
  exact List.map_eq_nil_iff.mp queue

end Due

theorem due_exec (o : Side → Opening) (iss : Side → U32) (e : Endpoint) (actions : List Action)
    (rule : Along (Rule Session.KeepsSent) (start o iss e) actions) (side : Side) (now : Instant) :
    let n := exec (start o iss e) actions
    n.Short → (∀ x, (n.party x).conn.tcb.state = .established) →
    (n.party side.other).conn.tcb.snd.una = (n.party side.other).conn.tcb.snd.nxt →
    (n.party side).conn.Expired now → ∃ w m, n.Due e iss w m side now := by
  intro n short state idle expired
  have orderly := Runs.along_mono (fun _ _ => Rule.orderly) rule
  obtain ⟨w, m, agreed⟩ := Runs.exec_inv agreed_step (fun _ _ => ⟨_, _, start_agreed o iss e⟩) orderly
    short fun side => .inr (.inr (state side))
  obtain ⟨v, queued⟩ := Runs.exec_inv queued_step
    (fun side => ⟨.fresh, Session.start_queued _ _ _⟩) rule side
  rw [(agreed.outstanding side).synced.windowed.counts.unique queued.synced.windowed.counts] at queued
  exact ⟨w, m, agreed, short, queued, state side, ⟨state side.other, idle⟩, expired⟩

/-- When all of the queue has expired, one round of retransmissions that arrive in order brings the other
side, which awaits no acknowledgement, to everything that was ever sent, as far as its buffer
holds it. If it holds all of it, its last acknowledgement empties the queue. -/
theorem round_repairs (o : Side → Opening) (iss : Side → U32) (e : Endpoint) (actions : List Action)
    (rule : Along (Rule Session.KeepsSent) (start o iss e) actions) (side : Side) (now later : Instant)
    (times : Nat → Instant) :
    let n := exec (start o iss e) actions
    n.Short → (∀ x, (n.party x).conn.tcb.state = .established) →
    (n.party side.other).conn.tcb.snd.una = (n.party side.other).conn.tcb.snd.nxt →
    (n.party side).conn.Expired now →
    let n' := exec n (n.retransmitRound side now times)
    let last := (n'.party side.other).emitted.length - 1
    (n'.party side.other).arrived = (n.party side).written.take
        (min (n.party side).sent ((n.party side.other).received.length + recvBufSize)) ∧
      ((n.party side).conn.tcb.snd.una ≠ (n.party side).conn.tcb.snd.nxt →
        (n.party side).sent ≤ (n.party side.other).received.length + recvBufSize →
        ((n'.step (.deliver side later last)).party side).conn.tcb.snd.una =
            (n.party side).conn.tcb.snd.nxt ∧
          ((n'.step (.deliver side later last)).party side).conn.retransmitQueue.entries = []) := by
  intro n short state idle expired n' last
  obtain ⟨w, m, due⟩ := due_exec o iss e actions rule side now short state idle expired
  exact ⟨(due.caughtUp times).1.arrived due.positions.2.2.2,
    fun outstanding room => due.emptied times later outstanding room rfl⟩

def bothLost : List Action :=
  handshake ++ [.call .left (.writeData [1#8, 2#8, 3#8]), .call .left (.nextSegmentToSend 0 2),
    .call .left (.nextSegmentToSend 0 2)]

theorem round_repairs_bothLost :
    let n := exec clientServer bothLost
    let n' := exec n (n.retransmitRound .left initialRto fun _ => 0)
    let last := (n'.party Side.left.other).emitted.length - 1
    Along (Rule Session.KeepsSent) clientServer bothLost ∧
      (n'.party Side.left.other).arrived = (n.party .left).written.take
        (min (n.party .left).sent ((n.party Side.left.other).received.length + recvBufSize)) ∧
      ((n'.step (.deliver .left 0 last)).party .left).conn.tcb.snd.una =
        (n.party .left).conn.tcb.snd.nxt ∧
      ((n'.step (.deliver .left 0 last)).party .left).conn.retransmitQueue.entries = [] := by
  have rule : Along (Rule Session.KeepsSent) clientServer bothLost := by decide +kernel
  have short : (exec clientServer bothLost).Short := by rintro (_ | _) <;> decide +kernel
  have state : ∀ x, ((exec clientServer bothLost).party x).conn.tcb.state = .established := by
    rintro (_ | _) <;> decide +kernel
  have idle : ((exec clientServer bothLost).party Side.left.other).conn.tcb.snd.una =
      ((exec clientServer bothLost).party Side.left.other).conn.tcb.snd.nxt := by decide +kernel
  have expired : ((exec clientServer bothLost).party .left).conn.Expired initialRto := by decide +kernel
  have outstanding : ((exec clientServer bothLost).party .left).conn.tcb.snd.una ≠
      ((exec clientServer bothLost).party .left).conn.tcb.snd.nxt := by decide +kernel
  have room : ((exec clientServer bothLost).party .left).sent ≤
      ((exec clientServer bothLost).party Side.left.other).received.length + recvBufSize := by
    decide +kernel
  have repaired :=
    round_repairs _ _ _ bothLost rule .left initialRto 0 (fun _ => 0) short state idle expired
  exact ⟨rule, repaired.1, repaired.2 outstanding room⟩

end Network

end MagnumTcp.Tcp
