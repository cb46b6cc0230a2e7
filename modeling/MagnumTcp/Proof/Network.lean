import MagnumTcp.Proof.Receiver
import MagnumTcp.Tcp.Network

namespace MagnumTcp.Tcp

open MagnumTcp.Tcp.Core

structure TcpSegment.ComesFrom (seg : TcpSegment) (iss : U32) (S : Bytes) : Prop where
  syn : seg.header.flags.syn = true → seg.header.seq = iss
  payload : seg.payload ≠ [] → InStream (iss + 1#32) S (seg.header.seq, seg.payload)

theorem TcpSegment.ComesFrom.append {seg : TcpSegment} {iss : U32} {S : Bytes}
    (from_ : seg.ComesFrom iss S) (more : Bytes) : seg.ComesFrom iss (S ++ more) :=
  ⟨from_.syn, fun nonempty => (from_.payload nonempty).append more⟩

theorem Emitted.comesFrom {c c' : Core} {b : SegmentBuilder} {W : Bytes} (emitted : Emitted c c' b)
    (sends : c.Sends W) (iss : c'.iss = c.iss) : b.segment.ComesFrom c.iss W := by
  constructor
  · intro syn
    rw [← iss]
    cases emitted with
    | syn => rfl
    | synAck => rfl
    | _ => exact nomatch syn
  · intro nonempty
    rcases emitted.payload sends with empty | ⟨part, -⟩
    · exact absurd empty nonempty
    · exact part

def Core.Numbered (c : Core) (iss : U32) : Prop := c.recvBuf ≠ none → c.irs = iss

namespace Core.Numbered

variable {c : Core} {iss : U32} {seg : TcpSegment}

theorem acked (numbered : c.Numbered iss) {c' : Core} (acked : c.Acked seg c') : c'.Numbered iss := by
  rcases acked with ⟨-, rfl⟩ | ⟨-, rfl⟩ <;> exact numbered

theorem insert (numbered : c.Numbered iss) : (c.insert seg).Numbered iss := by
  unfold Core.insert
  cases buffer : c.recvBuf with
  | none => exact numbered
  | some rb => exact fun _ => numbered (by simp [buffer])

end Core.Numbered

theorem SegmentStep.numbered {early : Bool} {seg : TcpSegment} {c c' : Core}
    {out : List SegmentBuilder} {iss : U32} (step : SegmentStep early seg c c' out)
    (numbered : c.Numbered iss) (first : seg.header.flags.syn = true → seg.header.seq = iss) :
    c'.Numbered iss := by
  cases step with
  | listenSyn _ _ syn => exact fun _ => first syn
  | synSentAck _ _ syn => exact fun _ => first syn
  | synSentSyn _ _ syn => exact fun _ => first syn
  | quiet _ _ _ acked => exact numbered.acked acked
  | receive _ _ _ _ acked => exact (numbered.acked acked).insert
  | receiveFin _ _ _ _ _ acked => exact (numbered.acked acked).insert
  | finWait1Fin _ _ _ _ acked =>
      have kept := numbered.acked acked
      exact kept
  | _ => exact numbered

theorem CoreStep.numbered {event : Event} {c c' : Core} {out : List SegmentBuilder} {iss : U32}
    (step : CoreStep event c c' out) (numbered : c.Numbered iss)
    (first : ∀ now seg, event = .processSegment now seg →
      seg.header.flags.syn = true → seg.header.seq = iss) : c'.Numbered iss := by
  cases step with
  | segment step => exact step.numbered numbered (first _ _ rfl)
  | read bufLen =>
      intro present
      apply numbered
      rintro missing
      simp [missing] at present
  | _ => exact numbered

namespace Session

structure Follows (s : Session) (iss : U32) (S : Bytes) (m : Nat) : Prop where
  expects : s.conn.core.Expects
  numbered : s.conn.core.Numbered iss
  receives : s.conn.core.Receives S s.received m
  fresh : s.used = false → s.conn.core.recvBuf = none

variable {s : Session} {iss : U32} {S : Bytes} {m : Nat} {event : Event}

theorem start_follows (o : Opening) (own iss : U32) (e : Endpoint) (S : Bytes) :
    (o.session own e).Follows iss S 0 := by
  refine ⟨start_expects o own e, ?_, ?_, ?_⟩
  · cases o <;> exact fun present => absurd rfl present
  · cases o <;> exact ⟨nofun, fun _ => ⟨rfl, rfl⟩, fun _ => ⟨rfl, rfl⟩⟩
  · cases o <;> exact fun _ => rfl

theorem Follows.append (follows : s.Follows iss S m) (more : Bytes) : s.Follows iss (S ++ more) m :=
  ⟨follows.expects, follows.numbered, follows.receives.append more, follows.fresh⟩

theorem Follows.step (follows : s.Follows iss S m) (short : S.length < 2 ^ 31)
    (usage : s.ConnectFirst event)
    (arrives : ∀ now seg, event = .processSegment now seg → seg.ComesFrom iss S) :
    ∃ m', m ≤ m' ∧ (s.step event).Follows iss S m' := by
  obtain ⟨out, step, -⟩ := s.step_core event
  have offered : s.conn.core.Offered S event := by
    cases event with
    | processSegment now seg =>
        intro state nonempty
        obtain ⟨rb, buffer, -⟩ := follows.expects (.inl state)
        rw [follows.numbered (by simp [buffer])]
        exact (arrives now seg rfl).payload nonempty
    | _ => trivial
  have first : event = .connect → s.received = [] ∧ m = 0 := by
    rintro rfl
    exact follows.receives.missing (follows.fresh usage)
  obtain ⟨m', more, receives⟩ := step.receives follows.receives short offered first
  rw [← handedOut_core] at receives
  exact ⟨m', more, step.expects follows.expects,
    step.numbered follows.numbered fun now seg same => (arrives now seg same).syn, receives, nofun⟩

theorem Follows.begins (follows : s.Follows iss S m) : s.received <+: S := by
  cases buffer : s.conn.core.recvBuf with
  | none =>
      rw [(follows.receives.missing buffer).1]
      exact List.nil_prefix
  | some rb =>
      have bytes := (follows.receives.buffer rb buffer).bytes
      exact (List.prefix_append _ _).trans (bytes ▸ List.take_prefix m S)

theorem Sender.emits_stream {e : Endpoint} {own : U32} (sender : s.Sender e own)
    (emits : s.Emits e (TcpSegment.ComesFrom · own s.written)) :
    (s.step event).Emits e (TcpSegment.ComesFrom · own (s.step event).written) := by
  obtain ⟨out, step, -⟩ := s.step_core event
  apply sender.emits emits
  · exact fun seg from_ => from_.append _
  · intro b emitted
    have from_ := emitted.comesFrom sender.sends step.fixed.2
    rw [sender.iss] at from_
    exact from_.append _

end Session

theorem Side.forall_iff {P : Side → Prop} (side : Side) : (∀ x, P x) ↔ P side ∧ P side.other := by
  constructor
  · exact fun all => ⟨all _, all _⟩
  · rintro ⟨here, there⟩ x
    cases side <;> cases x <;> assumption

namespace Network

variable {n : Network} {e : Endpoint} {iss : Side → U32} {side : Side} {event : Event}

theorem step_cases {C : Session → Event → Prop} {action : Action} (rule : n.Rule C action)
    (free : ∀ s now seg, C s (.processSegment now seg)) :
    n.step action = n ∨ ∃ side event, n.step action = n.perform side event ∧
      C (n.party side) event ∧ ∀ now seg, event = .processSegment now seg →
        ∃ raw ∈ (n.party side.other).emitted,
          TcpSegment.parse raw (n.party side.other).conn.tcb.localIp
            (n.party side.other).conn.tcb.remoteIp = .ok seg := by
  cases action with
  | call side event =>
      refine .inr ⟨side, event, rfl, ?_⟩
      refine ⟨rule.2, ?_⟩
      rintro now seg rfl
      exact nomatch rule.1
  | deliver side now k =>
      simp only [step, arrival]
      cases found : (n.party side.other).emitted[k]? with
      | none => exact .inl rfl
      | some raw =>
          rw [Option.bind_some]
          cases parsed : TcpSegment.parse raw (n.party side.other).conn.tcb.localIp
              (n.party side.other).conn.tcb.remoteIp with
          | error _ => exact .inl rfl
          | ok seg =>
              refine .inr ⟨side, .processSegment now seg, rfl, free _ now seg, ?_⟩
              rintro now seg' ⟨⟩
              exact ⟨raw, List.mem_of_getElem? found, parsed⟩

theorem step_deliver_none (now : Instant) {k : Nat} (missing : (n.party side.other).emitted[k]? = none) :
    n.step (.deliver side now k) = n := by simp [step, arrival, missing]

theorem step_deliver (now : Instant) {e : Endpoint} {k : Nat} {raw : Bytes} {seg : TcpSegment}
    (found : (n.party side.other).emitted[k]? = some raw)
    (ends : (n.party side.other).conn.core.ends = e)
    (parse : TcpSegment.parse raw e.localIp e.remoteIp = .ok seg) :
    n.step (.deliver side now k) = n.perform side (.processSegment now seg) := by
  rw [← ends] at parse
  change TcpSegment.parse raw (n.party side.other).conn.tcb.localIp
    (n.party side.other).conn.tcb.remoteIp = .ok seg at parse
  simp only [step, arrival, found, Option.bind_some, parse, Option.elim_some]

theorem Delivered.split {k : Nat} {actions : List Action} (delivered : n.Delivered side k actions) :
    ∃ before now rest, actions = before ++ .deliver side now k :: rest ∧
      k < ((exec n before).party side.other).emitted.length := by
  induction actions generalizing n with
  | nil => exact delivered.elim
  | cons action rest ih =>
      rcases delivered with here | later
      · cases action with
        | call => exact here.elim
        | deliver _ now _ =>
            obtain ⟨rfl, rfl, sent⟩ := here
            exact ⟨[], now, rest, rfl, sent⟩
      · obtain ⟨before, now, rest, rfl, sent⟩ := ih later
        exact ⟨action :: before, now, rest, rfl, sent⟩

structure Linked (e : Endpoint) (iss : Side → U32) (n : Network) : Prop where
  sender : ∀ side, (n.party side).Sender (e.at side) (iss side)
  sent : ∀ side, (n.party side).Emits (e.at side)
    (TcpSegment.ComesFrom · (iss side) (n.party side).written)
  follows : ∀ side, ∃ m, (n.party side).Follows (iss side.other) (n.party side.other).written m

theorem start_linked (o : Side → Opening) (iss : Side → U32) (e : Endpoint) :
    (start o iss e).Linked e iss where
  sender _ := Session.start_sender _ _ _
  sent _ := Session.start_emits _ _ _ _
  follows _ := ⟨0, Session.start_follows _ _ _ _ _⟩

theorem written_perform (n : Network) (side : Side) (event : Event) (x : Side) :
    ∃ more, ((n.perform side event).party x).written = (n.party x).written ++ more := by
  revert x
  rw [Side.forall_iff side, perform_self, perform_other]
  exact ⟨⟨_, rfl⟩, ⟨[], (List.append_nil _).symm⟩⟩

theorem Short.of_perform (short : (n.perform side event).Short) : n.Short := by
  intro x
  obtain ⟨more, grown⟩ := n.written_perform side event x
  have bound := short x
  rw [grown, List.length_append] at bound
  omega

theorem Linked.perform (linked : n.Linked e iss) (short : n.Short)
    (usage : (n.party side).ConnectFirst event)
    (arrives : ∀ now seg, event = .processSegment now seg →
      seg.ComesFrom (iss side.other) (n.party side.other).written) :
    (n.perform side event).Linked e iss := by
  refine ⟨?_, ?_, ?_⟩ <;> rw [Side.forall_iff side]
  · rw [perform_self, perform_other]
    exact ⟨(linked.sender side).step event, linked.sender side.other⟩
  · rw [perform_self, perform_other]
    exact ⟨(linked.sender side).emits_stream (linked.sent side), linked.sent side.other⟩
  · rw [Side.other_other, perform_self, perform_other]
    constructor
    · obtain ⟨m, follows⟩ := linked.follows side
      obtain ⟨m', -, next⟩ := follows.step (short side.other) usage arrives
      exact ⟨m', next⟩
    · obtain ⟨m, follows⟩ := linked.follows side.other
      rw [Side.other_other] at follows
      exact ⟨m, follows.append _⟩

theorem linked_step (n : Network) (action : Action) (linked : n.Short → n.Linked e iss)
    (rule : n.Rule Session.ConnectFirst action) : (n.step action).Short → (n.step action).Linked e iss := by
  rcases step_cases rule (fun _ _ _ => trivial) with same | ⟨side, event, taken, usage, arrives⟩
  · rw [same]
    exact linked
  · rw [taken]
    intro short
    have before := linked short.of_perform
    apply before.perform short.of_perform usage
    intro now seg same
    obtain ⟨raw, member, parsed⟩ := arrives now seg same
    obtain ⟨seg', parsed', from_⟩ := before.sent side.other raw member
    have ends := (before.sender side.other).ends
    rw [← ends] at parsed'
    cases parsed.symm.trans parsed'
    exact from_

def PrefixSafe (n : Network) : Prop :=
  ∀ side, (n.party side).received <+: (n.party side.other).written

/-- However the calls and the deliveries interleave, every end reads a prefix of what the other has
written, as long as the numbers of a stream can be told apart. -/
theorem prefix_safe (o : Side → Opening) (iss : Side → U32) (e : Endpoint) (actions : List Action)
    (rule : Along (Rule Session.ConnectFirst) (start o iss e) actions) :
    Always (fun n => n.Short → n.PrefixSafe) (start o iss e) actions := by
  refine Runs.always_inv linked_step ?_ (fun _ => start_linked o iss e) rule
  intro n linked short side
  obtain ⟨m, follows⟩ := (linked short).follows side
  exact follows.begins

def clientServer : Network :=
  start (fun | .left => .active | .right => .passive) (fun | .left => clientIsn | .right => serverIsn)
    serverEnd.peer

def handshake : List Action :=
  [.call .left .connect, .deliver .right 0 0, .deliver .left 0 0, .deliver .right 0 1]

def reordered : List Action :=
  handshake ++ [.call .left (.writeData [1#8, 2#8, 3#8]), .call .left (.nextSegmentToSend 0 2),
    .call .left (.nextSegmentToSend 0 2), .deliver .right 0 3, .deliver .right 0 2, .deliver .right 0 3,
    .call .right (.readReceived 10)]

theorem prefix_safe_reordered :
    Along (Rule Session.ConnectFirst) clientServer reordered ∧
      ((exec clientServer reordered).party .right).received = [1#8, 2#8, 3#8] ∧
      Always (fun n => n.Short → n.PrefixSafe) clientServer reordered :=
  have rule : Along (Rule Session.ConnectFirst) clientServer reordered := by decide +kernel
  ⟨rule, by decide +kernel, prefix_safe _ _ _ _ rule⟩

end Network

end MagnumTcp.Tcp
