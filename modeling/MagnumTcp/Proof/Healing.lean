import MagnumTcp.Proof.Transfer

namespace MagnumTcp.Tcp

open MagnumTcp.Tcp.Core

namespace Network

variable {n : Network} {side : Side} {e : Endpoint} {iss : Side → U32} {w : Side → Window} {m : Side → Nat}
  {now : Instant}

/-- The other side reads; what is outstanding is sent again and arrives, is read, and the last answer
comes back. -/
def heal (n : Network) (side : Side) (now later : Instant) (times : Nat → Instant) : List Action :=
  .call side.other (.readReceived recvBufSize) ::
    if (n.party side).conn.tcb.snd.una = (n.party side).conn.tcb.snd.nxt then []
    else
      n.retransmitRound side now times ++
        [.deliver side later ((n.party side.other).emitted.length +
            (n.party side).conn.retransmitQueue.entries.length - 1),
          .call side.other (.readReceived recvBufSize)]

theorem along_deliveries {C : Session → Event → Prop} (side : Side) (times : Nat → Instant) (k count : Nat)
    (n : Network) : Along (Rule C) n (deliveries side times k count) := by
  induction count generalizing k n with
  | zero => trivial
  | succ count ih => exact ⟨trivial, ih (k + 1) _⟩

theorem heal_rule {C : Session → Event → Prop} (reads : ∀ s, C s (.readReceived recvBufSize))
    (retransmits : ∀ s now, C s (.takeRetransmits now)) (n : Network) (side : Side) (now later : Instant)
    (times : Nat → Instant) : Along (Rule C) n (n.heal side now later times) := by
  unfold heal
  split_ifs with idle
  · exact ⟨⟨rfl, reads _⟩, trivial⟩
  · refine ⟨⟨rfl, reads _⟩, Runs.along_append.mpr ⟨?_, trivial, ⟨rfl, reads _⟩, trivial⟩⟩
    exact ⟨⟨rfl, retransmits _ _⟩, along_deliveries _ _ _ _ _⟩

namespace Due

theorem read (due : n.Due e iss w m side now) :
    let n' := n.perform side.other (.readReceived recvBufSize)
    (∃ w' m', n'.Due e iss w' m' side now) ∧
      (n'.party side).sent ≤ (n'.party side.other).received.length + recvBufSize := by
  intro n'
  have here : n'.party side = n.party side := perform_back ..
  have there : n'.party side.other = (n.party side.other).step (.readReceived recvBufSize) := perform_self ..
  have kept : n.Kept n' := kept_step n (.call side.other (.readReceived recvBufSize)) (.refl n)
    ⟨rfl, fun _ => Event.noConfusion⟩
  have short : n'.Short := fun x => kept.written x ▸ due.short x
  have receptive : (n'.party side.other).conn.Receptive := there ▸ due.receptive.read _
  have agreed : ∃ w m, n'.Agreed e iss w m := by
    apply agreed_step n (.call side.other (.readReceived recvBufSize)) (fun _ _ => ⟨w, m, due.agreed⟩)
      ⟨rfl, trivial, trivial⟩ short
    change n'.Young
    rw [Young, Side.forall_iff side, here]
    exact ⟨.inr (.inr due.state), .inr (.inr receptive.state)⟩
  obtain ⟨w', m', agreed⟩ := agreed
  have counts := (agreed.outstanding side).synced.windowed.counts
  rw [here] at counts
  have same := counts.unique due.queued.synced.windowed.counts
  have due' : n'.Due e iss w' m' side now := by
    refine ⟨agreed, short, ?_, ?_, receptive, ?_⟩ <;> rw [here]
    · exact same ▸ due.queued
    · exact due.state
    · exact due.expired
  refine ⟨⟨w', m', due'⟩, ?_⟩
  have synced := (agreed.outstanding side).synced
  obtain ⟨una, bufUna, -, bufNxt⟩ := synced.positions due'.state
  have filled := synced.windowed.counts.filled
  have full := (n'.party side).conn.core.sendBuf.len_le
  have follows := agreed.follows side.other
  have acked := agreed.acked side
  have drained : (n'.party side.other).conn.receivedAvailable = 0 := there ▸ (Session.arrived_read _).2
  have length := congrArg List.length (follows.arrived.symm.trans (Session.arrived_drained drained))
  have inside := follows.le
  rw [List.length_take] at length
  rw [recvBufSize]
  omega

theorem exec_heal (due : n.Due e iss w m side now) (later : Instant) (times : Nat → Instant) {n' : Network}
    (healed : exec n (n.heal side now later times) = n') :
    (n'.party side).conn.tcb.state = .established ∧
      (n'.party side).conn.tcb.snd.una = (n'.party side).conn.tcb.snd.nxt ∧
      (n'.party side.other).conn.Receptive ∧ (n'.party side.other).conn.receivedAvailable = 0 := by
  obtain ⟨⟨w₁, m₁, due₁⟩, room⟩ := due.read
  set n₁ := n.perform side.other (.readReceived recvBufSize) with first
  have here : n₁.party side = n.party side := perform_back ..
  have there : n₁.party side.other = (n.party side.other).step (.readReceived recvBufSize) := perform_self ..
  rw [heal, exec, Runs.exec_cons, show n.step (.call side.other (.readReceived recvBufSize)) = n₁ from rfl]
    at healed
  split_ifs at healed with idle
  · rw [← healed, Runs.exec_nil, here, there]
    exact ⟨due.state, idle, due.receptive.read _, (Session.arrived_read _).2⟩
  · have outstanding : (n₁.party side).conn.tcb.snd.una ≠ (n₁.party side).conn.tcb.snd.nxt := here ▸ idle
    obtain ⟨caught, same⟩ := due₁.caughtUp times
    obtain ⟨answer, -, next, arrives, core⟩ := due₁.acknowledged times later outstanding room rfl
    have round : n₁.retransmitRound side now times = n.retransmitRound side now times := by
      simp only [retransmitRound, here]
    set n₂ := exec n₁ (n₁.retransmitRound side now times) with second
    have answers : (n₂.party side.other).emitted.length = (n.party side.other).emitted.length +
        (n.party side).conn.retransmitQueue.entries.length := by
      rw [caught.answers, here, there]
      exact congrArg₂ (· + ·) (congrArg List.length (List.append_nil _)) (List.length_map _)
    rw [Runs.exec_append, ← round, ← exec, ← second, ← answers, exec, Runs.exec_cons, arrives,
      Runs.exec_cons,
      Runs.exec_nil] at healed
    set n₃ := n₂.perform side (.processSegment later answer) with third
    have here' : n'.party side = (n₂.party side).step (.processSegment later answer) := by
      rw [← healed]
      exact (perform_back ..).trans (perform_self ..)
    have there' : n'.party side.other = (n₂.party side.other).step (.readReceived recvBufSize) := by
      rw [← healed]
      exact (perform_self ..).trans (congrArg (Session.step · _) (perform_other ..))
    rw [here', there']
    refine ⟨?_, ?_, caught.receptive.read _, (Session.arrived_read _).2⟩
    · exact (congrArg Core.state core).trans due₁.state
    · exact (congrArg Core.una core).trans (next.trans (congrArg Core.nxt core).symm)

theorem heals (due : n.Due e iss w m side now) (range : ∀ x, (n.party x).conn.InRange) (later : Instant)
    (times : Nat → Instant) :
    (exec n (n.heal side now later times)).Quiet e iss side ∧ n.Kept (exec n (n.heal side now later times)) := by
  have silent : Along (Rule Session.Silent) n (n.heal side now later times) :=
    heal_rule (fun _ _ => Event.noConfusion) (fun _ _ _ => Event.noConfusion) n side now later times
  have orderly : Along (Rule Session.Orderly) n (n.heal side now later times) :=
    heal_rule (fun _ => ⟨trivial, trivial⟩) (fun _ _ => ⟨trivial, trivial⟩) n side now later times
  have kept := Runs.exec_inv kept_step (.refl n) silent
  have ranges := Runs.exec_inv inRange_step range orderly
  have short : (exec n (n.heal side now later times)).Short := fun x => kept.written x ▸ due.short x
  obtain ⟨state, idle, receptive, drained⟩ := due.exec_heal later times rfl
  have young : (exec n (n.heal side now later times)).Young := by
    rw [Young, Side.forall_iff side]
    exact ⟨.inr (.inr state), .inr (.inr receptive.state)⟩
  have agreed := Runs.exec_inv agreed_step (fun _ _ => ⟨w, m, due.agreed⟩) orderly short young
  exact ⟨⟨agreed, short, state, idle, receptive, drained, ranges side⟩, kept⟩

end Due

/-- From every state in which both ends are in ESTABLISHED, whatever the network has done before: when
the other side awaits no acknowledgement and all that this side waits for has expired, the round that
repairs it and the rounds of a transfer, over a network that loses nothing, bring the other side all
that was written, and all of it is acknowledged. -/
theorem healing_completes (o : Side → Opening) (iss : Side → U32) (e : Endpoint) (actions : List Action)
    (rule : Along (Rule Session.KeepsSent) (start o iss e) actions) (side : Side) (now later : Instant)
    (times clock : Nat → Instant) :
    let n := exec (start o iss e) actions
    n.Short → (∀ x, (n.party x).conn.tcb.state = .established) →
    (n.party side.other).conn.tcb.snd.una = (n.party side.other).conn.tcb.snd.nxt →
    (n.party side).conn.Expired now →
    let healed := exec n (n.heal side now later times)
    let n' := healed.transfer side clock (healed.rounds side)
    (n'.party side.other).received = (n.party side).written ∧
      (n'.party side).acked = (n.party side).written.length := by
  intro n short state idle expired healed n'
  have orderly := Runs.along_mono (fun _ _ => Rule.orderly) rule
  have range : ∀ side, (n.party side).conn.InRange :=
    Runs.exec_inv inRange_step (fun side => Session.start_inRange (o side) _ _) orderly
  obtain ⟨w, m, due⟩ := due_exec o iss e actions rule side now short state idle expired
  obtain ⟨quiet, kept⟩ := due.heals range later times
  rw [← kept.written]
  exact quiet.completes clock

-- The client sends three segments and has a fourth to send. The first is lost, the third arrives alone and twice.
def gap : List Action :=
  handshake ++ [.call .left (.writeData [1#8, 2#8, 3#8, 4#8, 5#8, 6#8]), .call .left (.nextSegmentToSend 0 2),
    .call .left (.nextSegmentToSend 0 2), .call .left (.nextSegmentToSend 0 1), .deliver .right 0 4,
    .deliver .right 0 4]

theorem healing_completes_gap :
    let n := exec clientServer gap
    let healed := exec n (n.heal .left initialRto 0 fun _ => 0)
    let n' := healed.transfer .left (fun _ => 0) (healed.rounds .left)
    Along (Rule Session.KeepsSent) clientServer gap ∧
      (n'.party Side.left.other).received = (n.party .left).written ∧
      (n'.party .left).acked = (n.party .left).written.length := by
  have rule : Along (Rule Session.KeepsSent) clientServer gap := by decide +kernel
  have short : (exec clientServer gap).Short := by rintro (_ | _) <;> decide +kernel
  have state : ∀ x, ((exec clientServer gap).party x).conn.tcb.state = .established := by
    rintro (_ | _) <;> decide +kernel
  have idle : ((exec clientServer gap).party Side.left.other).conn.tcb.snd.una =
      ((exec clientServer gap).party Side.left.other).conn.tcb.snd.nxt := by decide +kernel
  have expired : ((exec clientServer gap).party .left).conn.Expired initialRto := by decide +kernel
  have done := healing_completes _ _ _ gap rule .left initialRto 0 (fun _ => 0) (fun _ => 0) short state
    idle expired
  rw [← clientServer] at done
  exact ⟨rule, done⟩

end Network

end MagnumTcp.Tcp
