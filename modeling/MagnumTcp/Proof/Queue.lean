import MagnumTcp.Proof.Sync
import Mathlib.Data.List.Chain

namespace MagnumTcp.Tcp

open MagnumTcp.Tcp.Core

/-! ## When a call sends -/

namespace Connection

def Sendable (c : Connection) (maxPayload : Nat) : Prop :=
  c.inflight < c.effectiveWindow ∧ c.sendBuf.inflight < c.sendBuf.len ∧ 0 < maxPayload

def Probing (c : Connection) : Prop :=
  c.tcb.state = .established ∧ c.tcb.snd.wnd = 0#16 ∧ c.sendBuf.inflight < c.sendBuf.len

instance (c : Connection) (maxPayload : Nat) : Decidable (c.Sendable maxPayload) :=
  inferInstanceAs (Decidable (_ ∧ _))

instance (c : Connection) : Decidable c.Probing := inferInstanceAs (Decidable (_ ∧ _))

variable {c : Connection} {maxPayload : Nat}

theorem nextSegmentToSend_idle (now : Instant) (idle : ¬ c.Sendable maxPayload) :
    c.nextSegmentToSend now maxPayload = (c, none) := by
  unfold nextSegmentToSend
  split_ifs with full
  · rfl
  · dsimp only
    cases next : c.sendBuf.nextSegment (min maxPayload (c.effectiveWindow - c.inflight)) with
    | none => rfl
    | some segment =>
        have some := (c.sendBuf.nextSegment_isSome _).mp (by rw [next]; rfl)
        exact absurd ⟨by omega, some.1, by omega⟩ idle

theorem nextSegmentToSend_eq (now : Instant) {segment : U32 × Bytes} (room : c.inflight < c.effectiveWindow)
    (next : c.sendBuf.nextSegment (min maxPayload (c.effectiveWindow - c.inflight)) = some segment) :
    c.nextSegmentToSend now maxPayload =
      ({ c with
          sendBuf := c.sendBuf.advanceNxt segment.2.length
          retransmitQueue := c.retransmitQueue.push now segment.1 segment.2
          tcb := { c.tcb with
            snd := { c.tcb.snd with nxt := (c.sendBuf.advanceNxt segment.2.length).nxt } } },
        some (c.buildData segment.1 segment.2)) := by
  unfold nextSegmentToSend
  rw [if_neg (Nat.not_le.mpr room)]
  dsimp only
  rw [next]
  rfl

theorem nextSegmentToSend_next (now : Instant) (able : c.Sendable maxPayload) :
    ∃ segment, c.core.sendBuf.nextSegment (min maxPayload (c.effectiveWindow - c.inflight)) =
        some segment ∧
      (c.nextSegmentToSend now maxPayload).1.core = c.core.sent segment ∧
      (c.nextSegmentToSend now maxPayload).2 =
        some ((c.core.sent segment).data c.currentWindow segment).build := by
  obtain ⟨room, unsent, positive⟩ := able
  obtain ⟨segment, next⟩ := Option.isSome_iff_exists.mp ((c.sendBuf.nextSegment_isSome
    (min maxPayload (c.effectiveWindow - c.inflight))).mpr ⟨unsent, by omega⟩)
  refine ⟨segment, next, ?_⟩
  rw [nextSegmentToSend_eq now room next]
  unfold Core.sent
  rw [← push_core c now segment]
  exact ⟨rfl, rfl⟩

theorem zeroWindowProbe_idle (idle : ¬ c.Probing) : c.zeroWindowProbe = (c, none) := by
  unfold zeroWindowProbe
  split_ifs with blocked
  · rfl
  · cases next : c.sendBuf.nextSegment 1 with
    | none => rfl
    | some segment =>
        have some := (c.sendBuf.nextSegment_isSome _).mp (by rw [next]; rfl)
        rw [not_or, not_not, not_not] at blocked
        exact absurd ⟨blocked.1, blocked.2, some.1⟩ idle

theorem zeroWindowProbe_next (able : c.Probing) :
    ∃ segment, c.core.sendBuf.nextSegment 1 = some segment ∧
      c.zeroWindowProbe.1.core = c.core.probed ∧
      c.zeroWindowProbe.2 =
        some (c.core.probed.reply segment.1 { ack := true } segment.2 c.currentWindow).build := by
  obtain ⟨state, closed, unsent⟩ := able
  obtain ⟨segment, next⟩ := Option.isSome_iff_exists.mp
    ((c.sendBuf.nextSegment_isSome 1).mpr ⟨unsent, Nat.one_pos⟩)
  refine ⟨segment, next, ?_⟩
  unfold zeroWindowProbe
  rw [if_neg (by simp [state, closed]), next]
  exact ⟨rfl, rfl⟩

end Connection

/-! ## Tilings -/

/-- The segments of a list follow each other from the position `lo` to the position `hi`, each with the
bytes of `W` that belong there. -/
def Tiles (iss : U32) (W : Bytes) : Nat → List (U32 × Bytes) → Nat → Prop
  | lo, [], hi => lo = hi
  | lo, segment :: rest, hi =>
      (segment.1 = iss + BitVec.ofNat 32 lo ∧ segment.2 ≠ [] ∧ SliceAt W (lo - 1) segment.2) ∧
        Tiles iss W (lo + segment.2.length) rest hi

namespace Tiles

variable {iss : U32} {W : Bytes} {lo hi x : Nat} {queue : List (U32 × Bytes)}

theorem le (tiles : Tiles iss W lo queue hi) : lo ≤ hi := by
  induction queue generalizing lo with
  | nil => exact Nat.le_of_eq tiles
  | cons segment rest ih => exact (Nat.le_add_right _ _).trans (ih tiles.2)

theorem push (tiles : Tiles iss W lo queue hi) {segment : U32 × Bytes}
    (seq : segment.1 = iss + BitVec.ofNat 32 hi) (nonempty : segment.2 ≠ [])
    (slice : SliceAt W (hi - 1) segment.2) :
    Tiles iss W lo (queue ++ [segment]) (hi + segment.2.length) := by
  induction queue generalizing lo with
  | nil =>
      cases tiles
      exact ⟨⟨seq, nonempty, slice⟩, rfl⟩
  | cons first rest ih => exact ⟨tiles.1, ih tiles.2⟩

theorem append (tiles : Tiles iss W lo queue hi) (more : Bytes) :
    Tiles iss (W ++ more) lo queue hi := by
  induction queue generalizing lo with
  | nil => exact tiles
  | cons first rest ih =>
      obtain ⟨⟨seq, nonempty, slice⟩, tail⟩ := tiles
      exact ⟨⟨seq, nonempty, slice.append more⟩, ih tail⟩

theorem ends (tiles : Tiles iss W lo queue hi) :
    ∀ segment ∈ queue, ∃ i, segment.1 = iss + BitVec.ofNat 32 i ∧ lo < i + segment.2.length ∧
      i + segment.2.length ≤ hi := by
  induction queue generalizing lo with
  | nil => exact List.forall_mem_nil _
  | cons first rest ih =>
      obtain ⟨⟨seq, nonempty, slice⟩, tail⟩ := tiles
      have positive := List.length_pos_of_ne_nil nonempty
      have inside := tail.le
      intro segment member
      rcases List.mem_cons.mp member with rfl | later
      · exact ⟨lo, seq, by omega, inside⟩
      · obtain ⟨i, number, after, before⟩ := ih tail segment later
        exact ⟨i, number, by omega, before⟩

theorem fullyAcked_iff {segment : U32 × Bytes} {i : Nat}
    (seq : segment.1 = iss + BitVec.ofNat 32 i) (ahead : x < i + segment.2.length + 2 ^ 31)
    (behind : i + segment.2.length < x + 2 ^ 31) :
    fullyAcked (endOf segment) (iss + BitVec.ofNat 32 x) = true ↔ i + segment.2.length ≤ x := by
  unfold fullyAcked endOf
  rw [seq, Serial.add_ofNat_ofNat]
  exact seqLe_iff_le iss ahead behind

theorem acknowledge (tiles : Tiles iss W lo queue hi) (after : lo ≤ x) (before : x ≤ hi)
    (close : hi < lo + 2 ^ 31) :
    ∃ lo', lo ≤ lo' ∧ lo' ≤ x ∧
      Tiles iss W lo' (queue.filter fun e => !fullyAcked (endOf e) (iss + BitVec.ofNat 32 x)) hi ∧
      ∀ first ∈ (queue.filter fun e => !fullyAcked (endOf e) (iss + BitVec.ofNat 32 x)).head?,
        x < lo' + first.2.length := by
  induction queue generalizing lo with
  | nil => exact ⟨lo, Nat.le_refl lo, after, tiles, by simp⟩
  | cons first rest ih =>
      obtain ⟨⟨seq, nonempty, slice⟩, tail⟩ := tiles
      have inside := tail.le
      have gone := fullyAcked_iff (x := x) seq (by omega) (by omega)
      by_cases covered : lo + first.2.length ≤ x
      · rw [List.filter_cons_of_neg (by simpa using gone.mpr covered)]
        obtain ⟨lo', later, rest⟩ := ih tail covered (by omega)
        exact ⟨lo', by omega, rest⟩
      · -- The segments behind the first one end later still, so that nothing else is dropped.
        have kept : (first :: rest).filter
            (fun e => !fullyAcked (endOf e) (iss + BitVec.ofNat 32 x)) = first :: rest := by
          apply List.filter_eq_self.mpr
          intro segment member
          have later : ∃ i, segment.1 = iss + BitVec.ofNat 32 i ∧ x < i + segment.2.length ∧
              i + segment.2.length ≤ hi := by
            rcases List.mem_cons.mp member with rfl | behind
            · exact ⟨lo, seq, by omega, inside⟩
            · obtain ⟨i, number, beyond, below⟩ := tail.ends segment behind
              exact ⟨i, number, by omega, below⟩
          obtain ⟨i, number, beyond, below⟩ := later
          have still := fullyAcked_iff (x := x) number (by omega) (by omega)
          simp only [Bool.not_eq_true', Bool.eq_false_iff]
          intro acked
          have := still.mp acked
          omega
        rw [kept]
        refine ⟨lo, Nat.le_refl lo, after, ⟨⟨seq, nonempty, slice⟩, tail⟩, ?_⟩
        intro head found
        cases found
        omega

theorem recent (tiles : Tiles iss W lo queue hi)
    (contains : ∀ first ∈ queue.head?, x < lo + first.2.length) :
    ∀ segment ∈ queue, ∃ i, segment.1 = iss + BitVec.ofNat 32 i ∧ x < i + segment.2.length ∧
      i + segment.2.length ≤ hi := by
  intro segment member
  cases queue with
  | nil => exact absurd member List.not_mem_nil
  | cons first rest =>
      obtain ⟨⟨seq, -, -⟩, tail⟩ := tiles
      have here := contains first rfl
      rcases List.mem_cons.mp member with rfl | later
      · exact ⟨lo, seq, here, tail.le⟩
      · obtain ⟨i, number, beyond, below⟩ := tail.ends segment later
        exact ⟨i, number, by omega, below⟩

theorem chain (tiles : Tiles iss W lo queue hi) :
    queue.IsChain fun a b => endOf a = b.1 := by
  induction queue generalizing lo with
  | nil => exact .nil
  | cons first rest ih =>
      obtain ⟨⟨seq, -, slice⟩, tail⟩ := tiles
      cases rest with
      | nil => exact .singleton first
      | cons second rest =>
          refine .cons_cons ?_ (ih tail)
          rw [endOf, seq, Serial.add_ofNat_ofNat, tail.1.1]

theorem last (tiles : Tiles iss W lo queue hi) :
    ∀ segment ∈ queue.getLast?, endOf segment = iss + BitVec.ofNat 32 hi := by
  induction queue generalizing lo with
  | nil => simp
  | cons first rest ih =>
      obtain ⟨⟨seq, -, slice⟩, tail⟩ := tiles
      cases rest with
      | nil =>
          intro segment found
          obtain rfl : first = segment := by simpa using found
          rw [endOf, seq, Serial.add_ofNat_ofNat, show lo + first.2.length = hi from tail]
      | cons second rest => simpa using ih tail

theorem covers (tiles : Tiles iss W lo queue hi) (after : lo ≤ x) (before : x < hi) :
    ∃ segment ∈ queue, ∃ i, segment.1 = iss + BitVec.ofNat 32 i ∧ SliceAt W (i - 1) segment.2 ∧
      lo ≤ i ∧ i ≤ x ∧ x < i + segment.2.length := by
  induction queue generalizing lo with
  | nil =>
      have : lo = hi := tiles
      omega
  | cons first rest ih =>
      obtain ⟨⟨seq, -, slice⟩, tail⟩ := tiles
      by_cases here : x < lo + first.2.length
      · exact ⟨first, List.mem_cons_self, lo, seq, slice, Nat.le_refl lo, after, here⟩
      · obtain ⟨segment, member, i, number, part, later, found⟩ := ih tail (by omega)
        exact ⟨segment, List.mem_cons_of_mem _ member, i, number, part, by omega, found⟩

end Tiles

/-! ## The queue of a core -/

theorem Core.Sends.queue_nil {c : Core} (sends : c.Sends []) : c.queue = [] := by
  rw [List.eq_nil_iff_forall_not_mem]
  intro segment member
  obtain ⟨i, -, slice⟩ := sends.stream segment member
  have inside := slice.inside
  rw [List.length_nil] at inside
  exact (sends.sized segment member).1 (List.length_eq_zero_iff.mp (by omega))

def Core.Tiled (c : Core) (W : Bytes) (w : Window) : Prop :=
  ∃ lo, 1 ≤ lo ∧ lo ≤ w.una ∧ Tiles c.iss W lo c.queue w.bufNxt ∧
    ∀ first ∈ c.queue.head?, w.una < lo + first.2.length

namespace Core.Tiled

variable {c : Core} {W : Bytes} {w : Window} {seg : TcpSegment}

theorem congr (tiled : c.Tiled W w) {c' : Core} (iss : c'.iss = c.iss) (queue : c'.queue = c.queue) :
    c'.Tiled W w := by
  unfold Core.Tiled
  rw [iss, queue]
  exact tiled

theorem append (tiled : c.Tiled W w) (more : Bytes) : c.Tiled (W ++ more) w := by
  obtain ⟨lo, positive, before, tiles, first⟩ := tiled
  exact ⟨lo, positive, before, tiles.append more, first⟩

theorem insert (tiled : c.Tiled W w) : (c.insert seg).Tiled W w := by
  unfold Core.insert
  cases c.recvBuf <;> exact tiled

theorem acked (tiled : c.Tiled W w) (counts : c.Counts W w) (synced : c.Synced) (sends : c.Sends W)
    (state : c.state = .established) {c' : Core} (acked : c.Acked seg c') {w' : Window}
    (counts' : c'.Counts W w') : c'.Tiled W w' := by
  have full := c.sendBuf.len_le
  have filled := counts.filled
  have buffered := counts.buffered
  obtain ⟨una, nxt⟩ := synced.aligned counts (by rw [state]; rfl)
  rcases counts.acked_cases acked with rfl | ⟨x, p, -, number, after, inside, rfl, booked, -⟩
  · rw [counts.unique counts']
    exact tiled
  · rw [booked.unique counts']
    obtain ⟨lo, positive, before, tiles, first⟩ := tiled
    have close : w.bufNxt < lo + 2 ^ 31 := by
      cases queue : c.queue with
      | nil =>
          rw [queue] at tiles
          have : lo = w.bufNxt := tiles
          omega
      | cons segment rest =>
          have sized := (sends.sized segment (by simp [queue])).2
          have := first segment (by simp [queue])
          omega
    obtain ⟨lo', later, start, kept, head⟩ :=
      tiles.acknowledge (show lo ≤ x by omega) (by omega) close
    rw [← number] at kept head
    exact ⟨lo', by omega, start, kept, head⟩

theorem sent (tiled : c.Tiled W w) (counts : c.Counts W w) (sends : c.Sends W)
    (acked : w.una ≤ w.bufNxt) {n : Nat} {segment : U32 × Bytes}
    (next : c.sendBuf.nextSegment n = some segment) (room : c.queue.length < retransmitQueueMax)
    {w' : Window} (counts' : (c.sent segment).Counts W w') : (c.sent segment).Tiled W w' := by
  have advanced : (c.sent segment).Counts W _ := counts.advance next rfl rfl rfl rfl
  rw [advanced.unique counts']
  obtain ⟨inside, seq, positive, -⟩ := counts.nextSegment next
  obtain ⟨lo, start, before, tiles, first⟩ := tiled
  have queue : (c.sent segment).queue = c.queue ++ [segment] := if_pos room
  refine ⟨lo, start, before, ?_, ?_⟩
  · rw [queue]
    exact tiles.push seq (List.ne_nil_of_length_pos positive) (counts.slice sends next)
  · rw [queue]
    cases old : c.queue with
    | nil =>
        rw [old] at tiles
        have : lo = w.bufNxt := tiles
        intro head found
        cases found
        dsimp only
        omega
    | cons head rest =>
        intro segment found
        exact first segment (by rw [old]; exact found)

end Core.Tiled

theorem SegmentStep.tiled {early : Bool} {seg : TcpSegment} {c c' : Core}
    {out : List SegmentBuilder} {W : Bytes} {w w' : Window} (step : SegmentStep early seg c c' out)
    (counts : c.Counts W w) (stage : w.Stage c.state) (synced : c.Synced) (sends : c.Sends W)
    (empty : c.state.opening → W = []) (tiled : c.state = .established → c.Tiled W w)
    (counts' : c'.Counts W w') (synced' : c'.Synced) (state' : c'.state = .established) :
    c'.Tiled W w' := by
  have fresh : c.state.opening = true → c'.queue = c.queue → c'.Tiled W w' := by
    intro opening queue
    rw [empty opening] at sends counts'
    have none : c'.queue = [] := queue.trans sends.queue_nil
    obtain ⟨una, nxt⟩ := synced'.aligned counts' (by rw [state']; rfl)
    have written := counts'.written
    have filled := counts'.filled
    have first := counts'.first
    have begun := counts'.begun
    rw [List.length_nil] at written
    refine ⟨w'.bufNxt, begun, by omega, ?_, ?_⟩
    · rw [none]
      rfl
    · rw [none]
      exact fun _ found => nomatch found
  cases step with
  | ignore idle => exact absurd state' idle.established
  | refuse opening => simp [state'] at opening
  | repeatSynAck v state => simp [state'] at state
  | timeWaitFin v state => simp [state'] at state
  | finWait1Ack state => simp [Core.acknowledge, state] at state'
  | synSentAck v state => exact fresh (by rw [state]; rfl) rfl
  | synReceivedAck state => exact fresh (by rw [state]; rfl) rfl
  | fastRetransmit v segment state =>
      rw [counts.unique counts']
      exact tiled state
  | quiet _ state _ acked => exact (tiled state).acked counts synced sends state acked counts'
  | receive c1 v state _ acked =>
      obtain ⟨w1, counts1, -⟩ := counts.acked_move stage (by rw [state]; rfl) acked
      rw [counts1.insert.unique counts']
      exact ((tiled state).acked counts synced sends state acked counts1).insert
  | _ => cases state'

theorem CoreStep.tiled {event : Event} {c c' : Core} {out : List SegmentBuilder} {W : Bytes}
    {w w' : Window} (step : CoreStep event c c' out) (counts : c.Counts W w) (stage : w.Stage c.state)
    (synced : c.Synced) (sends : c.Sends W) (empty : c.state.opening → W = [])
    (tiled : c.state = .established → c.Tiled W w)
    (silent : ∀ now n, event ≠ .nextSegmentToSend now n) (calm : event ≠ .zeroWindowProbe)
    (counts' : c'.Counts (W ++ c.accepted event) w') (synced' : c'.Synced)
    (state' : c'.state = .established) : c'.Tiled (W ++ c.accepted event) w' := by
  cases step with
  | segment step =>
      simp only [accepted, List.append_nil] at counts'
      exact (step.tiled counts stage synced sends empty tiled counts' synced' state').append _
  | write data =>
      rw [(counts.write data).unique counts']
      exact ((tiled state').congr rfl rfl).append _
  | send now n => exact absurd rfl (silent now n)
  | sendNothing now n => exact absurd rfl (silent now n)
  | probe => exact absurd rfl calm
  | probeNothing => exact absurd rfl calm
  | close _ v state able => rcases able with ⟨-, rfl⟩ | ⟨-, rfl⟩ <;> cases state'
  | read bufLen =>
      simp only [accepted, List.append_nil] at counts'
      have same : c.Counts W w' := counts'.congr rfl rfl rfl rfl
      rw [counts.unique same]
      exact ((tiled state').congr rfl rfl).append _
  | expire => cases state'
  | connect => cases state'
  | _ =>
      simp only [accepted, List.append_nil] at counts'
      rw [counts.unique counts']
      exact (tiled state').append _

def Core.Recent (c : Core) (w : Window) : Prop :=
  ∀ segment ∈ c.queue, ∃ i, segment.1 = c.iss + BitVec.ofNat 32 i ∧
    w.una < i + segment.2.length ∧ i + segment.2.length ≤ w.bufNxt

namespace Core.Recent

variable {c : Core} {W : Bytes} {w : Window} {seg : TcpSegment}

theorem congr (recent : c.Recent w) {c' : Core} (iss : c'.iss = c.iss) (queue : c'.queue = c.queue) :
    c'.Recent w := by
  unfold Core.Recent
  rw [iss, queue]
  exact recent

theorem insert (recent : c.Recent w) : (c.insert seg).Recent w := by
  unfold Core.insert
  cases c.recvBuf <;> exact recent

theorem acked (recent : c.Recent w) (counts : c.Counts W w) (synced : c.Synced)
    (state : c.state = .established) {c' : Core} (acked : c.Acked seg c') {w' : Window}
    (counts' : c'.Counts W w') : c'.Recent w' := by
  have close := counts.close
  obtain ⟨una, nxt⟩ := synced.aligned counts (by rw [state]; rfl)
  rcases counts.acked_cases acked with rfl | ⟨x, p, -, number, after, inside, rfl, booked, -⟩
  · rw [counts.unique counts']
    exact recent
  · rw [booked.unique counts']
    intro segment member
    obtain ⟨held, kept⟩ := List.mem_filter.mp member
    obtain ⟨i, seq, beyond, below⟩ := recent segment held
    rw [number, Bool.not_eq_true', Bool.eq_false_iff, ne_eq,
      Tiles.fullyAcked_iff seq (by omega) (by omega)] at kept
    exact ⟨i, seq, by dsimp only; omega, below⟩

theorem advance (recent : c.Recent w) (counts : c.Counts W w) (acked : w.una ≤ w.bufNxt) {n : Nat}
    {segment : U32 × Bytes} (next : c.sendBuf.nextSegment n = some segment) {c' : Core}
    (iss : c'.iss = c.iss) (queue : ∀ e ∈ c'.queue, e = segment ∨ e ∈ c.queue) {w' : Window}
    (una' : w'.una = w.una) (bufNxt' : w'.bufNxt = w.bufNxt + segment.2.length) :
    c'.Recent w' := by
  obtain ⟨inside, seq, positive, -⟩ := counts.nextSegment next
  intro e member
  rw [iss]
  rcases queue e member with rfl | old
  · exact ⟨w.bufNxt, seq, by omega, by omega⟩
  · obtain ⟨i, number, beyond, below⟩ := recent e old
    exact ⟨i, number, by omega, by omega⟩

end Core.Recent

theorem SegmentStep.recent {early : Bool} {seg : TcpSegment} {c c' : Core}
    {out : List SegmentBuilder} {W : Bytes} {w w' : Window} (step : SegmentStep early seg c c' out)
    (counts : c.Counts W w) (stage : w.Stage c.state) (synced : c.Synced) (sends : c.Sends W)
    (empty : c.state.opening → W = []) (recent : c.state.sending → c.Recent w)
    (counts' : c'.Counts W w') (sending' : c'.state.sending) : c'.Recent w' := by
  have fresh : c.state.opening = true → c'.queue = c.queue → c'.Recent w' := by
    intro opening queue
    rw [empty opening] at sends
    intro segment member
    rw [queue, sends.queue_nil] at member
    exact absurd member List.not_mem_nil
  have kept : c.Counts W w' → c.state.sending = true → c.Recent w' := by
    intro counts' sending
    rw [counts.unique counts']
    exact recent sending
  cases step with
  | synSentAck v state => exact fresh (by rw [state]; rfl) rfl
  | synReceivedAck state => exact fresh (by rw [state]; rfl) rfl
  | quiet _ state _ acked =>
      exact (recent (by rw [state]; rfl)).acked counts synced state acked counts'
  | receive c1 v state _ acked =>
      obtain ⟨w1, counts1, -⟩ := counts.acked_move stage (by rw [state]; rfl) acked
      rw [counts1.insert.unique counts']
      exact ((recent (by rw [state]; rfl)).acked counts synced state acked counts1).insert
  | receiveFin c1 v state _ _ acked =>
      obtain ⟨w1, counts1, -⟩ := counts.acked_move stage (by rw [state]; rfl) acked
      have same : (c1.insert _).Counts W w' := counts'.congr rfl rfl rfl rfl
      rw [counts1.insert.unique same]
      exact ((recent (by rw [state]; rfl)).acked counts synced state acked counts1).insert.congr
        rfl rfl
  | ignore => exact kept counts' sending'
  | refuse => exact kept counts' sending'
  | fastRetransmit => exact kept counts' sending'
  | repeatSynAck => exact kept counts' sending'
  | timeWaitFin => exact kept counts' sending'
  | finWait1Ack state => simp [Core.acknowledge, state, TcbState.sending] at sending'
  | _ => exact absurd sending' Bool.false_ne_true

theorem CoreStep.recent {event : Event} {c c' : Core} {out : List SegmentBuilder} {W : Bytes}
    {w w' : Window} (step : CoreStep event c c' out) (counts : c.Counts W w) (stage : w.Stage c.state)
    (synced : c.Synced) (sends : c.Sends W) (empty : c.state.opening → W = [])
    (recent : c.state.sending → c.Recent w) (counts' : c'.Counts (W ++ c.accepted event) w')
    (sending' : c'.state.sending) : c'.Recent w' := by
  have ahead : c.state.sending → w.una ≤ w.bufNxt := by
    intro sending
    obtain ⟨una, nxt⟩ := synced.aligned counts sending
    have ordered := counts.ordered
    omega
  cases step with
  | segment step =>
      simp only [accepted, List.append_nil] at counts'
      exact step.recent counts stage synced sends empty recent counts' sending'
  | write data =>
      rw [(counts.write data).unique counts']
      exact (recent sending').congr rfl rfl
  | send _ _ n _ segment v bounded next =>
      simp only [accepted, List.append_nil] at counts'
      have advanced : (c.sent segment).Counts W _ := counts.advance next rfl rfl rfl rfl
      apply (recent sending').advance counts (ahead sending') next
      · rfl
      · exact fun _ => mem_push
      · rw [advanced.unique counts']
      · rw [advanced.unique counts']
  | probe _ segment v state next =>
      simp only [accepted, List.append_nil] at counts'
      have one := SendBuffer.nextSegment_one next
      have advanced : c.probed.Counts W _ :=
        counts.advance next rfl rfl (by rw [one]; rfl) rfl
      apply (recent sending').advance counts (ahead sending') next
      · rfl
      · exact fun _ => .inr
      · rw [advanced.unique counts']
      · rw [advanced.unique counts']
  | close _ v state able =>
      rcases able with ⟨-, rfl⟩ | ⟨-, rfl⟩ <;> exact absurd sending' Bool.false_ne_true
  | read bufLen =>
      simp only [accepted, List.append_nil] at counts'
      have same : c.Counts W w' := counts'.congr rfl rfl rfl rfl
      rw [counts.unique same]
      exact (recent sending').congr rfl rfl
  | expire => exact absurd sending' Bool.false_ne_true
  | connect => exact absurd sending' Bool.false_ne_true
  | _ =>
      simp only [accepted, List.append_nil] at counts'
      rw [counts.unique counts']
      exact recent sending'

/-! ## Sessions -/

namespace Session

def QueueRoom (s : Session) : Event → Prop
  | .nextSegmentToSend _ maxPayload =>
      s.conn.tcb.state = .established → s.conn.Sendable maxPayload →
        s.conn.retransmitQueue.entries.length < retransmitQueueMax
  | _ => True

def NoProbe (s : Session) : Event → Prop
  | .zeroWindowProbe => ¬ s.conn.Probing
  | _ => True

instance (s : Session) : (event : Event) → Decidable (s.QueueRoom event)
  | .nextSegmentToSend _ _ => inferInstanceAs (Decidable (_ → _ → _))
  | .processSegment _ _ | .writeData _ | .readReceived _ | .takeRetransmits _ | .initiateClose
  | .tickTimeWait _ | .connect | .zeroWindowProbe => isTrue trivial

instance (s : Session) : (event : Event) → Decidable (s.NoProbe event)
  | .zeroWindowProbe => inferInstanceAs (Decidable (¬ s.conn.Probing))
  | .processSegment _ _ | .writeData _ | .nextSegmentToSend _ _ | .readReceived _
  | .takeRetransmits _ | .initiateClose | .tickTimeWait _ | .connect => isTrue trivial

structure Queued (s : Session) (w : Window) : Prop where
  synced : s.Synced w
  sends : s.conn.core.Sends s.written
  tiled : s.conn.core.state = .established → s.conn.core.Tiled s.written w

structure Outstanding (s : Session) (w : Window) : Prop where
  synced : s.Synced w
  sends : s.conn.core.Sends s.written
  recent : s.conn.core.state.sending → s.conn.core.Recent w

theorem start_outstanding (o : Opening) (iss : U32) (e : Endpoint) :
    (o.session iss e).Outstanding .fresh := by
  refine ⟨start_synced o iss e, (start_sender o iss e).sends, ?_⟩
  cases o <;> exact nofun

theorem Outstanding.step {s : Session} {w : Window} (inv : s.Outstanding w) {event : Event}
    (usage : s.Orderly event) :
    ∃ w', (s.step event).Outstanding w' ∧ (event ≠ .connect → w.Moves w' s.conn.core.state) := by
  obtain ⟨w', synced, moves⟩ := inv.synced.step usage
  obtain ⟨out, step, -⟩ := s.step_core event
  have counts' := synced.windowed.counts
  rw [show (s.step event).written = s.written ++ s.conn.core.accepted event by
    rw [← accepted_core]; rfl] at counts'
  exact ⟨w', ⟨synced, step_sends inv.sends event, step.recent inv.synced.windowed.counts
    inv.synced.windowed.stage inv.synced.synced inv.sends inv.synced.empty inv.recent counts'⟩, moves⟩

theorem outstanding_step (s : Session) (event : Event) (inv : ∃ w, s.Outstanding w)
    (usage : s.Orderly event) : ∃ w, (s.step event).Outstanding w := by
  obtain ⟨w, inv⟩ := inv
  obtain ⟨w', next, -⟩ := inv.step usage
  exact ⟨w', next⟩

theorem Queued.step {s : Session} {w : Window} (inv : s.Queued w) {event : Event}
    (usage : s.Orderly event) (room : s.QueueRoom event) (calm : s.NoProbe event) :
    ∃ w', (s.step event).Queued w' := by
  obtain ⟨w', synced, -⟩ := inv.synced.step usage
  refine ⟨w', synced, step_sends inv.sends event, ?_⟩
  intro state'
  have counts := inv.synced.windowed.counts
  have counts' := synced.windowed.counts
  have keep : ∀ e, (s.step e).conn.core = s.conn.core → s.accepted e = [] →
      (s.step e).conn.core.Counts (s.step e).written w' →
      (s.step e).conn.core.state = .established → (s.step e).conn.core.Tiled (s.step e).written w' := by
    intro e same nothing after state
    have written : (s.step e).written = s.written := by simp [Session.step, nothing]
    rw [same] at after state ⊢
    rw [written] at after ⊢
    rw [counts.unique after]
    exact inv.tiled state
  cases event with
  | nextSegmentToSend now n =>
      by_cases able : s.conn.Sendable n
      · obtain ⟨segment, next, sent, -⟩ := Connection.nextSegmentToSend_next now able
        have after : (s.step (.nextSegmentToSend now n)).conn.core = s.conn.core.sent segment := sent
        have written : (s.step (.nextSegmentToSend now n)).written = s.written := List.append_nil _
        rw [after] at counts' state' ⊢
        rw [written] at counts' ⊢
        have state : s.conn.core.state = .established := state'
        obtain ⟨una, nxt⟩ := inv.synced.synced.aligned counts (by rw [state]; rfl)
        have ordered := counts.ordered
        have space : s.conn.core.queue.length < retransmitQueueMax := by
          rw [Connection.core, List.length_map]
          exact room state able
        exact (inv.tiled state).sent counts inv.sends (by omega) next space counts'
      · refine keep _ ?_ rfl counts' state'
        simp only [Session.step, call, Connection.nextSegmentToSend_idle now able]
        rfl
  | zeroWindowProbe =>
      refine keep _ ?_ rfl counts' state'
      simp only [Session.step, call, Connection.zeroWindowProbe_idle calm]
      rfl
  | _ =>
      obtain ⟨out, step, -⟩ := s.step_core _
      exact step.tiled counts inv.synced.windowed.stage inv.synced.synced inv.sends inv.synced.empty
        inv.tiled (by simp) (by simp) counts' synced.synced state'

end Session

def RetransmitEntry.Covers (entry : RetransmitEntry) (seq : U32) : Prop :=
  (seq - entry.seq).toNat < entry.data.length

/-- If anything is outstanding, the queue tiles it: the first entry, which a fast retransmit sends,
contains the first outstanding byte, and every outstanding byte is in an entry. -/
def Connection.Tiled (c : Connection) : Prop :=
  c.tcb.snd.una ≠ c.tcb.snd.nxt →
    ∃ first rest, c.retransmitQueue.entries = first :: rest ∧
      c.retransmitQueue.firstUnacked = some (first.seq, first.data) ∧ first.Covers c.tcb.snd.una ∧
      (c.retransmitQueue.entries.IsChain fun a b => a.endSeq = b.seq) ∧
      (∀ last ∈ c.retransmitQueue.entries.getLast?, last.endSeq = c.tcb.snd.nxt) ∧
      ∀ k < (c.tcb.snd.nxt - c.tcb.snd.una).toNat,
        ∃ e ∈ c.retransmitQueue.entries, e.Covers (c.tcb.snd.una + BitVec.ofNat 32 k)

theorem RetransmitEntry.covers_of_position {entry : RetransmitEntry} {iss : U32} {i x : Nat}
    (seq : entry.seq = iss + BitVec.ofNat 32 i) (after : i ≤ x) (inside : x < i + entry.data.length)
    (short : entry.data.length ≤ 65535) : entry.Covers (iss + BitVec.ofNat 32 x) := by
  unfold RetransmitEntry.Covers
  rw [seq, Serial.sub_toNat_of_le iss after (by omega)]
  omega

theorem Core.Tiled.connection {c : Connection} {W : Bytes} {w : Window} (tiled : c.core.Tiled W w)
    (counts : c.core.Counts W w) (sends : c.core.Sends W) (nxt : w.nxt = w.bufNxt) : c.Tiled := by
  intro outstanding
  have close := counts.close
  have ordered := counts.ordered
  have una : c.tcb.snd.una = c.core.iss + BitVec.ofNat 32 w.una := counts.una
  have next : c.tcb.snd.nxt = c.core.iss + BitVec.ofNat 32 w.bufNxt := nxt ▸ counts.nxt
  have some : w.una < w.bufNxt := by
    apply Nat.lt_of_le_of_ne (by omega)
    intro equal
    rw [una, next, equal] at outstanding
    exact outstanding rfl
  have short : ∀ e ∈ c.retransmitQueue.entries, e.data.length ≤ 65535 := fun e member =>
    (sends.sized e.segment (List.mem_map_of_mem member)).2
  obtain ⟨lo, -, before, tiles, contains⟩ := tiled
  cases queue : c.retransmitQueue.entries with
  | nil =>
      have : c.core.queue = [] := by simp [Connection.core, queue]
      rw [this] at tiles
      have : lo = w.bufNxt := tiles
      omega
  | cons first rest =>
      have queued : c.core.queue = first.segment :: rest.map RetransmitEntry.segment := by
        simp [Connection.core, queue]
      rw [queued] at tiles contains
      refine ⟨first, rest, rfl, by simp [RetransmitQueue.firstUnacked, queue], ?_, ?_, ?_, ?_⟩
      · rw [una]
        exact RetransmitEntry.covers_of_position tiles.1.1 before (contains _ rfl)
          (short first (by simp [queue]))
      · have chain := tiles.chain
        rw [← List.map_cons, List.isChain_map] at chain
        exact chain
      · intro last found
        rw [next]
        apply tiles.last last.segment
        rw [← List.map_cons, List.getLast?_map, found]
        rfl
      · intro k inside
        rw [una, next, Serial.sub_toNat_of_le _ some.le (by omega)] at inside
        obtain ⟨segment, member, i, seq, -, -, after, within⟩ :=
          tiles.covers (show lo ≤ w.una + k by omega) (by omega)
        rw [← List.map_cons] at member
        obtain ⟨e, held, rfl⟩ := List.mem_map.mp member
        rw [una, Serial.add_ofNat_ofNat]
        exact ⟨e, held, RetransmitEntry.covers_of_position seq after within
          (short e (by rw [queue]; exact held))⟩

namespace Session

def QueueTiled (s : Session) : Prop := s.conn.tcb.state = .established → s.conn.Tiled

theorem start_queued (o : Opening) (iss : U32) (e : Endpoint) : (o.session iss e).Queued .fresh := by
  refine ⟨start_synced o iss e, (start_sender o iss e).sends, ?_⟩
  cases o <;> exact nofun

theorem queued_step (s : Session) (event : Event) (inv : ∃ w, s.Queued w) (usage : s.Orderly event)
    (calm : s.NoProbe event) (room : s.QueueRoom event) : ∃ w, (s.step event).Queued w := by
  obtain ⟨w, inv⟩ := inv
  exact inv.step usage room calm

theorem Queued.tiles {s : Session} {w : Window} (inv : s.Queued w)
    (state : s.conn.tcb.state = .established) : s.conn.Tiled := by
  have counts := inv.synced.windowed.counts
  obtain ⟨-, nxt⟩ := inv.synced.synced.aligned counts (by
    rw [show s.conn.core.state = .established from state]
    rfl)
  exact (inv.tiled state).connection counts inv.sends nxt

theorem Queued.gap {s : Session} {w : Window} (inv : s.Queued w) (now : Instant) {n : Nat}
    (state : s.conn.tcb.state = .established) (able : s.conn.Sendable n)
    (full : ¬ s.conn.retransmitQueue.entries.length < retransmitQueueMax) :
    (s.step (.nextSegmentToSend now n)).conn.tcb.state = .established ∧
      ¬ (s.step (.nextSegmentToSend now n)).conn.Tiled := by
  have counts := inv.synced.windowed.counts
  obtain ⟨una, nxt⟩ := inv.synced.synced.aligned counts (by
    rw [show s.conn.core.state = .established from state]
    rfl)
  obtain ⟨segment, next, sent, -⟩ := Connection.nextSegmentToSend_next now able
  have after : (s.step (.nextSegmentToSend now n)).conn.core = s.conn.core.sent segment := sent
  generalize (s.step (.nextSegmentToSend now n)).conn = c' at after
  have state' : c'.tcb.state = .established := (congrArg Core.state after).trans state
  refine ⟨state', fun tiled => ?_⟩
  have advanced : (s.conn.core.sent segment).Counts s.written _ := counts.advance next rfl rfl rfl rfl
  obtain ⟨inside, -, positive, -⟩ := counts.nextSegment next
  have short := (queueable_of_nextSegment (s.conn.segmentLimit_le n) next).2
  rw [← after] at advanced
  have ordered := counts.ordered
  have close := advanced.close
  have una' : c'.tcb.snd.una = c'.core.iss + BitVec.ofNat 32 w.una := advanced.una
  have nxt' : c'.tcb.snd.nxt = c'.core.iss + BitVec.ofNat 32 (w.bufNxt + segment.2.length) :=
    advanced.nxt
  have queue : c'.core.queue = s.conn.core.queue := by
    rw [after]
    exact if_neg (by rwa [Connection.core, List.length_map])
  have iss : c'.core.iss = s.conn.core.iss := by rw [after]; rfl
  dsimp only at close
  obtain ⟨first, rest, entries, -, -, -, last, -⟩ := tiled (by
    rw [una', nxt']
    intro equal
    have := Serial.eq_of_add_ofNat _ (by omega) (by omega) equal
    omega)
  obtain ⟨lo, -, before, tiles, -⟩ := inv.tiled state
  obtain ⟨final, found⟩ : ∃ final, c'.retransmitQueue.entries.getLast? = some final := by
    rw [entries]
    exact ⟨_, List.getLast?_eq_some_getLast (List.cons_ne_nil first rest)⟩
  have ends := last final found
  have reached := tiles.last final.segment (by
    rw [← queue, Connection.core, List.getLast?_map, found]
    rfl)
  rw [nxt', show final.endSeq = endOf final.segment from rfl, reached, iss] at ends
  have := Serial.eq_of_add_ofNat _ (by omega) (by omega) ends
  omega

/-- The queue tiles what is outstanding in every ESTABLISHED state of a run exactly if no segment is
sent in ESTABLISHED while the queue is full. -/
theorem queue_tiles_iff (o : Opening) (iss : U32) (e : Endpoint) (events : List Event)
    (usage : Along Orderly (o.session iss e) events) (calm : Along NoProbe (o.session iss e) events) :
    Always QueueTiled (o.session iss e) events ↔
      Along QueueRoom (o.session iss e) events := by
  apply Runs.always_iff_along (U := fun s event => s.Orderly event ∧ s.NoProbe event)
  · exact fun s event inv usage room => queued_step s event inv usage.1 usage.2 room
  · rintro s ⟨w, inv⟩
    exact inv.tiles
  · rintro s event ⟨w, inv⟩ - tiled
    cases event with
    | nextSegmentToSend now n =>
        intro state able
        by_contra full
        obtain ⟨state', broken⟩ := inv.gap now state able full
        exact broken (tiled state')
    | _ => trivial
  · exact ⟨_, start_queued o iss e⟩
  · exact Runs.along_and.mpr ⟨usage, calm⟩

def flood : List Event :=
  establish ++ .writeData (List.replicate 129 0#8) :: List.replicate 129 (.nextSegmentToSend 0 1)

theorem queue_tiles_flood :
    (Along Orderly server flood ∧ Along NoProbe server flood) ∧
      ¬ Always QueueTiled server flood := by
  refine ⟨by decide +kernel, fun always => ?_⟩
  have final : QueueTiled (exec server flood) := Runs.always_exec always
  have outcome : (exec server flood).conn.tcb.state = .established ∧
      (exec server flood).conn.tcb.snd.una ≠ (exec server flood).conn.tcb.snd.nxt ∧
      ∃ last ∈ (exec server flood).conn.retransmitQueue.entries.getLast?,
        last.endSeq ≠ (exec server flood).conn.tcb.snd.nxt := by
    decide +kernel
  generalize exec server flood = s at final outcome
  obtain ⟨state, outstanding, last, found, short⟩ := outcome
  obtain ⟨_, _, -, -, -, -, reached, -⟩ := final state outstanding
  exact short (reached last found)

def transfer : List Event :=
  establish ++ [.writeData [1#8, 2#8, 3#8], .nextSegmentToSend 0 2, .nextSegmentToSend 0 1,
    clientAck (serverIsn + 2#32) 65535#16]

theorem queue_tiles_transfer :
    Along Orderly server transfer ∧ Along NoProbe server transfer ∧
      Always QueueTiled server transfer := by
  have usage : Along Orderly server transfer := by decide +kernel
  have calm : Along NoProbe server transfer := by decide +kernel
  have room : Along QueueRoom server transfer := by decide +kernel
  exact ⟨usage, calm, (queue_tiles_iff _ _ _ _ usage calm).mpr room⟩

/-! ## Zero-window probes -/

def acked (s : Session) : Nat := s.conn.sendBuf.base s.written
def sent (s : Session) : Nat := s.acked + s.conn.sendBuf.inflight

def numberOf (s : Session) (i : Nat) : U32 := s.conn.tcb.snd.iss + 1#32 + BitVec.ofNat 32 i

/-- Every byte that was written is before `snd.una`, or at or after the `nxt` of the buffer, or in the
queue. -/
structure Accounted (s : Session) : Prop where
  una : s.conn.tcb.snd.una = s.numberOf s.acked
  nxt : s.conn.sendBuf.nxt = s.numberOf s.sent
  kept : ∀ i < s.written.length, i < s.acked ∨ s.sent ≤ i ∨
    ∃ e ∈ s.conn.retransmitQueue.entries, e.data[(s.numberOf i - e.seq).toNat]? = s.written[i]?

def BytesAccounted (s : Session) : Prop := s.conn.tcb.state = .established → s.Accounted

theorem numberOf_eq (s : Session) (i : Nat) :
    s.numberOf i = s.conn.core.iss + BitVec.ofNat 32 (i + 1) := by
  rw [Nat.add_comm, ← Serial.add_ofNat_ofNat]
  rfl

theorem Synced.positions {s : Session} {w : Window} (inv : s.Synced w)
    (state : s.conn.tcb.state = .established) :
    w.una = s.acked + 1 ∧ w.bufUna = s.acked + 1 ∧ w.nxt = s.sent + 1 ∧ w.bufNxt = s.sent + 1 := by
  have counts := inv.windowed.counts
  have sending : s.conn.core.state.sending = true := by
    rw [show s.conn.core.state = .established from state]
    rfl
  obtain ⟨una, nxt⟩ := inv.synced.aligned counts sending
  have base : s.acked + 1 = w.bufUna := counts.base
  have ordered := counts.ordered
  have inflight : s.conn.sendBuf.inflight = w.bufNxt - w.bufUna := counts.inflight (by omega)
  unfold sent
  omega

theorem Queued.accounted {s : Session} {w : Window} (inv : s.Queued w)
    (state : s.conn.tcb.state = .established) : s.Accounted := by
  obtain ⟨una, bufUna, nxt, bufNxt⟩ := inv.synced.positions state
  have counts := inv.synced.windowed.counts
  refine ⟨?_, ?_, ?_⟩
  · rw [numberOf_eq, ← una]
    exact counts.una
  · rw [numberOf_eq, ← bufNxt]
    exact counts.bufNxt
  · intro i inside
    by_cases before : i < s.acked
    · exact .inl before
    by_cases after : s.sent ≤ i
    · exact .inr (.inl after)
    obtain ⟨lo, positive, start, tiles, -⟩ := inv.tiled state
    obtain ⟨segment, member, j, seq, slice, low, le, lt⟩ :=
      tiles.covers (x := i + 1) (by omega) (by omega)
    obtain ⟨e, held, rfl⟩ := List.mem_map.mp member
    have short : e.data.length ≤ 65535 := (inv.sends.sized _ member).2
    have lt : i + 1 < j + e.data.length := lt
    have offset : (s.numberOf i - e.seq).toNat = i + 1 - j := by
      rw [numberOf_eq, show e.seq = s.conn.core.iss + BitVec.ofNat 32 j from seq,
        Serial.sub_toNat_of_le _ le (by omega)]
    refine .inr (.inr ⟨e, held, ?_⟩)
    rw [offset]
    refine (slice.getElem?_eq (show i + 1 - j < e.data.length by omega)).trans ?_
    congr 1
    omega

theorem Queued.lost {s : Session} {w : Window} (inv : s.Queued w) (probing : s.conn.Probing) :
    (s.step .zeroWindowProbe).conn.tcb.state = .established ∧
      ¬ (s.step .zeroWindowProbe).Accounted := by
  obtain ⟨una, bufUna, nxt, bufNxt⟩ := inv.synced.positions probing.1
  have counts := inv.synced.windowed.counts
  obtain ⟨segment, next, probed, -⟩ := Connection.zeroWindowProbe_next probing
  have after : (s.step .zeroWindowProbe).conn.core = s.conn.core.probed := probed
  have state' : (s.step .zeroWindowProbe).conn.tcb.state = .established :=
    (congrArg Core.state after).trans probing.1
  refine ⟨state', fun accounted => ?_⟩
  have usage : s.Orderly .zeroWindowProbe := ⟨trivial, trivial⟩
  obtain ⟨w', synced', -⟩ := inv.synced.step usage
  obtain ⟨una', -, -, bufNxt'⟩ := synced'.positions state'
  have written : (s.step .zeroWindowProbe).written = s.written := List.append_nil _
  have one := SendBuffer.nextSegment_one next
  have advanced : s.conn.core.probed.Counts s.written _ :=
    counts.advance next rfl rfl (by rw [one]; rfl) rfl
  obtain ⟨below, -, -, room⟩ := counts.nextSegment next
  rw [← after, ← written] at advanced
  rw [advanced.unique synced'.windowed.counts, one] at una' bufNxt'
  dsimp only at una' bufNxt'
  have inside : s.sent < (s.step .zeroWindowProbe).written.length := by
    have := counts.written
    rw [written]
    omega
  -- The entries end where the probe was sent, and what is still to be sent starts behind it.
  rcases accounted.kept s.sent inside with before | later | ⟨e, held, byte⟩
  · omega
  · omega
  · obtain ⟨lo, -, -, tiles, contains⟩ := inv.tiled probing.1
    have queued : e.segment ∈ s.conn.core.queue := by
      have member : e.segment ∈ (s.step .zeroWindowProbe).conn.core.queue :=
        List.mem_map_of_mem held
      rwa [after] at member
    obtain ⟨j, seq, recent, ends⟩ := tiles.recent contains e.segment queued
    have short : e.data.length ≤ 65535 := (inv.sends.sized _ queued).2
    have recent : w.una < j + e.data.length := recent
    have ends : j + e.data.length ≤ w.bufNxt := ends
    have close := counts.close
    have iss : (s.step .zeroWindowProbe).conn.core.iss = s.conn.core.iss := by rw [after]; rfl
    have offset : ((s.step .zeroWindowProbe).numberOf s.sent - e.seq).toNat = w.bufNxt - j := by
      rw [numberOf_eq, iss, ← bufNxt,
        show e.seq = s.conn.core.iss + BitVec.ofNat 32 j from seq,
        Serial.sub_toNat_of_le _ (by omega) (by omega)]
    rw [offset, List.getElem?_eq_none (by omega), List.getElem?_eq_getElem inside] at byte
    exact nomatch byte

/-- Every byte is accounted for in every ESTABLISHED state of a run exactly if no zero-window probe is
ever sent, provided that the queue does not overflow. -/
theorem bytes_accounted_iff (o : Opening) (iss : U32) (e : Endpoint) (events : List Event)
    (usage : Along Orderly (o.session iss e) events) (room : Along QueueRoom (o.session iss e) events) :
    Always BytesAccounted (o.session iss e) events ↔
      Along NoProbe (o.session iss e) events := by
  apply Runs.always_iff_along (U := fun s event => s.Orderly event ∧ s.QueueRoom event)
  · exact fun s event inv usage calm => queued_step s event inv usage.1 calm usage.2
  · rintro s ⟨w, inv⟩
    exact inv.accounted
  · rintro s event ⟨w, inv⟩ - accounted
    cases event with
    | zeroWindowProbe =>
        intro probing
        obtain ⟨state', broken⟩ := inv.lost probing
        exact broken (accounted state')
    | _ => trivial
  · exact ⟨_, start_queued o iss e⟩
  · exact Runs.along_and.mpr ⟨usage, room⟩

def probe : List Event :=
  [.processSegment 0 (clientSegment clientIsn 0#32 { syn := true } 65535#16 []),
    clientAck (serverIsn + 1#32) 0#16, .writeData [7#8], .zeroWindowProbe]

theorem bytes_accounted_probe :
    (Along Orderly server probe ∧ Along QueueRoom server probe) ∧
      ¬ Always BytesAccounted server probe := by
  refine ⟨by decide +kernel, fun always => ?_⟩
  have final : BytesAccounted (exec server probe) := Runs.always_exec always
  have outcome : (exec server probe).conn.tcb.state = .established ∧
      0 < (exec server probe).written.length ∧ (exec server probe).acked = 0 ∧
      (exec server probe).sent = 1 ∧
      (exec server probe).conn.retransmitQueue.entries.length = 0 := by
    decide +kernel
  generalize exec server probe = s at final outcome
  obtain ⟨state, some, acked, sent, none⟩ := outcome
  rcases (final state).kept 0 some with before | later | ⟨e, held, -⟩
  · omega
  · omega
  · rw [List.eq_nil_of_length_eq_zero none] at held
    exact absurd held List.not_mem_nil

theorem bytes_accounted_transfer :
    Along Orderly server transfer ∧ Along QueueRoom server transfer ∧
      Always BytesAccounted server transfer := by
  have usage : Along Orderly server transfer := by decide +kernel
  have room : Along QueueRoom server transfer := by decide +kernel
  have calm : Along NoProbe server transfer := by decide +kernel
  exact ⟨usage, room, (bytes_accounted_iff _ _ _ _ usage room).mpr calm⟩

end Session

end MagnumTcp.Tcp
