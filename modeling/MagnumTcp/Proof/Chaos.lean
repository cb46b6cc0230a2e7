import MagnumTcp.Lib.FrontQueue
import MagnumTcp.Lib.Runs
import MagnumTcp.Net.Chaos
import Mathlib.Data.List.Perm.Basic
import Mathlib.Tactic.SplitIfs

namespace MagnumTcp

open FrontQueue

def due (now : Instant) (entry : Bytes × Instant) : Bool := entry.2 ≤ now

theorem not_due_iff {now : Instant} {entry : Bytes × Instant} :
    due now entry = false ↔ now < entry.2 :=
  decide_eq_false_iff_not.trans Nat.not_le

theorem popReady_eq (now : Instant) (pending : Pending) :
    popReady now pending =
      ((pending.takeWhile (due now)).map Prod.fst, pending.dropWhile (due now)) := by
  induction pending with
  | nil => rfl
  | cons entry rest ih =>
      obtain ⟨packet, release⟩ := entry
      unfold popReady
      by_cases ready : release ≤ now
      · have front : due now (packet, release) = true := decide_eq_true ready
        rw [if_pos ready, ih, List.takeWhile_cons_of_pos front, List.dropWhile_cons_of_pos front]
        rfl
      · have front : ¬ due now (packet, release) = true := by simpa [due] using ready
        rw [if_neg ready, List.takeWhile_cons_of_neg front, List.dropWhile_cons_of_neg front]
        rfl

theorem ChaosMiddleware.flushReady_eq (m : ChaosMiddleware) (now : Instant) :
    m.flushReady now = ({ m with pending := m.pending.dropWhile (due now) },
      (m.pending.takeWhile (due now)).map Prod.fst) := by
  rw [flushReady, popReady_eq]

theorem ChaosMiddleware.fate_delay (m : ChaosMiddleware) :
    m.fate.2.delayMs ≤ m.config.maxJitterMs.toNat := by
  unfold fate
  dsimp only
  split_ifs
  · exact Nat.zero_le _
  · exact Nat.le_of_lt_succ (Nat.mod_lt _ (Nat.succ_pos _))
  · exact Nat.zero_le _

theorem ChaosMiddleware.intercept_fate (m : ChaosMiddleware) (packet : Bytes) (now : Instant) :
    ∃ fate : Fate, fate.delayMs ≤ m.config.maxJitterMs.toNat ∧
      (m.intercept packet now).2 = (m.interceptWith packet fate now).2 ∧
      (m.intercept packet now).1.pending = (m.interceptWith packet fate now).1.pending := by
  have queue : m.fate.1.pending = m.pending := by
    unfold fate
    dsimp only
    split_ifs <;> rfl
  refine ⟨m.fate.2, m.fate_delay, ?_⟩
  unfold intercept interceptWith
  dsimp only
  rw [queue]
  split_ifs
  · exact ⟨rfl, queue⟩
  · simp only [flushReady_eq, and_self]
  · simp only [flushReady_eq, queue, and_self]

namespace ChaosCall

theorem kept_eq (c : ChaosCall) : c.kept = c.held ++ c.direct := by
  unfold held direct
  split_ifs
  · rw [List.append_nil]
  · rw [List.nil_append]

theorem direct_due (c : ChaosCall) : ∀ entry ∈ c.direct, entry.2 = c.now := by
  cases c with
  | flushReady now => simp [direct, queues, kept]
  | intercept packet fate now =>
      intro entry member
      by_cases queued : (decide (fate.delayMs > 0) || fate.reorder) = true
      · simp [direct, queues, queued] at member
      · simp only [direct, queues, queued, kept, Bool.false_eq_true, if_false] at member
        have undelayed : fate.delayMs = 0 := by
          simp only [Bool.or_eq_true, decide_eq_true_eq, not_or] at queued
          omega
        cases lost : fate.dropped with
        | true => simp [lost] at member
        | false =>
            simp only [lost, Bool.false_eq_true, if_false, List.mem_singleton, undelayed] at member
            rw [member]
            rfl

end ChaosCall

namespace ChaosRun

variable {r : ChaosRun} {c : ChaosCall}

theorem call_dropped (dropped : c.drops = true) :
    r.call c = (r.chaos, []) ∧ c.held = [] ∧ c.kept = [] := by
  cases c with
  | flushReady now => cases dropped
  | intercept packet fate now =>
      have lost : fate.dropped = true := dropped
      simp [call, ChaosMiddleware.interceptWith, ChaosCall.held, ChaosCall.kept, lost]

theorem call_eq (r : ChaosRun) (kept : c.drops = false) :
    (r.call c).1.pending = (r.chaos.pending ++ c.held).dropWhile (due c.now) ∧
      (r.call c).2 =
        ((r.chaos.pending ++ c.held).takeWhile (due c.now) ++ c.direct).map Prod.fst := by
  cases c with
  | flushReady now =>
      simp [call, ChaosMiddleware.flushReady_eq, ChaosCall.held, ChaosCall.direct, ChaosCall.queues,
        ChaosCall.kept, ChaosCall.now]
  | intercept packet fate now =>
      have passed : fate.dropped = false := kept
      by_cases queued : (decide (fate.delayMs > 0) || fate.reorder) = true
      · simp [call, ChaosMiddleware.interceptWith, ChaosMiddleware.flushReady_eq, ChaosCall.held,
          ChaosCall.direct, ChaosCall.queues, ChaosCall.kept, ChaosCall.now, passed, queued]
      · simp [call, ChaosMiddleware.interceptWith, ChaosMiddleware.flushReady_eq, ChaosCall.held,
          ChaosCall.direct, ChaosCall.queues, ChaosCall.kept, ChaosCall.now, passed, queued]

def InTime (r : ChaosRun) (c : ChaosCall) : Prop := r.now ≤ c.now

def comesDue (r : ChaosRun) (c : ChaosCall) (entry : Bytes × Instant) : Bool :=
  !due r.now entry && due c.now entry

/-- The kept packets whose release time has come since the call before. -/
def dueNow (r : ChaosRun) (c : ChaosCall) : Pending :=
  r.kept.filter (r.comesDue c) ++ c.kept.filter (due c.now)

/-- The call puts out exactly these, keeps none of them back, and every packet that was not dropped has either
been put out once or is still pending. -/
structure OnTime (r : ChaosRun) (c : ChaosCall) : Prop where
  output : (r.call c).2.Perm ((r.dueNow c).map Prod.fst)
  pending : ∀ entry ∈ (r.step c).chaos.pending, c.now < entry.2
  once : ((r.step c).emitted ++ (r.step c).chaos.pending.map Prod.fst).Perm
    ((r.step c).kept.map Prod.fst)

/-- No held packet comes due with a call that drops its packet, and with any other call none is due behind one
that is not. -/
def Unblocked (r : ChaosRun) (c : ChaosCall) : Prop :=
  if c.drops then ∀ entry ∈ r.held, due c.now entry = true → due r.now entry = true
  else ReadyFirst (due c.now) (r.held ++ c.held)

/-! ## The queue and the history -/

structure Tracked (r : ChaosRun) : Prop where
  held : ∃ gone, r.held = gone ++ r.chaos.pending ∧ ∀ entry ∈ gone, due r.now entry = true
  once : (r.emitted ++ r.chaos.pending.map Prod.fst).Perm (r.kept.map Prod.fst)

structure Prompt (r : ChaosRun) : Prop where
  waiting : ∀ entry ∈ r.chaos.pending, due r.now entry = false
  kept : (r.kept.filter fun entry => !due r.now entry).Perm r.chaos.pending

theorem due_mono {now later : Instant} (le : now ≤ later) {entry : Bytes × Instant}
    (ready : due now entry = true) : due later entry = true :=
  decide_eq_true (le_trans (of_decide_eq_true ready) le)

theorem start_tracked (config : ChaosConfig) : (start config).Tracked :=
  ⟨⟨[], rfl, List.forall_mem_nil _⟩, .refl _⟩

theorem start_prompt (config : ChaosConfig) : (start config).Prompt :=
  ⟨List.forall_mem_nil _, .refl _⟩

theorem Tracked.step (tracked : r.Tracked) (time : r.InTime c) : (r.step c).Tracked := by
  obtain ⟨gone, held, before⟩ := tracked.held
  have passed : ∀ entry ∈ gone, due c.now entry = true := fun entry member =>
    due_mono time (before entry member)
  cases drops : c.drops with
  | true =>
      obtain ⟨call, none, nothing⟩ := r.call_dropped drops
      constructor
      · refine ⟨gone, ?_, passed⟩
        simp only [ChaosRun.step, call, none, held, List.append_nil]
      · simp only [ChaosRun.step, call, nothing, List.append_nil]
        exact tracked.once
  | false =>
      obtain ⟨pending, output⟩ := r.call_eq drops
      have all := List.takeWhile_append_dropWhile (p := due c.now) (l := r.chaos.pending ++ c.held)
      constructor
      · refine ⟨gone ++ (r.chaos.pending ++ c.held).takeWhile (due c.now), ?_, ?_⟩
        · simp only [ChaosRun.step, pending, held, List.append_assoc, all]
        · rw [List.forall_mem_append]
          exact ⟨passed, fun entry member => List.mem_takeWhile_imp member⟩
      · have packets := congrArg (List.map Prod.fst) all
        rw [List.map_append, List.map_append] at packets
        simp only [ChaosRun.step, pending, output, c.kept_eq, List.map_append, List.append_assoc]
        generalize ((r.chaos.pending ++ c.held).takeWhile (due c.now)).map Prod.fst = out at *
        generalize ((r.chaos.pending ++ c.held).dropWhile (due c.now)).map Prod.fst = left at *
        -- The packet that is put out directly overtakes those that are left.
        have overtaken : (out ++ (c.direct.map Prod.fst ++ left)).Perm
            (r.chaos.pending.map Prod.fst ++ (c.held.map Prod.fst ++ c.direct.map Prod.fst)) := by
          rw [← List.append_assoc _ (c.held.map Prod.fst), ← packets, List.append_assoc]
          exact .append_left out List.perm_append_comm
        apply (overtaken.append_left r.emitted).trans
        rw [← List.append_assoc]
        exact tracked.once.append_right _

/-! ## On time -/

theorem Tracked.unblocked (tracked : r.Tracked) (time : r.InTime c) (onTime : r.OnTime c) :
    r.Unblocked c := by
  obtain ⟨gone, held, before⟩ := tracked.held
  have left := onTime.pending
  unfold Unblocked
  cases drops : c.drops with
  | true =>
      rw [if_pos rfl, held, List.forall_mem_append]
      obtain ⟨call, -, -⟩ := r.call_dropped drops
      simp only [ChaosRun.step, call] at left
      constructor
      · intro entry member _
        exact before entry member
      · intro entry member ready
        rw [not_due_iff.mpr (left entry member)] at ready
        cases ready
  | false =>
      obtain ⟨pending, -⟩ := r.call_eq drops
      simp only [ChaosRun.step, pending] at left
      rw [if_neg Bool.false_ne_true, held, List.append_assoc,
        readyFirst_append fun entry member => due_mono time (before entry member), readyFirst_iff]
      intro entry member
      exact not_due_iff.mpr (left entry member)

theorem Prompt.filter_kept (prompt : r.Prompt) (p : Bytes × Instant → Bool)
    (later : ∀ entry, p entry = true → due r.now entry = false) :
    (r.kept.filter p).Perm (r.chaos.pending.filter p) := by
  have same : r.kept.filter p = (r.kept.filter fun entry => !due r.now entry).filter p := by
    rw [List.filter_filter]
    apply List.filter_congr
    intro entry _
    cases ready : p entry with
    | false => rfl
    | true => simp [later entry ready]
  rw [same]
  exact prompt.kept.filter p

theorem Prompt.filter_comesDue (prompt : r.Prompt) (c : ChaosCall) :
    (r.kept.filter (r.comesDue c)).Perm (r.chaos.pending.filter (r.comesDue c)) := by
  apply prompt.filter_kept
  intro entry comes
  simp only [comesDue, Bool.and_eq_true, Bool.not_eq_true'] at comes
  exact comes.1

theorem not_due_of_later (time : r.InTime c) (entry : Bytes × Instant)
    (late : (!due c.now entry) = true) : due r.now entry = false := by
  cases early : due r.now entry with
  | false => rfl
  | true => simp [due_mono time early] at late

theorem Prompt.dropped (prompt : r.Prompt) (tracked : r.Tracked) (time : r.InTime c)
    (drops : c.drops = true) (unblocked : r.Unblocked c) : r.OnTime c ∧ (r.step c).Prompt := by
  obtain ⟨gone, held, -⟩ := tracked.held
  obtain ⟨call, -, nothing⟩ := r.call_dropped drops
  rw [Unblocked, if_pos drops, held, List.forall_mem_append] at unblocked
  have late : ∀ entry ∈ r.chaos.pending, due c.now entry = false := by
    intro entry member
    cases ready : due c.now entry with
    | false => rfl
    | true =>
        have early := unblocked.2 entry member ready
        rw [prompt.waiting entry member] at early
        cases early
  have nobody : r.chaos.pending.filter (r.comesDue c) = [] := by
    apply List.filter_eq_nil_iff.mpr
    intro entry member
    simp [comesDue, late entry member]
  have none : r.dueNow c = [] := by
    have empty := prompt.filter_comesDue c
    rw [nobody] at empty
    rw [dueNow, nothing, empty.eq_nil]
    rfl
  refine ⟨⟨?_, ?_, (tracked.step time).once⟩, ?_, ?_⟩
  · rw [call, none]
    exact .refl _
  · intro entry member
    simp only [ChaosRun.step, call] at member
    exact not_due_iff.mp (late entry member)
  · intro entry member
    simp only [ChaosRun.step, call] at member
    exact late entry member
  · simp only [ChaosRun.step, call, nothing, List.append_nil]
    have all : r.chaos.pending.filter (fun entry => !due c.now entry) = r.chaos.pending := by
      apply List.filter_eq_self.mpr
      intro entry member
      simp [late entry member]
    have waiting := prompt.filter_kept _ (not_due_of_later time)
    rwa [all] at waiting

theorem Prompt.passed (prompt : r.Prompt) (tracked : r.Tracked) (time : r.InTime c)
    (drops : c.drops = false) (unblocked : r.Unblocked c) : r.OnTime c ∧ (r.step c).Prompt := by
  obtain ⟨gone, held, before⟩ := tracked.held
  obtain ⟨pending, output⟩ := r.call_eq drops
  rw [Unblocked, drops, if_neg Bool.false_ne_true, held, List.append_assoc,
    readyFirst_append fun entry member => due_mono time (before entry member)] at unblocked
  rw [unblocked.takeWhile] at output
  rw [unblocked.dropWhile] at pending
  have late : ∀ entry ∈ (r.step c).chaos.pending, due c.now entry = false := by
    intro entry member
    simp only [ChaosRun.step, pending] at member
    simpa using (List.mem_filter.mp member).2
  have direct : ∀ entry ∈ c.direct, due c.now entry = true := fun entry member =>
    decide_eq_true (c.direct_due entry member).le
  refine ⟨⟨?_, ?_, (tracked.step time).once⟩, late, ?_⟩
  · rw [output, dueNow, c.kept_eq, List.filter_append, List.filter_append,
      List.filter_eq_self.mpr direct, ← List.append_assoc]
    apply List.Perm.map
    apply List.Perm.append_right
    apply List.Perm.append_right
    have same : r.chaos.pending.filter (r.comesDue c) = r.chaos.pending.filter (due c.now) := by
      apply List.filter_congr
      intro entry member
      simp [comesDue, prompt.waiting entry member]
    rw [← same]
    exact (prompt.filter_comesDue c).symm
  · intro entry member
    exact not_due_iff.mp (late entry member)
  · have gone : c.direct.filter (fun entry => !due c.now entry) = [] := by
      apply List.filter_eq_nil_iff.mpr
      intro entry member
      simp [direct entry member]
    simp only [ChaosRun.step, pending]
    rw [c.kept_eq, List.filter_append, List.filter_append, List.filter_append, gone, List.append_nil]
    exact (prompt.filter_kept _ (not_due_of_later time)).append_right _

theorem Prompt.step (prompt : r.Prompt) (tracked : r.Tracked) (time : r.InTime c)
    (unblocked : r.Unblocked c) : r.OnTime c ∧ (r.step c).Prompt := by
  cases drops : c.drops with
  | true => exact prompt.dropped tracked time drops unblocked
  | false => exact prompt.passed tracked time drops unblocked

abbrev Along (C : ChaosRun → ChaosCall → Prop) : ChaosRun → List ChaosCall → Prop :=
  Runs.Along step C

theorem releases_on_time_iff (config : ChaosConfig) (calls : List ChaosCall)
    (times : Along InTime (start config) calls) :
    Along OnTime (start config) calls ↔ Along Unblocked (start config) calls := by
  have keep : ∀ (r : ChaosRun) (c : ChaosCall), r.Tracked ∧ r.Prompt → r.InTime c → r.Unblocked c →
      (r.step c).Tracked ∧ (r.step c).Prompt := by
    intro r c inv time unblocked
    exact ⟨inv.1.step time, (inv.2.step inv.1 time unblocked).2⟩
  have agree : ∀ (r : ChaosRun) (c : ChaosCall), r.Tracked ∧ r.Prompt → r.InTime c →
      (r.OnTime c ↔ r.Unblocked c) := by
    intro r c inv time
    constructor
    · exact inv.1.unblocked time
    · intro unblocked
      exact (inv.2.step inv.1 time unblocked).1
  exact Runs.along_congr keep agree ⟨start_tracked config, start_prompt config⟩ times

/-- Late or not, no packet that was kept is lost, doubled or altered. -/
theorem kept_once (config : ChaosConfig) (calls : List ChaosCall)
    (times : Along InTime (start config) calls) :
    Runs.Always step
      (fun r => (r.emitted ++ r.chaos.pending.map Prod.fst).Perm (r.kept.map Prod.fst))
      (start config) calls :=
  Runs.always_inv (fun _ _ tracked time => tracked.step time) (fun _ => Tracked.once)
    (start_tracked config) times

instance (r : ChaosRun) (c : ChaosCall) : Decidable (r.InTime c) :=
  inferInstanceAs (Decidable (r.now ≤ c.now))

instance (r : ChaosRun) (c : ChaosCall) : Decidable (r.Unblocked c) :=
  inferInstanceAs (Decidable (if c.drops then
      ∀ entry ∈ r.held, due c.now entry = true → due r.now entry = true
    else ReadyFirst (due c.now) (r.held ++ c.held)))

def jitter : ChaosConfig := ⟨0.1, 0.0, 100#64⟩

def packetWithin (config : ChaosConfig) : ChaosCall → Bool
  | .intercept _ fate _ => fate.delayMs ≤ config.maxJitterMs.toNat
  | .flushReady _ => true

def overtaking : List ChaosCall :=
  [.intercept [1#8] ⟨false, 100, false⟩ 0, .intercept [2#8] ⟨false, 10, false⟩ 0,
    .flushReady (Duration.fromMillis 50)]

def dropping : List ChaosCall :=
  [.intercept [1#8] ⟨false, 10, false⟩ 0, .intercept [2#8] ⟨true, 0, false⟩ (Duration.fromMillis 50)]

theorem late_release :
    (Along InTime (start jitter) overtaking ∧ (overtaking.all (packetWithin jitter)) = true ∧
      ¬ Along OnTime (start jitter) overtaking) ∧
    (Along InTime (start jitter) dropping ∧ (dropping.all (packetWithin jitter)) = true ∧
      ¬ Along OnTime (start jitter) dropping) := by
  refine ⟨⟨by decide, by decide, ?_⟩, ⟨by decide, by decide, ?_⟩⟩
  · rintro ⟨-, -, third, -⟩
    exact absurd (third.pending ([2#8], 10000000) (by decide)) (by decide)
  · rintro ⟨-, second, -⟩
    exact absurd (second.pending ([1#8], 10000000) (by decide)) (by decide)

def orderly : List ChaosCall :=
  [.intercept [1#8] ⟨false, 10, false⟩ 0, .intercept [2#8] ⟨false, 100, false⟩ 0,
    .flushReady (Duration.fromMillis 50), .intercept [3#8] ⟨true, 0, false⟩ (Duration.fromMillis 60),
    .flushReady (Duration.fromMillis 200)]

theorem releases_on_time_iff_orderly :
    Along InTime (start jitter) orderly ∧ Along OnTime (start jitter) orderly ∧
      (Runs.exec step (start jitter) orderly).emitted = [[1#8], [2#8]] := by
  have times : Along InTime (start jitter) orderly := by decide
  have unblocked : Along Unblocked (start jitter) orderly := by decide
  exact ⟨times, (releases_on_time_iff jitter orderly times).mpr unblocked, by decide⟩

end ChaosRun

end MagnumTcp
