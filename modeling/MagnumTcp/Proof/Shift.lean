import Mathlib.Data.List.Perm.Basic
import MagnumTcp.Proof.Placement
import MagnumTcp.Tcp.Script

namespace MagnumTcp.Tcp

variable (d : U32)

theorem shift_sub (a b : U32) : a + d - (b + d) = a - b := by bv_omega

theorem seqLt_shift (a b : U32) : seqLt (a + d) (b + d) = seqLt a b := by
  rw [Bool.eq_iff_iff, seqLt_iff_distance, seqLt_iff_distance, shift_sub]

theorem shift_inj {a b : U32} : a + d = b + d ↔ a = b := BitVec.add_left_inj d

def shiftEntry (entry : U32 × Bytes) : U32 × Bytes := (entry.1 + d, entry.2)

def RecvOp.shift : RecvOp → RecvOp
  | .insert seq data => .insert (seq + d) data
  | .read bufLen => .read bufLen

def Placement.shift : Placement → Placement
  | .ignored => .ignored
  | .inOrder data => .inOrder data
  | .ahead key data => .ahead (key + d) data

namespace RecvBuffer

/-- The same buffer `d` numbers later; the map holds the same segments, perhaps in another order. -/
structure Shifted (a b : RecvBuffer) : Prop where
  ring : b.ring = a.ring
  nxt : b.nxt = a.nxt + d
  staged : b.ooo.entries.Perm (a.ooo.entries.map (shiftEntry d))

variable {d} {a b : RecvBuffer}

theorem new_shifted (irs : U32) : Shifted d (new irs) (new (irs + d)) where
  ring := rfl
  nxt := by simp only [new]; bv_omega
  staged := .refl _

theorem placement_shift (same : Shifted d a b) (seq : U32) (data : Bytes) :
    b.placement (seq + d) data = (a.placement seq data).shift d := by
  rw [placement_eq, placement_eq, same.nxt, seqLt_shift, shift_sub]
  simp only [shift_inj]
  split_ifs <;> rfl

theorem Shifted.room (same : Shifted d a b) (data : Bytes) : b.room data = a.room data := by
  unfold RecvBuffer.room len
  rw [same.ring]

theorem Shifted.commit (same : Shifted d a b) (data : Bytes) :
    Shifted d (a.commit data) (b.commit data) where
  ring := by simp only [RecvBuffer.commit, same.ring]
  nxt := by
    rw [commit_nxt, commit_nxt, same.room, same.nxt]
    bv_omega
  staged := same.staged

theorem Shifted.forall_staged (same : Shifted d a b) (Q : U32 → Prop) :
    (∀ entry ∈ b.ooo.entries, Q entry.1) ↔ ∀ entry ∈ a.ooo.entries, Q (entry.1 + d) := by
  constructor
  · intro all entry member
    exact all (shiftEntry d entry) (same.staged.mem_iff.mpr (List.mem_map_of_mem member))
  · intro all entry member
    obtain ⟨origin, before, rfl⟩ := List.mem_map.mp (same.staged.mem_iff.mp member)
    exact all origin before

theorem Shifted.insertNew (same : Shifted d a b) (key : U32) (data : Bytes) :
    Shifted d { a with ooo := a.ooo.insertNew key data }
      { b with ooo := b.ooo.insertNew (key + d) data } := by
  refine ⟨same.ring, same.nxt, ?_⟩
  by_cases known : ∃ entry ∈ a.ooo.entries, entry.1 = key
  · have known' : ∃ entry ∈ b.ooo.entries, entry.1 = key + d := by
      obtain ⟨entry, member, rfl⟩ := known
      exact ⟨shiftEntry d entry, same.staged.mem_iff.mpr (List.mem_map_of_mem member), rfl⟩
    rw [SortedMap.insertNew_eq_self.mpr known, SortedMap.insertNew_eq_self.mpr known']
    exact same.staged
  · have fresh : ∀ entry ∈ a.ooo.entries, entry.1 ≠ key :=
      fun entry member same => known ⟨entry, member, same⟩
    have fresh' : ∀ entry ∈ b.ooo.entries, entry.1 ≠ key + d :=
      (same.forall_staged (· ≠ key + d)).mpr fun entry member equal =>
        fresh entry member ((shift_inj d).mp equal)
    have placed := (SortedMap.place_perm data fresh).map (shiftEntry d)
    exact ((SortedMap.place_perm data fresh').trans (same.staged.cons _)).trans placed.symm

/-! ## Delivery in step -/

theorem Shifted.drain_map (same : Shifted d a b) (entries : List (U32 × Bytes))
    (increasing : KeysIncrease entries)
    (increasing' : KeysIncrease (entries.map (shiftEntry d))) :
    Shifted d (a.drain entries increasing)
      (b.drain (entries.map (shiftEntry d)) increasing') := by
  induction entries generalizing a b with
  | nil => exact ⟨same.ring, same.nxt, .refl _⟩
  | cons entry rest ih =>
      by_cases next : entry.1 = a.nxt
      · have next' : (shiftEntry d entry).1 = b.nxt := by rw [same.nxt, ← next]; rfl
        simp only [List.map_cons]
        rw [drain_delivers increasing next, drain_delivers increasing' next']
        exact ih (same.commit entry.2) _ _
      · have next' : (shiftEntry d entry).1 ≠ b.nxt := by
          rw [same.nxt]
          exact fun equal => next ((shift_inj d).mp equal)
        simp only [List.map_cons]
        rw [drain_stops increasing next, drain_stops increasing' next']
        exact ⟨same.ring, same.nxt, .refl _⟩

theorem drain_idle {entries : List (U32 × Bytes)} (increasing : KeysIncrease entries)
    (gap : ∀ entry ∈ entries.head?, entry.1 ≠ a.nxt) :
    a.drain entries increasing = { a with ooo := ⟨entries, increasing⟩ } := by
  cases entries with
  | nil => rfl
  | cons entry rest => exact drain_stops increasing (gap entry rfl)

-- Words that are not below `k`, neither before nor after the shift, are ordered by their distance from it.
theorem shift_lt_iff {k x y : U32} (hx : k ≤ x) (hy : k ≤ y) (hx' : k + d ≤ x + d)
    (hy' : k + d ≤ y + d) : x + d < y + d ↔ x < y := by
  bv_omega

theorem map_shift_of_least {k : U32} {entries entries' : List (U32 × Bytes)}
    (increasing : KeysIncrease entries) (increasing' : KeysIncrease entries')
    (perm : entries'.Perm (entries.map (shiftEntry d))) (least : ∀ entry ∈ entries, k ≤ entry.1)
    (least' : ∀ entry ∈ entries, k + d ≤ entry.1 + d) :
    entries' = entries.map (shiftEntry d) := by
  have sorted : KeysIncrease (entries.map (shiftEntry d)) := by
    refine List.pairwise_map.mpr (increasing.imp_of_mem ?_)
    intro x y hx hy lt
    exact (shift_lt_iff (least x hx) (least y hy) (least' x hx) (least' y hy)).mpr lt
  refine List.Perm.eq_of_pairwise ?_ increasing' sorted perm
  intro x y _ _ below above
  exact absurd below (Std.not_lt.mpr (Std.le_of_lt above))

def SameFirst (d : U32) (rb : RecvBuffer) (k : U32) : Prop :=
  (∃ entry ∈ rb.ooo.entries, entry.1 = k) →
    ((∀ entry ∈ rb.ooo.entries, k ≤ entry.1) ↔ ∀ entry ∈ rb.ooo.entries, k + d ≤ entry.1 + d)

theorem head_ne_of_not_least {k : U32} {entries : List (U32 × Bytes)}
    (increasing : KeysIncrease entries) (other : ¬ ∀ entry ∈ entries, k ≤ entry.1) :
    ∀ entry ∈ entries.head?, entry.1 ≠ k := by
  cases entries with
  | nil => exact fun _ member => absurd member (by simp)
  | cons first rest =>
      rintro entry ⟨⟩ rfl
      obtain ⟨smallest, -⟩ := List.pairwise_cons.mp increasing
      apply other
      intro entry member
      rcases List.mem_cons.mp member with rfl | later
      · exact BitVec.le_refl _
      · exact Std.le_of_lt (smallest entry later)

theorem Shifted.drainOoo (same : Shifted d a b) (first : a.SameFirst d a.nxt) :
    Shifted d a.drainOoo b.drainOoo := by
  have least' : (∀ entry ∈ b.ooo.entries, b.nxt ≤ entry.1) ↔
      ∀ entry ∈ a.ooo.entries, a.nxt + d ≤ entry.1 + d := by
    rw [same.nxt]
    exact same.forall_staged (a.nxt + d ≤ ·)
  -- Where the first segments are not the next ones, neither buffer delivers anything.
  have idle (gap : ∀ entry ∈ a.ooo.entries.head?, entry.1 ≠ a.nxt)
      (gap' : ∀ entry ∈ b.ooo.entries.head?, entry.1 ≠ b.nxt) :
      Shifted d a.drainOoo b.drainOoo := by
    unfold RecvBuffer.drainOoo
    rw [drain_idle _ gap, drain_idle _ gap']
    exact same
  by_cases staged : ∃ entry ∈ a.ooo.entries, entry.1 = a.nxt
  · by_cases least : ∀ entry ∈ a.ooo.entries, a.nxt ≤ entry.1
    · have equal := map_shift_of_least a.ooo.increasing b.ooo.increasing same.staged least
        ((first staged).mp least)
      obtain ⟨ring, nxt, ooo⟩ := b
      obtain ⟨entries, increasing⟩ := ooo
      dsimp only at equal
      subst equal
      exact same.drain_map _ _ _
    · apply idle (head_ne_of_not_least a.ooo.increasing least)
      exact head_ne_of_not_least b.ooo.increasing
        (fun below => least ((first staged).mpr (least'.mp below)))
  · apply idle
    · intro entry member equal
      exact staged ⟨entry, List.mem_of_mem_head? member, equal⟩
    · have unstaged : ∀ entry ∈ b.ooo.entries, entry.1 ≠ b.nxt := by
        rw [same.nxt]
        exact (same.forall_staged (· ≠ a.nxt + d)).mpr fun entry member equal =>
          staged ⟨entry, member, (shift_inj d).mp equal⟩
      exact fun entry member => unstaged entry (List.mem_of_mem_head? member)

def InStep (d : U32) (rb : RecvBuffer) : Placement → Prop
  | .inOrder data => rb.SameFirst d (rb.nxt + BitVec.ofNat 32 (rb.room data))
  | _ => True

theorem Shifted.insert (same : Shifted d a b) (seq : U32) (data : Bytes)
    (inStep : a.InStep d (a.placement seq data)) :
    Shifted d (a.insert seq data) (b.insert (seq + d) data) := by
  rw [insert_eq_placement, insert_eq_placement, placement_shift same]
  cases goes : a.placement seq data with
  | ignored => exact same
  | inOrder rest =>
      rw [goes] at inStep
      exact (same.commit rest).drainOoo inStep
  | ahead key rest => exact same.insertNew key rest

theorem Shifted.read (same : Shifted d a b) (bufLen : Nat) :
    Shifted d (a.read bufLen).1 (b.read bufLen).1 ∧ (b.read bufLen).2 = (a.read bufLen).2 := by
  unfold RecvBuffer.read len
  rw [same.ring]
  exact ⟨⟨rfl, same.nxt, same.staged⟩, rfl⟩

end RecvBuffer

/-! ## Two runs of one script -/

namespace Script

structure Pair where
  original : Script
  shifted : Script

namespace Pair

def start (irs d : U32) : Pair := ⟨.start irs, .start (irs + d)⟩

def step (d : U32) (p : Pair) (op : RecvOp) : Pair := ⟨p.original.step op, p.shifted.step (op.shift d)⟩

structure Agree (d : U32) (p : Pair) : Prop where
  reads : p.shifted.reads = p.original.reads
  available : p.shifted.buffer.available = p.original.buffer.available
  window : p.shifted.buffer.window = p.original.buffer.window
  nextExpected : p.shifted.buffer.nextExpected = p.original.buffer.nextExpected + d

def InStep (d : U32) (p : Pair) : RecvOp → Prop
  | .insert seq data => p.original.buffer.InStep d (p.original.buffer.placement seq data)
  | .read _ => True

def Shifted (d : U32) (p : Pair) : Prop :=
  RecvBuffer.Shifted d p.original.buffer p.shifted.buffer ∧ p.shifted.reads = p.original.reads

theorem step_shifted {d : U32} (p : Pair) (op : RecvOp) (same : p.Shifted d)
    (inStep : p.InStep d op) : (p.step d op).Shifted d := by
  obtain ⟨buffers, reads⟩ := same
  cases op with
  | insert seq data => exact ⟨buffers.insert seq data inStep, reads⟩
  | read bufLen =>
      obtain ⟨buffers', bytes⟩ := buffers.read bufLen
      refine ⟨buffers', ?_⟩
      simp only [step, RecvOp.shift, Script.step, reads, bytes]

theorem Shifted.agree {d : U32} {p : Pair} (same : p.Shifted d) : p.Agree d := by
  obtain ⟨buffers, reads⟩ := same
  have len : p.shifted.buffer.len = p.original.buffer.len := by
    unfold RecvBuffer.len
    rw [buffers.ring]
  refine ⟨reads, len, ?_, buffers.nxt⟩
  unfold RecvBuffer.window
  rw [len]

theorem shifted_run_agrees (irs d : U32) (ops : List RecvOp)
    (inStep : Runs.Along (step d) (InStep d) (start irs d) ops) :
    Runs.Always (step d) (Agree d) (start irs d) ops :=
  Runs.always_inv step_shifted (fun _ same => same.agree) ⟨RecvBuffer.new_shifted irs, rfl⟩ inStep

def oneGap : List RecvOp := [.insert 3#32 [3#8, 4#8], .insert 1#32 [1#8, 2#8], .read 4]

theorem shifted_run_agrees_oneGap :
    Runs.Along (step 0xfffffffe#32) (InStep 0xfffffffe#32) (start 0#32 0xfffffffe#32) oneGap ∧
      Runs.Always (step 0xfffffffe#32) (Agree 0xfffffffe#32) (start 0#32 0xfffffffe#32) oneGap := by
  have inStep :
      Runs.Along (step 0xfffffffe#32) (InStep 0xfffffffe#32) (start 0#32 0xfffffffe#32) oneGap := by
    refine ⟨trivial, ?_, trivial, trivial⟩
    intro _
    decide +kernel
  exact ⟨inStep, shifted_run_agrees _ _ _ inStep⟩

def Near (p : Pair) : RecvOp → Prop
  | .insert seq _ =>
      (seq - p.original.buffer.nxt).toNat < 2 ^ 31 ∨ (p.original.buffer.nxt - seq).toNat < 2 ^ 31
  | .read _ => True

def twoGaps : List RecvOp :=
  [.insert 3#32 [3#8, 4#8], .insert 8#32 [8#8], .insert 1#32 [1#8, 2#8]]

/-- Moved across the top of the sequence space, the second of the staged segments comes first in the
map, and the one that the last insert makes deliverable stays behind it. -/
theorem twoGaps_differ_across_the_top :
    Runs.Along (step 0xfffffffa#32) Near (start 0#32 0xfffffffa#32) twoGaps ∧
      ¬ Runs.Always (step 0xfffffffa#32) (Agree 0xfffffffa#32) (start 0#32 0xfffffffa#32)
        twoGaps := by
  constructor
  · refine ⟨?_, ?_, ?_, trivial⟩ <;> exact .inl (by decide +kernel)
  · intro always
    have last := (Runs.always_exec always).nextExpected
    exact absurd last (by decide +kernel)

end Pair

end Script

end MagnumTcp.Tcp
