import MagnumTcp.Proof.Placement
import MagnumTcp.Proof.Script

namespace MagnumTcp.Tcp

namespace RecvBuffer

def free (rb : RecvBuffer) : Nat := recvBufSize - rb.len

/-- The staged segments that are delivered in turn from `nxt` on, into `room` bytes, go past the
start of no other one. -/
def Clear : (room : Nat) → (nxt : U32) → List (U32 × Bytes) → Prop
  | _, _, [] => True
  | room, nxt, (key, data) :: rest =>
      key = nxt →
        (∀ entry ∈ rest, min data.length room ≤ (entry.1 - nxt).toNat) ∧
        Clear (room - min data.length room) (nxt + BitVec.ofNat 32 (min data.length room)) rest

def Blocked : (room : Nat) → (nxt : U32) → List (U32 × Bytes) → Prop
  | _, _, [] => False
  | room, nxt, (key, data) :: rest =>
      if key = nxt then
        Blocked (room - min data.length room) (nxt + BitVec.ofNat 32 (min data.length room)) rest
      else ∃ entry ∈ rest, entry.1 = nxt

/-- Accepting `n` bytes at `nxt`, and what then becomes deliverable, goes past no staged segment. -/
def OvertakesNone (rb : RecvBuffer) (n : Nat) : Prop :=
  (∀ entry ∈ rb.ooo.entries, n ≤ (entry.1 - rb.nxt).toNat) ∧
    Clear (rb.free - n) (rb.nxt + BitVec.ofNat 32 n) rb.ooo.entries

variable {rb : RecvBuffer} {entries : List (U32 × Bytes)} {entry : U32 × Bytes}

theorem room_le_free (rb : RecvBuffer) (data : Bytes) : rb.room data ≤ rb.free :=
  Nat.min_le_right _ _

theorem free_le (rb : RecvBuffer) : rb.free ≤ recvBufSize := Nat.sub_le _ _

theorem commit_free (rb : RecvBuffer) (data : Bytes) :
    (rb.commit data).free = rb.free - rb.room data := by
  simp only [free, commit_len]
  omega

/-! ## Behind for good -/

theorem drain_behind (increasing : KeysIncrease entries) (member : entry ∈ entries)
    (behind : 0 < (rb.nxt - entry.1).toNat)
    (near : (rb.nxt - entry.1).toNat + rb.free < 2 ^ 31) :
    entry ∈ (rb.drain entries increasing).ooo.entries ∧
      2 ^ 31 < (entry.1 - (rb.drain entries increasing).nxt).toNat := by
  induction entries generalizing rb with
  | nil => exact absurd member List.not_mem_nil
  | cons first rest ih =>
      obtain ⟨key, data⟩ := first
      simp only [drain]
      split_ifs with gap
      · refine ⟨member, ?_⟩
        dsimp only
        rw [Serial.sub_toNat_add _ _ behind]
        omega
      · have other : entry ≠ (key, data) := by
          rintro rfl
          rw [show key = rb.nxt from not_not.mp gap, BitVec.sub_self] at behind
          exact absurd behind (Nat.lt_irrefl 0)
        have later := (List.mem_cons.mp member).resolve_left other
        have room := rb.room_le_free data
        have size := rb.free_le
        have moved : ((rb.commit data).nxt - entry.1).toNat =
            (rb.nxt - entry.1).toNat + rb.room data := by
          rw [commit_nxt]
          unfold recvBufSize at size
          bv_omega
        apply ih (List.Pairwise.of_cons increasing) later
        · omega
        · rw [moved, commit_free]
          omega

theorem not_passed_of_drain {data : Bytes} (increasing : KeysIncrease entries)
    (kept : ∀ entry ∈ ((rb.commit data).drain entries increasing).ooo.entries,
      (entry.1 - ((rb.commit data).drain entries increasing).nxt).toNat ≤ 2 ^ 31) :
    ∀ entry ∈ entries, rb.room data ≤ (entry.1 - rb.nxt).toNat := by
  intro entry member
  by_contra passed
  have room := rb.room_le_free data
  have size := rb.free_le
  unfold recvBufSize at size
  have back : ((rb.commit data).nxt - entry.1).toNat =
      rb.room data - (entry.1 - rb.nxt).toNat := by
    rw [commit_nxt]
    exact Serial.add_sub_toNat_of_lt _ _ (Nat.lt_of_not_le passed) (by omega)
  have behind : 0 < ((rb.commit data).nxt - entry.1).toNat := by
    rw [back]
    omega
  have near : ((rb.commit data).nxt - entry.1).toNat + (rb.commit data).free < 2 ^ 31 := by
    rw [back, commit_free]
    omega
  have lost := drain_behind increasing member behind near
  exact absurd lost.2 (Nat.not_lt.mpr (kept entry lost.1))

theorem commit_distance {data : Bytes} (kept : rb.room data ≤ (entry.1 - rb.nxt).toNat) :
    (entry.1 - (rb.commit data).nxt).toNat = (entry.1 - rb.nxt).toNat - rb.room data :=
  Serial.sub_add_toNat _ _ kept

theorem clear_of_drain (increasing : KeysIncrease entries)
    (kept : ∀ entry ∈ (rb.drain entries increasing).ooo.entries,
      (entry.1 - (rb.drain entries increasing).nxt).toNat ≤ 2 ^ 31) :
    Clear rb.free rb.nxt entries := by
  induction entries generalizing rb with
  | nil => trivial
  | cons first rest ih =>
      obtain ⟨key, data⟩ := first
      rintro rfl
      simp only [drain, ne_eq, not_true_eq_false, if_false] at kept
      have rest := ih (List.Pairwise.of_cons increasing) kept
      rw [commit_free] at rest
      exact ⟨not_passed_of_drain _ kept, rest⟩

theorem overtakesNone_of_drain {data : Bytes}
    (kept : ∀ entry ∈ (rb.commit data).drainOoo.ooo.entries,
      (entry.1 - (rb.commit data).drainOoo.nxt).toNat ≤ 2 ^ 31) :
    rb.OvertakesNone (rb.room data) := by
  have clear := clear_of_drain _ kept
  rw [commit_free] at clear
  exact ⟨not_passed_of_drain _ kept, clear⟩

theorem not_blocked_of_drain (increasing : KeysIncrease entries)
    (kept : ∀ entry ∈ (rb.drain entries increasing).ooo.entries,
      entry.1 ≠ (rb.drain entries increasing).nxt) :
    ¬ Blocked rb.free rb.nxt entries := by
  induction entries generalizing rb with
  | nil => exact id
  | cons first rest ih =>
      obtain ⟨key, data⟩ := first
      simp only [drain, Blocked] at kept ⊢
      split_ifs with next
      · subst next
        simp only [ne_eq, not_true_eq_false, if_false] at kept
        have rest := ih (List.Pairwise.of_cons increasing) kept
        rwa [commit_free] at rest
      · rw [if_pos next] at kept
        rintro ⟨entry, member, same⟩
        exact kept entry (List.mem_cons_of_mem _ member) same

theorem drain_fresh (increasing : KeysIncrease entries)
    (near : ∀ entry ∈ entries, (entry.1 - rb.nxt).toNat < 2 ^ 31)
    (clear : Clear rb.free rb.nxt entries) (unblocked : ¬ Blocked rb.free rb.nxt entries) :
    ∀ entry ∈ (rb.drain entries increasing).ooo.entries,
      seqLt (rb.drain entries increasing).nxt entry.1 := by
  induction entries generalizing rb with
  | nil => exact fun _ member => absurd member List.not_mem_nil
  | cons first rest ih =>
      obtain ⟨key, data⟩ := first
      simp only [drain]
      split_ifs with gap
      · intro entry member
        have apart : entry.1 ≠ rb.nxt := by
          rcases List.mem_cons.mp member with rfl | later
          · exact gap
          · intro same
            exact unblocked (by simpa only [Blocked, if_neg gap] using ⟨entry, later, same⟩)
        have close := near entry member
        rw [seqLt_iff_distance]
        refine ⟨?_, close⟩
        bv_omega
      · have next : key = rb.nxt := not_not.mp gap
        obtain ⟨kept, clear⟩ := clear next
        simp only [Blocked, if_pos next] at unblocked
        apply ih (List.Pairwise.of_cons increasing)
        · intro entry member
          have close := near entry (List.mem_cons_of_mem _ member)
          rw [commit_distance (kept entry member)]
          omega
        · rwa [commit_free]
        · rwa [commit_free]

/-! ## Never stale -/

def StagedAhead (rb : RecvBuffer) : Prop := ∀ entry ∈ rb.ooo.entries, seqLt rb.nxt entry.1 = true

def KeepsAhead (rb : RecvBuffer) : Placement → Prop
  | .ignored => True
  | .inOrder data =>
      rb.OvertakesNone (rb.room data) ∧
        ¬ Blocked (rb.free - rb.room data) (rb.nxt + BitVec.ofNat 32 (rb.room data)) rb.ooo.entries
  | .ahead key _ => (key - rb.nxt).toNat ≠ 2 ^ 31

theorem commit_drainOoo_stagedAhead (ahead : rb.StagedAhead) (data : Bytes) :
    (rb.commit data).drainOoo.StagedAhead ↔ rb.KeepsAhead (.inOrder data) := by
  have distance : ∀ entry ∈ rb.ooo.entries, (entry.1 - rb.nxt).toNat < 2 ^ 31 :=
    fun entry member => ((seqLt_iff_distance _ _).mp (ahead entry member)).2
  constructor
  · intro after
    have kept : ∀ entry ∈ (rb.commit data).drainOoo.ooo.entries,
        0 < (entry.1 - (rb.commit data).drainOoo.nxt).toNat ∧
          (entry.1 - (rb.commit data).drainOoo.nxt).toNat ≤ 2 ^ 31 := by
      intro entry member
      have := (seqLt_iff_distance _ _).mp (after entry member)
      omega
    have unblocked := not_blocked_of_drain _ (fun entry member same => by
      have := (kept entry member).1
      rw [same] at this
      exact absurd this (by simp [drainOoo]))
    rw [commit_free] at unblocked
    exact ⟨overtakesNone_of_drain (fun entry member => (kept entry member).2), unblocked⟩
  · rintro ⟨⟨kept, clear⟩, unblocked⟩
    apply drain_fresh
    · intro entry member
      have close := distance entry member
      rw [commit_distance (kept entry member)]
      omega
    · rwa [commit_free]
    · rwa [commit_free]

theorem insert_stagedAhead (ahead : rb.StagedAhead) (seq : U32) (data : Bytes) :
    (rb.insert seq data).StagedAhead ↔ rb.KeepsAhead (rb.placement seq data) := by
  rw [insert_eq_placement]
  cases goes : rb.placement seq data with
  | ignored => exact iff_of_true ahead trivial
  | inOrder rest => exact commit_drainOoo_stagedAhead ahead rest
  | ahead key rest =>
      obtain ⟨rfl, rfl, -, positive, close⟩ := placement_ahead goes
      constructor
      · intro after
        obtain ⟨entry, member, same⟩ := SortedMap.key_mem_place key rest rb.ooo.entries
        have := (seqLt_iff_distance _ _).mp (after entry member)
        simp only [KeepsAhead, same] at this ⊢
        omega
      · intro apart entry member
        rcases SortedMap.mem_insertNew member with rfl | waiting
        · exact (seqLt_iff_distance _ _).mpr ⟨positive, Nat.lt_of_le_of_ne close apart⟩
        · exact ahead entry waiting

end RecvBuffer

namespace Script

def KeepsAhead (s : Script) : RecvOp → Prop
  | .insert seq data => s.buffer.KeepsAhead (s.buffer.placement seq data)
  | .read _ => True

theorem step_stagedAhead {s : Script} (ahead : s.buffer.StagedAhead) (op : RecvOp) :
    (s.step op).buffer.StagedAhead ↔ s.KeepsAhead op := by
  cases op with
  | insert seq data => exact RecvBuffer.insert_stagedAhead ahead seq data
  | read bufLen => exact iff_of_true ahead trivial

theorem always_stagedAhead_iff (irs : U32) (ops : List RecvOp) :
    Always (fun s => s.buffer.StagedAhead) (start irs) ops ↔ Along KeepsAhead (start irs) ops := by
  refine Runs.always_iff_along (U := fun _ _ => True) (P := fun s : Script => s.buffer.StagedAhead)
    ?_ (fun s ahead => ahead) ?_ ?_ (Runs.along_true _ _)
  · intro s op ahead _ keeps
    exact (step_stagedAhead ahead op).mpr keeps
  · intro s op ahead _ after
    exact (step_stagedAhead ahead op).mp after
  · exact fun _ member => absurd member List.not_mem_nil

def overlapping : List RecvOp :=
  [.insert 11#32 (List.replicate 5 0#8), .insert 1#32 (List.replicate 12 0#8)]

theorem overlapping_leaves_stale :
    (∀ op ∈ overlapping, op.SliceOf (List.replicate 15 0#8) (0#32 + 1#32)) ∧
      ¬ Always (fun s => s.buffer.StagedAhead) (start 0#32) overlapping := by
  constructor
  · simp only [overlapping, List.forall_mem_cons]
    exact ⟨⟨10, rfl, by decide, rfl⟩, ⟨0, rfl, by decide, rfl⟩, List.forall_mem_nil _⟩
  · intro always
    have last := Runs.always_exec always
    exact absurd (last (11#32, List.replicate 5 0#8) (by decide +kernel)) (by decide +kernel)

end Script

/-! ## Inside the advertised window -/

namespace RecvBuffer

def bytesOf (entries : List (U32 × Bytes)) : Nat := (entries.map fun entry => entry.2.length).sum

def staged (rb : RecvBuffer) : Nat := bytesOf rb.ooo.entries

/-- The ring and the staged segments together hold no more than the buffer is large, and every staged
byte is inside the window that the ring leaves open. -/
def WithinWindow (rb : RecvBuffer) : Prop :=
  rb.len + rb.staged ≤ recvBufSize ∧
    ∀ entry ∈ rb.ooo.entries, ∀ i < entry.2.length,
      (entry.1 + BitVec.ofNat 32 i - rb.nxt).toNat < recvBufSize - rb.len

def KeepsWithinWindow (rb : RecvBuffer) : Placement → Prop
  | .ignored => True
  | .inOrder data =>
      rb.OvertakesNone (rb.room data) ∧ rb.len + rb.staged + rb.room data ≤ recvBufSize
  | .ahead key data =>
      (∃ entry ∈ rb.ooo.entries, entry.1 = key) ∨
        (key - rb.nxt).toNat + data.length ≤ rb.free ∧
          rb.len + rb.staged + data.length ≤ recvBufSize

variable {rb : RecvBuffer} {entries : List (U32 × Bytes)} {entry : U32 × Bytes}

theorem bytes_inside_iff (rb : RecvBuffer) {key : U32} {data : Bytes} (some : data ≠ []) :
    (∀ i < data.length, (key + BitVec.ofNat 32 i - rb.nxt).toNat < rb.free) ↔
      (key - rb.nxt).toNat + data.length ≤ rb.free := by
  have size := rb.free_le
  have positive := List.length_pos_iff.mpr some
  unfold recvBufSize at size
  have offset : ∀ i, (key - rb.nxt).toNat + i < 2 ^ 32 →
      (key + BitVec.ofNat 32 i - rb.nxt).toNat = (key - rb.nxt).toNat + i := by
    intro i inside
    have word : key + BitVec.ofNat 32 i =
        rb.nxt + BitVec.ofNat 32 ((key - rb.nxt).toNat + i) := by
      rw [← Serial.add_ofNat_ofNat, Serial.add_sub_toNat]
    rw [word, Serial.sub_base_toNat _ inside]
  constructor
  · intro inside
    by_contra outside
    have first := inside 0 positive
    rw [offset 0 (by omega)] at first
    have edge := inside (rb.free - (key - rb.nxt).toNat) (by omega)
    rw [offset _ (by omega)] at edge
    omega
  · intro inside i below
    rw [offset i (by omega)]
    omega

theorem drain_subset (increasing : KeysIncrease entries)
    (member : entry ∈ (rb.drain entries increasing).ooo.entries) : entry ∈ entries := by
  induction entries generalizing rb with
  | nil => exact member
  | cons first rest ih =>
      obtain ⟨key, data⟩ := first
      simp only [drain] at member
      split_ifs at member with gap
      · exact member
      · exact List.mem_cons_of_mem _ (ih _ member)

-- Nothing inside the window is cut off when it is delivered, so bytes only move into the ring.
theorem drain_inside (increasing : KeysIncrease entries)
    (inside : ∀ entry ∈ entries, (entry.1 - rb.nxt).toNat + entry.2.length ≤ rb.free)
    (clear : Clear rb.free rb.nxt entries) :
    (∀ entry ∈ (rb.drain entries increasing).ooo.entries,
      (entry.1 - (rb.drain entries increasing).nxt).toNat + entry.2.length ≤
        (rb.drain entries increasing).free) ∧
    (rb.drain entries increasing).len + (rb.drain entries increasing).staged =
      rb.len + bytesOf entries := by
  induction entries generalizing rb with
  | nil => exact ⟨inside, rfl⟩
  | cons first rest ih =>
      obtain ⟨key, data⟩ := first
      simp only [drain]
      split_ifs with gap
      · exact ⟨inside, rfl⟩
      · obtain ⟨kept, clear⟩ := clear (not_not.mp gap)
        have whole : rb.room data = data.length := by
          have := inside _ List.mem_cons_self
          exact Nat.min_eq_left (by unfold free at this; dsimp only at this; omega)
        have fits : ∀ entry ∈ rest,
            (entry.1 - (rb.commit data).nxt).toNat + entry.2.length ≤ (rb.commit data).free := by
          intro entry member
          have := inside entry (List.mem_cons_of_mem _ member)
          have := kept entry member
          rw [commit_distance this, commit_free]
          unfold room free at *
          omega
        have clear' : Clear (rb.commit data).free (rb.commit data).nxt rest := by
          rw [commit_free]
          exact clear
        have later := ih (List.Pairwise.of_cons increasing) fits clear'
        refine ⟨later.1, later.2.trans ?_⟩
        rw [commit_len, whole]
        simp only [bytesOf, List.map_cons, List.sum_cons]
        omega

def StagedNonempty (rb : RecvBuffer) : Prop := ∀ entry ∈ rb.ooo.entries, entry.2 ≠ []

theorem insert_stagedNonempty (some : rb.StagedNonempty) (seq : U32) (data : Bytes) :
    (rb.insert seq data).StagedNonempty := by
  rw [insert_eq_placement]
  cases goes : rb.placement seq data with
  | ignored => exact some
  | inOrder rest => exact fun entry member => some entry (drain_subset _ member)
  | ahead key rest =>
      obtain ⟨-, rfl, filled, -⟩ := placement_ahead goes
      intro entry member
      rcases SortedMap.mem_insertNew member with rfl | waiting
      · exact filled
      · exact some entry waiting

theorem withinWindow_iff (some : rb.StagedNonempty) :
    rb.WithinWindow ↔
      rb.len + rb.staged ≤ recvBufSize ∧
        ∀ entry ∈ rb.ooo.entries, (entry.1 - rb.nxt).toNat + entry.2.length ≤ rb.free :=
  and_congr_right fun _ =>
    forall_congr' fun entry =>
      forall_congr' fun member => rb.bytes_inside_iff (some entry member)

theorem commit_drainOoo_inside {data : Bytes}
    (inside : ∀ entry ∈ rb.ooo.entries, (entry.1 - rb.nxt).toNat + entry.2.length ≤ rb.free)
    (none : rb.OvertakesNone (rb.room data)) :
    (∀ entry ∈ (rb.commit data).drainOoo.ooo.entries,
      (entry.1 - (rb.commit data).drainOoo.nxt).toNat + entry.2.length ≤
        (rb.commit data).drainOoo.free) ∧
    (rb.commit data).drainOoo.len + (rb.commit data).drainOoo.staged =
      rb.len + rb.room data + rb.staged := by
  have fits : ∀ entry ∈ rb.ooo.entries,
      (entry.1 - (rb.commit data).nxt).toNat + entry.2.length ≤ (rb.commit data).free := by
    intro entry member
    have := inside entry member
    have := none.1 entry member
    rw [commit_distance this, commit_free]
    omega
  have clear : Clear (rb.commit data).free (rb.commit data).nxt rb.ooo.entries := by
    rw [commit_free]
    exact none.2
  exact drain_inside rb.ooo.increasing fits clear

theorem commit_drainOoo_withinWindow (some : rb.StagedNonempty) (within : rb.WithinWindow)
    (data : Bytes) :
    (rb.commit data).drainOoo.WithinWindow ↔ rb.KeepsWithinWindow (.inOrder data) := by
  obtain ⟨-, inside⟩ := (withinWindow_iff some).mp within
  have some' : (rb.commit data).drainOoo.StagedNonempty :=
    fun entry member => some entry (drain_subset _ member)
  rw [withinWindow_iff some']
  constructor
  · rintro ⟨total, kept⟩
    have near : ∀ entry ∈ (rb.commit data).drainOoo.ooo.entries,
        (entry.1 - (rb.commit data).drainOoo.nxt).toNat ≤ 2 ^ 31 := by
      intro entry member
      have := kept entry member
      have := (rb.commit data).drainOoo.free_le
      unfold recvBufSize at this
      omega
    have none := overtakesNone_of_drain near
    obtain ⟨-, moved⟩ := commit_drainOoo_inside inside none
    exact ⟨none, by omega⟩
  · rintro ⟨none, total⟩
    obtain ⟨kept, moved⟩ := commit_drainOoo_inside inside none
    exact ⟨by omega, kept⟩

theorem insertNew_withinWindow (some : rb.StagedNonempty) (within : rb.WithinWindow) {key : U32}
    {data : Bytes} (filled : data ≠ []) :
    ({ rb with ooo := rb.ooo.insertNew key data } : RecvBuffer).WithinWindow ↔
      rb.KeepsWithinWindow (.ahead key data) := by
  obtain ⟨total, inside⟩ := (withinWindow_iff some).mp within
  by_cases known : ∃ entry ∈ rb.ooo.entries, entry.1 = key
  · rw [SortedMap.insertNew_eq_self.mpr known]
    exact iff_of_true within (.inl known)
  · have fresh : ∀ entry ∈ rb.ooo.entries, entry.1 ≠ key :=
      fun entry member same => known ⟨entry, member, same⟩
    have perm := SortedMap.place_perm data fresh
    have sum : ({ rb with ooo := rb.ooo.insertNew key data } : RecvBuffer).staged =
        data.length + rb.staged :=
      (perm.map _).sum_nat.trans (by rw [List.map_cons, List.sum_cons]; rfl)
    have each : ∀ {p : U32 × Bytes → Prop},
        (∀ entry ∈ (rb.ooo.insertNew key data).entries, p entry) ↔
          p (key, data) ∧ ∀ entry ∈ rb.ooo.entries, p entry := by
      intro p
      rw [← List.forall_mem_cons]
      exact forall_congr' fun entry => imp_congr_left perm.mem_iff
    have some' : ({ rb with ooo := rb.ooo.insertNew key data } : RecvBuffer).StagedNonempty :=
      each.mpr ⟨filled, some⟩
    have len : ({ rb with ooo := rb.ooo.insertNew key data } : RecvBuffer).len = rb.len := rfl
    have free : ({ rb with ooo := rb.ooo.insertNew key data } : RecvBuffer).free = rb.free := rfl
    rw [withinWindow_iff some', each, len, free, sum]
    simp only [KeepsWithinWindow, known, false_or]
    constructor
    · rintro ⟨total', inside', -⟩
      exact ⟨inside', by omega⟩
    · rintro ⟨inside', total'⟩
      exact ⟨by omega, inside', inside⟩

theorem insert_withinWindow (some : rb.StagedNonempty) (within : rb.WithinWindow) (seq : U32)
    (data : Bytes) :
    (rb.insert seq data).WithinWindow ↔ rb.KeepsWithinWindow (rb.placement seq data) := by
  rw [insert_eq_placement]
  cases goes : rb.placement seq data with
  | ignored => exact iff_of_true within trivial
  | inOrder rest => exact commit_drainOoo_withinWindow some within rest
  | ahead key rest =>
      obtain ⟨-, rfl, filled, -⟩ := placement_ahead goes
      exact insertNew_withinWindow some within filled

theorem read_withinWindow (within : rb.WithinWindow) (bufLen : Nat) :
    (rb.read bufLen).1.WithinWindow := by
  obtain ⟨total, inside⟩ := within
  have shorter : (rb.read bufLen).1.len ≤ rb.len := Nat.sub_le _ _
  refine ⟨?_, ?_⟩
  · calc (rb.read bufLen).1.len + rb.staged ≤ rb.len + rb.staged := by omega
      _ ≤ recvBufSize := total
  · intro entry member i below
    have := inside entry member i below
    exact Nat.lt_of_lt_of_le this (Nat.sub_le_sub_left shorter _)

end RecvBuffer

namespace Script

def KeepsWithinWindow (s : Script) : RecvOp → Prop
  | .insert seq data => s.buffer.KeepsWithinWindow (s.buffer.placement seq data)
  | .read _ => True

def Filled (s : Script) : Prop := s.buffer.StagedNonempty ∧ s.buffer.WithinWindow

theorem step_withinWindow {s : Script} (filled : s.Filled) (op : RecvOp) :
    (s.step op).buffer.WithinWindow ↔ s.KeepsWithinWindow op := by
  cases op with
  | insert seq data => exact RecvBuffer.insert_withinWindow filled.1 filled.2 seq data
  | read bufLen => exact iff_of_true (RecvBuffer.read_withinWindow filled.2 bufLen) trivial

theorem step_stagedNonempty {s : Script} (some : s.buffer.StagedNonempty) (op : RecvOp) :
    (s.step op).buffer.StagedNonempty := by
  cases op with
  | insert seq data => exact RecvBuffer.insert_stagedNonempty some seq data
  | read bufLen => exact some

theorem always_withinWindow_iff (irs : U32) (ops : List RecvOp) :
    Always (fun s => s.buffer.WithinWindow) (start irs) ops ↔
      Along KeepsWithinWindow (start irs) ops := by
  refine Runs.always_iff_along (U := fun _ _ => True) (P := fun s : Script => s.buffer.WithinWindow)
    ?_ (fun s (filled : s.Filled) => filled.2) ?_ ?_ (Runs.along_true _ _)
  · intro s op filled _ keeps
    exact ⟨step_stagedNonempty filled.1 op, (step_withinWindow filled op).mpr keeps⟩
  · intro s op filled _ after
    exact (step_withinWindow filled op).mp after
  · exact ⟨fun _ member => absurd member List.not_mem_nil, Nat.zero_le _,
      fun _ member => absurd member List.not_mem_nil⟩

theorem beyond_window_is_staged :
    ¬ Always (fun s => s.buffer.WithinWindow) (start 0#32) [.insert 65537#32 [0#8]] := by
  intro always
  have last := Runs.always_exec always
  exact absurd (last.2 (65537#32, [0#8]) (by decide +kernel) 0 (by decide)) (by decide +kernel)

end Script

end MagnumTcp.Tcp
