import MagnumTcp.Proof.Placement
import MagnumTcp.Tcp.Script

namespace MagnumTcp.Tcp

/-- A stream cut into segments, numbered from the one after `irs` without reaching the end of the
sequence space. -/
structure Tiling where
  irs : U32
  tiles : List Bytes
  nonempty : ∀ tile ∈ tiles, tile ≠ []
  fits : tiles.flatten.length ≤ recvBufSize
  noWrap : irs.toNat + 1 + tiles.flatten.length < 2 ^ 32

namespace Tiling

def stream (t : Tiling) : Bytes := t.tiles.flatten

def first (t : Tiling) : U32 := t.irs + 1#32

def offset (t : Tiling) (i : Nat) : Nat := (t.tiles.take i).flatten.length

def tile (t : Tiling) (i : Fin t.tiles.length) : U32 × Bytes :=
  (t.first + BitVec.ofNat 32 (t.offset i), t.tiles[i])

def insertTile (t : Tiling) (i : Fin t.tiles.length) : RecvOp := .insert (t.tile i).1 (t.tile i).2

variable {t : Tiling}

theorem flatten_take_succ (t : Tiling) (i : Fin t.tiles.length) :
    (t.tiles.take (i + 1)).flatten = (t.tiles.take i).flatten ++ (t.tile i).2 := by
  rw [List.take_add_one, List.getElem?_eq_getElem i.isLt, List.flatten_append]
  exact congrArg _ (List.append_nil _)

theorem offset_succ (t : Tiling) (i : Fin t.tiles.length) :
    t.offset (i + 1) = t.offset i + (t.tile i).2.length := by
  rw [offset, flatten_take_succ, List.length_append]
  rfl

theorem offset_mono (t : Tiling) {i j : Nat} (le : i ≤ j) : t.offset i ≤ t.offset j := by
  have whole : t.tiles.take j = t.tiles.take i ++ (t.tiles.drop i).take (j - i) := by
    rw [← List.take_add, Nat.add_sub_cancel' le]
  rw [offset, offset, whole, List.flatten_append, List.length_append]
  exact Nat.le_add_right _ _

theorem offset_length (t : Tiling) : t.offset t.tiles.length = t.stream.length := by
  rw [offset, List.take_length]
  rfl

theorem offset_le (t : Tiling) (i : Nat) : t.offset i ≤ t.stream.length := by
  have whole : t.stream = (t.tiles.take i).flatten ++ (t.tiles.drop i).flatten := by
    rw [← List.flatten_append, List.take_append_drop]
    rfl
  rw [whole, List.length_append]
  exact Nat.le_add_right _ _

theorem tile_nonempty (t : Tiling) (i : Fin t.tiles.length) : 0 < (t.tile i).2.length :=
  List.length_pos_iff.mpr (t.nonempty _ (List.getElem_mem i.isLt))

theorem offset_lt (t : Tiling) {i j : Nat} (lt : i < j) (inside : j ≤ t.tiles.length) :
    t.offset i < t.offset j := by
  have positive := t.tile_nonempty ⟨i, by omega⟩
  have next := t.offset_succ ⟨i, by omega⟩
  have mono := t.offset_mono (show i + 1 ≤ j from lt)
  dsimp only at next
  omega

theorem offset_lt_turn (t : Tiling) (i : Nat) : t.offset i < 2 ^ 31 := by
  have bound := (t.offset_le i).trans t.fits
  unfold recvBufSize at bound
  omega

theorem key_toNat (t : Tiling) (i : Fin t.tiles.length) :
    (t.tile i).1.toNat = t.irs.toNat + 1 + t.offset i := by
  have bound := t.offset_le i
  have top := t.noWrap
  unfold stream at bound
  simp only [tile, first, BitVec.toNat_add, BitVec.toNat_ofNat]
  omega

theorem key_lt_iff (t : Tiling) (i j : Fin t.tiles.length) :
    (t.tile i).1 < (t.tile j).1 ↔ i < j := by
  rw [BitVec.lt_def, key_toNat, key_toNat]
  constructor
  · intro lt
    by_contra le
    have := t.offset_mono (Nat.le_of_not_lt le)
    omega
  · intro lt
    have := t.offset_lt lt j.isLt.le
    omega

theorem key_inj (t : Tiling) {i j : Fin t.tiles.length} (same : (t.tile i).1 = (t.tile j).1) :
    i = j := by
  rcases Nat.lt_trichotomy i j with lt | equal | gt
  · exact absurd ((t.key_lt_iff i j).mpr lt) (by rw [same]; exact BitVec.lt_irrefl _)
  · exact Fin.ext equal
  · exact absurd ((t.key_lt_iff j i).mpr gt) (by rw [same]; exact BitVec.lt_irrefl _)

structure Delivered (t : Tiling) (j : Nat) (rb : RecvBuffer) : Prop where
  inside : j ≤ t.tiles.length
  nxt : rb.nxt = t.first + BitVec.ofNat 32 (t.offset j)
  bytes : rb.ring.contents = (t.tiles.take j).flatten

theorem Delivered.len {j : Nat} {rb : RecvBuffer} (inv : t.Delivered j rb) : rb.len = t.offset j := by
  have length := congrArg List.length inv.bytes
  rwa [RingBuffer.contents_length] at length

theorem Delivered.starts_next_iff {j : Nat} {rb : RecvBuffer} (inv : t.Delivered j rb)
    (i : Fin t.tiles.length) : (t.tile i).1 = rb.nxt ↔ (i : Nat) = j := by
  have turn := t.offset_lt_turn i
  have turn' := t.offset_lt_turn j
  have starts : (t.tile i).1 = rb.nxt ↔ t.offset i = t.offset j := by
    rw [inv.nxt]
    exact Serial.add_ofNat_inj t.first (by omega) (by omega)
  rw [starts]
  rcases Nat.lt_trichotomy i j with lt | equal | gt
  · have below := t.offset_lt lt inv.inside
    omega
  · rw [equal]
    simp
  · have above := t.offset_lt gt i.isLt.le
    omega

theorem Delivered.commit {rb : RecvBuffer} (i : Fin t.tiles.length) (inv : t.Delivered i rb) :
    t.Delivered (i + 1) (rb.commit (t.tile i).2) := by
  have next := t.offset_succ i
  have total := (t.offset_le (i + 1)).trans t.fits
  have room : (t.tile i).2.length ≤ recvBufSize - rb.len := by
    rw [inv.len]
    omega
  refine ⟨i.isLt, ?_, ?_⟩
  · rw [RecvBuffer.commit_nxt, inv.nxt, RecvBuffer.room, Nat.min_eq_left room,
      Serial.add_ofNat_ofNat, ← next]
  · have written : (rb.commit (t.tile i).2).ring.contents =
        rb.ring.contents ++ (t.tile i).2.take (recvBufSize - rb.len) :=
      RingBuffer.write_contents _ _
    rw [written, List.take_of_length_le room, inv.bytes, ← flatten_take_succ]

theorem Delivered.drain {j : Nat} {rb : RecvBuffer} (inv : t.Delivered j rb)
    (entries : List (U32 × Bytes)) (increasing : KeysIncrease entries)
    (ahead : ∀ entry ∈ entries, ∃ i : Fin t.tiles.length, j ≤ i ∧ entry = t.tile i) :
    ∃ j' ≥ j, t.Delivered j' (rb.drain entries increasing) ∧
      (∀ entry ∈ (rb.drain entries increasing).ooo.entries,
        ∃ i : Fin t.tiles.length, j' < i ∧ entry = t.tile i) ∧
      ∀ i : Fin t.tiles.length, t.tile i ∈ entries → j' ≤ i →
        t.tile i ∈ (rb.drain entries increasing).ooo.entries := by
  induction entries generalizing rb j with
  | nil =>
      refine ⟨j, Nat.le_refl j, ⟨inv.inside, inv.nxt, inv.bytes⟩, ?_, ?_⟩
      · exact fun entry member => absurd member List.not_mem_nil
      · exact fun i member _ => member
  | cons entry rest ih =>
      obtain ⟨i, least, rfl⟩ := ahead entry List.mem_cons_self
      obtain ⟨smallest, increasing'⟩ := List.pairwise_cons.mp increasing
      have later : ∀ entry ∈ rest, ∃ k : Fin t.tiles.length, i < k ∧ entry = t.tile k := by
        intro entry member
        obtain ⟨k, -, rfl⟩ := ahead entry (List.mem_cons_of_mem _ member)
        exact ⟨k, (t.key_lt_iff i k).mp (smallest _ member), rfl⟩
      by_cases next : (t.tile i).1 = rb.nxt
      · rw [RecvBuffer.drain_delivers increasing next]
        have here := (inv.starts_next_iff i).mp next
        subst here
        obtain ⟨j', more, delivered, beyond, kept⟩ := ih (inv.commit i) increasing' (by
          intro entry member
          obtain ⟨k, after, rfl⟩ := later entry member
          exact ⟨k, after, rfl⟩)
        refine ⟨j', by omega, delivered, beyond, ?_⟩
        intro k member below
        refine kept k ((List.mem_cons.mp member).resolve_left ?_) below
        intro same
        have := t.key_inj (congrArg Prod.fst same)
        omega
      · rw [RecvBuffer.drain_stops increasing next]
        refine ⟨j, Nat.le_refl j, ⟨inv.inside, inv.nxt, inv.bytes⟩, ?_, fun k member _ => member⟩
        have apart : ¬ (i : Nat) = j := fun here => next ((inv.starts_next_iff i).mpr here)
        intro entry member
        rcases List.mem_cons.mp member with rfl | member
        · exact ⟨i, by omega, rfl⟩
        · obtain ⟨k, after, rfl⟩ := later entry member
          exact ⟨k, by omega, rfl⟩

/-- The segments of `done` that have not been delivered wait, behind one that is missing. -/
def Tiled (t : Tiling) (done : Fin t.tiles.length → Prop) (rb : RecvBuffer) : Prop :=
  ∃ j, t.Delivered j rb ∧
    (∀ entry ∈ rb.ooo.entries, ∃ i : Fin t.tiles.length, j < i ∧ entry = t.tile i) ∧
    ∀ i, done i → j ≤ i → t.tile i ∈ rb.ooo.entries

theorem new_tiled (t : Tiling) : t.Tiled (fun _ => False) (.new t.irs) := by
  refine ⟨0, ⟨Nat.zero_le _, ?_, rfl⟩, ?_, fun _ done => done.elim⟩
  · exact (BitVec.add_zero _).symm
  · exact fun _ member => absurd member List.not_mem_nil

theorem placement_tile {rb : RecvBuffer} {j : Nat} (inv : t.Delivered j rb)
    (i : Fin t.tiles.length) :
    rb.placement (t.tile i).1 (t.tile i).2 =
      if i < j then .ignored else if i = j then .inOrder (t.tile i).2
      else .ahead (t.tile i).1 (t.tile i).2 := by
  have turn := t.offset_lt_turn i
  have turn' := t.offset_lt_turn j
  have before : seqLt (t.tile i).1 rb.nxt = true ↔ t.offset i < t.offset j := by
    rw [inv.nxt]
    exact seqLt_iff_lt _ (by omega) (by omega)
  rw [RecvBuffer.placement_eq, if_neg (List.length_pos_iff.mp (t.tile_nonempty i))]
  rcases Nat.lt_trichotomy i j with lt | equal | gt
  · have below := t.offset_lt lt inv.inside
    have covered : (t.tile i).2.length ≤ (rb.nxt - (t.tile i).1).toNat := by
      have next := t.offset_succ i
      have mono := t.offset_mono (show i + 1 ≤ j from lt)
      have distance : (rb.nxt - (t.tile i).1).toNat = t.offset j - t.offset i := by
        rw [inv.nxt]
        exact Serial.sub_toNat_of_le _ below.le (by omega)
      omega
    rw [if_pos (before.mpr below), if_pos covered, if_pos lt]
  · have same : (t.tile i).1 = rb.nxt := (inv.starts_next_iff i).mpr equal
    rw [if_neg (by rw [before, equal]; omega), if_pos same, if_neg (by omega), if_pos equal]
  · have above := t.offset_lt gt i.isLt.le
    have apart : (t.tile i).1 ≠ rb.nxt := by
      intro same
      have := (inv.starts_next_iff i).mp same
      omega
    rw [if_neg (by rw [before]; omega), if_neg apart, if_neg (by omega), if_neg (by omega)]

theorem Tiled.insert {done : Fin t.tiles.length → Prop} {rb : RecvBuffer} (inv : t.Tiled done rb)
    (i : Fin t.tiles.length) :
    t.Tiled (fun k => done k ∨ k = i) (rb.insert (t.tile i).1 (t.tile i).2) := by
  obtain ⟨j, delivered, beyond, waiting⟩ := inv
  rw [RecvBuffer.insert_eq_placement, placement_tile delivered i]
  split_ifs with old next
  · refine ⟨j, delivered, beyond, ?_⟩
    rintro k (before | rfl) le
    · exact waiting k before le
    · omega
  · subst next
    obtain ⟨j', more, delivered', beyond', kept⟩ :=
      (delivered.commit i).drain rb.ooo.entries rb.ooo.increasing (by
        intro entry member
        obtain ⟨k, after, rfl⟩ := beyond entry member
        exact ⟨k, after, rfl⟩)
    refine ⟨j', delivered', beyond', ?_⟩
    rintro k (before | rfl) le
    · exact kept k (waiting k before (by omega)) le
    · omega
  · refine ⟨j, ⟨delivered.inside, delivered.nxt, delivered.bytes⟩, ?_, ?_⟩
    · intro entry member
      rcases SortedMap.mem_insertNew member with rfl | member
      · exact ⟨i, by omega, rfl⟩
      · exact beyond entry member
    · rintro k (before | rfl) le
      · exact SortedMap.mem_place_of_mem _ _ (waiting k before le)
      · -- If its key is taken, it is by the same segment.
        obtain ⟨entry, member, key⟩ := SortedMap.key_mem_place (t.tile k).1 (t.tile k).2
          rb.ooo.entries
        rcases SortedMap.mem_place member with rfl | before
        · exact member
        · obtain ⟨l, -, rfl⟩ := beyond entry before
          rwa [t.key_inj key] at member

theorem Tiled.exec {done : Fin t.tiles.length → Prop} {s : Script} (inv : t.Tiled done s.buffer)
    (order : List (Fin t.tiles.length)) :
    t.Tiled (fun k => done k ∨ k ∈ order) (s.exec (order.map t.insertTile)).buffer := by
  induction order generalizing s done with
  | nil => simpa using inv
  | cons i rest ih =>
      have next : t.Tiled (fun k => done k ∨ k = i) (s.step (t.insertTile i)).buffer :=
        inv.insert i
      simpa only [List.mem_cons, or_assoc, List.map_cons, Script.exec, Runs.exec_cons] using ih next

theorem Tiled.complete {rb : RecvBuffer} (inv : t.Tiled (fun _ => True) rb) :
    t.Delivered t.tiles.length rb ∧ rb.ooo.entries = [] := by
  obtain ⟨j, delivered, beyond, waiting⟩ := inv
  have all : j = t.tiles.length := by
    by_contra missing
    have inside := delivered.inside
    have member := waiting ⟨j, by omega⟩ trivial (Nat.le_refl j)
    obtain ⟨k, after, same⟩ := beyond _ member
    have := congrArg Fin.val (t.key_inj (congrArg Prod.fst same))
    dsimp only at this
    omega
  subst all
  refine ⟨delivered, List.eq_nil_iff_forall_not_mem.mpr ?_⟩
  intro entry member
  obtain ⟨k, after, -⟩ := beyond entry member
  omega

theorem reassembles_any_order (t : Tiling) (order : List (Fin t.tiles.length))
    (each : ∀ i, i ∈ order) (bufLen : Nat) (large : t.stream.length ≤ bufLen) :
    let rb := ((Script.start t.irs).exec (order.map t.insertTile)).buffer
    rb.nextExpected = t.irs + 1#32 + BitVec.ofNat 32 t.stream.length ∧
    rb.available = t.stream.length ∧ rb.ooo.entries = [] ∧ (rb.read bufLen).2 = t.stream := by
  intro rb
  have tiled : t.Tiled (fun _ => True) rb := by
    have run := Tiled.exec (s := Script.start t.irs) t.new_tiled order
    simpa only [each, or_true] using run
  obtain ⟨delivered, empty⟩ := tiled.complete
  have len : rb.len = t.stream.length := delivered.len.trans t.offset_length
  have contents : rb.ring.contents = t.stream := by
    rw [delivered.bytes, List.take_length]
    rfl
  refine ⟨?_, len, empty, ?_⟩
  · have nxt := delivered.nxt
    rwa [t.offset_length] at nxt
  · have whole : min bufLen rb.len = rb.ring.len := by
      rw [len, Nat.min_eq_right large]
      exact len.symm
    have read : (rb.read bufLen).2 = rb.ring.peek 0 rb.ring.len := by
      rw [RecvBuffer.read, whole]
    rw [read, RingBuffer.peek_eq _ (by omega), contents, List.drop_zero]
    exact List.take_of_length_le len.symm.le

theorem threeTiles_nonempty : ∀ tile ∈ [[1#8], [2#8, 3#8], [4#8]], tile ≠ [] := by decide

theorem threeTiles_fits : [[1#8], [2#8, 3#8], [4#8]].flatten.length ≤ recvBufSize := by decide

theorem threeTiles_noWrap :
    (6999#32).toNat + 1 + [[1#8], [2#8, 3#8], [4#8]].flatten.length < 2 ^ 32 := by decide

def threeTiles : Tiling where
  irs := 6999#32
  tiles := [[1#8], [2#8, 3#8], [4#8]]
  nonempty := threeTiles_nonempty
  fits := threeTiles_fits
  noWrap := threeTiles_noWrap

def threeTilesOrder : List (Fin threeTiles.tiles.length) :=
  [(2 : Fin 3), (1 : Fin 3), (2 : Fin 3), (0 : Fin 3), (1 : Fin 3)]

theorem reassembles_threeTiles :
    let rb := ((Script.start 6999#32).exec (threeTilesOrder.map threeTiles.insertTile)).buffer
    rb.nextExpected = 7004#32 ∧ rb.available = 4 ∧ rb.ooo.entries = [] ∧
      (rb.read 4).2 = [1#8, 2#8, 3#8, 4#8] :=
  reassembles_any_order threeTiles threeTilesOrder (by decide) 4 (by decide)

end Tiling

end MagnumTcp.Tcp
