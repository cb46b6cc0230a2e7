import Mathlib.Data.List.Basic
import Mathlib.Logic.Function.Basic

structure RingBuffer (α : Type*) (N : Nat) where
  buf : Nat → α
  head : Nat
  len : Nat
  head_lt : head < N
  len_le : len ≤ N

namespace RingBuffer

variable {α : Type*} {N : Nat}

def empty (fill : α) (positive : 0 < N) : RingBuffer α N where
  buf := fun _ => fill
  head := 0
  len := 0
  head_lt := positive
  len_le := Nat.zero_le N

def store (N start : Nat) : List α → Nat → (Nat → α) → Nat → α
  | [], _, buf => buf
  | b :: rest, i, buf => store N start rest (i + 1) (Function.update buf ((start + i) % N) b)

def load (N start n : Nat) (buf : Nat → α) : List α :=
  (List.range n).map fun i => buf ((start + i) % N)

def write (r : RingBuffer α N) (data : List α) : RingBuffer α N × Nat :=
  let space := N - r.len
  let n := min data.length space
  let tail := (r.head + r.len) % N
  ({ r with
      buf := store N tail (data.take n) 0 r.buf
      len := r.len + n
      len_le := by have := r.len_le; omega }, n)

def peek (r : RingBuffer α N) (skipped n : Nat) : List α :=
  load N ((r.head + skipped) % N) n r.buf

def skip (r : RingBuffer α N) (n : Nat) : RingBuffer α N where
  buf := r.buf
  head := (r.head + n) % N
  len := r.len - n
  head_lt := Nat.mod_lt _ (Nat.zero_lt_of_lt r.head_lt)
  len_le := Nat.le_trans (Nat.sub_le _ _) r.len_le

def contents (r : RingBuffer α N) : List α := load N r.head r.len r.buf

@[simp] theorem contents_length (r : RingBuffer α N) : r.contents.length = r.len := by
  simp [contents, load]

private theorem add_mod_ne {start i j : Nat} (lt : i < j) (bound : j < i + N) :
    (start + i) % N ≠ (start + j) % N := by
  intro equal
  have divides : N ∣ (start + j) - (start + i) :=
    Nat.dvd_of_mod_eq_zero (Nat.sub_mod_eq_zero_of_mod_eq equal.symm)
  have zero := Nat.eq_zero_of_dvd_of_lt divides (by omega)
  omega

theorem store_other (start : Nat) (data : List α) (i cell : Nat) (buf : Nat → α)
    (other : ∀ k < data.length, (start + (i + k)) % N ≠ cell) :
    store N start data i buf cell = buf cell := by
  induction data generalizing i buf with
  | nil => rfl
  | cons b rest ih =>
      have first := other 0 (by simp)
      rw [store, ih (i + 1), Function.update_of_ne (by simpa using first.symm)]
      intro k inside
      have next := other (k + 1) (by simpa using inside)
      rwa [show i + 1 + k = i + (k + 1) by omega]

theorem store_at (start : Nat) (data : List α) (i k : Nat) (buf : Nat → α)
    (inside : k < data.length) (room : data.length ≤ N) :
    store N start data i buf ((start + (i + k)) % N) = data[k] := by
  induction data generalizing i k buf with
  | nil => simp at inside
  | cons b rest ih =>
      simp only [List.length_cons] at inside room
      rw [store]
      cases k with
      | zero =>
          rw [store_other, Nat.add_zero, Function.update_self, List.getElem_cons_zero]
          intro k below
          exact (add_mod_ne (by omega) (by omega)).symm
      | succ k =>
          rw [List.getElem_cons_succ, ← ih (i + 1) k _ (by omega) (by omega)]
          congr 2
          omega

theorem write_contents (r : RingBuffer α N) (data : List α) :
    (r.write data).1.contents = r.contents ++ data.take (N - r.len) := by
  have bound := r.len_le
  have taken : data.take (min data.length (N - r.len)) = data.take (N - r.len) := by
    rcases Nat.le_total data.length (N - r.len) with fits | full
    · rw [Nat.min_eq_left fits, List.take_length, List.take_of_length_le fits]
    · rw [Nat.min_eq_right full]
  have room : (data.take (N - r.len)).length ≤ N - r.len := List.length_take_le _ _
  apply List.ext_getElem
  · simp [write, Nat.min_comm]
  · intro i inside _
    simp only [contents_length, write] at inside
    simp only [contents, load, write, List.getElem_map, List.getElem_range, taken]
    by_cases old : i < r.len
    · -- The cells of the old contents lie behind the tail and are not overwritten.
      rw [List.getElem_append_left (by simpa using old), List.getElem_map, List.getElem_range]
      apply store_other
      intro k below
      rw [Nat.mod_add_mod, Nat.zero_add, Nat.add_assoc]
      exact (add_mod_ne (by omega) (by omega)).symm
    · rw [List.getElem_append_right (by simpa using old)]
      have cell : (r.head + i) % N = ((r.head + r.len) % N + (0 + (i - r.len))) % N := by
        rw [Nat.mod_add_mod]
        congr 1
        omega
      have length : (data.take (N - r.len)).length = min data.length (N - r.len) := by
        rw [List.length_take, Nat.min_comm]
      rw [cell, store_at _ _ _ _ _ (by omega) (by omega)]
      simp

@[simp] theorem write_snd (r : RingBuffer α N) (data : List α) :
    (r.write data).2 = min data.length (N - r.len) := rfl

@[simp] theorem write_len (r : RingBuffer α N) (data : List α) :
    (r.write data).1.len = r.len + min data.length (N - r.len) := rfl

theorem write_full {r : RingBuffer α N} (full : r.len = N) (data : List α) :
    r.write data = (r, 0) := by
  have none : N - r.len = 0 := by omega
  simp [write, none, store]

theorem store_replicate (start n i : Nat) (a : α) :
    store N start (List.replicate n a) i (fun _ => a) = fun _ => a := by
  induction n generalizing i with
  | zero => rfl
  | succ n ih =>
      rw [List.replicate_succ, store, Function.update_eq_self_iff.mpr rfl]
      exact ih _

theorem write_replicate (a : α) (positive : 0 < N) {n : Nat} (much : N ≤ n) :
    ((empty a positive).write (List.replicate n a)).1 =
      { buf := fun _ => a, head := 0, len := N, head_lt := positive, len_le := Nat.le_refl _ } := by
  simp [write, empty, Nat.min_eq_right much, List.take_replicate, store_replicate]

theorem peek_eq (r : RingBuffer α N) {skipped n : Nat} (inside : skipped + n ≤ r.len) :
    r.peek skipped n = (r.contents.drop skipped).take n := by
  apply List.ext_getElem
  · simp only [peek, load, List.length_map, List.length_range, List.length_take, List.length_drop,
      contents_length]
    omega
  · intro i _ _
    simp only [peek, contents, load, List.getElem_map, List.getElem_range, List.getElem_take,
      List.getElem_drop]
    rw [Nat.mod_add_mod, Nat.add_assoc]

@[simp] theorem skip_len (r : RingBuffer α N) (n : Nat) : (r.skip n).len = r.len - n := rfl

theorem skip_contents (r : RingBuffer α N) {n : Nat} (inside : n ≤ r.len) :
    (r.skip n).contents = r.contents.drop n := by
  have rest := r.peek_eq (show n + (r.len - n) ≤ r.len by omega)
  rw [List.take_of_length_le (by simp)] at rest
  exact rest

end RingBuffer
