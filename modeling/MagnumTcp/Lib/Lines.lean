import Mathlib.Data.List.Basic

namespace Lines

variable {α : Type*} [DecidableEq α] {cr lf : α} {line rest more : List α} {lines : List (List α)}

def write (cr lf : α) (lines : List (List α)) : List α := lines.flatMap (· ++ [cr, lf]) ++ [cr, lf]

-- The first list is the part of the current line that has been read.
def read (cr lf : α) : List α → List α → Option (List (List α) × List α)
  | _, [] => none
  | _, [_] => none
  | line, b :: c :: rest =>
      if b = cr ∧ c = lf then
        if line = [] then some ([], rest) else (read cr lf [] rest).map (Prod.map (line :: ·) id)
      else read cr lf (line ++ [b]) (c :: rest)

theorem read_line {tail : List α} (free : cr ∉ tail) (line rest : List α) :
    read cr lf line (tail ++ cr :: lf :: rest) =
      if line ++ tail = [] then some ([], rest)
      else (read cr lf [] rest).map (Prod.map ((line ++ tail) :: ·) id) := by
  induction tail generalizing line with
  | nil => rw [List.nil_append, read, if_pos ⟨rfl, rfl⟩, List.append_nil]
  | cons b tail ih =>
      have other : b ≠ cr := fun same => free (same ▸ List.mem_cons_self)
      have free' : cr ∉ tail := fun later => free (List.mem_cons_of_mem b later)
      have whole : line ++ b :: tail = line ++ [b] ++ tail := by simp
      rw [whole, ← ih free' (line ++ [b])]
      cases tail with
      | nil => exact (if_neg fun both => other both.1)
      | cons c tail => exact (if_neg fun both => other both.1)

theorem read_write (filled : ∀ line ∈ lines, line ≠ [] ∧ cr ∉ line) (rest : List α) :
    read cr lf [] (write cr lf lines ++ rest) = some (lines, rest) := by
  induction lines with
  | nil => exact read_line List.not_mem_nil [] rest
  | cons line lines ih =>
      obtain ⟨some, free⟩ := filled line List.mem_cons_self
      have whole : write cr lf (line :: lines) ++ rest = line ++ cr :: lf :: (write cr lf lines ++ rest) := by
        simp [write]
      rw [whole, read_line free, List.nil_append, if_neg some,
        ih fun line later => filled line (List.mem_cons_of_mem _ later)]
      rfl

theorem read_sound {raw : List α} (found : read cr lf line raw = some (lines, rest)) :
    line ++ raw = write cr lf lines ++ rest := by
  fun_induction read cr lf line raw generalizing lines rest with
  | case1 => cases found
  | case2 => cases found
  | case3 b c tail ends =>
      cases found
      rw [ends.1, ends.2]
      rfl
  | case4 line b c tail ends some ih =>
      obtain ⟨⟨later, rest'⟩, next, same⟩ := Option.map_eq_some_iff.mp found
      cases same
      have whole := ih next
      rw [List.nil_append] at whole
      simp [write, whole, ends.1, ends.2]
  | case5 line b c tail other ih =>
      rw [← ih found]
      simp

theorem read_append {raw : List α} (found : read cr lf line raw = some (lines, rest)) (more : List α) :
    read cr lf line (raw ++ more) = some (lines, rest ++ more) := by
  fun_induction read cr lf line raw generalizing lines rest with
  | case1 => cases found
  | case2 => cases found
  | case3 b c tail ends =>
      cases found
      rw [List.cons_append, List.cons_append, read, if_pos ends, if_pos rfl]
  | case4 line b c tail ends some ih =>
      obtain ⟨⟨later, rest'⟩, next, same⟩ := Option.map_eq_some_iff.mp found
      cases same
      rw [List.cons_append, List.cons_append, read, if_pos ends, if_neg some, ih next]
      rfl
  | case5 line b c tail other ih =>
      rw [List.cons_append, List.cons_append, read, if_neg other, ← List.cons_append]
      exact ih found

end Lines
