import Mathlib.Data.List.Infix
import Mathlib.Data.List.TakeWhile

namespace Search

variable {α : Type*} [DecidableEq α] {pat xs ys zs : List α} {i : Nat}

def find (pat : List α) : List α → Option Nat
  | [] => if pat.isPrefixOf [] then some 0 else none
  | x :: xs => if pat.isPrefixOf (x :: xs) then some 0 else (find pat xs).map (· + 1)

theorem find_isSome : (find pat xs).isSome = true ↔ pat <:+: xs := by
  induction xs with
  | nil => simp [find]
  | cons x xs ih =>
      rw [List.infix_cons_iff, ← ih, find]
      split
      · rename_i here
        simp [List.isPrefixOf_iff_prefix.mp here]
      · rename_i notHere
        rw [List.isPrefixOf_iff_prefix] at notHere
        simp [notHere]

theorem find_of_infix (inside : pat <:+: xs) : ∃ i, find pat xs = some i :=
  Option.isSome_iff_exists.mp (find_isSome.mpr inside)

theorem find_le (found : find pat xs = some i) : i + pat.length ≤ xs.length := by
  induction xs generalizing i with
  | nil =>
      unfold find at found
      split at found
      · rename_i here
        cases found
        simpa using (List.isPrefixOf_iff_prefix.mp here).length_le
      · cases found
  | cons x xs ih =>
      unfold find at found
      split at found
      · rename_i here
        cases found
        simpa using (List.isPrefixOf_iff_prefix.mp here).length_le
      · obtain ⟨k, later, rfl⟩ := Option.map_eq_some_iff.mp found
        have inside := ih later
        rw [List.length_cons]
        omega

theorem find_append (found : find pat xs = some i) (more : List α) :
    find pat (xs ++ more) = some i := by
  induction xs generalizing i with
  | nil =>
      unfold find at found
      split at found
      · rename_i here
        cases found
        rw [List.isPrefixOf_iff_prefix, List.prefix_nil] at here
        subst here
        cases more <;> rfl
      · cases found
  | cons x xs ih =>
      unfold find at found
      rw [List.cons_append, find, ← List.cons_append]
      split at found
      · rename_i here
        cases found
        rw [List.isPrefixOf_iff_prefix] at here
        rw [if_pos (List.isPrefixOf_iff_prefix.mpr (here.trans (List.prefix_append _ _)))]
      · rename_i notHere
        obtain ⟨k, later, rfl⟩ := Option.map_eq_some_iff.mp found
        -- The pattern fits into `xs`, so that it does not begin here with its end in `more`.
        have short := find_le later
        have notThere : ¬ pat.isPrefixOf (x :: xs ++ more) = true := by
          rw [List.isPrefixOf_iff_prefix] at notHere ⊢
          intro there
          refine notHere (List.prefix_of_prefix_length_le there (List.prefix_append _ _) ?_)
          rw [List.length_cons]
          omega
        rw [if_neg notThere, ih later, Option.map_some]

theorem find_mono (found : find pat xs = some i) (start : xs <+: ys) : find pat ys = some i := by
  obtain ⟨more, rfl⟩ := start
  exact find_append found more

theorem eq_of_drop_eq (xsFound : find pat xs = some i) (ysFound : find pat ys = some i)
    (xsStart : xs <+: zs) (ysStart : ys <+: zs)
    (same : xs.drop (i + pat.length) = ys.drop (i + pat.length)) : xs = ys := by
  have xsLe := find_le xsFound
  have ysLe := find_le ysFound
  have lengths := congrArg List.length same
  rw [List.length_drop, List.length_drop] at lengths
  have equal : xs.length = ys.length := by omega
  exact (List.prefix_of_prefix_length_le xsStart ysStart equal.le).eq_of_length equal

theorem dropWhile_separator {sep : α} {front : List α} (free : sep ∉ front) (behind : List α) :
    (front ++ sep :: behind).dropWhile (· ≠ sep) = sep :: behind := by
  rw [List.dropWhile_append_of_pos, List.dropWhile_cons_of_neg (by simp)]
  intro x member
  exact decide_eq_true fun equal => free (equal ▸ member)

theorem behind_separator {sep : α} {part s t : List α} (xsFree : sep ∉ xs) (ysFree : sep ∉ ys)
    (begins : part.head? = some sep) (same : xs ++ (part ++ s) = ys ++ (part ++ t)) : s = t := by
  obtain ⟨more, rfl⟩ : ∃ more, part = sep :: more :=
    ⟨part.tail, (List.cons_head?_tail begins).symm⟩
  have behind := congrArg (List.dropWhile (· ≠ sep)) same
  rw [List.cons_append, List.cons_append, dropWhile_separator xsFree, dropWhile_separator ysFree]
    at behind
  exact List.append_cancel_left (List.cons.inj behind).2

end Search
