import Mathlib.Data.List.Basic
import Mathlib.Data.List.TakeWhile

namespace FrontQueue

variable {α : Type*} {p : α → Bool} {l front : List α}

def ReadyFirst (p : α → Bool) (l : List α) : Prop := l.Pairwise fun a b => p b = true → p a = true

instance (p : α → Bool) (l : List α) : Decidable (ReadyFirst p l) :=
  inferInstanceAs (Decidable (List.Pairwise _ l))

theorem readyFirst_iff : ReadyFirst p l ↔ ∀ a ∈ l.dropWhile p, p a = false := by
  unfold ReadyFirst
  induction l with
  | nil => simp
  | cons b rest ih =>
      rw [List.pairwise_cons, ih]
      cases ready : p b with
      | true => simp [List.dropWhile_cons_of_pos ready]
      | false =>
          have stuck : ¬ p b = true := by simp [ready]
          rw [List.dropWhile_cons_of_neg stuck, List.forall_mem_cons]
          constructor
          · rintro ⟨behind, -⟩
            exact ⟨ready, fun a member => by simpa using behind a member⟩
          · rintro ⟨-, behind⟩
            refine ⟨fun a member => by simp [behind a member], ?_⟩
            intro a member
            exact behind a ((List.dropWhile_sublist p).mem member)

theorem ReadyFirst.takeWhile (first : ReadyFirst p l) : l.takeWhile p = l.filter p := by
  have left := readyFirst_iff.mp first
  conv_rhs => rw [← List.takeWhile_append_dropWhile (p := p) (l := l), List.filter_append]
  rw [List.filter_eq_self.mpr fun a member => List.mem_takeWhile_imp member,
    List.filter_eq_nil_iff.mpr fun a member => by simp [left a member], List.append_nil]

theorem ReadyFirst.dropWhile (first : ReadyFirst p l) : l.dropWhile p = l.filter fun a => !p a := by
  have left := readyFirst_iff.mp first
  conv_rhs => rw [← List.takeWhile_append_dropWhile (p := p) (l := l), List.filter_append]
  rw [List.filter_eq_nil_iff.mpr fun a member => by simp [List.mem_takeWhile_imp member],
    List.filter_eq_self.mpr fun a member => by simp [left a member], List.nil_append]

theorem readyFirst_append (ready : ∀ a ∈ front, p a = true) :
    ReadyFirst p (front ++ l) ↔ ReadyFirst p l := by
  induction front with
  | nil => rfl
  | cons a rest ih =>
      obtain ⟨first, others⟩ := List.forall_mem_cons.mp ready
      rw [List.cons_append, ReadyFirst, List.pairwise_cons]
      exact (and_iff_right fun _ _ _ => first).trans (ih others)

end FrontQueue
