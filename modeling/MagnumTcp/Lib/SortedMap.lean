import Mathlib.Data.List.Pairwise
import Mathlib.Tactic.SplitIfs

variable {κ ν : Type*}

def KeysIncrease [LT κ] (entries : List (κ × ν)) : Prop :=
  entries.Pairwise fun a b => a.1 < b.1

structure SortedMap (κ ν : Type*) [LT κ] where
  entries : List (κ × ν)
  increasing : KeysIncrease entries

namespace SortedMap

def empty [LT κ] : SortedMap κ ν := ⟨[], List.Pairwise.nil⟩

section

variable [LT κ] [DecidableEq κ] [DecidableLT κ]

def place (k : κ) (v : ν) : List (κ × ν) → List (κ × ν)
  | [] => [(k, v)]
  | (k', v') :: rest =>
      if k < k' then (k, v) :: (k', v') :: rest
      else if k = k' then (k', v') :: rest
      else (k', v') :: place k v rest

theorem mem_place {k : κ} {v : ν} {entries : List (κ × ν)} {entry : κ × ν}
    (member : entry ∈ place k v entries) : entry = (k, v) ∨ entry ∈ entries := by
  induction entries with
  | nil => simpa [place] using member
  | cons first rest ih =>
      obtain ⟨k', v'⟩ := first
      simp only [place] at member
      split_ifs at member with before same
      · simpa using member
      · exact .inr member
      · rcases List.mem_cons.mp member with rfl | later
        · exact .inr List.mem_cons_self
        · exact (ih later).imp_right (List.mem_cons_of_mem _)

theorem mem_place_of_mem (k : κ) (v : ν) {entries : List (κ × ν)} {entry : κ × ν}
    (member : entry ∈ entries) : entry ∈ place k v entries := by
  induction entries with
  | nil => exact absurd member List.not_mem_nil
  | cons first rest ih =>
      obtain ⟨k', v'⟩ := first
      simp only [place]
      split_ifs with before same
      · exact List.mem_cons_of_mem _ member
      · exact member
      · rcases List.mem_cons.mp member with rfl | later
        · exact List.mem_cons_self
        · exact List.mem_cons_of_mem _ (ih later)

theorem key_mem_place (k : κ) (v : ν) (entries : List (κ × ν)) :
    ∃ entry ∈ place k v entries, entry.1 = k := by
  induction entries with
  | nil => exact ⟨_, List.mem_cons_self, rfl⟩
  | cons first rest ih =>
      obtain ⟨k', v'⟩ := first
      simp only [place]
      split_ifs with before same
      · exact ⟨_, List.mem_cons_self, rfl⟩
      · exact ⟨_, List.mem_cons_self, same.symm⟩
      · obtain ⟨entry, member, key⟩ := ih
        exact ⟨entry, List.mem_cons_of_mem _ member, key⟩

theorem place_perm {k : κ} (v : ν) {entries : List (κ × ν)} (fresh : ∀ entry ∈ entries, entry.1 ≠ k) :
    (place k v entries).Perm ((k, v) :: entries) := by
  induction entries with
  | nil => exact .refl _
  | cons first rest ih =>
      obtain ⟨k', v'⟩ := first
      obtain ⟨other, later⟩ := List.forall_mem_cons.mp fresh
      simp only [place]
      rw [if_neg (Ne.symm other)]
      split_ifs with before
      · exact .refl _
      · exact ((ih later).cons _).trans (.swap _ _ _)

variable [LE κ] [Std.IsLinearOrder κ] [Std.LawfulOrderLT κ]

theorem place_increasing (k : κ) (v : ν) {entries : List (κ × ν)}
    (increasing : KeysIncrease entries) : KeysIncrease (place k v entries) := by
  induction entries with
  | nil => exact List.pairwise_singleton _ _
  | cons first rest ih =>
      obtain ⟨k', v'⟩ := first
      obtain ⟨least, tail⟩ := List.pairwise_cons.mp increasing
      simp only [place]
      split_ifs with before same
      · refine List.pairwise_cons.mpr ⟨?_, increasing⟩
        intro entry member
        rcases List.mem_cons.mp member with rfl | later
        · exact before
        · exact Std.lt_trans before (least entry later)
      · exact increasing
      · refine List.pairwise_cons.mpr ⟨?_, ih tail⟩
        intro entry member
        rcases mem_place member with rfl | later
        · exact Std.lt_of_le_of_ne (Std.not_lt.mp before) (Ne.symm same)
        · exact least entry later

def insertNew (m : SortedMap κ ν) (k : κ) (v : ν) : SortedMap κ ν :=
  ⟨place k v m.entries, place_increasing k v m.increasing⟩

theorem place_eq_self {k : κ} {v : ν} {entries : List (κ × ν)} (increasing : KeysIncrease entries) :
    place k v entries = entries ↔ ∃ entry ∈ entries, entry.1 = k := by
  induction entries with
  | nil => simp [place]
  | cons first rest ih =>
      obtain ⟨k', v'⟩ := first
      obtain ⟨least, tail⟩ := List.pairwise_cons.mp increasing
      simp only [place]
      split_ifs with before same
      · refine iff_of_false (List.ne_cons_self ∘ Eq.symm) ?_
        rintro ⟨entry, member, rfl⟩
        rcases List.mem_cons.mp member with rfl | later
        · exact Std.lt_irrefl before
        · exact Std.lt_irrefl (Std.lt_trans before (least entry later))
      · exact iff_of_true rfl ⟨_, List.mem_cons_self, same.symm⟩
      · rw [List.cons.injEq, eq_self, true_and, ih tail]
        simp only [List.mem_cons, exists_eq_or_imp, Ne.symm same, false_or]

theorem insertNew_eq_self {m : SortedMap κ ν} {k : κ} {v : ν} :
    m.insertNew k v = m ↔ ∃ entry ∈ m.entries, entry.1 = k := by
  rw [← place_eq_self m.increasing (v := v)]
  exact ⟨congrArg entries, fun same => by cases m; simpa [insertNew] using same⟩

theorem mem_insertNew {m : SortedMap κ ν} {k : κ} {v : ν} {entry : κ × ν}
    (member : entry ∈ (m.insertNew k v).entries) : entry = (k, v) ∨ entry ∈ m.entries :=
  mem_place member

end

end SortedMap
