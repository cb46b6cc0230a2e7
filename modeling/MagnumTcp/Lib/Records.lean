import Mathlib.Data.List.Infix
import Mathlib.Data.List.TakeDrop

namespace Records

variable {α β : Type*}

/-- A code whose words can be read off the front of a text. -/
structure Code (α β : Type*) where
  encode : α → List β
  decode : List β → Option (α × List β)
  Fits : α → Prop
  whole : ∀ a rest, Fits a → decode (encode a ++ rest) = some (a, rest)
  cut : ∀ a part, Fits a → part <+: encode a → part ≠ encode a → decode part = none
  shorter : ∀ text a rest, decode text = some (a, rest) → rest.length < text.length

namespace Code

variable (c : Code α β)

def log (records : List α) : List β := records.flatMap c.encode

def readFrom : Nat → List β → List α
  | 0, _ => []
  | fuel + 1, text =>
      match c.decode text with
      | none => []
      | some (a, rest) => a :: readFrom fuel rest

def read (text : List β) : List α := c.readFrom text.length text

variable {c} {text rest : List β} {a : α} {records : List α}

theorem log_cons (a : α) (later : List α) : c.log (a :: later) = c.encode a ++ c.log later :=
  List.flatMap_cons

theorem readFrom_enough {m n : Nat} (mEnough : text.length ≤ m) (nEnough : text.length ≤ n) :
    c.readFrom m text = c.readFrom n text := by
  induction m generalizing n text with
  | zero =>
      obtain rfl : text = [] := List.eq_nil_of_length_eq_zero (by omega)
      cases n with
      | zero => rfl
      | succ n =>
          rw [readFrom, readFrom]
          cases found : c.decode [] with
          | none => rfl
          | some pair => exact absurd (c.shorter [] pair.1 pair.2 found) (Nat.not_lt_zero _)
  | succ m ih =>
      rw [readFrom]
      cases n with
      | zero =>
          obtain rfl : text = [] := List.eq_nil_of_length_eq_zero (by omega)
          rw [readFrom]
          cases found : c.decode [] with
          | none => rfl
          | some pair => exact absurd (c.shorter [] pair.1 pair.2 found) (Nat.not_lt_zero _)
      | succ n =>
          rw [readFrom]
          cases found : c.decode text with
          | none => rfl
          | some pair =>
              have less := c.shorter text pair.1 pair.2 found
              dsimp only
              rw [ih (n := n) (by omega) (by omega)]

theorem read_none (nothing : c.decode text = none) : c.read text = [] := by
  unfold read
  cases text.length with
  | zero => rfl
  | succ n => rw [readFrom, nothing]

theorem read_some (found : c.decode text = some (a, rest)) : c.read text = a :: c.read rest := by
  have less := c.shorter text a rest found
  obtain ⟨m, length⟩ : ∃ m, text.length = m + 1 := ⟨text.length - 1, by omega⟩
  unfold read
  rw [length, readFrom, found]
  dsimp only
  rw [readFrom_enough (n := rest.length) (by omega) (Nat.le_refl _)]

theorem read_log (fits : ∀ a ∈ records, c.Fits a) : c.read (c.log records) = records := by
  induction records with
  | nil =>
      apply read_none
      cases found : c.decode (c.log []) with
      | none => rfl
      | some pair => exact absurd (c.shorter _ pair.1 pair.2 found) (Nat.not_lt_zero _)
  | cons a later ih =>
      obtain ⟨first, others⟩ := List.forall_mem_cons.mp fits
      rw [log_cons, read_some (c.whole a _ first), ih others]

theorem read_take (fits : ∀ a ∈ records, c.Fits a) (n : Nat) :
    ∃ k, c.read ((c.log records).take n) = records.take k ∧ (c.log (records.take k)).length ≤ n ∧
      (k < records.length → n < (c.log (records.take (k + 1))).length) := by
  induction records generalizing n with
  | nil =>
      refine ⟨0, ?_, Nat.zero_le n, fun inside => absurd inside (Nat.not_lt_zero _)⟩
      rw [show (c.log []).take n = c.log [] from List.take_nil]
      exact read_log fits
  | cons a later ih =>
      obtain ⟨first, others⟩ := List.forall_mem_cons.mp fits
      rw [log_cons]
      by_cases whole : (c.encode a).length ≤ n
      · obtain ⟨k, reads, inside, next⟩ := ih others (n - (c.encode a).length)
        refine ⟨k + 1, ?_, ?_, ?_⟩
        · rw [List.take_append, List.take_of_length_le whole, read_some (c.whole a _ first), reads,
            List.take_succ_cons]
        · rw [List.take_succ_cons, log_cons, List.length_append]
          omega
        · intro more
          have beyond := next (Nat.lt_of_succ_lt_succ more)
          rw [List.take_succ_cons, log_cons, List.length_append]
          omega
      · have part : (c.encode a ++ c.log later).take n = (c.encode a).take n :=
          List.take_append_of_le_length (by omega)
        refine ⟨0, ?_, Nat.zero_le n, fun _ => ?_⟩
        · rw [part, List.take_zero]
          apply read_none
          apply c.cut a _ first (List.take_prefix _ _)
          intro same
          have lengths := congrArg List.length same
          rw [List.length_take] at lengths
          omega
        · rw [List.take_succ_cons, List.take_zero, log_cons, List.length_append]
          omega

end Code

end Records
