import Mathlib.Algebra.Order.Group.Multiset
import SensorVhal.Lib.Run

namespace Fifo

variable {α : Type*}

-- A queue of bounded length with all that went in and out of it so far.
-- `dropped` has the queue at each drop, whose first value is the one dropped.
structure State (α : Type*) where
  queue : List α
  offered : List α
  taken : List α
  dropped : List (List α)

inductive Op (α : Type*)
  | offer (value : α)
  | take

def init : State α := ⟨[], [], [], []⟩

-- A value that comes to a full queue pushes the oldest one out.
def step (capacity : Nat) (s : State α) : Op α → Option (State α)
  | .offer value =>
    if s.queue.length < capacity then
      some { s with queue := s.queue ++ [value], offered := s.offered ++ [value] }
    else
      some { s with
        queue := s.queue.tail ++ [value]
        offered := s.offered ++ [value]
        dropped := s.dropped ++ [s.queue] }
  | .take =>
    match s.queue with
    | [] => none
    | front :: queue => some { s with queue := queue, taken := s.taken ++ [front] }

-- What holds of a bounded queue at any time.
structure Sound (capacity : Nat) (s : State α) : Prop where
  length : s.queue.length ≤ capacity
  order : (s.taken ++ s.queue).Sublist s.offered
  full : ∀ queue ∈ s.dropped, queue.length = capacity
  accounted : (s.offered : Multiset α) =
    ↑s.taken + ↑s.queue + ↑(s.dropped.filterMap List.head?)

theorem sound_init (capacity : Nat) : Sound capacity (init : State α) where
  length := Nat.zero_le capacity
  order := .slnil
  full := fun _ h => absurd h List.not_mem_nil
  accounted := rfl

theorem sound_step {capacity : Nat} (hpos : 0 < capacity) {s t : State α} {op : Op α}
    (hs : Sound capacity s) (h : step capacity s op = some t) : Sound capacity t := by
  obtain ⟨hlength, horder, hfull, haccounted⟩ := hs
  cases op with
  | offer value =>
      simp only [step] at h
      split at h
      · rename_i hroom
        cases h
        refine ⟨?_, ?_, hfull, ?_⟩
        · simp only [List.length_append, List.length_singleton]
          omega
        · rw [← List.append_assoc]
          exact horder.append (List.Sublist.refl [value])
        · simp only [← Multiset.coe_add, haccounted]
          ac_rfl
      · rename_i hroom
        cases h
        obtain ⟨front, queue, hqueue⟩ : ∃ front queue, s.queue = front :: queue :=
          List.exists_cons_of_length_pos (by omega)
        simp only [hqueue, List.length_cons] at hlength hroom
        have hrest : (s.taken ++ queue).Sublist s.offered :=
          ((List.sublist_cons_self front queue).append_left s.taken).trans (hqueue ▸ horder)
        refine ⟨?_, ?_, ?_, ?_⟩
        · simp only [hqueue, List.tail_cons, List.length_append, List.length_singleton]
          omega
        · simp only [hqueue, List.tail_cons]
          rw [← List.append_assoc]
          exact hrest.append (List.Sublist.refl [value])
        · intro dropped hmem
          rcases List.mem_append.mp hmem with hold | hnew
          · exact hfull dropped hold
          · rw [List.mem_singleton.mp hnew, hqueue, List.length_cons]
            omega
        · have hheads : (s.dropped ++ [s.queue]).filterMap List.head? =
              s.dropped.filterMap List.head? ++ [front] := by
            rw [List.filterMap_append, hqueue]
            rfl
          rw [hqueue, ← List.singleton_append, ← Multiset.coe_add] at haccounted
          rw [hheads, hqueue, List.tail_cons]
          simp only [← Multiset.coe_add, haccounted]
          ac_rfl
  | take =>
      simp only [step] at h
      split at h
      · cases h
      · rename_i front queue hqueue
        cases h
        rw [hqueue] at hlength horder haccounted
        refine ⟨Nat.le_of_succ_le hlength, ?_, hfull, ?_⟩
        · rw [List.append_assoc]
          exact horder
        · rw [haccounted, ← List.singleton_append, ← Multiset.coe_add]
          simp only [← Multiset.coe_add]
          ac_rfl

theorem sound_run {capacity : Nat} (hpos : 0 < capacity) {s : State α} {ops : List (Op α)}
    (h : Machine.run (step capacity) init ops = some s) : Sound capacity s :=
  Machine.invariant_always (fun _ _ _ hs h => sound_step hpos hs h) (sound_init capacity) h

end Fifo
