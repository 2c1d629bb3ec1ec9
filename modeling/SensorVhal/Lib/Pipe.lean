import SensorVhal.Lib.Run

-- A stream of bounded capacity between two ends.
namespace Pipe

variable {α : Type*}

-- What lies in the pipe, and all that has gone in and come out.
structure State (α : Type*) where
  content : List α
  entered : List α
  left : List α

def State.empty : State α := ⟨[], [], []⟩

-- What goes in has room, and what comes out is the front.
def State.put (s : State α) (chunk : List α) : State α :=
  { s with content := s.content ++ chunk, entered := s.entered ++ chunk }

def State.take (s : State α) (count : Nat) : State α :=
  { s with content := s.content.drop count, left := s.left ++ s.content.take count }

structure State.Sound (capacity : Nat) (s : State α) : Prop where
  length : s.content.length ≤ capacity
  order : s.entered = s.left ++ s.content

variable {capacity : Nat} {s : State α}

theorem State.sound_empty (capacity : Nat) : (empty : State α).Sound capacity :=
  ⟨Nat.zero_le capacity, rfl⟩

theorem State.Sound.put (h : s.Sound capacity) {chunk : List α}
    (hroom : s.content.length + chunk.length ≤ capacity) : (s.put chunk).Sound capacity := by
  constructor
  · simp only [State.put, List.length_append]
    exact hroom
  · simp only [State.put]
    rw [h.order, List.append_assoc]

theorem State.Sound.take (h : s.Sound capacity) (count : Nat) : (s.take count).Sound capacity := by
  have hlength := h.length
  constructor
  · simp only [State.take, List.length_drop]
    omega
  · simp only [State.take]
    rw [h.order, List.append_assoc, List.take_append_drop]

-- Records of one size that come out of a stream of such records, in which the last one
-- may still be on its way, are the first of those that went in.
theorem prefix_of_flatten {n : Nat} {outs ins : List (List α)} {rest last : List α}
    (houts : ∀ record ∈ outs, record.length = n) (hins : ∀ record ∈ ins, record.length = n)
    (hlast : last.length < n) (h : outs.flatten ++ rest = ins.flatten ++ last) :
    outs <+: ins := by
  induction outs generalizing ins with
  | nil => exact List.nil_prefix
  | cons out outs ih =>
      have hout := houts out List.mem_cons_self
      cases ins with
      | nil =>
          have hlength := congrArg List.length h
          simp only [List.flatten_cons, List.flatten_nil, List.length_append, List.nil_append]
            at hlength
          omega
      | cons record ins =>
          have hrecord := hins record List.mem_cons_self
          rw [List.flatten_cons, List.flatten_cons, List.append_assoc, List.append_assoc] at h
          obtain ⟨rfl, hrest⟩ := List.append_inj h (hout.trans hrecord.symm)
          apply List.prefix_cons_inj out |>.mpr
          exact ih (fun r hr => houts r (List.mem_cons_of_mem out hr))
            (fun r hr => hins r (List.mem_cons_of_mem out hr)) hrest

end Pipe
