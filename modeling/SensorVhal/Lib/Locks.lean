import Mathlib.Data.Finset.Basic
import Mathlib.Logic.Relation
import SensorVhal.Lib.Run

-- Threads that run control flow graphs with mutexes.
namespace Locks

-- What a thread does at a node. Everything but the mutexes is a free choice of
-- the next node. `wait` is a wait on a condition variable: it gives the mutex
-- back and takes it again before it returns.
inductive Instr (N M : Type*)
  | lock (mutex : M) (next : N)
  | unlock (mutex : M) (next : N)
  | wait (mutex : M) (next : N)
  | choose (nexts : List N)

-- Where a thread stands: before an instruction, or in a wait.
inductive Place (N M : Type*)
  | before (node : N)
  | asleep (mutex : M) (next : N)

structure State (T N M : Type*) where
  place : T → Place N M
  owner : M → Option T

variable {T N M : Type*}

def Instr.map {N' : Type*} (f : N → N') : Instr N M → Instr N' M
  | .lock mutex next => .lock mutex (f next)
  | .unlock mutex next => .unlock mutex (f next)
  | .wait mutex next => .wait mutex (f next)
  | .choose nexts => .choose (nexts.map f)

def init (start : T → N) : State T N M := ⟨fun thread => .before (start thread), fun _ => none⟩

section Step

variable [DecidableEq T] [DecidableEq N] [DecidableEq M]

def State.acquire (s : State T N M) (thread : T) (mutex : M) (next : N) : Option (State T N M) :=
  if s.owner mutex = none then
    some ⟨Function.update s.place thread (.before next),
      Function.update s.owner mutex (some thread)⟩
  else none

def State.release (s : State T N M) (thread : T) (mutex : M) (place : Place N M) : State T N M :=
  ⟨Function.update s.place thread place, Function.update s.owner mutex none⟩

-- One thread takes one step, with the node that it goes to where it has a choice.
def step (code : N → Instr N M) (s : State T N M) (event : T × N) : Option (State T N M) :=
  match s.place event.1 with
  | .asleep mutex next => s.acquire event.1 mutex next
  | .before node =>
    match code node with
    | .lock mutex next => s.acquire event.1 mutex next
    | .unlock mutex next => some (s.release event.1 mutex (.before next))
    | .wait mutex next => some (s.release event.1 mutex (.asleep mutex next))
    | .choose nexts =>
      if event.2 ∈ nexts then
        some { s with place := Function.update s.place event.1 (.before event.2) }
      else none

end Step

section Discipline

variable [DecidableEq M]

-- `held` says which mutexes a thread holds before each node. The next nodes
-- agree with it, and mutexes are taken in the order of their ranks.
def Instr.Respects (held : N → Finset M) (rank : M → Nat) (here : Finset M) : Instr N M → Prop
  | .lock mutex next =>
    mutex ∉ here ∧ held next = insert mutex here ∧ ∀ other ∈ here, rank other < rank mutex
  | .unlock mutex next => mutex ∈ here ∧ held next = here.erase mutex
  | .wait mutex next =>
    mutex ∈ here ∧ held next = here ∧ ∀ other ∈ here.erase mutex, rank other < rank mutex
  | .choose nexts => ∀ next ∈ nexts, held next = here

instance (held : N → Finset M) (rank : M → Nat) (here : Finset M) :
    (instr : Instr N M) → Decidable (instr.Respects held rank here)
  | .lock _ _ => inferInstanceAs (Decidable (_ ∧ _ ∧ _))
  | .unlock _ _ => inferInstanceAs (Decidable (_ ∧ _))
  | .wait _ _ => inferInstanceAs (Decidable (_ ∧ _ ∧ _))
  | .choose nexts => inferInstanceAs (Decidable (∀ next ∈ nexts, _))

-- A discipline of some code, with the check of every node.
structure Discipline (code : N → Instr N M) where
  held : N → Finset M
  rank : M → Nat
  respects : ∀ node, (code node).Respects held rank (held node)

end Discipline

section Threads

variable (code : N → Instr N M) (s : State T N M)

-- The thread is about to take the mutex, also again at the end of a wait.
def State.Wants (thread : T) (mutex : M) : Prop :=
  (∃ next, s.place thread = .asleep mutex next) ∨
    ∃ node next, s.place thread = .before node ∧ code node = .lock mutex next

-- The thread is about to give the mutex back, also to wait.
def State.Drops (thread : T) (mutex : M) : Prop :=
  ∃ node next, s.place thread = .before node ∧
    (code node = .unlock mutex next ∨ code node = .wait mutex next)

def State.WaitsFor (thread other : T) : Prop :=
  ∃ mutex, s.Wants code thread mutex ∧ s.owner mutex = some other

end Threads

namespace Discipline

variable [DecidableEq M] {code : N → Instr N M} (d : Discipline code)

def holds : Place N M → Finset M
  | .before node => d.held node
  | .asleep mutex next => (d.held next).erase mutex

@[simp] theorem holds_before (node : N) : d.holds (.before node) = d.held node := rfl

@[simp] theorem holds_asleep (mutex : M) (next : N) :
    d.holds (.asleep mutex next) = (d.held next).erase mutex := rfl

-- The owners of the mutexes are the threads that hold them by the discipline,
-- and a thread sleeps in a wait of the code.
structure Kept (s : State T N M) : Prop where
  owner : ∀ mutex thread, s.owner mutex = some thread ↔ mutex ∈ d.holds (s.place thread)
  asleep : ∀ thread mutex next, s.place thread = .asleep mutex next →
    ∃ node, code node = .wait mutex next

variable {d} {s next : State T N M}

-- What a thread holds when it sleeps, and before and after.
theorem held_wait {node after : N} {mutex : M} (h : code node = .wait mutex after) :
    mutex ∈ d.held node ∧ d.held after = d.held node ∧
      ∀ other ∈ (d.held after).erase mutex, d.rank other < d.rank mutex := by
  have hrespects := d.respects node
  rw [h] at hrespects
  obtain ⟨hmem, hheld, hrank⟩ := hrespects
  rw [hheld]
  exact ⟨hmem, rfl, hrank⟩

theorem kept_init {start : T → N} (hstart : ∀ thread, d.held (start thread) = ∅) :
    d.Kept (init start) where
  owner := by
    intro mutex thread
    simp [init, holds, hstart]
  asleep := nofun

section Step

variable [DecidableEq T]

-- One thread moves and the mutexes of the others stay theirs.
theorem Kept.update (h : d.Kept s) {thread : T} {place : Place N M} {owner : M → Option T}
    (hown : ∀ m, owner m = some thread ↔ m ∈ d.holds place)
    (hothers : ∀ m t, t ≠ thread → (owner m = some t ↔ s.owner m = some t))
    (hasleep : ∀ m after, place = .asleep m after → ∃ node, code node = .wait m after) :
    d.Kept ⟨Function.update s.place thread place, owner⟩ := by
  refine ⟨fun m t => ?_, fun t m after hplace => ?_⟩
  · by_cases ht : t = thread
    · subst ht
      simp only [Function.update_self]
      exact hown m
    · simp only [Function.update_of_ne ht]
      exact (hothers m t ht).trans (h.owner m t)
  · by_cases ht : t = thread
    · subst ht
      simp only [Function.update_self] at hplace
      exact hasleep m after hplace
    · simp only [Function.update_of_ne ht] at hplace
      exact h.asleep t m after hplace

-- A thread takes a mutex that is free.
theorem Kept.acquire (h : d.Kept s) {thread : T} {mutex : M} {node : N}
    (hheld : d.held node = insert mutex (d.holds (s.place thread)))
    (hacquire : s.acquire thread mutex node = some next) : d.Kept next := by
  obtain ⟨hfree, hnext⟩ := Option.ite_none_right_eq_some.mp hacquire
  obtain rfl := Option.some.inj hnext
  refine h.update (fun m => ?_) (fun m t ht => ?_) nofun
  · rw [holds_before, hheld, Finset.mem_insert, ← h.owner]
    by_cases hm : m = mutex
    · simp [hm]
    · simp [hm]
  · by_cases hm : m = mutex
    · simp [hm, hfree, Ne.symm ht]
    · simp [hm]

-- A thread gives back a mutex that it holds.
theorem Kept.release (h : d.Kept s) {thread : T} {mutex : M} {place : Place N M}
    (hmem : mutex ∈ d.holds (s.place thread))
    (hholds : d.holds place = (d.holds (s.place thread)).erase mutex)
    (hasleep : ∀ m after, place = .asleep m after → ∃ node, code node = .wait m after) :
    d.Kept (s.release thread mutex place) := by
  have howner := (h.owner mutex thread).mpr hmem
  refine h.update (fun m => ?_) (fun m t ht => ?_) hasleep
  · rw [hholds, Finset.mem_erase, ← h.owner]
    by_cases hm : m = mutex
    · simp [hm]
    · simp [hm]
  · by_cases hm : m = mutex
    · simp [hm, howner, Ne.symm ht]
    · simp [hm]

theorem Kept.move (h : d.Kept s) {thread : T} {node : N}
    (hheld : d.held node = d.holds (s.place thread)) :
    d.Kept { s with place := Function.update s.place thread (.before node) } := by
  refine h.update (fun m => ?_) (fun _ _ _ => Iff.rfl) nofun
  rw [holds_before, hheld]
  exact h.owner m thread

variable [DecidableEq N]

theorem kept_step {event : T × N} (h : d.Kept s) (hstep : step code s event = some next) :
    d.Kept next := by
  unfold step at hstep
  cases hplace : s.place event.1 with
  | asleep mutex after =>
      rw [hplace] at hstep
      obtain ⟨node, hwait⟩ := h.asleep _ _ _ hplace
      obtain ⟨hmem, hheld, _⟩ := d.held_wait hwait
      refine h.acquire ?_ hstep
      rw [hplace, holds_asleep, hheld, Finset.insert_erase hmem]
  | before node =>
      have hholds : d.holds (s.place event.1) = d.held node := by rw [hplace, holds]
      have hrespects := d.respects node
      simp only [hplace] at hstep
      cases hinstr : code node with
      | lock mutex after =>
          rw [hinstr] at hstep hrespects
          refine h.acquire ?_ hstep
          rw [hholds]
          exact hrespects.2.1
      | unlock mutex after =>
          rw [hinstr] at hstep hrespects
          obtain rfl := Option.some.inj hstep
          refine h.release ?_ ?_ nofun
          · rw [hholds]
            exact hrespects.1
          · rw [hholds]
            exact hrespects.2
      | wait mutex after =>
          rw [hinstr] at hstep
          obtain ⟨hmem, hheld, _⟩ := d.held_wait hinstr
          obtain rfl := Option.some.inj hstep
          refine h.release ?_ ?_ ?_
          · rw [hholds]
            exact hmem
          · rw [hholds, holds_asleep, hheld]
          · rintro m n ⟨⟩
            exact ⟨node, hinstr⟩
      | choose nexts =>
          rw [hinstr] at hstep hrespects
          obtain ⟨hpick, hnext⟩ := Option.ite_none_right_eq_some.mp hstep
          obtain rfl := Option.some.inj hnext
          apply h.move
          rw [hholds]
          exact hrespects _ hpick

theorem kept_run {start : T → N} (hstart : ∀ thread, d.held (start thread) = ∅)
    {events : List (T × N)} (hrun : Machine.run (step code) (init start) events = some s) :
    d.Kept s :=
  Machine.invariant_always (fun _ _ _ h hstep => kept_step h hstep) (kept_init hstart) hrun

end Step

-- No thread takes a mutex that it has, and all that it has come before it.
theorem Kept.wants (h : d.Kept s) {thread : T} {mutex : M} (hwants : s.Wants code thread mutex) :
    s.owner mutex ≠ some thread ∧
      ∀ other, s.owner other = some thread → d.rank other < d.rank mutex := by
  obtain ⟨after, hplace⟩ | ⟨node, after, hplace, hinstr⟩ := hwants
  · refine ⟨fun howner => ?_, fun other howner => ?_⟩
    · rw [h.owner, hplace] at howner
      exact Finset.notMem_erase _ _ howner
    · rw [h.owner, hplace] at howner
      obtain ⟨node, hwait⟩ := h.asleep _ _ _ hplace
      exact (d.held_wait hwait).2.2 other howner
  · have hrespects := d.respects node
    rw [hinstr] at hrespects
    refine ⟨fun howner => ?_, fun other howner => ?_⟩
    · rw [h.owner, hplace] at howner
      exact hrespects.1 howner
    · rw [h.owner, hplace] at howner
      exact hrespects.2.2 other howner

-- No thread gives back a mutex that it does not have.
theorem Kept.drops (h : d.Kept s) {thread : T} {mutex : M} (hdrops : s.Drops code thread mutex) :
    s.owner mutex = some thread := by
  obtain ⟨node, after, hplace, hinstr⟩ := hdrops
  have hrespects := d.respects node
  rw [h.owner, hplace]
  rcases hinstr with hunlock | hwait
  · rw [hunlock] at hrespects
    exact hrespects.1
  · rw [hwait] at hrespects
    exact hrespects.1

-- Along a chain of threads that wait for each other the ranks go up.
theorem Kept.chain (h : d.Kept s) {thread other : T}
    (hchain : Relation.TransGen (s.WaitsFor code) thread other) :
    ∃ mutex, s.Wants code thread mutex ∧
      ∀ next, s.Wants code other next → d.rank mutex < d.rank next := by
  induction hchain with
  | single hwaits =>
      obtain ⟨mutex, hwants, howner⟩ := hwaits
      exact ⟨mutex, hwants, fun next hnext => (h.wants hnext).2 mutex howner⟩
  | tail hrest hwaits ih =>
      obtain ⟨mutex, hwants, hbelow⟩ := ih
      obtain ⟨middle, hmiddle, howner⟩ := hwaits
      refine ⟨mutex, hwants, fun next hnext => ?_⟩
      exact Nat.lt_trans (hbelow middle hmiddle) ((h.wants hnext).2 middle howner)

theorem Kept.no_cycle (h : d.Kept s) (thread : T) :
    ¬ Relation.TransGen (s.WaitsFor code) thread thread := by
  intro hcycle
  obtain ⟨mutex, hwants, hbelow⟩ := h.chain hcycle
  exact Nat.lt_irrefl _ (hbelow mutex hwants)

end Discipline

end Locks
