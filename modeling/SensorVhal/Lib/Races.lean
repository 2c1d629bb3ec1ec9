import SensorVhal.Lib.Locks

-- The variables that threads share, and when two of them are about to meet at one.
namespace Locks

inductive Access (V : Type*)
  | read (var : V)
  | write (var : V)
  deriving DecidableEq

deriving instance DecidableEq for Place

variable {T N M V : Type*}

namespace Access

def var : Access V → V
  | read var => var
  | write var => var

end Access

def Instr.nexts : Instr N M → List N
  | .lock _ next => [next]
  | .unlock _ next => [next]
  | .wait _ next => [next]
  | .choose nexts => nexts

-- The node that a thread is at, or comes to after its wait.
def Place.node : Place N M → N
  | .before node => node
  | .asleep _ next => next

-- Two threads are in front of accesses to the variable, and one of them writes it.
def State.Races (accesses : N → List (Access V)) (s : State T N M) (var : V) : Prop :=
  ∃ thread other node node', thread ≠ other ∧
    s.place thread = .before node ∧ s.place other = .before node' ∧
    .write var ∈ accesses node ∧ ∃ access ∈ accesses node', access.var = var

-- Every access to the variable is made with the mutex.
def Discipline.Guards [DecidableEq M] {code : N → Instr N M} (d : Discipline code)
    (accesses : N → List (Access V)) (mutex : M) (var : V) : Prop :=
  ∀ node, ∀ access ∈ accesses node, access.var = var → mutex ∈ d.held node

theorem Discipline.Kept.not_races [DecidableEq M] {code : N → Instr N M} {d : Discipline code}
    {s : State T N M} (h : d.Kept s) {accesses : N → List (Access V)} {mutex : M} {var : V}
    (hguards : d.Guards accesses mutex var) : ¬ s.Races accesses var := by
  rintro ⟨thread, other, node, node', hne, hplace, hplace', hwrite, access, haccess, hvar⟩
  have howner : s.owner mutex = some thread := by
    rw [h.owner, hplace]
    exact hguards node _ hwrite rfl
  have howner' : s.owner mutex = some other := by
    rw [h.owner, hplace']
    exact hguards node' access haccess hvar
  exact hne (Option.some.inj (howner.symm.trans howner'))

-- Parts of the code that no thread leaves.
section Roles

variable {R : Type*} {code : N → Instr N M} {role : N → R}

def Closed (code : N → Instr N M) (role : N → R) : Prop :=
  ∀ node, ∀ next ∈ (code node).nexts, role next = role node

variable [DecidableEq T] [DecidableEq N] [DecidableEq M] {s next : State T N M}

-- A step moves one thread, to a next node of where it is.
theorem role_step (hclosed : Closed code role) {event : T × N}
    (hstep : step code s event = some next) (thread : T) :
    role (next.place thread).node = role (s.place thread).node := by
  have hmoved : ∀ place : Place N M, role place.node = role (s.place event.1).node →
      role (Function.update s.place event.1 place thread).node =
        role (s.place thread).node := by
    intro place hplace
    by_cases ht : thread = event.1
    · rw [ht, Function.update_self]
      exact hplace
    · rw [Function.update_of_ne ht]
  unfold step at hstep
  cases hplace : s.place event.1 with
  | asleep mutex after =>
      rw [hplace] at hstep hmoved
      obtain ⟨_, hnext⟩ := Option.ite_none_right_eq_some.mp hstep
      obtain rfl := Option.some.inj hnext
      exact hmoved _ rfl
  | before node =>
      have hnode := hclosed node
      simp only [hplace] at hstep hmoved
      cases hinstr : code node with
      | lock mutex after =>
          rw [hinstr] at hstep hnode
          obtain ⟨_, hnext⟩ := Option.ite_none_right_eq_some.mp hstep
          obtain rfl := Option.some.inj hnext
          exact hmoved _ (hnode after (List.mem_singleton_self after))
      | unlock mutex after =>
          rw [hinstr] at hstep hnode
          obtain rfl := Option.some.inj hstep
          exact hmoved _ (hnode after (List.mem_singleton_self after))
      | wait mutex after =>
          rw [hinstr] at hstep hnode
          obtain rfl := Option.some.inj hstep
          exact hmoved _ (hnode after (List.mem_singleton_self after))
      | choose nexts =>
          rw [hinstr] at hstep hnode
          obtain ⟨hpick, hnext⟩ := Option.ite_none_right_eq_some.mp hstep
          obtain rfl := Option.some.inj hnext
          exact hmoved _ (hnode event.2 hpick)

theorem role_run (hclosed : Closed code role) {start : T → N} {events : List (T × N)}
    (hrun : Machine.run (step code) (init start) events = some s) (thread : T) :
    role (s.place thread).node = role (start thread) :=
  Machine.invariant_always (I := fun s => ∀ thread, role (s.place thread).node =
      role (start thread))
    (fun _ _ _ hs hstep thread => (role_step hclosed hstep thread).trans (hs thread))
    (fun _ => rfl) hrun thread

-- A variable of one thread alone is not raced for.
theorem not_races_of_role (hclosed : Closed code role) {start : T → N} {events : List (T × N)}
    (hrun : Machine.run (step code) (init start) events = some s)
    {accesses : N → List (Access V)} {r : R} {var : V}
    (halone : ∀ thread other, role (start thread) = r → role (start other) = r → thread = other)
    (hrole : ∀ node, ∀ access ∈ accesses node, access.var = var → role node = r) :
    ¬ s.Races accesses var := by
  rintro ⟨thread, other, node, node', hne, hplace, hplace', hwrite, access, haccess, hvar⟩
  have hthread := role_run hclosed hrun thread
  have hother := role_run hclosed hrun other
  rw [hplace] at hthread
  rw [hplace'] at hother
  apply hne
  apply halone
  · exact hthread.symm.trans (hrole node _ hwrite rfl)
  · exact hother.symm.trans (hrole node' access haccess hvar)

end Roles

end Locks
