import Mathlib.Data.List.Induction
import SensorVhal.Lib.Run

-- Sessions with one resource each, one after the other.
namespace Session

-- What happened to a resource.
inductive Mark (α : Type*)
  | opened (a : α)
  | used (a : α)
  | closed (a : α)

variable {α : Type*}

namespace Mark

def value : Mark α → α
  | opened a => a
  | used a => a
  | closed a => a

def IsOpened : Mark α → Prop
  | opened _ => True
  | _ => False

def IsUsed : Mark α → Prop
  | used _ => True
  | _ => False

instance (mark : Mark α) : Decidable mark.IsOpened := by
  cases mark <;> unfold IsOpened <;> infer_instance

instance (mark : Mark α) : Decidable mark.IsUsed := by
  cases mark <;> unfold IsUsed <;> infer_instance

end Mark

-- The beginnings and the ends of the sessions.
def changes (marks : List (Mark α)) : List (Mark α) :=
  marks.filter fun mark => ¬ mark.IsUsed

-- Beginnings and ends take turns, a beginning first.
def Alternating (marks : List (Mark α)) : Prop :=
  ∀ i mark, (changes marks)[i]? = some mark → (mark.IsOpened ↔ i % 2 = 0)

-- Each use and each end is in the session of its own resource: no other
-- session began or ended since it was opened.
def Within (marks : List (Mark α)) : Prop :=
  ∀ before mark after, marks = before ++ mark :: after → ¬ mark.IsOpened →
    (changes before).getLast? = some (.opened mark.value)

theorem changes_append (marks rest : List (Mark α)) :
    changes (marks ++ rest) = changes marks ++ changes rest := List.filter_append ..

section Machine

variable [DecidableEq α]

-- The resource of the session that is running.
def step (current : Option α) : Mark α → Option (Option α)
  | .opened a => if current = none then some (some a) else none
  | .used a => if current = some a then some current else none
  | .closed a => if current = some a then some none else none

-- The resources that are open.
def held (marks : List (Mark α)) : List α :=
  marks.foldl (fun open_ mark =>
    match mark with
    | .opened a => a :: open_
    | .used _ => open_
    | .closed a => open_.erase a) []

variable {marks : List (Mark α)} {current : Option α}

theorem held_concat (marks : List (Mark α)) (mark : Mark α) :
    held (marks ++ [mark]) =
      match mark with
      | .opened a => a :: held marks
      | .used _ => held marks
      | .closed a => (held marks).erase a := by
  simp only [held, List.foldl_append, List.foldl_cons, List.foldl_nil]

theorem step_of_not_opened {mark : Mark α} {next : Option α} (h : step current mark = some next)
    (hmark : ¬ mark.IsOpened) : current = some mark.value := by
  cases mark with
  | opened a => exact absurd trivial hmark
  | used a => exact (Option.ite_none_right_eq_some.mp h).1
  | closed a => exact (Option.ite_none_right_eq_some.mp h).1

-- What the marks so far say about the running session.
structure Tells (marks : List (Mark α)) (current : Option α) : Prop where
  held : held marks = current.toList
  last : ∀ a, current = some a → (changes marks).getLast? = some (.opened a)
  length : (changes marks).length % 2 = if current = none then 0 else 1

theorem tells_nil : Tells ([] : List (Mark α)) none where
  held := rfl
  last := nofun
  length := rfl

theorem Tells.concat {mark : Mark α} {next : Option α} (h : Tells marks current)
    (hstep : step current mark = some next) : Tells (marks ++ [mark]) next := by
  cases mark with
  | opened a =>
      obtain ⟨rfl, hnext⟩ := Option.ite_none_right_eq_some.mp hstep
      obtain rfl := Option.some.inj hnext
      have hchanges : changes (marks ++ [.opened a]) = changes marks ++ [.opened a] :=
        changes_append ..
      refine ⟨?_, fun b hb => ?_, ?_⟩
      · simp [held_concat, h.held]
      · obtain rfl := Option.some.inj hb
        rw [hchanges, List.getLast?_concat]
      · have hlength := h.length
        rw [if_pos rfl] at hlength
        rw [hchanges, List.length_append, List.length_singleton, if_neg (Option.some_ne_none a)]
        omega
  | used a =>
      obtain ⟨rfl, hnext⟩ := Option.ite_none_right_eq_some.mp hstep
      obtain rfl := Option.some.inj hnext
      have hchanges : changes (marks ++ [.used a]) = changes marks :=
        (changes_append ..).trans (List.append_nil _)
      refine ⟨?_, fun b hb => ?_, ?_⟩
      · rw [held_concat]
        exact h.held
      · rw [hchanges]
        exact h.last b hb
      · rw [hchanges]
        exact h.length
  | closed a =>
      obtain ⟨rfl, hnext⟩ := Option.ite_none_right_eq_some.mp hstep
      obtain rfl := Option.some.inj hnext
      have hchanges : changes (marks ++ [.closed a]) = changes marks ++ [.closed a] :=
        changes_append ..
      refine ⟨?_, nofun, ?_⟩
      · simp [held_concat, h.held]
      · have hlength := h.length
        rw [if_neg (Option.some_ne_none a)] at hlength
        rw [hchanges, List.length_append, List.length_singleton, if_pos rfl]
        omega

theorem tells_of_run (hrun : Machine.run step none marks = some current) :
    Tells marks current := by
  induction marks using List.reverseRecOn generalizing current with
  | nil =>
      obtain rfl := Option.some.inj hrun
      exact tells_nil
  | append_singleton marks mark ih =>
      obtain ⟨middle, hmarks, hmark⟩ := Machine.run_append_some.mp hrun
      rw [Machine.run_singleton] at hmark
      exact (ih hmarks).concat hmark

theorem run_of_prefix {seen : List (Mark α)}
    (hrun : Machine.run step none marks = some current) (hseen : seen <+: marks) :
    ∃ middle, Machine.run step none seen = some middle := by
  obtain ⟨rest, rfl⟩ := hseen
  obtain ⟨middle, hmiddle, _⟩ := Machine.run_append_some.mp hrun
  exact ⟨middle, hmiddle⟩

-- No two resources are ever open at a time.
theorem held_length_le {seen : List (Mark α)}
    (hrun : Machine.run step none marks = some current) (hseen : seen <+: marks) :
    (held seen).length ≤ 1 := by
  obtain ⟨middle, hmiddle⟩ := run_of_prefix hrun hseen
  rw [(tells_of_run hmiddle).held]
  exact Option.length_toList_le

theorem within_of_run (hrun : Machine.run step none marks = some current) : Within marks := by
  rintro before mark after rfl hmark
  obtain ⟨middle, hbefore, hrest⟩ := Machine.run_append_some.mp hrun
  obtain ⟨_, hstep, _⟩ := Machine.run_cons_some.mp hrest
  apply (tells_of_run hbefore).last
  exact step_of_not_opened hstep hmark

-- A beginning or an end is a beginning iff no session was running.
theorem changes_step {mark : Mark α} {next : Option α} (h : step current mark = some next) :
    changes [mark] = [] ∨ changes [mark] = [mark] ∧ (mark.IsOpened ↔ current = none) := by
  cases mark with
  | opened a =>
      have hnone := (Option.ite_none_right_eq_some.mp h).1
      exact .inr ⟨rfl, iff_of_true trivial hnone⟩
  | used a => exact .inl rfl
  | closed a =>
      have hsome := (Option.ite_none_right_eq_some.mp h).1
      exact .inr ⟨rfl, iff_of_false id (by simp [hsome])⟩

theorem alternating_of_run (hrun : Machine.run step none marks = some current) :
    Alternating marks := by
  induction marks using List.reverseRecOn generalizing current with
  | nil =>
      intro i mark hi
      cases hi
  | append_singleton marks last ih =>
      obtain ⟨middle, hmarks, hlast⟩ := Machine.run_append_some.mp hrun
      rw [Machine.run_singleton] at hlast
      have hlength := (tells_of_run hmarks).length
      intro i mark hi
      rw [changes_append] at hi
      by_cases hold : i < (changes marks).length
      · rw [List.getElem?_append_left hold] at hi
        exact ih hmarks i mark hi
      · rw [List.getElem?_append_right (by omega)] at hi
        rcases changes_step hlast with hnone | ⟨hone, hopened⟩
        · rw [hnone] at hi
          cases hi
        · rw [hone, List.getElem?_singleton] at hi
          obtain ⟨hi, hmark⟩ := Option.ite_none_right_eq_some.mp hi
          obtain rfl := Option.some.inj hmark
          have hlast : i = (changes marks).length := by omega
          rw [hopened, hlast, hlength]
          by_cases hmiddle : middle = none
          · simp [hmiddle]
          · simp [hmiddle]

end Machine

end Session
