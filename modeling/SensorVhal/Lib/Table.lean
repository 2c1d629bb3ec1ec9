import Mathlib.Data.Fintype.Card
import Mathlib.Data.List.FinRange
import Mathlib.Tactic.Common

namespace Table

section Occupied

variable {ι α : Type*} [Fintype ι] [DecidableEq ι]

-- The places of a table that hold something.
def occupied (table : ι → Option α) : Finset ι :=
  Finset.univ.filter fun i => (table i).isSome

omit [DecidableEq ι] in
@[simp] theorem mem_occupied {table : ι → Option α} {i : ι} :
    i ∈ occupied table ↔ table i ≠ none := by
  simp [occupied, Option.isSome_iff_ne_none]

theorem card_put {table : ι → Option α} {i : ι} (h : table i = none) (entry : α) :
    (occupied (Function.update table i (some entry))).card = (occupied table).card + 1 := by
  have hinsert : occupied (Function.update table i (some entry)) = insert i (occupied table) := by
    ext j
    by_cases hj : j = i
    · subst j
      simp
    · simp [hj]
  rw [hinsert, Finset.card_insert_of_notMem (by simp [h])]

theorem card_clear {table : ι → Option α} {i : ι} (h : table i ≠ none) :
    (occupied (Function.update table i none)).card + 1 = (occupied table).card := by
  have herase : occupied (Function.update table i none) = (occupied table).erase i := by
    ext j
    by_cases hj : j = i
    · subst j
      simp
    · simp [hj]
  rw [herase, Finset.card_erase_add_one (by simpa using h)]

omit [DecidableEq ι] in
theorem exists_free {table : ι → Option α} (h : (occupied table).card < Fintype.card ι) :
    ∃ i, table i = none := by
  by_contra hfull
  have hall : occupied table = Finset.univ := by
    ext i
    simpa using fun hnone => hfull ⟨i, hnone⟩
  rw [hall, Finset.card_univ] at h
  omega

omit [DecidableEq ι] in
theorem card_eq_zero {table : ι → Option α} :
    (occupied table).card = 0 ↔ ∀ i, table i = none := by
  rw [Finset.card_eq_zero, Finset.eq_empty_iff_forall_notMem]
  simp

end Occupied

section Distinct

variable {ι β : Type*} [DecidableEq ι]

-- A table without repeated entries, apart from `rest`, stays one if the new
-- entry is not in it yet.
theorem distinct_update {table : ι → β} {rest entry : β}
    (h : ∀ i j, table i = table j → table i ≠ rest → i = j) (i : ι)
    (hentry : entry = rest ∨ ∀ j, table j ≠ entry) (j k : ι)
    (hsame : Function.update table i entry j = Function.update table i entry k)
    (hrest : Function.update table i entry j ≠ rest) : j = k := by
  by_cases hj : j = i <;> by_cases hk : k = i
  · rw [hj, hk]
  · subst j
    simp only [Function.update_self, Function.update_of_ne hk] at hsame hrest
    rcases hentry with hentry | hnew
    · exact absurd hentry hrest
    · exact absurd hsame.symm (hnew k)
  · subst k
    simp only [Function.update_self, Function.update_of_ne hj] at hsame hrest
    rcases hentry with hentry | hnew
    · exact absurd (hsame.trans hentry) hrest
    · exact absurd hsame (hnew j)
  · simp only [Function.update_of_ne hj, Function.update_of_ne hk] at hsame hrest
    exact h j k hsame hrest

end Distinct

section Entries

variable {ι β : Type*} [DecidableEq ι] {table : ι → β} {entries : List β} {P : β → Prop}

-- A list of the entries with `P` stays one where an entry takes a place without one.
theorem mem_put (h : ∀ b, b ∈ entries ↔ P b ∧ ∃ i, table i = b) {i : ι} {entry : β}
    (hfree : ¬ P (table i)) (hentry : P entry) (b : β) :
    b ∈ entry :: entries ↔ P b ∧ ∃ j, Function.update table i entry j = b := by
  rw [List.mem_cons, h b]
  constructor
  · rintro (rfl | ⟨hb, j, rfl⟩)
    · exact ⟨hentry, i, Function.update_self _ _ _⟩
    · refine ⟨hb, j, Function.update_of_ne ?_ _ _⟩
      rintro rfl
      exact hfree hb
  · rintro ⟨hb, j, rfl⟩
    by_cases hj : j = i
    · subst j
      exact .inl (Function.update_self _ _ _)
    · rw [Function.update_of_ne hj] at hb ⊢
      exact .inr ⟨hb, j, rfl⟩

-- It loses the entry of a place that is cleared, if no other place has it.
theorem mem_clear [DecidableEq β] (h : ∀ b, b ∈ entries ↔ P b ∧ ∃ i, table i = b)
    (hnodup : entries.Nodup) {i : ι} (honly : ∀ j, table j = table i → j = i) {rest : β}
    (hrest : ¬ P rest) (b : β) :
    b ∈ entries.erase (table i) ↔ P b ∧ ∃ j, Function.update table i rest j = b := by
  rw [hnodup.mem_erase_iff, h b]
  constructor
  · rintro ⟨hne, hb, j, rfl⟩
    refine ⟨hb, j, Function.update_of_ne ?_ _ _⟩
    rintro rfl
    exact hne rfl
  · rintro ⟨hb, j, rfl⟩
    by_cases hj : j = i
    · subst j
      rw [Function.update_self] at hb
      exact absurd hb hrest
    · rw [Function.update_of_ne hj] at hb ⊢
      exact ⟨fun hsame => hj (honly j hsame), hb, j, rfl⟩

end Entries

section Lowest

variable {n : Nat}

-- The first index that satisfies `p`, and `n` if there is none.
def lowest (p : Fin n → Bool) : Nat := (List.finRange n).findIdx p

theorem lowest_spec {p : Fin n → Bool} (h : lowest p < n) : p ⟨lowest p, h⟩ = true := by
  have hlength : lowest p < (List.finRange n).length := by rwa [List.length_finRange]
  have hfound : p (List.finRange n)[lowest p] = true := List.findIdx_getElem
  rw [List.getElem_finRange] at hfound
  exact hfound

theorem lowest_le {p : Fin n → Bool} {i : Fin n} (h : p i = true) : lowest p ≤ i := by
  by_contra hlt
  have hlength : i.val < (List.finRange n).length := by
    rw [List.length_finRange]
    exact i.isLt
  have hnot : p (List.finRange n)[i.val] = false :=
    List.not_of_lt_findIdx (Nat.lt_of_not_le hlt)
  rw [List.getElem_finRange] at hnot
  exact Bool.false_ne_true (hnot.symm.trans h)

theorem lowest_eq {p : Fin n → Bool} {i : Fin n} (h : lowest p = i.val) : p i = true := by
  have hlt : lowest p < n := by
    rw [h]
    exact i.isLt
  have hindex : (⟨lowest p, hlt⟩ : Fin n) = i := Fin.ext h
  have hfound := lowest_spec hlt
  rwa [hindex] at hfound

-- A number as an index, if it is one.
def index (n k : Nat) : Option (Fin n) := if h : k < n then some ⟨k, h⟩ else none

@[simp] theorem index_val (i : Fin n) : index n i.val = some i := dif_pos i.isLt

theorem exists_index {k : Nat} (h : k < n) : ∃ i : Fin n, k = i.val := ⟨⟨k, h⟩, rfl⟩

variable {α : Type*}

-- The entry with the lowest index.
def first (table : Fin n → Option α) : Option α := (List.finRange n).findSome? table

theorem first_eq_none {table : Fin n → Option α} : first table = none ↔ ∀ i, table i = none := by
  rw [first, List.findSome?_eq_none_iff]
  simp

theorem first_eq_some {table : Fin n → Option α} {entry : α} (h : first table = some entry) :
    ∃ i, table i = some entry ∧ ∀ j < i, table j = none := by
  obtain ⟨before, i, after, hsplit, hi, hnone⟩ := List.findSome?_eq_some_iff.mp h
  refine ⟨i, hi, fun j hj => hnone j ?_⟩
  have hmem := List.mem_finRange j
  have hsorted := List.pairwise_lt_finRange n
  rw [hsplit] at hmem hsorted
  rcases List.mem_append.mp hmem with hbefore | hafter
  · exact hbefore
  · rcases List.mem_cons.mp hafter with rfl | hlater
    · exact absurd hj (lt_irrefl _)
    · have hlt := (List.pairwise_cons.mp (List.pairwise_append.mp hsorted).2.1).1 j hlater
      exact absurd (lt_trans hj hlt) (lt_irrefl _)

end Lowest

end Table
