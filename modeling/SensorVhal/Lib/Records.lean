import Mathlib.Algebra.GroupWithZero.Nat
import Mathlib.Data.List.Basic
import Mathlib.Tactic.Common

namespace Records

variable {α β γ κ : Type*}

-- The records of `n` elements each at the front of a stream.
def read (n : Nat) (decode : List β → α) (stream : List β) : List α :=
  (List.range (stream.length / n)).map fun k => decode ((stream.drop (n * k)).take n)

theorem read_short {n : Nat} (decode : List β → α) {stream : List β} (h : stream.length < n) :
    read n decode stream = [] := by
  rw [read, Nat.div_eq_of_lt h]
  rfl

theorem read_append {n : Nat} (decode : List β → α) {record : List β} (hpos : 0 < n)
    (h : record.length = n) (stream : List β) :
    read n decode (record ++ stream) = decode record :: read n decode stream := by
  have hlength : (record ++ stream).length / n = stream.length / n + 1 := by
    rw [List.length_append, h, Nat.add_comm, Nat.add_div_right _ hpos]
  rw [read, hlength, List.range_succ_eq_map, List.map_cons, List.map_map]
  congr 1
  · rw [Nat.mul_zero, List.drop_zero, ← h, List.take_left]
  · apply List.map_congr_left
    intro k _
    have hdrop : (record ++ stream).drop (n * (k + 1)) = stream.drop (n * k) := by
      rw [Nat.mul_succ, Nat.add_comm, ← List.drop_drop, ← h, List.drop_left]
    rw [Function.comp_apply, hdrop]

-- Records that were written whole are read as they were written, and what is left of
-- another one is not read.
theorem read_flatMap {n : Nat} {decode : List β → α} {encode : γ → List β} {f : γ → α}
    (hpos : 0 < n) (hlength : ∀ value, (encode value).length = n)
    (hdecode : ∀ value, decode (encode value) = f value) (values : List γ) {tail : List β}
    (htail : tail.length < n) :
    read n decode (values.flatMap encode ++ tail) = values.map f := by
  induction values with
  | nil => exact read_short decode htail
  | cons value values ih =>
      rw [List.flatMap_cons, List.append_assoc, read_append decode hpos (hlength value), ih,
        hdecode, List.map_cons]

section Last

variable [DecidableEq κ] (key : α → κ)

-- The last record with a key.
def last (k : κ) (records : List α) : Option α :=
  records.reverse.find? fun record => key record = k

variable {key} {k : κ} {records : List α}

theorem last_snoc (k : κ) (records : List α) (record : α) :
    last key k (records ++ [record]) =
      if key record = k then some record else last key k records := by
  by_cases h : key record = k <;> simp [last, h]

theorem last_map {f : α → γ} {key' : γ → κ} (hkey : ∀ record ∈ records, key' (f record) = k ↔
    key record = k) : last key' k (records.map f) = (last key k records).map f := by
  rw [last, last, ← List.map_reverse, List.find?_map]
  congr 1
  have hcongr : ∀ l : List α, (∀ record ∈ l, key' (f record) = k ↔ key record = k) →
      l.find? ((fun record => decide (key' record = k)) ∘ f) =
        l.find? fun record => decide (key record = k) := by
    intro l hl
    induction l with
    | nil => rfl
    | cons record l ih =>
        have hone : decide (key' (f record) = k) = decide (key record = k) :=
          decide_eq_decide.mpr (hl record List.mem_cons_self)
        have hrest := ih fun record hmem => hl record (List.mem_cons_of_mem _ hmem)
        rw [List.find?_cons, List.find?_cons, Function.comp_apply, hone, hrest]
  exact hcongr _ fun record hmem => hkey record (List.mem_reverse.mp hmem)

end Last

end Records
