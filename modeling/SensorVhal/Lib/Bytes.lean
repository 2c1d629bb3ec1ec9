import Mathlib.Algebra.Group.Nat.Defs
import Mathlib.Data.List.Basic
import Mathlib.Tactic.Common

namespace Bytes

-- A 32-bit word in memory, lowest byte first.
def ofWord (word : BitVec 32) : List UInt8 :=
  [UInt8.ofNat word.toNat, UInt8.ofNat (word.toNat / 2 ^ 8), UInt8.ofNat (word.toNat / 2 ^ 16),
    UInt8.ofNat (word.toNat / 2 ^ 24)]

-- The word at the start of a piece of memory.
def toWord : List UInt8 → BitVec 32
  | a :: b :: c :: d :: _ =>
      BitVec.ofNat 32 (a.toNat + 2 ^ 8 * b.toNat + 2 ^ 16 * c.toNat + 2 ^ 24 * d.toNat)
  | _ => 0

@[simp] theorem length_ofWord (word : BitVec 32) : (ofWord word).length = 4 := rfl

theorem toWord_ofWord_append (word : BitVec 32) (rest : List UInt8) :
    toWord (ofWord word ++ rest) = word := by
  have hlt := word.isLt
  apply BitVec.eq_of_toNat_eq
  simp only [ofWord, toWord, List.cons_append, BitVec.toNat_ofNat, UInt8.toNat_ofNat']
  omega

theorem toWord_take {n : Nat} (h : 4 ≤ n) (bytes : List UInt8) :
    toWord (bytes.take n) = toWord bytes := by
  obtain ⟨m, rfl⟩ := Nat.exists_eq_add_of_le' h
  match bytes with
  | [] => rfl
  | [_] => rfl
  | [_, _] => rfl
  | [_, _, _] => rfl
  | _ :: _ :: _ :: _ :: _ => rfl

variable {α : Type*}

-- What a write of `chunk` at an offset makes of a buffer.
def overwrite (buffer : List α) (offset : Nat) (chunk : List α) : List α :=
  buffer.take offset ++ chunk ++ buffer.drop (offset + chunk.length)

theorem length_overwrite {buffer chunk : List α} {offset : Nat}
    (h : offset + chunk.length ≤ buffer.length) :
    (overwrite buffer offset chunk).length = buffer.length := by
  simp only [overwrite, List.length_append, List.length_take, List.length_drop]
  omega

-- A buffer filled up to the offset is filled up to the end of the chunk.
theorem take_overwrite {buffer : List α} (chunk : List α) {offset : Nat}
    (h : offset ≤ buffer.length) :
    (overwrite buffer offset chunk).take (offset + chunk.length) =
      buffer.take offset ++ chunk := by
  have hlength : (buffer.take offset ++ chunk).length = offset + chunk.length := by
    simp only [List.length_append, List.length_take]
    omega
  rw [overwrite, ← hlength]
  exact List.take_left

-- What lies before the offset stays.
theorem take_overwrite_of_le {buffer : List α} (chunk : List α) {offset n : Nat} (hn : n ≤ offset)
    (h : offset ≤ buffer.length) : (overwrite buffer offset chunk).take n = buffer.take n := by
  have hlength : n ≤ (buffer.take offset).length := by
    rw [List.length_take]
    omega
  rw [overwrite, List.append_assoc, List.take_append_of_le_length hlength, List.take_take,
    Nat.min_eq_left hn]

@[simp] theorem overwrite_nil (buffer : List α) (offset : Nat) :
    overwrite buffer offset [] = buffer := by
  simp [overwrite]

end Bytes
