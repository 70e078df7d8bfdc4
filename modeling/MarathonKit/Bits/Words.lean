import Mathlib.Data.List.Basic

/-!
Bits in an array of words.

Bit `i` of an array of `w`-bit words is bit `i % w` of the word `i / w`. The
operations answer nothing where that word is not in the array; `inArray_iff` says
for which bits it is, and `test_insert` what inserting a bit does to all of them.
-/

namespace Bits

/-- `n` words of `w` bits each. -/
abbrev Words (w n : Nat) := Vector (BitVec w) n

namespace Words

variable {w n : Nat}

/-- Bit `i`, if there is a word for it. -/
def test (words : Words w n) (i : Nat) : Option Bool :=
  if h : i / w < n then some (words[i / w].getLsbD (i % w)) else none

/-- The array with bit `i` set, if there is a word for it. -/
def insert (words : Words w n) (i : Nat) : Option (Words w n) :=
  if h : i / w < n then
    some (words.set (i / w) (words[i / w] ||| BitVec.twoPow w (i % w)) h)
  else none

variable {words words' : Words w n} {i j : Nat}

theorem inArray_iff (positive : 0 < w) : i / w < n ↔ i < n * w :=
  Nat.div_lt_iff_lt_mul positive

theorem test_of_inArray (inArray : i / w < n) :
    words.test i = some (words[i / w].getLsbD (i % w)) :=
  dif_pos inArray

theorem test_outside (outside : ¬ i / w < n) : words.test i = none := dif_neg outside

theorem insert_outside (outside : ¬ i / w < n) : words.insert i = none := dif_neg outside

theorem exists_insert (inArray : i / w < n) : ∃ words', words.insert i = some words' :=
  ⟨_, dif_pos inArray⟩

/-- A bit is told by its word and by its place in it. -/
theorem eq_of_div_of_mod (word : i / w = j / w) (place : i % w = j % w) : i = j := by
  rw [← Nat.div_add_mod i w, ← Nat.div_add_mod j w, word, place]

/-- The bit inserted is set, and no other bit has changed. -/
theorem test_insert (positive : 0 < w) (inserted : words.insert i = some words') :
    words'.test j = if j = i then some true else words.test j := by
  by_cases inArray : i / w < n
  · obtain rfl : _ = words' := by simpa [insert, inArray] using inserted
    by_cases jInArray : j / w < n
    · rw [test_of_inArray jInArray, test_of_inArray jInArray]
      by_cases word : i / w = j / w
      · have place : (i % w = j % w) ↔ j = i :=
          ⟨fun same => (eq_of_div_of_mod word same).symm, fun same => same ▸ rfl⟩
        by_cases same : j = i
        · subst same
          simp [Nat.mod_lt _ positive]
        · have differs : ¬ i % w = j % w := fun equal => same (place.mp equal)
          simp [BitVec.getLsbD_twoPow, word, same, differs]
      · have differs : ¬ j = i := fun same => word (same ▸ rfl)
        simp [word, differs]
    · have differs : ¬ j = i := fun same => jInArray (same ▸ inArray)
      rw [test_outside jInArray, test_outside jInArray, if_neg differs]
  · rw [insert_outside inArray] at inserted
    cases inserted

end Words

end Bits
