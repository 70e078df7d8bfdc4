import Mathlib.Logic.Equiv.Basic

/-!
Objects that are alive, by their names, and what moving them does.

A class that can be moved says what becomes of the two objects involved. If all
it does is to exchange them (`Movable.Exchanges`), then moving objects, in
whatever way and also into themselves, only renames them: `Step.renames`. What
holds of every object, or of exactly one, is kept by renaming.
-/

namespace Objects

variable {ο : Type}

abbrev Store (ο : Type) := Nat → Option ο

namespace Store

def none : Store ο := fun _ => Option.none

def put (s : Store ο) (i : Nat) (o : Option ο) : Store ο := Function.update s i o

variable {s : Store ο} {i j : Nat} {o : Option ο}

@[simp] theorem none_apply : (none : Store ο) i = Option.none := rfl

@[simp] theorem put_same : s.put i o i = o := by simp [put]

theorem put_of_ne (other : j ≠ i) : s.put i o j = s j := by
  simp [put, other]

theorem put_eq_some {a : ο} :
    s.put i o j = some a ↔ (j = i ∧ o = some a) ∨ (j ≠ i ∧ s j = some a) := by
  by_cases same : j = i
  · subst same
    simp
  · simp [put_of_ne same, same]

/-- Every object alive satisfies `P`. -/
def All (P : ο → Prop) (s : Store ο) : Prop := ∀ i o, s i = some o → P o

variable {P : ο → Prop}

theorem All.none : All P (Store.none : Store ο) := by
  intro i o alive
  simp at alive

theorem All.put (all : All P s) (good : ∀ a, o = some a → P a) : All P (s.put i o) := by
  intro j a alive
  by_cases same : j = i
  · subst same
    exact good a (by simpa using alive)
  · exact all j a (by rwa [put_of_ne same] at alive)

/-- A renaming leaves the objects as they are. -/
theorem All.rename (all : All P s) (e : Equiv.Perm Nat) : All P (s ∘ e) :=
  fun i o alive => all (e i) o alive

end Store

/-- Three ways to move: into a new object, into another, and both ways. -/
inductive Transfer where
  | construct (target source : Nat)
  | assign (target source : Nat)
  | swap (first second : Nat)
deriving DecidableEq, Repr

/-- What the class does in each of them: the two objects afterwards. -/
structure Movable (ο : Type) where
  construct : ο → ο × ο
  assign : ο → ο → ο × ο
  swap : ο → ο → ο × ο

namespace Movable

/-- The two objects written back under their names; `i` and `j` may be the same. -/
def write (s : Store ο) (i j : Nat) (both : ο × ο) : Store ο :=
  (s.put i (some both.1)).put j (some both.2)

def Step (M : Movable ο) (s : Store ο) : Transfer → Store ο → Prop
  | .construct i j, s' => s i = none ∧ ∃ o, s j = some o ∧ s' = write s i j (M.construct o)
  | .assign i j, s' => ∃ a b, s i = some a ∧ s j = some b ∧ s' = write s i j (M.assign a b)
  | .swap i j, s' => ∃ a b, s i = some a ∧ s j = some b ∧ s' = write s i j (M.swap a b)

/-- Moving is exchanging, with a new object `blank` where there is no other. -/
structure Exchanges (M : Movable ο) (blank : ο) : Prop where
  construct : ∀ o, M.construct o = (o, blank)
  assign : ∀ a b, M.assign a b = (b, a)
  swap : ∀ a b, M.swap a b = (b, a)

variable {M : Movable ο} {blank : ο} {s s' : Store ο} {t : Transfer} {i j : Nat} {a b : ο}

theorem write_swapped (left : s i = some a) (right : s j = some b) :
    write s i j (b, a) = s ∘ Equiv.swap i j := by
  funext k
  rcases eq_or_ne k j with rfl | notSecond
  · simp [write, left]
  · rcases eq_or_ne k i with rfl | notFirst
    · simp [write, Store.put_of_ne notSecond, right]
    · simp [write, Store.put_of_ne notSecond, Store.put_of_ne notFirst,
        Equiv.swap_apply_of_ne_of_ne notFirst notSecond]

/-- A move renames the objects, after a blank one was added if it constructs. -/
theorem Step.renames (exchanges : M.Exchanges blank) (step : M.Step s t s') :
    ∃ e : Equiv.Perm Nat, s' = s ∘ e ∨ ∃ i, s i = none ∧ s' = s.put i (some blank) ∘ e := by
  cases t with
  | construct i j =>
      obtain ⟨free, o, alive, rfl⟩ := step
      have other : j ≠ i := by
        rintro rfl
        simp [free] at alive
      refine ⟨Equiv.swap i j, .inr ⟨i, free, ?_⟩⟩
      rw [← write_swapped (a := blank) (b := o) Store.put_same
        (by rw [Store.put_of_ne other, alive]), exchanges.construct]
      simp [write, Store.put]
  | assign i j =>
      obtain ⟨a, b, left, right, rfl⟩ := step
      exact ⟨Equiv.swap i j, .inl (by rw [exchanges.assign, write_swapped left right])⟩
  | swap i j =>
      obtain ⟨a, b, left, right, rfl⟩ := step
      exact ⟨Equiv.swap i j, .inl (by rw [exchanges.swap, write_swapped left right])⟩

/-- What holds of every object and of a blank one holds of every object after a
move. -/
theorem Step.all {P : ο → Prop} (exchanges : M.Exchanges blank) (fresh : P blank)
    (step : M.Step s t s') (all : s.All P) : s'.All P := by
  rcases step.renames exchanges with ⟨e, rfl | ⟨i, -, rfl⟩⟩
  · exact all.rename e
  · refine Store.All.rename (all.put ?_) e
    rintro a ⟨⟩
    exact fresh

end Movable

end Objects
