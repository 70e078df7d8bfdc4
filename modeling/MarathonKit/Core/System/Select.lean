import MarathonKit.Bits.Words
import MarathonKit.Core.MessageFileDescriptor
import MarathonKit.Core.StreamFileDescriptor

/-!
Polling a descriptor by `select`.

An `fd_set` is an array of 16 words of 64 bits, and `FD_SET` and `FD_ISSET` access
the word `fd / 64` of it without looking whether it is there: `fdSet_words` and
`fdIsSet_words` say that this is what the model faults on. The constructors of the
two classes admit every `fd` that is not negative, so polling is exact
(`Exact`) only for those of their objects with `fd < FD_SETSIZE`.
-/

namespace MarathonKit.Core.System

open Dialogue Dialogue.Method Bits

variable {σ : Type} {s : σ} {fd : Int}

/-! ### The array of an `fd_set` -/

/-- `fds_bits` -/
abbrev FdsBits := Words 64 16

/-- The set, bit by bit. -/
def bits (words : FdsBits) : FdSet := fun i => (words.test i).getD false

variable {words : FdsBits}

theorem inArray_iff_fits : fd.toNat / 64 < 16 ↔ fd.toNat < fdSetSize :=
  Words.inArray_iff (by decide)

/-- `FD_SET` sets a bit of the word `fd / 64`, if there is one. -/
theorem fdSet_words (nonneg : 0 ≤ fd) : fdSet fd (bits words) s =
    match words.insert fd.toNat with
    | some words' => .returned s (bits words')
    | none => .faulted s .fdSetOutOfBounds := by
  by_cases inArray : fd.toNat / 64 < 16
  · obtain ⟨words', inserted⟩ := words.exists_insert inArray
    have fits : fd.toNat < fdSetSize := inArray_iff_fits.mp inArray
    have same : Function.update (bits words) ⟨fd.toNat, fits⟩ true = bits words' := by
      funext i
      simp only [bits, Words.test_insert (by decide) inserted, Function.update_apply, Fin.ext_iff]
      split <;> rfl
    simp [fdSet, nonneg, fits, inserted, same]
  · have outside : ¬ fd.toNat < fdSetSize := fun fits => inArray (inArray_iff_fits.mpr fits)
    simp [fdSet, outside, Words.insert_outside inArray]

/-- `FD_ISSET` reads a bit of that word. -/
theorem fdIsSet_words (nonneg : 0 ≤ fd) : fdIsSet fd (bits words) s =
    match words.test fd.toNat with
    | some bit => .returned s bit
    | none => .faulted s .fdSetOutOfBounds := by
  by_cases inArray : fd.toNat / 64 < 16
  · have fits : fd.toNat < fdSetSize := inArray_iff_fits.mp inArray
    simp [fdIsSet, nonneg, fits, bits, Words.test_of_inArray inArray]
  · have outside : ¬ fd.toNat < fdSetSize := fun fits => inArray (inArray_iff_fits.mpr fits)
    simp [fdIsSet, outside, Words.test_outside inArray]

/-! ### One poll -/

/-- A `select` that fails with this `errno`, or else examines the bits below
`nfds` and leaves those of `readable` descriptors set; the bits from `nfds` on
become what they are `beyond`. -/
def selecting (readable : Nat → Bool) (failure : Option Nat) (beyond : FdSet) :
    (q : Request) → Unit → Option (Answer q × Unit)
  | .select nfds readFds, () =>
      match failure with
      | some errno => some (.error errno, ())
      | none =>
          some (.ok fun i => if (i : Int) < nfds then readFds i && readable i else beyond i, ())
  | _, _ => none

/-- A poll of `fd` never goes wrong; if its `select` succeeds it returns whether
`fd` is readable, and otherwise it throws. -/
structure Exact (readable : Nat → Bool) (fd : Int) (call : Call interface Exn Fault σ Bool) :
    Prop where
  inBounds : ∀ h c, call.Reaches h c → ∀ x, c.outcome ≠ .faulted x
  succeeds : ∀ beyond, (call.serve (selecting readable none beyond) ()).1.outcome =
    .returned (readable fd.toNat)
  fails : ∀ errno beyond, (call.serve (selecting readable (some errno) beyond) ()).1.outcome =
    .threw (.strerror errno)

variable {readable : Nat → Bool}

theorem isReadyForReading_exact (nonneg : 0 ≤ fd) (fits : fd.toNat < fdSetSize) :
    Exact readable fd (isReadyForReading fd s) := by
  have below : (fd.toNat : Int) < fd + 1 := by omega
  have safe : (isReadyForReading fd s).wp fun _ o _ => ∀ x, o ≠ .faulted x := by
    rw [isReadyForReading_apply nonneg fits]
    refine ⟨by simp, fun a => ?_⟩
    cases a <;> simp
  refine ⟨fun h c reached => safe.reaches reached, ?_, ?_⟩
  · intro beyond
    rw [isReadyForReading_apply nonneg fits]
    simp only [Call.serve, selecting, Call.outcome, if_pos below, Function.update_self,
      Bool.true_and]
  · intro errno beyond
    rw [isReadyForReading_apply nonneg fits]
    rfl

/-- A poll is exact if and only if there is a bit for the descriptor. -/
theorem exact_iff_fits (nonneg : 0 ≤ fd) :
    Exact readable fd (isReadyForReading fd s) ↔ fd < fdSetSize := by
  constructor
  · intro exact
    by_contra outside
    have faulted : (isReadyForReading fd s : Call interface Exn Fault σ Bool) = _ :=
      isReadyForReading_outOfBounds (by omega)
    exact exact.inBounds [] _ (.here _) _ (congrArg Call.outcome faulted)
  · intro fits
    exact isReadyForReading_exact nonneg (by omega)

/-- Both classes admit every descriptor that is not negative, and poll those
below `FD_SETSIZE` as they should. -/
theorem isReadyForReading_exact_iff (readable : Nat → Bool) (s : σ) {fd : Int}
    (nonneg : 0 ≤ fd) :
    (∃ self, StreamFileDescriptor.make fd = .ok self ∧
      (Exact readable fd (self.isReadyForReading s) ↔ fd < fdSetSize)) ∧
    (∃ self, MessageFileDescriptor.make fd = .ok self ∧
      (Exact readable fd (self.isReadyForReading s) ↔ fd < fdSetSize)) :=
  ⟨⟨_, StreamFileDescriptor.make_of_nonneg nonneg, exact_iff_fits nonneg⟩,
    ⟨_, MessageFileDescriptor.make_of_nonneg nonneg, exact_iff_fits nonneg⟩⟩

theorem isReadyForReading_exact_iff_three :
    Exact (fun fd => fd = 3) 3 (isReadyForReading 3 ()) := by
  obtain ⟨⟨self, made, exact⟩, -⟩ :=
    isReadyForReading_exact_iff (fun fd => fd = 3) () (by decide : (0 : Int) ≤ 3)
  obtain rfl : StreamFileDescriptor.mk 3 (by decide) = self := Except.ok.inj made
  exact exact.mpr (by decide)

/-- The first descriptor that has no bit. -/
theorem isReadyForReading_exact_fails :
    (∃ self, StreamFileDescriptor.make 1024 = .ok self ∧
      self.isReadyForReading () = .faulted () .fdSetOutOfBounds) ∧
    ¬ ∀ (readable : Nat → Bool) (self : StreamFileDescriptor),
      Exact readable self.mFd (self.isReadyForReading ()) := by
  have faulted : StreamFileDescriptor.isReadyForReading ⟨1024, by decide⟩ () =
      .faulted () .fdSetOutOfBounds := isReadyForReading_outOfBounds (by decide)
  refine ⟨⟨_, StreamFileDescriptor.make_of_nonneg (by decide), faulted⟩, ?_⟩
  intro always
  have exact := always (fun _ => true) ⟨1024, by decide⟩
  exact exact.inBounds [] _ (.here _) _ (congrArg Call.outcome faulted)

end MarathonKit.Core.System
