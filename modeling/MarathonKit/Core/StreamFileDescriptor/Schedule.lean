import MarathonKit.Core.StreamFileDescriptor
import Mathlib.Algebra.Ring.Nat
import Mathlib.Data.Set.Finite.Lattice

/-!
`StreamFileDescriptor::write` under any schedule of the kernel.

A system call takes any part of what it is offered, also nothing, or fails. The
invariant of the loop is that `offset` is the sum of the counts, and that so much
of the data has been transmitted (`Progress`). The loop ends once it no longer
happens that nothing is taken: until then calls go by, and from then on bytes do.
-/

namespace MarathonKit.Core.StreamFileDescriptor

open Dialogue Dialogue.Method Core.System

/-- A `write` takes no more than it is offered. -/
def Legal : Event System.interface → Prop
  | ⟨.write _ buf, .ok count⟩ => count ≤ buf.length
  | _ => True

/-- The count a `write` has returned, if it has not failed. -/
def count? : Event System.interface → Nat
  | ⟨.write _ _, .ok count⟩ => count
  | _ => 0

/-- The sum of the counts. -/
def accepted (h : List (Event System.interface)) : Nat := (h.map count?).sum

variable {self : StreamFileDescriptor} {σ : Type} {s : σ} {data : Bytes} {offset bound : Nat}
  {h : List (Event System.interface)}

@[simp] theorem accepted_append (h h' : List (Event System.interface)) :
    accepted (h ++ h') = accepted h + accepted h' := by
  simp [accepted]

/-- A point of the loop in `write`, with the value `offset` has there: so much
of the data has been transmitted, all of it at a return and not all of it at an
exception. -/
structure Progress (stream : StreamFileDescriptor) (data : Bytes)
    (h : List (Event System.interface)) (o : Outcome System.interface Exn Fault Unit)
    (offset : Nat) : Prop where
  bounded : offset ≤ data.length
  counted : offset = accepted h
  transmitted : bytesWritten h = data.take offset
  /-- every call offers what is left, which is something -/
  offers : ∀ q, o = .asking q → q = .write stream.mFd (data.drop offset) ∧ offset < data.length
  all : ∀ v, o = .returned v → bytesWritten h = data
  /-- only a call that fails ends the loop before -/
  strict : ∀ e, o = .threw e → offset < data.length ∧
    ∃ before buf errno, h = before ++ [⟨.write stream.mFd buf, .error errno⟩] ∧ e = .strerror errno
  safe : ∀ f, o ≠ .faulted f

/-- What the loop keeps from round to round. -/
structure Kept (data : Bytes) (h : List (Event System.interface)) (offset : Nat) : Prop where
  bounded : offset ≤ data.length
  counted : offset = accepted h
  transmitted : bytesWritten h = data.take offset

theorem Kept.write (kept : Kept data h offset) {count : Nat} {fd : Int}
    (legal : count ≤ (data.drop offset).length) :
    Kept data (h ++ [⟨.write fd (data.drop offset), .ok count⟩]) (offset + count) where
  bounded := by
    have bounded := kept.bounded
    rw [List.length_drop] at legal
    omega
  counted := by simp [kept.counted, accepted, count?]
  transmitted := by
    rw [bytesWritten_append, kept.transmitted, List.take_add]
    simp [written?]

theorem Kept.failed (kept : Kept data h offset) {fd : Int} {buf : Bytes} {errno : Nat} :
    Kept data (h ++ [⟨.write fd buf, .error errno⟩]) offset where
  bounded := kept.bounded
  counted := by simp [kept.counted, accepted, count?]
  transmitted := by simp [kept.transmitted, written?]

theorem loop_wp (data : Bytes) (bound : Nat) :
    (whileLoop (unwritten data) (self.writeSome data) bound 0).wp fun h o offset =>
      (∀ event ∈ h, Legal event) → self.Progress data h o offset := by
  apply wp_whileLoop fun h offset => (∀ event ∈ h, Legal event) → Kept data h offset
  · intro _
    exact ⟨Nat.zero_le _, rfl, rfl⟩
  · intro h offset keeps legal
    have kept := keeps legal
    exact ⟨kept.bounded, kept.counted, kept.transmitted, by simp, by simp, by simp, by simp⟩
  · intro h offset keeps
    rw [writeRound_apply]
    by_cases more : offset < data.length
    · rw [if_pos more]
      constructor
      · intro legal
        rw [List.append_nil] at legal ⊢
        have kept := keeps legal
        exact ⟨kept.bounded, kept.counted, kept.transmitted, by simpa using more, by simp, by simp,
          by simp⟩
      · intro a
        cases a with
        | ok count =>
            intro legal
            obtain ⟨before, now⟩ := List.forall_mem_append.mp legal
            exact (keeps before).write (now _ List.mem_cons_self)
        | error errno =>
            intro legal
            obtain ⟨before, -⟩ := List.forall_mem_append.mp legal
            have kept : Kept data (h ++ [⟨.write self.mFd (data.drop offset), .error errno⟩])
                offset := (keeps before).failed
            refine ⟨kept.bounded, kept.counted, kept.transmitted, by simp, by simp, ?_, by simp⟩
            rintro e ⟨⟩
            exact ⟨more, h, data.drop offset, errno, rfl, rfl⟩
    · rw [if_neg more]
      intro legal
      rw [List.append_nil] at legal ⊢
      have kept := keeps legal
      have whole : bytesWritten h = data := by
        rw [kept.transmitted, List.take_of_length_le (Nat.not_lt.mp more)]
      exact ⟨kept.bounded, kept.counted, kept.transmitted, by simp, fun _ _ => whole, by simp,
        by simp⟩

/-! ### The end of the loop -/

/-- A kernel whose `k`th `write` fails, or takes so many bytes, or all if these
are fewer. -/
def kernel (results : Nat → Except Nat Nat) :
    (q : System.Request) → Nat → Option (System.Answer q × Nat)
  | .write _ buf, k => some ((results k).map fun count => min count buf.length, k + 1)
  | _, _ => none

variable {results : Nat → Except Nat Nat}

/-- From the call `last` on something is taken by every call; so many rounds are
enough as there are calls before `last` and bytes left. -/
theorem loop_finished {last : Nat} (takes : ∀ k, last ≤ k → results k ≠ .ok 0) :
    ∀ bound k offset, (last - k) + (data.length - offset) < bound →
      ((whileLoop (unwritten data) (self.writeSome data) bound offset).serve (kernel results)
        k).1.outcome.Finished := by
  intro bound
  induction bound with
  | zero => intro k offset enough; omega
  | succ bound ih =>
      intro k offset enough
      rw [whileLoop_succ, writeRound_apply]
      by_cases more : offset < data.length
      · rw [if_pos more]
        cases taken : results k with
        | error errno =>
            simp [Call.serve, kernel, taken, Except.map, Call.outcome, Outcome.Finished]
        | ok count =>
            have less : (last - (k + 1)) +
                (data.length - (offset + min count (data.length - offset))) < bound := by
              rcases Nat.lt_or_ge k last with early | late
              · omega
              · have something : count ≠ 0 := fun none => takes k late (none ▸ taken)
                omega
            simpa [Call.serve, kernel, taken, Except.map] using ih (k + 1) _ less
      · rw [if_neg more]
        simp [Call.serve, Call.outcome, Outcome.Finished]

/-- `write` under any schedule. At every point of its loop `offset` stands within
the data and so much has been transmitted; at every point of the call the same
is said with the sum of the counts; and it ends if only finitely many calls take
nothing. -/
theorem write_schedule (self : StreamFileDescriptor) (data : Bytes) (s : σ) :
    (∀ bound h c, (whileLoop (unwritten data) (self.writeSome data) bound 0).Reaches h c →
      (∀ event ∈ h, Legal event) → self.Progress data h c.outcome c.state) ∧
    (∀ bound h c, (self.write data bound s).Reaches h c → (∀ event ∈ h, Legal event) →
      self.Progress data h c.outcome (accepted h)) ∧
    (∀ results, {k | results k = .ok 0}.Finite → ∃ enough, ∀ bound, enough ≤ bound →
      ((self.write data bound s).serve (kernel results) 0).1.outcome.Finished) := by
  refine ⟨?_, ?_, ?_⟩
  · intro bound h c reached
    exact (loop_wp data bound).reaches reached
  · intro bound h c reached legal
    have everywhere : (self.write data bound s).wp fun h o _ =>
        (∀ event ∈ h, Legal event) → self.Progress data h o (accepted h) := by
      apply Call.wp_within.mpr
      apply (loop_wp data bound).mono
      intro h o offset progresses legal
      have progress := progresses legal
      rwa [progress.counted] at progress
    exact everywhere.reaches reached legal
  · intro results finite
    obtain ⟨last, isLast⟩ := finite.bddAbove
    have takes : ∀ k, last + 1 ≤ k → results k ≠ .ok 0 := by
      intro k late none
      exact absurd (isLast none) (by omega)
    refine ⟨(last + 1) + data.length + 1, ?_⟩
    intro bound large
    rw [StreamFileDescriptor.write, Call.serve_within, Call.outcome_within]
    exact loop_finished takes _ 0 0 (by omega)

/-- Two bytes of three are taken, then none, and then a call fails. -/
def interrupted : List (Event System.interface) :=
  [⟨.write 3 [1, 2, 3], .ok 2⟩, ⟨.write 3 [3], .ok 0⟩, ⟨.write 3 [3], .error 4⟩]

theorem write_schedule_interrupted :
    Progress ⟨3, by decide⟩ [1, 2, 3] interrupted (.threw (.strerror 4)) 2 ∧
    ∃ bound, ((StreamFileDescriptor.write ⟨3, by decide⟩ [1, 2, 3] bound ()).serve
      (kernel fun k => if k = 1 then .ok 0 else .ok 2) 0).1.outcome.Finished := by
  obtain ⟨-, points, ends⟩ := write_schedule ⟨3, by decide⟩ [1, 2, 3] ()
  constructor
  · have reached : ∃ c, (StreamFileDescriptor.write ⟨3, by decide⟩ [1, 2, 3] 3 ()).Reaches
        interrupted c ∧ c.outcome = .threw (.strerror 4) :=
      ⟨_, .answer (.answer (.answer (.here _))), rfl⟩
    obtain ⟨c, reached, threw⟩ := reached
    rw [← threw]
    exact points 3 interrupted c reached (by simp [interrupted, Legal])
  · have once : {k | (if k = 1 then .ok 0 else .ok 2 : Except Nat Nat) = .ok 0}.Finite := by
      refine (Set.finite_singleton 1).subset ?_
      intro k none
      by_contra other
      have positive : ¬ k = 1 := other
      simp [positive] at none
    obtain ⟨enough, finished⟩ := ends _ once
    exact ⟨enough, finished enough (Nat.le_refl enough)⟩

end MarathonKit.Core.StreamFileDescriptor
