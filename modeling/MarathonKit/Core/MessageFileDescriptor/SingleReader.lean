import MarathonKit.Core.MessageFileDescriptor
import Mathlib.Algebra.Ring.Nat
import Mathlib.Data.Nat.Find

/-!
A socket with one reader.

Datagrams arrive between the calls of `recv`, and a call may fail. A `read` makes
the calls `growing 32 m`: peeks with a buffer that grows by four until the oldest
datagram does not fill it, and a receive with the last buffer. If none of them
fails the datagram is returned and gone, and otherwise it is still there
(`read_serve`). The size is below `2 ^ 64` all the time, as long as the datagram is
shorter than `2 ^ 63`.
-/

namespace MarathonKit.Core.MessageFileDescriptor

open Dialogue Dialogue.Method

structure Socket where
  /-- the datagrams in the socket, the oldest first -/
  queue : List Bytes
  /-- the calls of `recv` so far: the size of the buffer, and whether it peeked -/
  calls : List (Nat × Bool)
deriving DecidableEq, Repr

/-- What the reader meets: the datagrams that arrive before its call number `k`,
and the `errno` of that call if it fails. -/
structure Traffic where
  arrivals : Nat → List Bytes
  failure : Nat → Option Nat

namespace Traffic

/-- `recv` brings the oldest datagram as far as it fits; a peek leaves it, a
receive removes all of it, and a call that fails removes nothing. -/
def answer (t : Traffic) : (q : System.Request) → Socket → Option (System.Answer q × Socket)
  | .recv _ len peek, socket =>
      let queue := socket.queue ++ t.arrivals socket.calls.length
      let calls := socket.calls ++ [(len, peek)]
      match t.failure socket.calls.length, queue with
      | some errno, _ => some (.error errno, ⟨queue, calls⟩)
      | none, datagram :: rest =>
          some (.ok (datagram.take len), ⟨if peek then datagram :: rest else rest, calls⟩)
      | none, [] => none
  | _, _ => none

/-- The datagrams that arrive before the calls `k`, …, `k + n - 1`. -/
def arrived (t : Traffic) (k : Nat) : Nat → List Bytes
  | 0 => []
  | n + 1 => t.arrivals k ++ t.arrived (k + 1) n

/-- None of the calls `k`, …, `k + n - 1` fails. -/
def Clear (t : Traffic) (k n : Nat) : Prop := ∀ i, i < n → t.failure (k + i) = none

variable {t : Traffic} {k n : Nat}

theorem arrived_add (t : Traffic) (k m n : Nat) :
    t.arrived k (m + n) = t.arrived k m ++ t.arrived (k + m) n := by
  induction m generalizing k with
  | zero => simp [arrived]
  | succ m ih =>
      rw [Nat.add_right_comm, arrived, arrived, ih, List.append_assoc, Nat.add_assoc k 1 m,
        Nat.add_comm 1 m]

theorem clear_succ : t.Clear k (n + 1) ↔ t.failure k = none ∧ t.Clear (k + 1) n := by
  constructor
  · intro clear
    refine ⟨clear 0 (Nat.succ_pos n), fun i less => ?_⟩
    have next := clear (i + 1) (Nat.succ_lt_succ less)
    rwa [Nat.add_assoc, Nat.add_comm 1 i]
  · rintro ⟨first, rest⟩ i less
    cases i with
    | zero => exact first
    | succ i =>
        have next := rest i (Nat.lt_of_succ_lt_succ less)
        rwa [Nat.add_assoc, Nat.add_comm 1 i] at next

theorem clear_add {m : Nat} : t.Clear k (m + n) ↔ t.Clear k m ∧ t.Clear (k + m) n := by
  induction m generalizing k with
  | zero => simp [Clear]
  | succ m ih =>
      rw [Nat.add_right_comm, clear_succ, clear_succ, ih, and_assoc, Nat.add_assoc k 1 m,
        Nat.add_comm 1 m]

end Traffic

/-! ### The calls of one `read` -/

/-- A peek for each size, the last of which is received with. -/
def growing (size : Nat) : Nat → List (Nat × Bool)
  | 0 => [(size, true), (size, false)]
  | m + 1 => (size, true) :: growing (4 * size) m

theorem size_of_mem_growing {m size : Nat} {call : Nat × Bool} (mem : call ∈ growing size m) :
    ∃ l, l ≤ m ∧ call.1 = size * 4 ^ l := by
  induction m generalizing size with
  | zero => exact ⟨0, Nat.le_refl 0, by rcases List.mem_pair.mp mem with rfl | rfl <;> simp⟩
  | succ m ih =>
      rcases List.mem_cons.mp mem with rfl | later
      · exact ⟨0, Nat.zero_le _, by simp⟩
      · obtain ⟨l, most, same⟩ := ih later
        refine ⟨l + 1, Nat.succ_le_succ most, ?_⟩
        rw [same, Nat.pow_succ, Nat.mul_comm 4 size, Nat.mul_assoc, Nat.mul_comm (4 ^ l) 4]

/-- The first of the sizes that is greater than `n` comes before `2 ^ 64`. -/
theorem exists_growths {n : Nat} (short : n < 2 ^ 63) :
    ∃ m, m ≤ 29 ∧ n < 32 * 4 ^ m ∧ ∀ l, l < m → 32 * 4 ^ l ≤ n := by
  have large : ∃ m, n < 32 * 4 ^ m := ⟨29, by omega⟩
  refine ⟨Nat.find large, Nat.find_min' large (by omega), Nat.find_spec large, ?_⟩
  intro l less
  exact Nat.not_lt.mp (Nat.find_min large less)

/-- How the calls `made` for the oldest datagram end, where `calls` were made
before: in a return with the datagram removed, or at the first call that fails,
with the datagram still there. Whatever arrived is behind the others. -/
def Traffic.Ends {σ : Type} (t : Traffic) (datagram : Bytes) (rest : List Bytes)
    (calls made : List (Nat × Bool))
    (result : Call System.interface Exn Fault σ Bytes × Socket) : Prop :=
  (t.Clear calls.length made.length ∧ result.1.outcome = .returned datagram ∧
    result.2 = ⟨rest ++ t.arrived calls.length made.length, calls ++ made⟩) ∨
  ∃ n errno, n < made.length ∧ t.Clear calls.length n ∧
    t.failure (calls.length + n) = some errno ∧ result.1.outcome = .threw (.strerror errno) ∧
    result.2 = ⟨datagram :: rest ++ t.arrived calls.length (n + 1), calls ++ made.take (n + 1)⟩

section Serving

variable {t : Traffic} {datagram : Bytes} {rest : List Bytes} {calls made : List (Nat × Bool)}
  {σ α : Type} {s : σ} {fd : Int} {len : Nat} {call : Nat × Bool}
  {resume : Except Nat Bytes → Call System.interface Exn Fault σ α}
  {result : Call System.interface Exn Fault σ Bytes × Socket}

theorem serve_failed {peek : Bool} {errno : Nat} (fails : t.failure calls.length = some errno) :
    (Call.asking (I := System.interface) s (.recv fd len peek) resume).serve t.answer
        ⟨datagram :: rest, calls⟩ =
      (resume (.error errno)).serve t.answer
        ⟨datagram :: rest ++ t.arrivals calls.length, calls ++ [(len, peek)]⟩ := by
  simp [Call.serve, Traffic.answer, fails]

theorem serve_peek (works : t.failure calls.length = none) :
    (Call.asking (I := System.interface) s (.recv fd len true) resume).serve t.answer
        ⟨datagram :: rest, calls⟩ =
      (resume (.ok (datagram.take len))).serve t.answer
        ⟨datagram :: (rest ++ t.arrivals calls.length), calls ++ [(len, true)]⟩ := by
  simp [Call.serve, Traffic.answer, works]

theorem serve_receive (works : t.failure calls.length = none) :
    (Call.asking (I := System.interface) s (.recv fd len false) resume).serve t.answer
        ⟨datagram :: rest, calls⟩ =
      (resume (.ok (datagram.take len))).serve t.answer
        ⟨rest ++ t.arrivals calls.length, calls ++ [(len, false)]⟩ := by
  simp [Call.serve, Traffic.answer, works]

/-- The first call fails. -/
theorem ends_failed {errno : Nat} (fails : t.failure calls.length = some errno)
    (outcome : result.1.outcome = .threw (.strerror errno))
    (left : result.2 = ⟨datagram :: rest ++ t.arrivals calls.length, calls ++ [call]⟩) :
    t.Ends datagram rest calls (call :: made) result := by
  refine .inr ⟨0, errno, Nat.succ_pos _, ?_, fails, outcome, ?_⟩
  · intro i impossible
    exact absurd impossible (Nat.not_lt_zero i)
  · rw [left]
    simp [Traffic.arrived]

/-- The first call does not fail, and the others end as they do. -/
theorem ends_cons (works : t.failure calls.length = none)
    (ends : t.Ends datagram (rest ++ t.arrivals calls.length) (calls ++ [call]) made result) :
    t.Ends datagram rest calls (call :: made) result := by
  unfold Traffic.Ends at ends ⊢
  rw [List.length_append, List.length_singleton] at ends
  rcases ends with ⟨clear, outcome, left⟩ | ⟨n, errno, less, clear, fails, outcome, left⟩
  · refine .inl ⟨Traffic.clear_succ.mpr ⟨works, clear⟩, outcome, ?_⟩
    rw [left]
    simp [Traffic.arrived]
  · refine .inr ⟨n + 1, errno, Nat.succ_lt_succ less, Traffic.clear_succ.mpr ⟨works, clear⟩, ?_,
      outcome, ?_⟩
    · rwa [Nat.add_assoc, Nat.add_comm 1 n] at fails
    · rw [left]
      simp [Traffic.arrived]

theorem Traffic.Ends.within {τ : Type} {embed : σ → τ}
    (ends : t.Ends datagram rest calls made result) :
    t.Ends datagram rest calls made (result.1.within embed, result.2) := by
  simpa [Traffic.Ends] using ends

end Serving

/-! ### Reading -/

section Reading

variable {self : MessageFileDescriptor} {t : Traffic} {datagram : Bytes} {σ : Type} {s : σ}

/-- The receive, with a buffer that the datagram does not fill. -/
theorem receive_serve {size : Nat} (fits : datagram.length < size) (rest : List Bytes)
    (calls : List (Nat × Bool)) :
    t.Ends datagram rest calls [(size, false)]
      ((self.receive ⟨size, true⟩).serve t.answer ⟨datagram :: rest, calls⟩) := by
  rw [receive_apply]
  cases works : t.failure calls.length with
  | some errno =>
      rw [serve_failed works]
      exact ends_failed works rfl rfl
  | none =>
      rw [serve_receive works, List.take_of_length_le (Nat.le_of_lt fits)]
      refine .inl ⟨Traffic.clear_succ.mpr ⟨works, ?_⟩, rfl, by simp [Call.serve, Traffic.arrived]⟩
      intro i impossible
      exact absurd impossible (Nat.not_lt_zero i)

/-- The loop and the receive. The induction is on how often the buffer has still
to grow. -/
theorem loop_serve {m : Nat} : ∀ (size : Nat) (rest : List Bytes) (calls : List (Nat × Bool))
    (bound : Nat), m + 2 ≤ bound → size * 4 ^ m < UInt64.size → datagram.length < size * 4 ^ m →
    (∀ l, l < m → size * 4 ^ l ≤ datagram.length) →
    t.Ends datagram rest calls (growing size m)
      (((whileLoop tooSmall self.peek bound ⟨size, false⟩).andThen fun vars _ =>
        self.receive vars).serve t.answer ⟨datagram :: rest, calls⟩) := by
  induction m with
  | zero =>
      intro size rest calls bound enough small fits grows
      obtain ⟨bound, rfl⟩ : ∃ b, bound = b + 2 := ⟨bound - 2, by omega⟩
      rw [Nat.pow_zero, Nat.mul_one] at fits
      simp only [whileLoop_succ, peekRound_apply, Bool.false_eq_true, if_false,
        Call.andThen_asking]
      cases works : t.failure calls.length with
      | some errno =>
          rw [serve_failed works]
          exact ends_failed works rfl rfl
      | none =>
          rw [serve_peek works, List.take_of_length_le (Nat.le_of_lt fits)]
          refine ends_cons works ?_
          simp only [fits, if_true, Call.andThen_returned, Bool.false_eq_true, if_false]
          exact receive_serve fits _ _
  | succ m ih =>
      intro size rest calls bound enough small fits grows
      obtain ⟨bound, rfl⟩ : ∃ b, bound = b + 1 := ⟨bound - 1, by omega⟩
      have full : size ≤ datagram.length := by simpa using grows 0 (Nat.succ_pos m)
      have shift : ∀ l, 4 * size * 4 ^ l = size * 4 ^ (l + 1) := by
        intro l
        rw [Nat.pow_succ, Nat.mul_comm 4 size, Nat.mul_assoc, Nat.mul_comm 4]
      have noWrap : 4 * size % UInt64.size = 4 * size := by
        apply Nat.mod_eq_of_lt
        have least : size * 4 ^ 1 ≤ size * 4 ^ (m + 1) :=
          Nat.mul_le_mul_left size (Nat.pow_le_pow_right (by decide) (Nat.succ_pos m))
        omega
      simp only [whileLoop_succ, peekRound_apply, Bool.false_eq_true, if_false,
        Call.andThen_asking]
      cases works : t.failure calls.length with
      | some errno =>
          rw [serve_failed works]
          exact ends_failed works rfl rfl
      | none =>
          rw [serve_peek works]
          refine ends_cons works ?_
          have filled : ¬ (datagram.take size).length < size := by
            rw [List.length_take]
            omega
          simp only [filled, if_false, Call.andThen_returned, if_true, noWrap]
          refine ih (4 * size) _ _ bound (by omega) (by rwa [shift]) (by rwa [shift]) ?_
          intro l less
          rw [shift]
          exact grows (l + 1) (Nat.succ_lt_succ less)

/-- Which calls are made depends on the datagram only. 31 rounds are enough, as
the size is `2 ^ 63` after 29 of them. -/
theorem read_serve (short : datagram.length < 2 ^ 63) :
    ∃ m, m ≤ 29 ∧ ∀ (self : MessageFileDescriptor) (t : Traffic) (s : σ) (bound : Nat)
      (rest : List Bytes) (calls : List (Nat × Bool)), 31 ≤ bound →
        t.Ends datagram rest calls (growing 32 m)
          ((self.read bound s).serve t.answer ⟨datagram :: rest, calls⟩) := by
  obtain ⟨m, most, fits, grows⟩ := exists_growths short
  have small : 32 * 4 ^ m < UInt64.size := by
    have largest : 4 ^ m ≤ 4 ^ 29 := Nat.pow_le_pow_right (by decide) most
    unfold UInt64.size
    omega
  refine ⟨m, most, ?_⟩
  intro self t s bound rest calls enough
  rw [MessageFileDescriptor.read, Call.serve_within]
  apply Traffic.Ends.within
  exact loop_serve 32 rest calls bound (by omega) small fits grows

/-- `m` reads in a row. -/
def readMany (self : MessageFileDescriptor) (bound : Nat) : Nat → System.Method σ (List Bytes)
  | 0 => pure []
  | m + 1 => do
      let datagram ← self.read bound
      let datagrams ← self.readMany bound m
      return datagram :: datagrams

/-- A read that meets no failure. -/
theorem Traffic.Ends.returned {bound : Nat} {rest : List Bytes} {calls made : List (Nat × Bool)}
    (ends : t.Ends datagram rest calls made
      ((self.read bound s).serve t.answer ⟨datagram :: rest, calls⟩))
    (clear : t.Clear calls.length made.length) :
    (self.read bound s).serve t.answer ⟨datagram :: rest, calls⟩ =
      (.returned s datagram,
        ⟨rest ++ t.arrived calls.length made.length, calls ++ made⟩) := by
  rcases ends with ⟨-, outcome, left⟩ | ⟨n, errno, less, -, fails, -⟩
  · refine Prod.ext ?_ left
    rw [Call.eq_returned outcome, MessageFileDescriptor.read, Call.serve_within,
      Call.state_within]
  · rw [clear n less] at fails
    cases fails

theorem readMany_serve {datagrams : List Bytes}
    (short : ∀ datagram ∈ datagrams, datagram.length < 2 ^ 63) :
    ∃ made, ∀ (self : MessageFileDescriptor) (t : Traffic) (s : σ) (bound : Nat)
      (rest : List Bytes) (calls : List (Nat × Bool)), 31 ≤ bound →
        t.Clear calls.length made.length →
        (self.readMany bound datagrams.length s).serve t.answer ⟨datagrams ++ rest, calls⟩ =
          (.returned s datagrams,
            ⟨rest ++ t.arrived calls.length made.length, calls ++ made⟩) := by
  induction datagrams with
  | nil => exact ⟨[], fun _ _ _ _ _ _ _ _ => by simp [readMany, Call.serve, Traffic.arrived]⟩
  | cons datagram datagrams ih =>
      obtain ⟨here, later⟩ := List.forall_mem_cons.mp short
      obtain ⟨m, -, ends⟩ := @read_serve datagram σ here
      obtain ⟨made, reads⟩ := ih later
      refine ⟨growing 32 m ++ made, ?_⟩
      intro self t s bound rest calls enough clear
      rw [List.length_append, Traffic.clear_add] at clear
      have first := (ends self t s bound (datagrams ++ rest) calls enough).returned clear.1
      have others := reads self t s bound (rest ++ t.arrived calls.length (growing 32 m).length)
        (calls ++ growing 32 m) enough (by rw [List.length_append]; exact clear.2)
      rw [List.length_append] at others
      rw [List.length_cons, readMany, bind_apply, List.cons_append, Call.serve_andThen, first,
        List.append_assoc]
      simp only [Call.andThen_returned, bind_apply, pure_apply]
      rw [Call.serve_andThen, others]
      simp [Call.serve, Traffic.arrived_add]

/-- A `read` ends, with the oldest datagram whole and removed, or at the first
call that fails, with the datagrams as they were; the size of the buffer never
comes to `2 ^ 64`. So as many reads as there are datagrams return them, in order,
if none of their calls fails. -/
theorem single_reader (self : MessageFileDescriptor) {bound : Nat} (enough : 31 ≤ bound) :
    (∀ datagram : Bytes, datagram.length < 2 ^ 63 → ∃ m,
      (∀ call ∈ growing 32 m, ∃ l, call.1 = 32 * 4 ^ l ∧ 32 * 4 ^ l < 2 ^ 64) ∧
      ∀ (t : Traffic) (s : σ) (rest : List Bytes) (calls : List (Nat × Bool)),
        t.Ends datagram rest calls (growing 32 m)
          ((self.read bound s).serve t.answer ⟨datagram :: rest, calls⟩)) ∧
    (∀ datagrams : List Bytes, (∀ datagram ∈ datagrams, datagram.length < 2 ^ 63) → ∃ made,
      ∀ (t : Traffic) (s : σ) (rest : List Bytes) (calls : List (Nat × Bool)),
        t.Clear calls.length made.length →
          (self.readMany bound datagrams.length s).serve t.answer ⟨datagrams ++ rest, calls⟩ =
            (.returned s datagrams,
              ⟨rest ++ t.arrived calls.length made.length, calls ++ made⟩)) := by
  constructor
  · intro datagram short
    obtain ⟨m, most, ends⟩ := @read_serve datagram σ short
    refine ⟨m, ?_, fun t s rest calls => ends self t s bound rest calls enough⟩
    intro call mem
    obtain ⟨l, less, size⟩ := size_of_mem_growing mem
    have largest : 4 ^ l ≤ 4 ^ 29 := Nat.pow_le_pow_right (by decide) (Nat.le_trans less most)
    exact ⟨l, size, by omega⟩
  · intro datagrams short
    obtain ⟨made, reads⟩ := @readMany_serve σ datagrams short
    exact ⟨made, fun t s rest calls => reads self t s bound rest calls enough⟩

/-- Nothing arrives and nothing fails. -/
def quiet : Traffic := ⟨fun _ => [], fun _ => none⟩

theorem single_reader_two : ∃ socket,
    (readMany ⟨3, by decide⟩ 31 2 ()).serve quiet.answer ⟨[[1], []], []⟩ =
      (.returned () [[1], []], socket) := by
  obtain ⟨-, reads⟩ := @single_reader Unit ⟨3, by decide⟩ 31 (Nat.le_refl 31)
  obtain ⟨made, served⟩ := reads [[1], []] (by simp)
  exact ⟨_, served quiet () [] [] fun _ _ => rfl⟩

end Reading

end MarathonKit.Core.MessageFileDescriptor
