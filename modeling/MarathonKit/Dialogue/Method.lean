import MarathonKit.Dialogue.Call

/-!
The monad of methods.

A `Method` is a call for each state of its object. The operations here are what
the body of a method is written with: reading and changing the object, throwing,
asking the environment, and a `while` loop with a bound on its rounds. Each has
an equation that `simp` runs it by, so a straight-line body needs no rule; a
loop needs an invariant (`Method.wp_whileLoop`).
-/

namespace Dialogue

variable {I : Interface} {E F σ τ α β : Type}

def Method (I : Interface) (E F σ α : Type) := σ → Call I E F σ α

namespace Method

instance : Monad (Method I E F σ) where
  pure a := fun s => .returned s a
  bind m f := fun s => (m s).andThen fun s' a => f a s'

/-- The object itself. -/
def this : Method I E F σ σ := fun s => .returned s s

def update (f : σ → σ) : Method I E F σ Unit := fun s => .returned (f s) ()

def throw (e : E) : Method I E F σ α := fun s => .threw s e

/-- The end of every guarantee: an operation whose precondition does not hold. -/
def fault (x : F) : Method I E F σ α := fun s => .faulted s x

def ask (q : I.Request) : Method I E F σ (I.Answer q) :=
  fun s => .asking s q fun a => .returned s a

/-- A result, or the exception in its place. -/
def orThrow : Except E α → Method I E F σ α
  | .ok a => pure a
  | .error e => throw e

/-- `try`: an exception is a result. -/
def attempt (m : Method I E F σ α) : Method I E F σ (Except E α) := fun s => (m s).caught

/-- A method of a part, as a method of the whole. -/
def on (part : τ → σ) (embed : τ → σ → τ) (m : Method I E F σ α) : Method I E F τ α :=
  fun t => (m (part t)).within (embed t)

/-- One round of a loop: `true` if the body was run. -/
def round (cond : Method I E F σ Bool) (body : Method I E F σ Unit) : Method I E F σ Bool := do
  if ← cond then
    body
    return true
  else
    return false

/-- `while (cond) body`, with the condition evaluated at most `bound` times. -/
def whileLoop (cond : Method I E F σ Bool) (body : Method I E F σ Unit) :
    Nat → Method I E F σ Unit
  | 0 => fun s => .running s
  | bound + 1 => do
      if ← round cond body then
        whileLoop cond body bound

/-- `for (x : xs)`, broken out of by a body that returns `false`. -/
def forEach {ι : Type} (body : ι → Method I E F σ Bool) : List ι → Method I E F σ Unit
  | [] => pure ()
  | x :: xs => do
      if ← body x then
        forEach body xs

/-- `for (i = …; i < limit; increment) body`, with the condition evaluated at most
`bound` times. -/
def countLoop (increment : Int → Method I E F σ Int) (limit : Int)
    (body : Int → Method I E F σ Unit) : Nat → Int → Method I E F σ Unit
  | 0, _ => fun s => .running s
  | bound + 1, i => do
      if i < limit then
        body i
        countLoop increment limit body bound (← increment i)

variable {s : σ}

@[simp] theorem pure_apply {a : α} : (pure a : Method I E F σ α) s = .returned s a := rfl

@[simp] theorem bind_apply {m : Method I E F σ α} {f : α → Method I E F σ β} :
    (m >>= f) s = (m s).andThen fun s' a => f a s' := rfl

@[simp] theorem map_apply {m : Method I E F σ α} {f : α → β} :
    (f <$> m) s = (m s).andThen fun s' a => .returned s' (f a) := rfl

@[simp] theorem this_apply : (this : Method I E F σ σ) s = .returned s s := rfl

@[simp] theorem update_apply {f : σ → σ} :
    (update f : Method I E F σ Unit) s = .returned (f s) () := rfl

@[simp] theorem throw_apply {e : E} : (throw e : Method I E F σ α) s = .threw s e := rfl

@[simp] theorem fault_apply {x : F} : (fault x : Method I E F σ α) s = .faulted s x := rfl

@[simp] theorem ask_apply {q : I.Request} :
    (ask q : Method I E F σ (I.Answer q)) s = .asking s q fun a => .returned s a := rfl

@[simp] theorem orThrow_ok {a : α} :
    (orThrow (.ok a) : Method I E F σ α) s = .returned s a := rfl

@[simp] theorem orThrow_error {e : E} :
    (orThrow (.error e) : Method I E F σ α) s = .threw s e := rfl

theorem orThrow_map {result : Except E α} {f : α → β} :
    (orThrow result s : Call I E F σ α).andThen (fun s a => .returned s (f a)) =
      orThrow (result.map f) s := by
  cases result <;> rfl

@[simp] theorem attempt_apply {m : Method I E F σ α} : attempt m s = (m s).caught := rfl

@[simp] theorem ite_apply {p : Prop} [Decidable p] {m m' : Method I E F σ α} :
    (if p then m else m') s = if p then m s else m' s := by
  split <;> rfl

theorem round_apply {cond : Method I E F σ Bool} {body : Method I E F σ Unit} :
    round cond body s = (cond s).andThen fun s continues =>
      if continues then (body s).andThen fun s _ => .returned s true else .returned s false := by
  simp only [round, bind_apply, ite_apply, pure_apply]

/-- What follows a round follows the condition, and the body if that is run. -/
theorem round_andThen {cond : Method I E F σ Bool} {body : Method I E F σ Unit}
    {f : σ → Bool → Call I E F σ β} :
    (round cond body s).andThen f = (cond s).andThen fun s continues =>
      if continues then (body s).andThen fun s _ => f s true else f s false := by
  rw [round_apply, Call.andThen_assoc]
  congr 1
  funext s continues
  cases continues with
  | false => rfl
  | true => exact Call.andThen_assoc _

theorem whileLoop_succ {cond : Method I E F σ Bool} {body : Method I E F σ Unit} {bound : Nat} :
    whileLoop cond body (bound + 1) s = (round cond body s).andThen fun s continues =>
      if continues then whileLoop cond body bound s else .returned s () := by
  simp only [whileLoop, bind_apply, ite_apply, pure_apply]

/-- A loop is its condition, and then the body and the loop again. -/
theorem whileLoop_unroll {cond : Method I E F σ Bool} {body : Method I E F σ Unit} {bound : Nat} :
    whileLoop cond body (bound + 1) s = (cond s).andThen fun s continues =>
      if continues then (body s).andThen fun s _ => whileLoop cond body bound s
      else .returned s () := by
  rw [whileLoop_succ, round_andThen]
  rfl

/-- What one round must achieve for a loop with invariant `inv` to end in `Q`:
the invariant if it goes on, `Q` wherever it does not. -/
def afterRound (inv : List (Event I) → σ → Prop)
    (Q : List (Event I) → Outcome I E F Unit → σ → Prop) (h : List (Event I)) :
    Outcome I E F Bool → σ → Prop
  | .returned true, s => inv h s
  | .returned false, s => Q h (.returned ()) s
  | .threw e, s => Q h (.threw e) s
  | .faulted x, s => Q h (.faulted x) s
  | .running, s => Q h .running s
  | .asking q, s => Q h (.asking q) s

/-- After a round, the loop goes on as `next`, or it is over. -/
theorem wp_next {inv : List (Event I) → σ → Prop}
    {Q : List (Event I) → Outcome I E F Unit → σ → Prop} {c : Call I E F σ Bool}
    {next : σ → Call I E F σ Unit} {h : List (Event I)}
    (round : c.wp fun k => afterRound inv Q (h ++ k))
    (goesOn : ∀ k s, inv (h ++ k) s → (next s).wp fun k' => Q (h ++ k ++ k')) :
    (c.andThen fun s continues => if continues then next s else .returned s ()).wp fun k =>
      Q (h ++ k) := by
  refine Call.wp_andThen.mpr (round.mono fun k o s after => ?_)
  cases o with
  | returned continues =>
      cases continues with
      | true => simpa [Call.passOn, ← List.append_assoc] using goesOn k s after
      | false => simpa [Call.passOn, afterRound] using after
  | _ => exact after

/-- The loop rule. The invariant relates the answers received so far to the
state, and holds whenever the condition is about to be evaluated. -/
theorem wp_whileLoop {cond : Method I E F σ Bool} {body : Method I E F σ Unit}
    {Q : List (Event I) → Outcome I E F Unit → σ → Prop} (inv : List (Event I) → σ → Prop)
    {bound : Nat} (start : inv [] s) (between : ∀ h s, inv h s → Q h .running s)
    (round : ∀ h s, inv h s →
      (round cond body s).wp fun k => afterRound inv Q (h ++ k)) :
    (whileLoop cond body bound s).wp Q := by
  suffices general : ∀ h, inv h s → (whileLoop cond body bound s).wp fun k => Q (h ++ k) from
    general [] start
  clear start
  induction bound generalizing s with
  | zero => exact fun h held => by simpa [whileLoop] using between h s held
  | succ bound ih =>
      intro h held
      rw [whileLoop_succ]
      exact wp_next (round h s held) fun k s' => ih (h ++ k)

/-- The rule for a loop over a list. The invariant speaks of the elements that
are still to come. -/
theorem wp_forEach {ι : Type} {body : ι → Method I E F σ Bool} {xs : List ι}
    {Q : List (Event I) → Outcome I E F Unit → σ → Prop}
    (inv : List ι → List (Event I) → σ → Prop) (start : inv xs [] s)
    (finish : ∀ h s, inv [] h s → Q h (.returned ()) s)
    (step : ∀ x xs h s, inv (x :: xs) h s →
      (body x s).wp fun k => afterRound (inv xs) Q (h ++ k)) :
    (forEach body xs s).wp Q := by
  suffices general : ∀ h, inv xs h s → (forEach body xs s).wp fun k => Q (h ++ k) from
    general [] start
  clear start
  induction xs generalizing s with
  | nil => exact fun h held => by simpa [forEach] using finish h s held
  | cons x xs ih =>
      intro h held
      simp only [forEach, bind_apply, ite_apply, pure_apply]
      exact wp_next (step x xs h s held) fun k s' => ih (h ++ k)

theorem countLoop_succ {increment : Int → Method I E F σ Int} {limit : Int}
    {body : Int → Method I E F σ Unit} {bound : Nat} {i : Int} :
    countLoop increment limit body (bound + 1) i s =
      if i < limit then (body i s).andThen fun s _ => (increment i s).andThen fun s i =>
        countLoop increment limit body bound i s
      else .returned s () := by
  simp only [countLoop, ite_apply, bind_apply, pure_apply]

/-- A loop that counts up, against one environment: where `point n` is what the
first `n` rounds come to, the loop comes to `point k`. -/
theorem serve_countLoop {ε : Type} {env : (q : I.Request) → ε → Option (I.Answer q × ε)}
    {increment : Int → Method I E F σ Int} {limit : Int} {body : Int → Method I E F σ Unit}
    (point : Nat → σ × ε) {k : Nat}
    (body_serve : ∀ n < k, (body n (point n).1).serve env (point n).2 =
      (.returned (point (n + 1)).1 (), (point (n + 1)).2))
    (increments : ∀ n < k, ∀ s, increment n s = .returned s (n + 1))
    (below : ∀ n < k, (n : Int) < limit) (bound : Nat) :
    (countLoop increment limit body (bound + k) 0 (point 0).1).serve env (point 0).2 =
      (countLoop increment limit body bound k (point k).1).serve env (point k).2 := by
  induction k generalizing bound with
  | zero => rfl
  | succ k ih =>
      have before := ih (fun n less => body_serve n (Nat.lt_succ_of_lt less))
        (fun n less => increments n (Nat.lt_succ_of_lt less))
        (fun n less => below n (Nat.lt_succ_of_lt less)) (bound + 1)
      rw [Nat.add_right_comm, Nat.add_assoc] at before
      rw [before, countLoop_succ, if_pos (below k (Nat.lt_succ_self k)), Call.serve_andThen,
        body_serve k (Nat.lt_succ_self k)]
      simp only [Call.andThen_returned, increments k (Nat.lt_succ_self k)]
      push_cast
      rfl

end Method

end Dialogue
