import MarathonKit.Dialogue.Method

/-!
How a call ends.

`Call.Exits` is the big-step reading of a call: given these answers it is over,
by a value or by an exception, and has left the object in this state. There is
one equivalence for each way of putting calls together, which says how the whole
ends by how its parts end.
-/

namespace Dialogue

open Method

variable {I : Interface} {E F σ τ α β : Type}

namespace Call

/-- Given the answers in `h`, the call is over with `result`, in the state `s`. -/
def Exits (c : Call I E F σ α) (h : List (Event I)) (result : Except E α) (s : σ) : Prop :=
  c.Reaches h (orThrow result s)

variable {s s' : σ} {h : List (Event I)} {result : Except E α}

/-- A call that asks nothing goes nowhere. -/
theorem Reaches.of_leaf {c c' : Call I E F σ α} (reached : c.Reaches h c')
    (leaf : ∀ q, c.outcome ≠ .asking q) : h = [] ∧ c' = c := by
  cases reached with
  | here => exact ⟨rfl, rfl⟩
  | answer _ => exact absurd rfl (leaf _)

@[simp] theorem exits_returned {a : α} :
    (returned s a : Call I E F σ α).Exits h result s' ↔ h = [] ∧ result = .ok a ∧ s' = s := by
  constructor
  · intro exits
    obtain ⟨rfl, ended⟩ := Reaches.of_leaf exits (by simp [outcome])
    cases result with
    | ok b =>
        cases ended
        exact ⟨rfl, rfl, rfl⟩
    | error e => cases ended
  · rintro ⟨rfl, rfl, rfl⟩
    exact .here _

@[simp] theorem exits_threw {e : E} :
    (threw s e : Call I E F σ α).Exits h result s' ↔ h = [] ∧ result = .error e ∧ s' = s := by
  constructor
  · intro exits
    obtain ⟨rfl, ended⟩ := Reaches.of_leaf exits (by simp [outcome])
    cases result with
    | ok b => cases ended
    | error e =>
        cases ended
        exact ⟨rfl, rfl, rfl⟩
  · rintro ⟨rfl, rfl, rfl⟩
    exact .here _

theorem exits_orThrow {result' : Except E α} :
    (orThrow result' s : Call I E F σ α).Exits h result s' ↔
      h = [] ∧ result = result' ∧ s' = s := by
  cases result' with
  | ok a => exact exits_returned
  | error e => exact exits_threw

@[simp] theorem not_exits_faulted {x : F} :
    ¬ (faulted s x : Call I E F σ α).Exits h result s' := by
  intro exits
  obtain ⟨-, ended⟩ := Reaches.of_leaf exits (by simp [outcome])
  cases result <;> cases ended

@[simp] theorem not_exits_running : ¬ (running s : Call I E F σ α).Exits h result s' := by
  intro exits
  obtain ⟨-, ended⟩ := Reaches.of_leaf exits (by simp [outcome])
  cases result <;> cases ended

@[simp] theorem exits_asking {q : I.Request} {resume : I.Answer q → Call I E F σ α} :
    (asking s q resume).Exits h result s' ↔
      ∃ a k, h = ⟨q, a⟩ :: k ∧ (resume a).Exits k result s' := by
  constructor
  · intro exits
    unfold Exits at exits
    generalize ended : (orThrow result s' : Call I E F σ α) = c at exits
    cases exits with
    | here => cases result <;> cases ended
    | @answer _ _ _ a k _ rest =>
        refine ⟨a, k, rfl, ?_⟩
        rw [← ended] at rest
        exact rest
  · rintro ⟨a, k, rfl, rest⟩
    exact .answer rest

/-- A sequence throws in its first part, or that returns and the second part
ends. -/
theorem exits_andThen {result : Except E β} {f : σ → α → Call I E F σ β} {c : Call I E F σ α} :
    (c.andThen f).Exits h result s' ↔
      (∃ e, result = .error e ∧ c.Exits h (.error e) s') ∨
      ∃ a t k k', h = k ++ k' ∧ c.Exits k (.ok a) t ∧ (f t a).Exits k' result s' := by
  induction c generalizing h with
  | returned s a => simp
  | threw s e => simp [and_left_comm]
  | faulted s x => simp
  | running s => simp
  | asking s q resume ih =>
      simp only [andThen_asking, exits_asking, ih]
      constructor
      · rintro ⟨a, k, rfl, ⟨e, rfl, threw⟩ | ⟨b, t, k, k', rfl, first, second⟩⟩
        · exact .inl ⟨e, rfl, a, k, rfl, threw⟩
        · exact .inr ⟨b, t, _, k', rfl, ⟨a, k, rfl, first⟩, second⟩
      · rintro (⟨e, rfl, a, k, rfl, threw⟩ | ⟨b, t, _, k', rfl, ⟨a, k, rfl, first⟩, second⟩)
        · exact ⟨a, k, rfl, .inl ⟨e, rfl, threw⟩⟩
        · exact ⟨a, _, rfl, .inr ⟨b, t, k, k', rfl, first, second⟩⟩

theorem exits_within {embed : σ → τ} {t : τ} {c : Call I E F σ α} :
    (c.within embed).Exits h result t ↔ ∃ s, c.Exits h result s ∧ t = embed s := by
  induction c generalizing h with
  | returned s a => simp [within, and_assoc]
  | threw s e => simp [within, and_assoc]
  | faulted s x => simp [within]
  | running s => simp [within]
  | asking s q resume ih =>
      simp only [within, exits_asking, ih]
      constructor
      · rintro ⟨a, k, rfl, s, exits, rfl⟩
        exact ⟨s, ⟨a, k, rfl, exits⟩, rfl⟩
      · rintro ⟨s, ⟨a, k, rfl, exits⟩, rfl⟩
        exact ⟨a, k, rfl, s, exits, rfl⟩

/-- With its exceptions turned into results, a call only returns. -/
theorem exits_caught {result : Except E (Except E α)} {c : Call I E F σ α} :
    c.caught.Exits h result s' ↔ ∃ inner, result = .ok inner ∧ c.Exits h inner s' := by
  induction c generalizing h with
  | returned s a => simp [caught, and_left_comm]
  | threw s e => simp [caught, and_left_comm]
  | faulted s x => simp [caught]
  | running s => simp [caught]
  | asking s q resume ih =>
      simp only [caught, exits_asking, ih]
      constructor
      · rintro ⟨a, k, rfl, inner, rfl, exits⟩
        exact ⟨inner, rfl, a, k, rfl, exits⟩
      · rintro ⟨inner, rfl, a, k, rfl, exits⟩
        exact ⟨a, k, rfl, inner, rfl, exits⟩

/-- A call that is over has ended in one of the two ways. -/
theorem exits_of_finished {c c' : Call I E F σ α} (reached : c.Reaches h c')
    (finished : c'.outcome.Finished) :
    ∃ result, c.Exits h result c'.state ∧ c' = orThrow result c'.state := by
  cases c' with
  | returned s a => exact ⟨.ok a, reached, rfl⟩
  | threw s e => exact ⟨.error e, reached, rfl⟩
  | _ => exact finished.elim

/-- A call that ends, against an environment that always answers. -/
theorem serve_exits {ε : Type} {env : (q : I.Request) → ε → Option (I.Answer q × ε)}
    {P : List (Event I) → α → σ → Prop} {T : List (Event I) → E → σ → Prop}
    {c : Call I E F σ α} (ends : c.wp (Ends P T)) (total : ∀ q e, (env q e).isSome) (e : ε) :
    ∃ h result s, c.Exits h result s ∧ (c.serve env e).1 = orThrow result s := by
  obtain ⟨h, reached⟩ := serve_reaches env c e
  obtain ⟨result, exits, ended⟩ := exits_of_finished reached (serve_finished ends total e)
  exact ⟨h, result, _, exits, ended⟩

end Call

end Dialogue
