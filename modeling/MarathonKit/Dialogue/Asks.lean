import MarathonKit.Dialogue.Method

/-!
What a call may ask.

`Call.Asks P` says that whatever the call asks, at whatever point and after
whatever answers, satisfies `P`. There is one rule for each way of putting calls
together, so that it is shown of a method by following its body.
-/

namespace Dialogue

open Method

variable {I : Interface} {E F σ τ α β : Type} {P : I.Request → Prop}

namespace Call

def Asks (P : I.Request → Prop) (c : Call I E F σ α) : Prop :=
  c.wp fun _ o _ => ∀ q, o = .asking q → P q

variable {s : σ} {c : Call I E F σ α}

theorem Asks.of_reaches {c' : Call I E F σ α} {h : List (Event I)} (asks : c.Asks P)
    (reached : c.Reaches h c') : ∀ event ∈ h, P event.request :=
  wp.asked asks reached

theorem asks_returned {a : α} : (returned s a : Call I E F σ α).Asks P := by
  rintro q ⟨⟩

theorem asks_threw {e : E} : (threw s e : Call I E F σ α).Asks P := by
  rintro q ⟨⟩

theorem asks_faulted {x : F} : (faulted s x : Call I E F σ α).Asks P := by
  rintro q ⟨⟩

theorem asks_asking {q : I.Request} {resume : I.Answer q → Call I E F σ α} :
    (asking s q resume).Asks P ↔ P q ∧ ∀ a, (resume a).Asks P := by
  constructor
  · rintro ⟨here, rest⟩
    exact ⟨here q rfl, rest⟩
  · rintro ⟨here, rest⟩
    refine ⟨?_, rest⟩
    rintro q' ⟨⟩
    exact here

theorem Asks.andThen {f : σ → α → Call I E F σ β} (first : c.Asks P)
    (rest : ∀ s a, (f s a).Asks P) : (c.andThen f).Asks P := by
  refine wp_andThen.mpr (first.mono fun h o s here => ?_)
  cases o with
  | returned a => exact rest s a
  | asking q =>
      rintro q' ⟨⟩
      exact here q rfl
  | _ => rintro q ⟨⟩

theorem Asks.within {embed : σ → τ} (asks : c.Asks P) : (c.within embed).Asks P :=
  wp_within.mpr asks

theorem Asks.caught (asks : c.Asks P) : c.caught.Asks P := by
  refine wp_caught.mpr (asks.mono fun h o s here => ?_)
  cases o with
  | asking q =>
      rintro q' ⟨⟩
      exact here q rfl
  | _ => rintro q ⟨⟩

/-- With every request served by a program, only the programs ask. -/
theorem Asks.via {J : Interface} {P : J.Request → Prop}
    {impl : (q : I.Request) → Call J E F Unit (I.Answer q)} (serves : ∀ q, (impl q).Asks P)
    (c : Call I E F σ α) : (c.via impl).Asks P := by
  induction c with
  | returned s a => exact asks_returned
  | threw s e => exact asks_threw
  | faulted s x => exact asks_faulted
  | running s => rintro q ⟨⟩
  | asking s q resume ih => exact (serves q).within.andThen fun _ a => ih a

end Call

theorem Method.asks_whileLoop {cond : Method I E F σ Bool} {body : Method I E F σ Unit}
    {bound : Nat} {s : σ} (condition : ∀ s, (cond s).Asks P) (round : ∀ s, (body s).Asks P) :
    (whileLoop cond body bound s).Asks P := by
  induction bound generalizing s with
  | zero => rintro q ⟨⟩
  | succ bound ih =>
      rw [whileLoop_unroll]
      refine (condition s).andThen fun s continues => ?_
      cases continues with
      | false => exact Call.asks_returned
      | true => exact (round s).andThen fun s _ => ih

end Dialogue
