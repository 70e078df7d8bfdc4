import Mathlib.Data.List.Basic

/-!
Methods in dialogue with an environment.

A method of a stateful object runs until it needs something it does not have:
the result of a system call, of a virtual call, of a lock. It then *asks*, and
goes on with the answer. `Call` is such a method under way, as a tree: its
leaves are the ways a call can end, its inner nodes are the requests, and every
node carries the state the object is in at that point. The environment is left
open, so one tree describes every behaviour of it.

* `Call.Reaches` — the points a call passes through, with the answers received
  on the way. Every such point is a point of some execution, and an execution
  that is stopped half-way (a call that blocks, a call that another party
  overtakes) is stopped at such a point.
* `Call.wp` — what holds at every point of a call, by recursion on the tree.
  `wp_iff_reaches` says that it is exactly that; `wp_andThen` and
  `wp_whileLoop` are its rules for sequencing and for loops.
* `Call.serve` — the execution against one given environment.

A loop takes a bound on its number of rounds. A call that uses the bound up is
left at `running`, between two rounds: what is proved for every bound holds
after any number of rounds, and a call returns when it does for some bound.
-/

namespace Dialogue

/-- What a program may ask of its environment, and what it may be answered. -/
structure Interface where
  Request : Type
  Answer : Request → Type

/-- A request together with the answer it got. -/
structure Event (I : Interface) where
  request : I.Request
  answer : I.Answer request

/-- A call under way on an object with state `σ`: `E` is what it may throw, `F`
what may go wrong in it beyond an exception, `α` what it returns. -/
inductive Call (I : Interface) (E F σ α : Type) where
  | returned (s : σ) (value : α)
  | threw (s : σ) (error : E)
  | faulted (s : σ) (fault : F)
  | running (s : σ)
  | asking (s : σ) (q : I.Request) (resume : I.Answer q → Call I E F σ α)

/-- How far a call has come: the node of the tree without its continuation. -/
inductive Outcome (I : Interface) (E F α : Type) where
  | returned (value : α)
  | threw (error : E)
  | faulted (fault : F)
  | running
  | asking (q : I.Request)

variable {I J : Interface} {E F σ τ α β : Type}

/-- The call is over and handed control back: by a value or by an exception. -/
def Outcome.Finished : Outcome I E F α → Prop
  | .returned _ | .threw _ => True
  | _ => False

instance (o : Outcome I E F α) : Decidable o.Finished := by
  cases o <;> unfold Outcome.Finished <;> infer_instance

/-- The call has gone wrong. -/
def Outcome.Faulted : Outcome I E F α → Prop
  | .faulted _ => True
  | _ => False

theorem Outcome.faulted_iff {o : Outcome I E F α} : o.Faulted ↔ ∃ x, o = .faulted x := by
  cases o <;> simp [Outcome.Faulted]

/-- An exception turned into a result. -/
def Outcome.caught : Outcome I E F α → Outcome I E F (Except E α)
  | returned a => returned (.ok a)
  | threw e => returned (.error e)
  | faulted x => faulted x
  | running => running
  | asking q => asking q

namespace Call

/-- The state of the object at this point. -/
def state : Call I E F σ α → σ
  | returned s _ | threw s _ | faulted s _ | running s | asking s _ _ => s

def outcome : Call I E F σ α → Outcome I E F α
  | returned _ a => .returned a
  | threw _ e => .threw e
  | faulted _ f => .faulted f
  | running _ => .running
  | asking _ q _ => .asking q

/-- Sequencing: `f` takes over where the first call returns. -/
def andThen : Call I E F σ α → (σ → α → Call I E F σ β) → Call I E F σ β
  | returned s a, f => f s a
  | threw s e, _ => threw s e
  | faulted s x, _ => faulted s x
  | running s, _ => running s
  | asking s q resume, f => asking s q fun a => (resume a).andThen f

/-- The same call seen from an object that has `σ` as a part. -/
def within (embed : σ → τ) : Call I E F σ α → Call I E F τ α
  | returned s a => returned (embed s) a
  | threw s e => threw (embed s) e
  | faulted s x => faulted (embed s) x
  | running s => running (embed s)
  | asking s q resume => asking (embed s) q fun a => (resume a).within embed

/-- Exceptions turned into results. -/
def caught : Call I E F σ α → Call I E F σ (Except E α)
  | returned s a => returned s (.ok a)
  | threw s e => returned s (.error e)
  | faulted s x => faulted s x
  | running s => running s
  | asking s q resume => asking s q fun a => (resume a).caught

/-- Every request is answered by a program of its own, over another interface:
the program runs in its place and what it returns is the answer. -/
def via (impl : (q : I.Request) → Call J E F Unit (I.Answer q)) :
    Call I E F σ α → Call J E F σ α
  | returned s a => returned s a
  | threw s e => threw s e
  | faulted s x => faulted s x
  | running s => running s
  | asking s q resume => ((impl q).within fun _ => s).andThen fun _ a => (resume a).via impl

section andThen

variable {f : σ → α → Call I E F σ β} {s : σ}

@[simp] theorem andThen_returned {a : α} : (returned s a : Call I E F σ α).andThen f = f s a := rfl

@[simp] theorem andThen_threw {e : E} :
    (threw s e : Call I E F σ α).andThen f = threw s e := rfl

@[simp] theorem andThen_faulted {x : F} :
    (faulted s x : Call I E F σ α).andThen f = faulted s x := rfl

@[simp] theorem andThen_running :
    (running s : Call I E F σ α).andThen f = running s := rfl

@[simp] theorem andThen_asking {q : I.Request} {resume : I.Answer q → Call I E F σ α} :
    (asking s q resume).andThen f = asking s q fun a => (resume a).andThen f := rfl

theorem andThen_assoc {γ : Type} {g : σ → β → Call I E F σ γ} (c : Call I E F σ α) :
    (c.andThen f).andThen g = c.andThen fun s a => (f s a).andThen g := by
  induction c with
  | asking s q resume ih => exact congrArg (asking s q) (funext fun a => ih a)
  | _ => rfl

end andThen

/-- `c.Reaches h c'`: given the answers in `h`, in that order, the call `c` has
come to `c'`. -/
inductive Reaches : Call I E F σ α → List (Event I) → Call I E F σ α → Prop where
  | here (c : Call I E F σ α) : Reaches c [] c
  | answer {s : σ} {q : I.Request} {resume : I.Answer q → Call I E F σ α} {a : I.Answer q}
      {h : List (Event I)} {c : Call I E F σ α} :
      Reaches (resume a) h c → Reaches (asking s q resume) (⟨q, a⟩ :: h) c

/-! ### What holds at every point of a call -/

/-- `c.wp Q`: at every point the call can come to, `Q` holds of the answers
received so far, of how far the call is, and of the state of the object. -/
def wp : Call I E F σ α → (List (Event I) → Outcome I E F α → σ → Prop) → Prop
  | returned s a, Q => Q [] (.returned a) s
  | threw s e, Q => Q [] (.threw e) s
  | faulted s x, Q => Q [] (.faulted x) s
  | running s, Q => Q [] .running s
  | asking s q resume, Q => Q [] (.asking q) s ∧ ∀ a, (resume a).wp fun h => Q (⟨q, a⟩ :: h)

variable {Q Q' : List (Event I) → Outcome I E F α → σ → Prop}

@[simp] theorem wp_returned {s : σ} {a : α} :
    (returned s a : Call I E F σ α).wp Q ↔ Q [] (.returned a) s := Iff.rfl

@[simp] theorem wp_threw {s : σ} {e : E} :
    (threw s e : Call I E F σ α).wp Q ↔ Q [] (.threw e) s := Iff.rfl

@[simp] theorem wp_faulted {s : σ} {x : F} :
    (faulted s x : Call I E F σ α).wp Q ↔ Q [] (.faulted x) s := Iff.rfl

@[simp] theorem wp_running {s : σ} :
    (running s : Call I E F σ α).wp Q ↔ Q [] .running s := Iff.rfl

@[simp] theorem wp_asking {s : σ} {q : I.Request} {resume : I.Answer q → Call I E F σ α} :
    (asking s q resume).wp Q ↔
      Q [] (.asking q) s ∧ ∀ a, (resume a).wp fun h => Q (⟨q, a⟩ :: h) := Iff.rfl

theorem wp_iff_reaches {c : Call I E F σ α} :
    c.wp Q ↔ ∀ h c', c.Reaches h c' → Q h c'.outcome c'.state := by
  constructor
  · intro holds h c' reached
    induction reached generalizing Q with
    | here c => cases c <;> first | exact holds | exact holds.1
    | answer _ ih => exact ih (holds.2 _)
  · intro all
    induction c generalizing Q with
    | asking s q resume ih =>
        refine ⟨all [] _ (.here _), fun a => ih a fun h c' reached => ?_⟩
        exact all _ _ (.answer reached)
    | _ => exact all [] _ (.here _)

/-- What holds everywhere holds where the call is. -/
theorem wp.reaches {c c' : Call I E F σ α} {h : List (Event I)} (holds : c.wp Q)
    (reached : c.Reaches h c') : Q h c'.outcome c'.state :=
  wp_iff_reaches.mp holds h c' reached

theorem wp.mono {c : Call I E F σ α} (holds : c.wp Q) (weaker : ∀ h o s, Q h o s → Q' h o s) :
    c.wp Q' :=
  wp_iff_reaches.mpr fun _ _ reached => weaker _ _ _ (holds.reaches reached)

theorem wp.and {c : Call I E F σ α} (first : c.wp Q) (second : c.wp Q') :
    c.wp fun h o s => Q h o s ∧ Q' h o s :=
  wp_iff_reaches.mpr fun _ _ reached => ⟨first.reaches reached, second.reaches reached⟩

/-- What is asked was asked at a point of the call. -/
theorem wp.asked {P : I.Request → Prop} {c c' : Call I E F σ α} {h : List (Event I)}
    (holds : c.wp fun _ o _ => ∀ q, o = .asking q → P q) (reached : c.Reaches h c') :
    ∀ event ∈ h, P event.request := by
  induction reached with
  | here => simp
  | answer _ ih => exact List.forall_mem_cons.mpr ⟨holds.1 _ rfl, ih (holds.2 _)⟩

/-- What `c.andThen f` does with a point of `c`: a returned value goes on into
`f`, every other point is a point of the whole. -/
def passOn (f : σ → α → Call I E F σ β) (Q : List (Event I) → Outcome I E F β → σ → Prop)
    (h : List (Event I)) : Outcome I E F α → σ → Prop
  | .returned a, s => (f s a).wp fun h' => Q (h ++ h')
  | .threw e, s => Q h (.threw e) s
  | .faulted x, s => Q h (.faulted x) s
  | .running, s => Q h .running s
  | .asking q, s => Q h (.asking q) s

theorem wp_andThen {c : Call I E F σ α} {f : σ → α → Call I E F σ β}
    {Q : List (Event I) → Outcome I E F β → σ → Prop} :
    (c.andThen f).wp Q ↔ c.wp (passOn f Q) := by
  induction c generalizing Q with
  | asking s q resume ih =>
      refine and_congr Iff.rfl (forall_congr' fun a => (ih a).trans ?_)
      have same : passOn f (fun h => Q (⟨q, a⟩ :: h)) = fun h => passOn f Q (⟨q, a⟩ :: h) := by
        funext h o s
        cases o <;> rfl
      rw [same]
  | _ => exact Iff.rfl

theorem wp_within {embed : σ → τ} {c : Call I E F σ α}
    {Q : List (Event I) → Outcome I E F α → τ → Prop} :
    (c.within embed).wp Q ↔ c.wp fun h o s => Q h o (embed s) := by
  induction c generalizing Q with
  | asking s q resume ih => exact and_congr Iff.rfl (forall_congr' fun a => ih a)
  | _ => exact Iff.rfl

theorem wp_caught {c : Call I E F σ α}
    {Q : List (Event I) → Outcome I E F (Except E α) → σ → Prop} :
    c.caught.wp Q ↔ c.wp fun h o s => Q h o.caught s := by
  induction c generalizing Q with
  | asking s q resume ih => exact and_congr Iff.rfl (forall_congr' fun a => ih a)
  | _ => exact Iff.rfl

/-- A postcondition of a call that ends: it returns with `P` or throws with `T`,
unless it is waiting for an answer. -/
def Ends (P : List (Event I) → α → σ → Prop) (T : List (Event I) → E → σ → Prop)
    (h : List (Event I)) : Outcome I E F α → σ → Prop
  | .returned a, s => P h a s
  | .threw e, s => T h e s
  | .asking _, _ => True
  | .faulted _, _ | .running, _ => False

section Ends

variable {P : List (Event I) → α → σ → Prop} {T : List (Event I) → E → σ → Prop}

theorem Ends.imp {P' : List (Event I) → α → τ → Prop} {T' : List (Event I) → E → τ → Prop}
    {h h' : List (Event I)} {o : Outcome I E F α} {s : σ} {t : τ} (ends : Ends P T h o s)
    (returns : ∀ a, P h a s → P' h' a t) (throws : ∀ e, T h e s → T' h' e t) :
    Ends P' T' h' o t := by
  cases o with
  | returned a => exact returns a ends
  | threw e => exact throws e ends
  | _ => exact ends

/-- Sequencing of calls that end. -/
theorem wp_andThen_ends {P' : List (Event I) → β → σ → Prop} {T' : List (Event I) → E → σ → Prop}
    {c : Call I E F σ α} {f : σ → α → Call I E F σ β} (first : c.wp (Ends P T))
    (throws : ∀ h e s, T h e s → T' h e s)
    (next : ∀ h a s, P h a s → (f s a).wp fun k => Ends P' T' (h ++ k)) :
    (c.andThen f).wp (Ends P' T') := by
  refine wp_andThen.mpr (first.mono fun h o s ends => ?_)
  cases o with
  | returned a => exact next h a s ends
  | threw e => exact throws h e s ends
  | _ => exact ends

theorem wp_caught_ends {c : Call I E F σ α} (ends : c.wp (Ends P T)) :
    c.caught.wp (Ends
      (fun h r s => match r with
        | .ok a => P h a s
        | .error e => T h e s)
      fun _ _ _ => False) := by
  refine wp_caught.mpr (ends.mono fun h o s here => ?_)
  cases o <;> exact here

end Ends

/-- A request served by a program of its own. `R` relates the answers of the
lower interface to those of the upper one. It holds at the start, is extended
by each program when it returns, and at every other point of either it must
give what is to be shown. -/
theorem wp_via {impl : (q : I.Request) → Call J E F Unit (I.Answer q)}
    {c : Call I E F σ α} {P : List (Event I) → Outcome I E F α → σ → Prop}
    {Q : List (Event J) → Outcome J E F α → σ → Prop} {R : List (Event J) → List (Event I) → Prop}
    (upper : c.wp P) (start : R [] [])
    (returns : ∀ h h' s a, R h h' → P h' (.returned a) s → Q h (.returned a) s)
    (throws : ∀ h h' s e, R h h' → P h' (.threw e) s → Q h (.threw e) s)
    (faults : ∀ h h' s x, R h h' → P h' (.faulted x) s → Q h (.faulted x) s)
    (runs : ∀ h h' s, R h h' → P h' .running s → Q h .running s)
    (serves : ∀ h h' s q, R h h' → P h' (.asking q) s → (impl q).wp fun k o _ =>
      match o with
      | .returned a => R (h ++ k) (h' ++ [⟨q, a⟩])
      | .threw e => Q (h ++ k) (.threw e) s
      | .faulted x => Q (h ++ k) (.faulted x) s
      | .running => Q (h ++ k) .running s
      | .asking p => Q (h ++ k) (.asking p) s) :
    (c.via impl).wp Q := by
  suffices general : ∀ h h', R h h' → (c.wp fun k => P (h' ++ k)) →
      (c.via impl).wp fun k => Q (h ++ k) from general [] [] start upper
  clear upper start
  induction c with
  | returned s a => exact fun h h' r p => by simpa [via] using returns h h' s a r (by simpa using p)
  | threw s e => exact fun h h' r p => by simpa [via] using throws h h' s e r (by simpa using p)
  | faulted s x => exact fun h h' r p => by simpa [via] using faults h h' s x r (by simpa using p)
  | running s => exact fun h h' r p => by simpa [via] using runs h h' s r (by simpa using p)
  | asking s q resume ih =>
      intro h h' r p
      have here : P h' (.asking q) s := by simpa using p.1
      refine wp_andThen.mpr (wp_within.mpr ((serves h h' s q r here).mono ?_))
      intro k o _ served
      cases o with
      | returned a =>
          have rest := ih a (h ++ k) (h' ++ [⟨q, a⟩]) served
            (by simpa using p.2 a)
          simpa [passOn] using rest
      | _ => exact served

/-! ### Execution against one environment -/

/-- Run the call, answering its requests by `env`; where `env` gives no answer
the call stays where it is. -/
def serve {ε : Type} (env : (q : I.Request) → ε → Option (I.Answer q × ε)) :
    Call I E F σ α → ε → Call I E F σ α × ε
  | asking s q resume, e =>
      match env q e with
      | none => (asking s q resume, e)
      | some (a, e') => (resume a).serve env e'
  | c, e => (c, e)

/-- Serving a sequence is serving its first part and then, where that returned,
the second. -/
theorem serve_andThen {ε : Type} {env : (q : I.Request) → ε → Option (I.Answer q × ε)}
    {f : σ → α → Call I E F σ β} (c : Call I E F σ α) (e : ε) :
    (c.andThen f).serve env e =
      (((c.serve env e).1.andThen f).serve env (c.serve env e).2) := by
  induction c generalizing e with
  | asking s q resume ih =>
      cases answered : env q e with
      | none => simp [andThen, serve, answered]
      | some answer => simpa [andThen, serve, answered] using ih _ answer.2
  | _ => rfl

/-- An environment that always answers leaves no request open. -/
theorem serve_ne_asking {ε : Type} {env : (q : I.Request) → ε → Option (I.Answer q × ε)}
    (total : ∀ q e, (env q e).isSome) (c : Call I E F σ α) (e : ε) (q : I.Request) :
    (c.serve env e).1.outcome ≠ .asking q := by
  induction c generalizing e with
  | asking s p resume ih =>
      obtain ⟨answer, answered⟩ := Option.isSome_iff_exists.mp (total p e)
      simpa [serve, answered] using ih answer.1 answer.2
  | _ => simp [serve, outcome]

@[simp] theorem outcome_within {embed : σ → τ} (c : Call I E F σ α) :
    (c.within embed).outcome = c.outcome := by
  cases c <;> rfl

@[simp] theorem state_within {embed : σ → τ} (c : Call I E F σ α) :
    (c.within embed).state = embed c.state := by
  cases c <;> rfl

theorem eq_returned {c : Call I E F σ α} {a : α} (outcome : c.outcome = .returned a) :
    c = .returned c.state a := by
  cases c with
  | returned s b =>
      cases outcome
      rfl
  | _ => cases outcome

/-- A part is served as the whole is. -/
theorem serve_within {ε : Type} {env : (q : I.Request) → ε → Option (I.Answer q × ε)}
    {embed : σ → τ} (c : Call I E F σ α) (e : ε) :
    (c.within embed).serve env e = ((c.serve env e).1.within embed, (c.serve env e).2) := by
  induction c generalizing e with
  | asking s q resume ih =>
      cases answered : env q e with
      | none => simp [within, serve, answered]
      | some answer => simpa [within, serve, answered] using ih answer.1 answer.2
  | _ => rfl

theorem serve_caught {ε : Type} {env : (q : I.Request) → ε → Option (I.Answer q × ε)}
    (c : Call I E F σ α) (e : ε) :
    c.caught.serve env e = ((c.serve env e).1.caught, (c.serve env e).2) := by
  induction c generalizing e with
  | asking s q resume ih =>
      cases answered : env q e with
      | none => simp [caught, serve, answered]
      | some answer => simpa [caught, serve, answered] using ih answer.1 answer.2
  | _ => rfl

theorem serve_reaches {ε : Type} (env : (q : I.Request) → ε → Option (I.Answer q × ε))
    (c : Call I E F σ α) (e : ε) : ∃ h, c.Reaches h (c.serve env e).1 := by
  induction c generalizing e with
  | asking s q resume ih =>
      cases answered : env q e with
      | none => exact ⟨[], by simpa [serve, answered] using Reaches.here (asking s q resume)⟩
      | some answer =>
          obtain ⟨h, reached⟩ := ih answer.1 answer.2
          exact ⟨⟨q, answer.1⟩ :: h, by simpa [serve, answered] using Reaches.answer reached⟩
  | _ => exact ⟨[], .here _⟩

/-- A call that ends is over once everything it asks is answered. -/
theorem serve_finished {ε : Type} {env : (q : I.Request) → ε → Option (I.Answer q × ε)}
    {P : List (Event I) → α → σ → Prop} {T : List (Event I) → E → σ → Prop}
    {c : Call I E F σ α} (ends : c.wp (Ends P T)) (total : ∀ q e, (env q e).isSome) (e : ε) :
    (c.serve env e).1.outcome.Finished := by
  obtain ⟨h, reached⟩ := serve_reaches env c e
  have answered := serve_ne_asking total c e
  have here := ends.reaches reached
  cases outcome : (c.serve env e).1.outcome with
  | returned a => trivial
  | threw x => trivial
  | asking q => exact absurd outcome (answered q)
  | _ =>
      rw [outcome] at here
      exact here.elim

end Call

end Dialogue
