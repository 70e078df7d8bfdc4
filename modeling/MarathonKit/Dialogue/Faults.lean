import MarathonKit.Dialogue.Method

/-!
What may go wrong in a call.

`Call.OnlyFaults P` says that wherever the call goes wrong, after whatever answers,
it does so in a way that satisfies `P`. As for what a call asks (`Call.Asks`), there
is one rule for each way of putting calls together.
-/

namespace Dialogue

open Method

variable {I : Interface} {E F σ τ α β : Type} {P P' : F → Prop}

namespace Call

def OnlyFaults (P : F → Prop) (c : Call I E F σ α) : Prop :=
  c.wp fun _ o _ => ∀ x, o = .faulted x → P x

variable {s : σ} {c : Call I E F σ α}

theorem OnlyFaults.mono (only : c.OnlyFaults P) (weaker : ∀ x, P x → P' x) : c.OnlyFaults P' :=
  wp.mono only fun _ _ _ here x faulted => weaker x (here x faulted)

theorem onlyFaults_returned {a : α} : (returned s a : Call I E F σ α).OnlyFaults P := by
  rintro x ⟨⟩

theorem onlyFaults_threw {e : E} : (threw s e : Call I E F σ α).OnlyFaults P := by
  rintro x ⟨⟩

theorem onlyFaults_running : (running s : Call I E F σ α).OnlyFaults P := by
  rintro x ⟨⟩

theorem onlyFaults_faulted {x : F} : (faulted s x : Call I E F σ α).OnlyFaults P ↔ P x := by
  constructor
  · intro only
    exact only x rfl
  · rintro here x ⟨⟩
    exact here

theorem onlyFaults_asking {q : I.Request} {resume : I.Answer q → Call I E F σ α} :
    (asking s q resume).OnlyFaults P ↔ ∀ a, (resume a).OnlyFaults P := by
  constructor
  · rintro ⟨-, rest⟩
    exact rest
  · intro rest
    refine ⟨?_, rest⟩
    rintro x ⟨⟩

theorem OnlyFaults.andThen {f : σ → α → Call I E F σ β} (first : c.OnlyFaults P)
    (rest : ∀ s a, (f s a).OnlyFaults P) : (c.andThen f).OnlyFaults P := by
  refine wp_andThen.mpr (wp.mono first fun h o s here => ?_)
  cases o with
  | returned a => exact rest s a
  | faulted x =>
      rintro x' ⟨⟩
      exact here x rfl
  | _ => rintro x ⟨⟩

theorem OnlyFaults.within {embed : σ → τ} (only : c.OnlyFaults P) :
    (c.within embed).OnlyFaults P :=
  wp_within.mpr only

theorem OnlyFaults.caught (only : c.OnlyFaults P) : c.caught.OnlyFaults P := by
  refine wp_caught.mpr (wp.mono only fun h o s here => ?_)
  cases o with
  | faulted x =>
      rintro x' ⟨⟩
      exact here x rfl
  | _ => rintro x ⟨⟩

/-- With every request served by a program, the programs may go wrong, too. -/
theorem OnlyFaults.via {J : Interface} {impl : (q : I.Request) → Call J E F Unit (I.Answer q)}
    (only : c.OnlyFaults P) (serves : ∀ q, (impl q).OnlyFaults P) :
    (c.via impl).OnlyFaults P := by
  induction c with
  | returned s a => exact onlyFaults_returned
  | threw s e => exact onlyFaults_threw
  | faulted s x => exact onlyFaults_faulted.mpr (onlyFaults_faulted.mp only)
  | running s => exact onlyFaults_running
  | asking s q resume ih =>
      exact (serves q).within.andThen fun _ a => ih a (onlyFaults_asking.mp only a)

end Call

end Dialogue
