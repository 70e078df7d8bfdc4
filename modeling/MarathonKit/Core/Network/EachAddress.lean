import MarathonKit.Core.Network
import MarathonKit.Dialogue.Exits

/-!
`forEachAddressInfo` with any callback.

The callback is a method in its own right: it has a state, it may make requests,
and at each address it ends by a `LoopControl` or by an exception. `Visits` says
which addresses it comes to. `forEachAddressInfo_visits` is then the whole
history of a call: the resolver, the requests of the callback address by address,
and the list freed once, after all of them, whichever way the loop was left.
-/

namespace MarathonKit.Core.Network

open Dialogue Dialogue.Method

variable {E σ : Type} {texts : Texts} {runtimeError : String → E} {host service : String}
  {family : Family} {protocol : Protocol} {mode : Mode}
  {callback : AddrInfo → Method E σ LoopControl} {info : AddrInfo} {infos : List AddrInfo}
  {visited : List (AddrInfo × List (Event interface))} {h : List (Event interface)}
  {result : Except E Unit} {s s' : σ}

/-- The callback goes through the addresses in their order and stops at the first
one at which it does not return `CONTINUE`: the addresses it is applied to, each
with what it asked there, how the loop ends, and the state it leaves. -/
inductive Visits (callback : AddrInfo → Method E σ LoopControl) :
    List AddrInfo → σ → List (AddrInfo × List (Event interface)) → Except E Unit → σ → Prop where
  | none (s : σ) : Visits callback [] s [] (.ok ()) s
  | goesOn {info : AddrInfo} {infos : List AddrInfo} {s t s' : σ} {k : List (Event interface)}
      {visited : List (AddrInfo × List (Event interface))} {result : Except E Unit} :
      (callback info s).Exits k (.ok .continue) t → Visits callback infos t visited result s' →
      Visits callback (info :: infos) s ((info, k) :: visited) result s'
  | breaks {info : AddrInfo} {s s' : σ} {k : List (Event interface)} (infos : List AddrInfo) :
      (callback info s).Exits k (.ok .break) s' →
      Visits callback (info :: infos) s [(info, k)] (.ok ()) s'
  | throws {info : AddrInfo} {s s' : σ} {k : List (Event interface)} {e : E}
      (infos : List AddrInfo) : (callback info s).Exits k (.error e) s' →
      Visits callback (info :: infos) s [(info, k)] (.error e) s'

/-- No address is passed over, and none is come to twice. -/
theorem Visits.isPrefix (visits : Visits callback infos s visited result s') :
    visited.map Prod.fst <+: infos := by
  induction visits with
  | none => exact List.nil_prefix
  | goesOn _ _ ih => exact List.cons_prefix_cons.mpr ⟨rfl, ih⟩
  | breaks => exact List.cons_prefix_cons.mpr ⟨rfl, List.nil_prefix⟩
  | throws => exact List.cons_prefix_cons.mpr ⟨rfl, List.nil_prefix⟩

/-- One round of the loop, and what follows it. -/
theorem forEach_visit_cons : forEach (visit callback) (info :: infos) s =
    (callback info s).andThen fun s loopControl =>
      match loopControl with
      | .continue => forEach (visit callback) infos s
      | .break => .returned s () := by
  rw [forEach, bind_apply, visit, bind_apply, Call.andThen_assoc]
  congr 1
  funext s loopControl
  cases loopControl <;> rfl

/-- The loop ends as the visits do; what is asked in it is what the callback
asks. -/
theorem forEach_visit_exits : (forEach (visit callback) infos s).Exits h result s' ↔
    ∃ visited, Visits callback infos s visited result s' ∧ h = visited.flatMap Prod.snd := by
  induction infos generalizing s h with
  | nil =>
      rw [forEach, pure_apply, Call.exits_returned]
      constructor
      · rintro ⟨rfl, rfl, rfl⟩
        exact ⟨[], .none s', rfl⟩
      · rintro ⟨visited, visits, rfl⟩
        cases visits
        exact ⟨rfl, rfl, rfl⟩
  | cons info infos ih =>
      rw [forEach_visit_cons, Call.exits_andThen]
      constructor
      · rintro (⟨e, rfl, threw⟩ | ⟨loopControl, t, k, k', rfl, ended, rest⟩)
        · exact ⟨[(info, h)], .throws infos threw, by simp⟩
        · cases loopControl with
          | «continue» =>
              obtain ⟨visited, visits, rfl⟩ := ih.mp rest
              exact ⟨(info, k) :: visited, .goesOn ended visits, rfl⟩
          | «break» =>
              obtain ⟨rfl, rfl, rfl⟩ := Call.exits_returned.mp rest
              exact ⟨[(info, k)], .breaks infos ended, by simp⟩
      · rintro ⟨visited, visits, rfl⟩
        cases visits with
        | goesOn ended visits =>
            exact .inr ⟨_, _, _, _, List.flatMap_cons, ended, ih.mpr ⟨_, visits, rfl⟩⟩
        | breaks _ ended =>
            exact .inr ⟨_, _, _, [], by simp, ended, Call.exits_returned.mpr ⟨rfl, rfl, rfl⟩⟩
        | throws _ threw => exact .inl ⟨_, rfl, by simpa using threw⟩

/-! ### The whole call -/

/-- The call to the resolver, with its answer. -/
def lookedUp (host service : String) (family : Family) (protocol : Protocol) (mode : Mode)
    (answer : Except Int (List AddrInfo)) : Event interface :=
  ⟨.getaddrinfo (if host = "" then none else some host) service (hints family protocol mode),
    answer⟩

theorem forEachAddressInfo_exits :
    (forEachAddressInfo texts runtimeError host service family protocol mode callback s).Exits h
        result s' ↔
      (∃ rc, h = [lookedUp host service family protocol mode (.error rc)] ∧
        result = .error (runtimeError (texts.gaiStrerror rc)) ∧ s' = s) ∨
      ∃ infos visited, Visits callback infos s visited result s' ∧
        h = lookedUp host service family protocol mode (.ok infos) ::
          (visited.flatMap Prod.snd ++ [⟨.freeaddrinfo infos, ()⟩]) := by
  rw [forEachAddressInfo_apply, Call.exits_asking]
  constructor
  · rintro ⟨rc | infos, k, rfl, rest⟩
    · obtain ⟨rfl, rfl, rfl⟩ := Call.exits_threw.mp rest
      exact .inl ⟨rc, rfl, rfl, rfl⟩
    · refine .inr ⟨infos, ?_⟩
      simp only [Call.exits_andThen, Call.exits_caught] at rest
      rcases rest with ⟨e, -, inner, impossible, -⟩ | ⟨inner, t, k, k', rfl, caught, rest⟩
      · cases impossible
      obtain ⟨_, ⟨⟩, looped⟩ := caught
      obtain ⟨visited, visits, rfl⟩ := forEach_visit_exits.mp looped
      obtain ⟨_, k, rfl, freed⟩ := Call.exits_asking.mp rest
      obtain ⟨rfl, rfl, rfl⟩ := Call.exits_orThrow.mp freed
      exact ⟨visited, visits, rfl⟩
  · rintro (⟨rc, rfl, rfl, rfl⟩ | ⟨infos, visited, visits, rfl⟩)
    · exact ⟨.error rc, [], rfl, Call.exits_threw.mpr ⟨rfl, rfl, rfl⟩⟩
    · refine ⟨.ok infos, _, rfl, Call.exits_andThen.mpr (.inr ?_)⟩
      have looped := Call.exits_caught.mpr
        ⟨result, rfl, forEach_visit_exits.mpr ⟨visited, visits, rfl⟩⟩
      refine ⟨result, s', _, _, rfl, looped, Call.exits_asking.mpr ?_⟩
      exact ⟨(), [], rfl, Call.exits_orThrow.mpr ⟨rfl, rfl, rfl⟩⟩

/-- The callback ends at every address, whatever it is answered. -/
def AlwaysEnds (callback : AddrInfo → Method E σ LoopControl) : Prop :=
  ∀ info s, (callback info s).wp (Call.Ends (fun _ _ _ => True) fun _ _ _ => True)

theorem forEach_visit_ends (ends : AlwaysEnds callback) (infos : List AddrInfo) (s : σ) :
    (forEach (visit callback) infos s).wp (Call.Ends (fun _ _ _ => True) fun _ _ _ => True) := by
  induction infos generalizing s with
  | nil => trivial
  | cons info infos ih =>
      rw [forEach_visit_cons]
      refine Call.wp_andThen_ends (ends info s) (fun _ _ _ => id) ?_
      intro h loopControl t _
      cases loopControl with
      | «continue» => exact ih t
      | «break» => trivial

theorem forEachAddressInfo_ends (ends : AlwaysEnds callback) :
    (forEachAddressInfo texts runtimeError host service family protocol mode callback s).wp
      (Call.Ends (fun _ _ _ => True) fun _ _ _ => True) := by
  rw [forEachAddressInfo_apply]
  refine ⟨trivial, ?_⟩
  rintro (rc | infos)
  · trivial
  · have looped := Call.wp_caught_ends (forEach_visit_ends ends infos s)
    refine Call.wp_andThen_ends looped (fun _ _ _ _ => trivial) ?_
    intro h inner t _
    refine ⟨trivial, fun _ => ?_⟩
    cases inner <;> trivial

/-- `forEachAddressInfo` with any callback. If the list cannot be had, nothing
else is asked. Otherwise the callback visits the addresses in their order up to
the first one where it does not go on, the list is freed once behind that, and
the function ends as the loop does; and it does end if the callback always does. -/
theorem forEachAddressInfo_visits (texts : Texts) (runtimeError : String → E)
    (host service : String) (family : Family) (protocol : Protocol) (mode : Mode)
    (callback : AddrInfo → Method E σ LoopControl) (s : σ) :
    (∀ h result s',
      (forEachAddressInfo texts runtimeError host service family protocol mode callback s).Exits h
          result s' ↔
        (∃ rc, h = [lookedUp host service family protocol mode (.error rc)] ∧
          result = .error (runtimeError (texts.gaiStrerror rc)) ∧ s' = s) ∨
        ∃ infos visited, Visits callback infos s visited result s' ∧
          h = lookedUp host service family protocol mode (.ok infos) ::
            (visited.flatMap Prod.snd ++ [⟨.freeaddrinfo infos, ()⟩])) ∧
    (∀ infos visited result s', Visits callback infos s visited result s' →
      visited.map Prod.fst <+: infos) ∧
    (AlwaysEnds callback → ∀ (ε : Type) (env : (q : Request) → ε → Option (Answer q × ε)),
      (∀ q e, (env q e).isSome) → ∀ e, ∃ h result s',
        (forEachAddressInfo texts runtimeError host service family protocol mode callback s).Exits
          h result s' ∧
        ((forEachAddressInfo texts runtimeError host service family protocol mode callback
          s).serve env e).1 = orThrow result s') := by
  refine ⟨fun _ _ _ => forEachAddressInfo_exits, fun _ _ _ _ => Visits.isPrefix, ?_⟩
  intro ends ε env total e
  exact Call.serve_exits (forEachAddressInfo_ends ends) total e

/-- A callback that counts its calls and breaks at the second. -/
def twice (_ : AddrInfo) : Method Exn Nat LoopControl := do
  update fun calls => calls + 1
  return if (← this) = 2 then .break else .continue

def loopback : AddrInfo := ⟨0, 2, 1, 6, [127, 0, 0, 1]⟩

theorem forEachAddressInfo_visits_twice :
    (forEachAddressInfo ⟨fun _ => "", fun _ => ""⟩ .runtimeError "a" "9" .any .tcp .active
      twice 0).Exits [lookedUp "a" "9" .any .tcp .active (.ok [loopback, loopback, loopback]),
        ⟨.freeaddrinfo [loopback, loopback, loopback], ()⟩] (.ok ()) 2 := by
  obtain ⟨exits, -, -⟩ := forEachAddressInfo_visits ⟨fun _ => "", fun _ => ""⟩ .runtimeError
    "a" "9" .any .tcp .active twice 0
  refine (exits _ _ _).mpr (.inr ⟨_, [(loopback, []), (loopback, [])], ?_, rfl⟩)
  exact .goesOn (.here _) (.breaks _ (.here _))

end MarathonKit.Core.Network
