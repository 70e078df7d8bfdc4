import Mathlib.Data.List.Perm.Subperm

/-!
A network that carries messages one by one.

What it may do with a message on its way besides carrying it — let another one
overtake it, lose it, double it — is its service. For each service there is a
relation between the messages that have arrived or are on their way and those
that were sent (`Service.Holds`), which every move that the service allows keeps
(`Step.keeps`) and which says of those that have arrived what the service
promises (`Service.Delivers`).
-/

namespace Transit

variable {α : Type}

inductive Move where
  | carry | overtake | lose | double
deriving DecidableEq, Repr

/-- One move: what is on the way before and after it, the oldest first, and what
arrives. -/
inductive Step : Move → List α → List α → List α → Prop where
  | carry (m : α) (rest : List α) : Step .carry (m :: rest) rest [m]
  | overtake (before : List α) (m : α) (after : List α) :
      Step .overtake (before ++ m :: after) (before ++ after) [m]
  | lose (before : List α) (m : α) (after : List α) :
      Step .lose (before ++ m :: after) (before ++ after) []
  | double (before : List α) (m : α) (after : List α) :
      Step .double (before ++ m :: after) (before ++ m :: after ++ [m]) []

/-- What a network does to its messages at worst. -/
inductive Service where
  /-- nothing -/
  | exact
  /-- it loses some -/
  | ordered
  /-- it changes their order, too -/
  | once
  /-- it doubles some, too -/
  | any
deriving DecidableEq, Repr

namespace Service

def allows : Service → Move → Bool
  | exact, move => move = .carry
  | ordered, move => move = .carry ∨ move = .lose
  | once, move => move ≠ .double
  | any, _ => true

/-- The messages that have arrived or are on their way, against those sent. -/
def Holds : Service → List α → List α → Prop
  | exact, moved, sent => moved = sent
  | ordered, moved, sent => moved.Sublist sent
  | once, moved, sent => moved.Subperm sent
  | any, moved, sent => moved ⊆ sent

/-- The messages that have arrived, against those sent. -/
def Delivers : Service → List α → List α → Prop
  | exact, arrived, sent => arrived <+: sent
  | ordered, arrived, sent => arrived.Sublist sent
  | once, arrived, sent => arrived.Subperm sent
  | any, arrived, sent => arrived ⊆ sent

variable {service : Service} {moved moved' rest sent : List α}

theorem Holds.nil : service.Holds ([] : List α) [] := by
  cases service <;> simp [Holds]

/-- A message that is sent is on its way. -/
theorem Holds.send (held : service.Holds moved sent) (m : α) :
    service.Holds (moved ++ [m]) (sent ++ [m]) := by
  cases service with
  | exact => exact congrArg (· ++ [m]) held
  | ordered => exact held.append (List.Sublist.refl [m])
  | once => exact held.append (List.Subperm.refl [m])
  | any =>
      show moved ++ [m] ⊆ sent ++ [m]
      exact List.append_subset.mpr
        ⟨fun _ mem => List.mem_append_left _ (held mem), List.subset_append_right _ _⟩

theorem Holds.delivers (held : service.Holds (moved ++ rest) sent) :
    service.Delivers moved sent := by
  cases service with
  | exact => exact ⟨rest, held⟩
  | ordered => exact (List.sublist_append_left moved rest).trans held
  | once => exact (List.sublist_append_left moved rest).subperm.trans held
  | any => exact List.Subset.trans (List.subset_append_left moved rest) held

/-- Whatever the service, nothing arrives that was not sent. -/
theorem Delivers.subset (delivered : service.Delivers moved sent) : moved ⊆ sent := by
  cases service with
  | exact => exact List.IsPrefix.subset delivered
  | ordered => exact List.Sublist.subset delivered
  | once => exact List.Subperm.subset delivered
  | any => exact delivered

end Service

variable {service : Service} {move : Move} {way way' arrives arrived sent : List α}

/-- A move that the service allows keeps what the service is. -/
theorem Step.keeps (step : Step move way way' arrives) (allowed : service.allows move)
    (held : service.Holds (arrived ++ way) sent) :
    service.Holds (arrived ++ arrives ++ way') sent := by
  cases step with
  | carry m rest => simpa using held
  | overtake before m after =>
      have same : (arrived ++ [m] ++ (before ++ after)).Perm
          (arrived ++ (before ++ m :: after)) := by
        rw [List.append_assoc, List.singleton_append]
        exact List.perm_middle.symm.append_left arrived
      cases service with
      | exact => simp [Service.allows] at allowed
      | ordered => simp [Service.allows] at allowed
      | once => exact same.subperm.trans held
      | any => exact List.Subset.trans same.subset held
  | lose before m after =>
      have fewer : (arrived ++ [] ++ (before ++ after)).Sublist
          (arrived ++ (before ++ m :: after)) := by
        rw [List.append_nil]
        exact ((List.sublist_cons_self m after).append_left before).append_left arrived
      cases service with
      | exact => simp [Service.allows] at allowed
      | ordered => exact fewer.trans held
      | once => exact fewer.subperm.trans held
      | any => exact List.Subset.trans fewer.subset held
  | double before m after =>
      cases service with
      | any =>
          apply List.Subset.trans _ held
          intro a mem
          simp only [List.append_nil, List.mem_append, List.mem_cons, List.not_mem_nil,
            or_false] at mem ⊢
          tauto
      | _ => simp [Service.allows] at allowed

end Transit
