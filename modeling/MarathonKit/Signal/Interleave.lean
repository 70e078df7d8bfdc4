import Mathlib.Data.List.Basic

/-!
Interleaved signals.

A signal of several channels is stored row by row: the first value of every
channel, then the second value of every channel, and so on. `deinterleave` adds
one row after the other to the channels. Where a value comes to lie is told by
`getElem?_deinterleave` and `getElem?_flatten`, and that nothing is lost by
`interleave_deinterleave`.
-/

namespace Signal

variable {α : Type}

/-- A row more: a value behind each channel. -/
def extend : List (List α) → List α → List (List α)
  | channel :: channels, a :: row => (channel ++ [a]) :: extend channels row
  | channels, _ => channels

def deinterleave (count : Nat) (rows : List (List α)) : List (List α) :=
  rows.foldl extend (List.replicate count [])

/-- The first `length` rows of the channels, one after the other. -/
def interleave (length : Nat) (channels : List (List α)) : List α :=
  (List.range length).flatMap fun f => channels.filterMap fun channel => channel[f]?

/-- So many rows of `count` values, out of consecutive ones. -/
def row (count : Nat) (values : List α) (f : Nat) : List α := (values.drop (f * count)).take count

variable {channels rows : List (List α)} {values : List α} {a : α} {count c f : Nat}

@[simp] theorem extend_nil : extend channels [] = channels := by
  cases channels <;> rfl

@[simp] theorem length_extend (values : List α) :
    (extend channels values).length = channels.length := by
  induction channels generalizing values with
  | nil => rfl
  | cons channel channels ih =>
      cases values with
      | nil => rfl
      | cons a values => simp [extend, ih]

/-- A row is added value by value. -/
theorem extend_snoc (fits : values.length < channels.length) :
    extend channels (values ++ [a]) =
      (extend channels values).modify values.length fun channel => channel ++ [a] := by
  induction channels generalizing values with
  | nil => simp at fits
  | cons channel channels ih =>
      cases values with
      | nil => simp [extend]
      | cons b values => simp [extend, ih (Nat.lt_of_succ_lt_succ fits)]

theorem getElem?_extend (values : List α) (c : Nat) :
    (extend channels values)[c]? =
      channels[c]?.map fun channel => channel ++ values[c]?.toList := by
  induction channels generalizing values c with
  | nil => simp [extend]
  | cons channel channels ih =>
      cases values with
      | nil => simp
      | cons a values =>
          cases c with
          | zero => simp [extend]
          | succ c => simpa [extend] using ih values c

theorem getElem?_foldl_extend (rows : List (List α)) (c : Nat) :
    (rows.foldl extend channels)[c]? =
      channels[c]?.map fun channel => channel ++ rows.filterMap fun values => values[c]? := by
  induction rows generalizing channels with
  | nil => simp
  | cons values rows ih =>
      rw [List.foldl_cons, ih, getElem?_extend, Option.map_map]
      congr 1
      funext channel
      cases here : values[c]? <;> simp [here]

/-- The values of one channel, in the order of the rows. -/
def column (rows : List (List α)) (c : Nat) : List α := rows.filterMap fun values => values[c]?

theorem deinterleave_eq : deinterleave count rows = (List.range count).map (column rows) := by
  apply List.ext_getElem?
  intro c
  by_cases inside : c < count
  · simp [deinterleave, getElem?_foldl_extend, column, inside]
  · simp [deinterleave, getElem?_foldl_extend, inside]

@[simp] theorem length_deinterleave : (deinterleave count rows).length = count := by
  simp [deinterleave_eq]

theorem getElem?_deinterleave (inside : c < count) :
    (deinterleave count rows)[c]? = some (column rows c) := by
  simp [deinterleave_eq, inside]

/-! ### Rows of one length -/

theorem column_cons (rows : List (List α)) (inside : c < values.length) :
    ∃ a, values[c]? = some a ∧ column (values :: rows) c = a :: column rows c := by
  have found : values[c]? = some values[c] := List.getElem?_eq_getElem inside
  exact ⟨values[c], found, List.filterMap_cons_some found⟩

theorem length_column (inside : ∀ values ∈ rows, c < values.length) :
    (column rows c).length = rows.length := by
  induction rows with
  | nil => rfl
  | cons values rows ih =>
      obtain ⟨here, later⟩ := List.forall_mem_cons.mp inside
      obtain ⟨a, -, same⟩ := column_cons rows here
      simp [same, ih later]

theorem getElem?_column (inside : ∀ values ∈ rows, c < values.length) (f : Nat) :
    (column rows c)[f]? = rows[f]?.bind fun values => values[c]? := by
  induction rows generalizing f with
  | nil => rfl
  | cons values rows ih =>
      obtain ⟨here, later⟩ := List.forall_mem_cons.mp inside
      obtain ⟨a, found, same⟩ := column_cons rows here
      rw [same]
      cases f with
      | zero => simp [found]
      | succ f => simpa using ih later f

/-- Where the value of a row and a channel lies. -/
theorem getElem?_flatten (uniform : ∀ values ∈ rows, values.length = count) (inside : c < count)
    (f : Nat) : rows.flatten[f * count + c]? = rows[f]?.bind fun values => values[c]? := by
  induction rows generalizing f with
  | nil => simp
  | cons values rows ih =>
      obtain ⟨here, later⟩ := List.forall_mem_cons.mp uniform
      rw [List.flatten_cons]
      cases f with
      | zero => simp [List.getElem?_append_left (here ▸ inside : c < values.length)]
      | succ f =>
          have further : (f + 1) * count + c = values.length + (f * count + c) := by
            rw [here, Nat.succ_mul]
            omega
          rw [further, List.getElem?_append_right (Nat.le_add_right _ _), Nat.add_sub_cancel_left,
            ih later f]
          simp

theorem filterMap_range (values : List α) :
    (List.range values.length).filterMap (fun c => values[c]?) = values := by
  induction values with
  | nil => rfl
  | cons a values ih =>
      rw [List.length_cons, List.range_succ_eq_map, List.filterMap_cons, List.filterMap_map]
      simpa using ih

/-- Every row is found again across the channels. -/
theorem filterMap_deinterleave (uniform : ∀ values ∈ rows, values.length = count)
    (found : rows[f]? = some values) :
    (deinterleave count rows).filterMap (fun channel => channel[f]?) = values := by
  have length : values.length = count := uniform values (List.mem_of_getElem? found)
  have across : ∀ c ∈ List.range count, (column rows c)[f]? = values[c]? := by
    intro c mem
    have inside : ∀ values ∈ rows, c < values.length := fun values inRows =>
      uniform values inRows ▸ List.mem_range.mp mem
    rw [getElem?_column inside, found]
    rfl
  rw [deinterleave_eq, List.filterMap_map]
  calc (List.range count).filterMap (fun c => (column rows c)[f]?)
      = (List.range count).filterMap fun c => values[c]? := List.filterMap_congr across
    _ = values := by rw [← length, filterMap_range]

theorem interleave_deinterleave (uniform : ∀ values ∈ rows, values.length = count) :
    interleave rows.length (deinterleave count rows) = rows.flatten := by
  have row : ∀ f ∈ List.range rows.length, (deinterleave count rows).filterMap
      (fun channel => channel[f]?) = (rows[f]?).getD [] := by
    intro f mem
    have inside : f < rows.length := List.mem_range.mp mem
    have found : rows[f]? = some rows[f] := List.getElem?_eq_getElem inside
    rw [filterMap_deinterleave uniform found, found]
    rfl
  have all : (List.range rows.length).map (fun f => (rows[f]?).getD []) = rows := by
    apply List.ext_getElem?
    intro f
    by_cases inside : f < rows.length
    · simp [inside]
    · simp [inside]
  rw [interleave, List.flatMap_def, List.map_congr_left row, all]

theorem length_row (fits : (f + 1) * count ≤ values.length) :
    (row count values f).length = count := by
  rw [Nat.succ_mul] at fits
  simp only [row, List.length_take, List.length_drop]
  omega

theorem flatten_rows (length : Nat) :
    ((List.range length).map (row count values)).flatten = values.take (length * count) := by
  induction length with
  | zero => simp
  | succ length ih =>
      rw [List.range_succ, List.map_append, List.flatten_append, ih, Nat.succ_mul, List.take_add]
      simp [row]

/-- Rows that make up the first of some values are the first rows of them. -/
theorem eq_rows (uniform : ∀ values ∈ rows, values.length = count)
    (first : rows.flatten <+: values) :
    rows = (List.range rows.length).map (row count values) := by
  obtain ⟨rest, rfl⟩ := first
  induction rows with
  | nil => rfl
  | cons head rows ih =>
      obtain ⟨here, later⟩ := List.forall_mem_cons.mp uniform
      have next : ∀ f, row count ((head :: rows).flatten ++ rest) (f + 1) =
          row count (rows.flatten ++ rest) f := by
        intro f
        rw [row, row, Nat.succ_mul, Nat.add_comm, ← List.drop_drop, List.flatten_cons,
          List.append_assoc, List.drop_left' here]
      have top : row count ((head :: rows).flatten ++ rest) 0 = head := by
        rw [row, Nat.zero_mul, List.drop_zero, List.flatten_cons, List.append_assoc,
          List.take_left' here]
      rw [List.length_cons, List.range_succ_eq_map, List.map_cons, top, List.map_map]
      refine congrArg (head :: ·) ((ih later).trans ?_)
      exact List.map_congr_left fun f _ => (next f).symm

end Signal
