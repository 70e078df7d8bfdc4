import MarathonKit.Dialogue.Exits
import MarathonKit.Sound.SoundTrack.Load

/-!
Every way out of `SoundTrack::loadFromFile`.

Whatever is in the header, and whatever libsndfile answers: `Loads` lists how the
function can end, with all it has asked for on the way. A file that was opened is
closed once, after the last read, on each of them. `loadFromFile_waysOut` says that
there are no others, and that the function does not get stuck before it has come to
one.
-/

namespace MarathonKit.Sound

open Dialogue Dialogue.Method Signal

variable {α σ : Type}

/-- The rounds of a `for` loop from `i` on, until it is over. A counter at
`INT_MAX` cannot be incremented. -/
inductive Rounds (limit : Int) (body : Int → Method α σ Unit) :
    Int → σ → List (Event (interface α)) → Except Exn Unit → σ → Prop where
  | done {i : Int} {s : σ} : limit ≤ i → Rounds limit body i s [] (.ok ()) s
  | round {i : Int} {s t s' : σ} {k h : List (Event (interface α))} {result : Except Exn Unit} :
      i < limit → (body i s).Exits k (.ok ()) t → i < intMax →
      Rounds limit body (i + 1) t h result s' → Rounds limit body i s (k ++ h) result s'
  | threw {i : Int} {s s' : σ} {h : List (Event (interface α))} {e : Exn} :
      i < limit → (body i s).Exits h (.error e) s' → Rounds limit body i s h (.error e) s'

section Loop

variable {limit i : Int} {body : Int → Method α σ Unit} {s s' : σ} {h : List (Event (interface α))}
  {result : Except Exn Unit}

theorem rounds_of_le (past : limit ≤ i) :
    Rounds limit body i s h result s' ↔ h = [] ∧ result = .ok () ∧ s' = s := by
  constructor
  · rintro (_ | ⟨more, -⟩ | ⟨more, -⟩)
    · exact ⟨rfl, rfl, rfl⟩
    · exact absurd more (Int.not_lt.mpr past)
    · exact absurd more (Int.not_lt.mpr past)
  · rintro ⟨rfl, rfl, rfl⟩
    exact .done past

theorem rounds_of_lt (more : i < limit) : Rounds limit body i s h result s' ↔
    (∃ e, result = .error e ∧ (body i s).Exits h (.error e) s') ∨
    ∃ t k k', h = k ++ k' ∧ (body i s).Exits k (.ok ()) t ∧ i < intMax ∧
      Rounds limit body (i + 1) t k' result s' := by
  constructor
  · rintro (past | ⟨-, ran, less, rest⟩ | ⟨-, threw⟩)
    · exact absurd more (Int.not_lt.mpr past)
    · exact .inr ⟨_, _, _, rfl, ran, less, rest⟩
    · exact .inl ⟨_, rfl, threw⟩
  · rintro (⟨e, rfl, threw⟩ | ⟨t, k, k', rfl, ran, less, rest⟩)
    · exact .threw more threw
    · exact .round more ran less rest

theorem exits_countLoop {bound : Nat} (enough : limit - i ≤ bound) :
    (countLoop increment limit body (bound + 1) i s).Exits h result s' ↔
      Rounds limit body i s h result s' := by
  induction bound generalizing i s h with
  | zero =>
      have past : limit ≤ i := by omega
      rw [countLoop_succ, if_neg (Int.not_lt.mpr past), Call.exits_returned, rounds_of_le past]
  | succ bound ih =>
      rw [countLoop_succ]
      by_cases more : i < limit
      · rw [if_pos more, Call.exits_andThen, rounds_of_lt more]
        apply or_congr Iff.rfl
        have next : ∀ t k', ((increment i t).andThen fun t i =>
            countLoop increment limit body (bound + 1) i t).Exits k' result s' ↔
              i < intMax ∧ Rounds limit body (i + 1) t k' result s' := by
          intro t k'
          by_cases less : i < intMax
          · rw [increment_apply less, Call.andThen_returned, ih (by omega)]
            exact (and_iff_right less).symm
          · simp [increment, less]
        simp only [next]
        constructor
        · rintro ⟨⟨⟩, t, k, k', rfl, ran, less, rest⟩
          exact ⟨t, k, k', rfl, ran, less, rest⟩
        · rintro ⟨t, k, k', rfl, ran, less, rest⟩
          exact ⟨(), t, k, k', rfl, ran, less, rest⟩
      · have past : limit ≤ i := Int.not_lt.mp more
        rw [if_neg more, Call.exits_returned, rounds_of_le past]

theorem exits_forUpTo : (forUpTo limit body s).Exits h result s' ↔
    Rounds limit body 0 s h result s' :=
  exits_countLoop (by omega)

/-- The call comes to an end, or waits for an answer, or a counter overflows that
is to count so far. -/
def Ends {β : Type} (limit : Int) (o : Outcome (interface α) Exn Fault β) : Prop :=
  o ≠ .running ∧ ∀ x, o = .faulted x → x = .intOverflow ∧ intMax < limit

/-- A loop ends if its body does. -/
theorem ends_forUpTo (good : σ → Prop) (start : good s) (ends : ∀ i s, good s →
      (body i s).wp fun _ o s' => (∀ v, o = .returned v → good s') ∧ Ends limit o) :
    (forUpTo limit body s).wp fun _ o _ => Ends limit o := by
  suffices general : ∀ (bound : Nat) (i : Int) (s : σ), good s → i ≤ intMax → limit - i ≤ bound →
      (countLoop increment limit body (bound + 1) i s).wp fun _ o _ => Ends limit o from
    general _ 0 s start (by decide) (by omega)
  intro bound
  induction bound with
  | zero =>
      intro i s _ _ enough
      rw [countLoop_succ, if_neg (by omega)]
      exact ⟨by simp, by simp⟩
  | succ bound ih =>
      intro i s before small enough
      rw [countLoop_succ]
      by_cases more : i < limit
      · rw [if_pos more]
        refine Call.wp_andThen.mpr ((ends i s before).mono ?_)
        rintro h (v | e | x | _ | q) s' ⟨after, ends⟩
        case returned =>
          by_cases less : i < intMax
          · rw [Call.passOn, increment_apply less, Call.andThen_returned]
            exact ih (i + 1) s' (after v rfl) (by omega) (by omega)
          · have top : intMax < limit := by omega
            simpa [Call.passOn, increment, less, Ends] using top
        case faulted => exact ⟨by simp, by simpa using ends.2⟩
        case running => exact absurd rfl ends.1
        all_goals exact ⟨by simp, by simp⟩
      · rw [if_neg more]
        exact ⟨by simp, by simp⟩

end Loop

/-- A call that comes to an end without an answer asks nothing. -/
theorem eq_of_serve {c c' : Call (interface α) Exn Fault σ Unit}
    (served : c.serve (fun _ (_ : Unit) => none) () = (c', ())) : c = c' := by
  have stays : c.serve (fun _ (_ : Unit) => none) () = (c, ()) := by cases c <;> rfl
  exact congrArg Prod.fst (stays.symm.trans served)

namespace SoundTrack

open SoundFile

/-- A read, and what it has stored. -/
def readFrame (info : SfInfo) (items : List α) : Event (interface α) :=
  ⟨.sfReadDouble info.channels.toInt, items⟩

/-- The loop over the frames, from the frame `i` on: all frames that are still to
come are whole, or the first one that is not ends it. -/
inductive Frames (info : SfInfo) (count : Nat) (limit i : Int) (channels : List (List α)) :
    List (Event (interface α)) → Except Exn Unit → List (List α) → Prop where
  | all (rows : List (List α)) : (∀ row ∈ rows, row.length = count) →
      i + rows.length = max i limit → i + rows.length ≤ intMax →
      Frames info count limit i channels (rows.map (readFrame info)) (.ok ())
        (rows.foldl extend channels)
  | short (rows : List (List α)) (items : List α) : (∀ row ∈ rows, row.length = count) →
      items.length ≠ count → i + rows.length < limit → i + rows.length ≤ intMax →
      Frames info count limit i channels (rows.map (readFrame info) ++ [readFrame info items])
        (.error (.runtimeError "")) (rows.foldl extend channels)

variable {info : SfInfo} {count : Nat} {channels channels' : List (List α)}
  {h : List (Event (interface α))} {limit i : Int}

section Frames

variable {result : Except Exn Unit}

/-- The frames before it are whole. -/
theorem Frames.cons {items : List α} (more : i < limit) (whole : items.length = count)
    (rest : Frames info count limit (i + 1) (extend channels items) h result channels') :
    Frames info count limit i channels (readFrame info items :: h) result channels' := by
  cases rest with
  | all rows uniform last small =>
      apply Frames.all (items :: rows) (List.forall_mem_cons.mpr ⟨whole, uniform⟩)
      · rw [List.length_cons]
        omega
      · rw [List.length_cons]
        omega
  | short rows items' uniform isShort before small =>
      apply Frames.short (items :: rows) items' (List.forall_mem_cons.mpr ⟨whole, uniform⟩) isShort
      · rw [List.length_cons]
        omega
      · rw [List.length_cons]
        omega

variable [Zero α]

theorem loadFrame_apply (channelCount : info.channels.toInt = count)
    (fits : channels.length = count) :
    (loadFrame (opened info) channels : Call (interface α) Exn Fault (List (List α)) Unit) =
      .asking channels (.sfReadDouble info.channels.toInt) fun items =>
        if items.length = count then .returned (extend channels items) ()
        else .threw channels (.runtimeError "") := by
  have countIs : (opened info).getChannelCount = count := channelCount
  have small : (count : Int) ≤ intMax := channelCount ▸ info.channels.toInt_le
  rw [loadFrame, bind_apply, getNextFrame_apply countIs, Call.andThen_asking]
  show Call.asking (I := interface α) channels (Request.sfReadDouble info.channels.toInt) _ = _
  congr 1
  funext items
  by_cases whole : items.length = count
  · rw [if_pos whole, if_pos whole, Call.andThen_returned, countIs]
    exact eq_of_serve (loadSamples_serve whole fits small ())
  · rw [if_neg whole, if_neg whole, Call.andThen_threw]

theorem loadFrame_exits (channelCount : info.channels.toInt = count)
    (fits : channels.length = count) :
    (loadFrame (opened info) channels).Exits h result channels' ↔
      ∃ items, h = [readFrame info items] ∧
        ((items.length = count ∧ result = .ok () ∧ channels' = extend channels items) ∨
          (items.length ≠ count ∧ result = .error (.runtimeError "") ∧ channels' = channels)) := by
  rw [loadFrame_apply channelCount fits, Call.exits_asking]
  constructor
  · rintro ⟨items, k, rfl, exits⟩
    refine ⟨items, ?_⟩
    by_cases whole : items.length = count
    · rw [if_pos whole] at exits
      obtain ⟨rfl, rest⟩ := Call.exits_returned.mp exits
      exact ⟨rfl, .inl ⟨whole, rest⟩⟩
    · rw [if_neg whole] at exits
      obtain ⟨rfl, rest⟩ := Call.exits_threw.mp exits
      exact ⟨rfl, .inr ⟨whole, rest⟩⟩
  · rintro ⟨items, rfl, ⟨whole, rest⟩ | ⟨short, rest⟩⟩
    · exact ⟨items, [], rfl, by rw [if_pos whole]; exact Call.exits_returned.mpr ⟨rfl, rest⟩⟩
    · exact ⟨items, [], rfl, by rw [if_neg short]; exact Call.exits_threw.mpr ⟨rfl, rest⟩⟩

theorem frames_of_rounds (channelCount : info.channels.toInt = count)
    (rounds : Rounds limit (fun _ => loadFrame (opened info)) i channels h result channels')
    (fits : channels.length = count) (start : i ≤ intMax) :
    Frames info count limit i channels h result channels' := by
  induction rounds with
  | @done i channels past =>
      apply Frames.all []
      · simp
      · rw [List.length_nil]
        omega
      · rw [List.length_nil]
        omega
  | @round i channels between channels' k h result more ran less _ ih =>
      obtain ⟨items, rfl, ⟨whole, -, rfl⟩ | ⟨-, impossible, -⟩⟩ :=
        (loadFrame_exits channelCount fits).mp ran
      · exact .cons more whole (ih (by rw [length_extend, fits]) less)
      · cases impossible
  | @threw i channels channels' h e more threw =>
      obtain ⟨items, rfl, ⟨-, impossible, -⟩ | ⟨short, same, rfl⟩⟩ :=
        (loadFrame_exits channelCount fits).mp threw
      · cases impossible
      · obtain rfl := Except.error.inj same
        exact .short [] items (by simp) short (by simpa using more) (by simpa using start)

theorem rounds_of_frames (channelCount : info.channels.toInt = count)
    (frames : Frames info count limit i channels h result channels')
    (fits : channels.length = count) :
    Rounds limit (fun _ => loadFrame (opened info)) i channels h result channels' := by
  cases frames with
  | all rows uniform last small =>
      induction rows generalizing i channels with
      | nil =>
          rw [List.length_nil] at last
          exact .done (by omega)
      | cons items rows ih =>
          obtain ⟨whole, uniform⟩ := List.forall_mem_cons.mp uniform
          rw [List.length_cons] at last small
          refine .round (k := [readFrame info items]) (by omega)
            ((loadFrame_exits channelCount fits).mpr ⟨items, rfl, .inl ⟨whole, rfl, rfl⟩⟩)
            (by omega) (ih (by rw [length_extend, fits]) uniform ?_ ?_)
          · omega
          · omega
  | short rows items uniform short before small =>
      induction rows generalizing i channels with
      | nil =>
          rw [List.length_nil] at before
          exact .threw (by omega)
            ((loadFrame_exits channelCount fits).mpr ⟨items, rfl, .inr ⟨short, rfl, rfl⟩⟩)
      | cons items' rows ih =>
          obtain ⟨whole, uniform⟩ := List.forall_mem_cons.mp uniform
          rw [List.length_cons] at before small
          refine .round (k := [readFrame info items']) (by omega)
            ((loadFrame_exits channelCount fits).mpr ⟨items', rfl, .inl ⟨whole, rfl, rfl⟩⟩)
            (by omega) (ih (by rw [length_extend, fits]) uniform ?_ ?_)
          · omega
          · omega

end Frames

/-! ### The tracks -/

/-- The channels that are loaded; none, if the header says less. -/
def channelCount (info : SfInfo) : Nat := info.channels.toInt.toNat

/-- The constructor of a track throws if the rate is negative. -/
def tracksFrom (info : SfInfo) (rows : List (List α)) : Except Exn (List (SoundTrack α)) :=
  if nonneg : 0 ≤ info.samplerate.toInt then
    .ok (tracksOf (deinterleave (channelCount info) rows) info.samplerate.toInt nonneg)
  else if channelCount info = 0 then .ok []
  else .error (.runtimeError "Sample rate cannot be negative")

theorem mapM_make_eq (rows : List (List α)) :
    ((deinterleave (channelCount info) rows).mapM fun samples =>
      make samples info.samplerate.toInt) = tracksFrom info rows := by
  unfold tracksFrom
  split
  case isTrue nonneg => exact mapM_make nonneg _
  case isFalse negative =>
      have length : (deinterleave (channelCount info) rows).length = channelCount info :=
        length_deinterleave
      cases same : deinterleave (channelCount info) rows with
      | nil =>
          rw [same, List.length_nil] at length
          rw [if_pos length.symm]
          rfl
      | cons samples channels =>
          rw [same, List.length_cons] at length
          have threw : make samples info.samplerate.toInt =
              .error (.runtimeError "Sample rate cannot be negative") :=
            dif_neg negative
          rw [if_neg (by omega), List.mapM_cons, threw]
          rfl

/-- How `load` ends. With fewer than no channels, `getNextFrame` throws before it
reads. -/
inductive LoadsFrom (info : SfInfo) :
    List (Event (interface α)) → Except Exn (List (SoundTrack α)) → Prop where
  | negative : info.channels.toInt < 0 → 0 < info.frames.toInt →
      LoadsFrom info [] (.error .lengthError)
  | all (rows : List (List α)) : rows = [] ∨ 0 ≤ info.channels.toInt →
      (∀ row ∈ rows, row.length = channelCount info) →
      rows.length = max 0 info.frames.toInt → rows.length ≤ intMax →
      LoadsFrom info (rows.map (readFrame info)) (tracksFrom info rows)
  | short (rows : List (List α)) (items : List α) : 0 ≤ info.channels.toInt →
      (∀ row ∈ rows, row.length = channelCount info) → items.length ≠ channelCount info →
      rows.length < info.frames.toInt → rows.length ≤ intMax →
      LoadsFrom info (rows.map (readFrame info) ++ [readFrame info items])
        (.error (.runtimeError ""))

section Load

variable {result : Except Exn (List (SoundTrack α))}

theorem openChannels_apply :
    (forUpTo (opened info).getChannelCount (fun _ => update fun channels => channels ++ [[]]) [] :
      Call (interface α) Exn Fault (List (List α)) Unit) =
        .returned (List.replicate (channelCount info) []) () := by
  have countIs : (opened info).getChannelCount = info.channels.toInt := rfl
  rw [countIs]
  by_cases nonneg : 0 ≤ info.channels.toInt
  · have same : (channelCount info : Int) = info.channels.toInt := Int.toNat_of_nonneg nonneg
    have small : (channelCount info : Int) ≤ intMax := same ▸ info.channels.toInt_le
    rw [← same]
    exact eq_of_serve (openChannels_serve small ())
  · have none : channelCount info = 0 := Int.toNat_of_nonpos (by omega)
    rw [none, forUpTo, countLoop_succ, if_neg (by omega)]
    rfl

variable [Zero α]

theorem load_apply : (load (opened info) [] : Call (interface α) Exn Fault _ _) =
    (forUpTo info.frames.toInt (fun _ => loadFrame (opened info))
      (List.replicate (channelCount info) [])).andThen fun channels _ =>
        orThrow (channels.mapM fun samples => make samples info.samplerate.toInt) channels := by
  rw [load, bind_apply, openChannels_apply, Call.andThen_returned]
  rfl

/-- The loop over the frames, if there are fewer than no channels. -/
theorem rounds_negative (negative : info.channels.toInt < 0) {result : Except Exn Unit} :
    Rounds limit (fun _ => loadFrame (opened info)) i channels h result channels' ↔
      h = [] ∧ channels' = channels ∧
        result = if i < limit then .error .lengthError else .ok () := by
  have throws : (loadFrame (opened info) channels : Call (interface α) Exn Fault _ _) =
      .threw channels .lengthError := by
    have isNegative : (opened info).getChannelCount < 0 := negative
    simp [loadFrame, getNextFrame, isNegative]
  by_cases more : i < limit
  · rw [rounds_of_lt more, throws, if_pos more]
    constructor
    · rintro (⟨e, rfl, threw⟩ | ⟨t, k, k', rfl, ran, -⟩)
      · obtain ⟨rfl, same, rfl⟩ := Call.exits_threw.mp threw
        exact ⟨rfl, rfl, same⟩
      · simp at ran
    · rintro ⟨rfl, rfl, rfl⟩
      exact .inl ⟨_, rfl, Call.exits_threw.mpr ⟨rfl, rfl, rfl⟩⟩
  · rw [rounds_of_le (Int.not_lt.mp more), if_neg more]
    exact and_congr Iff.rfl and_comm

/-- The function ends as the loop over the frames does, and with the tracks of
the channels if that returns. -/
theorem exits_load : (∃ channels, (load (opened info) []).Exits h result channels) ↔
    ∃ outcome channels, Rounds info.frames.toInt (fun _ => loadFrame (opened info)) 0
      (List.replicate (channelCount info) []) h outcome channels ∧
        result = outcome.bind fun _ =>
          channels.mapM fun samples => make samples info.samplerate.toInt := by
  simp only [load_apply, Call.exits_andThen, exits_forUpTo, Call.exits_orThrow]
  constructor
  · rintro ⟨channels, ⟨e, rfl, threw⟩ | ⟨⟨⟩, t, k, k', rfl, ran, rfl, rfl, -⟩⟩
    · exact ⟨.error e, channels, threw, rfl⟩
    · exact ⟨.ok (), t, by rwa [List.append_nil], rfl⟩
  · rintro ⟨e | ⟨⟩, channels, rounds, rfl⟩
    · exact ⟨channels, .inl ⟨e, rfl, rounds⟩⟩
    · exact ⟨channels, .inr ⟨(), channels, h, [], by simp, rounds, rfl, rfl, rfl⟩⟩

theorem load_exits : (∃ channels, (load (opened info) []).Exits h result channels) ↔
    LoadsFrom info h result := by
  rw [exits_load]
  have length : (List.replicate (channelCount info) ([] : List α)).length = channelCount info :=
    List.length_replicate
  constructor
  · rintro ⟨outcome, channels, rounds, rfl⟩
    by_cases nonneg : 0 ≤ info.channels.toInt
    · have same : info.channels.toInt = channelCount info := (Int.toNat_of_nonneg nonneg).symm
      cases frames_of_rounds same rounds length (by decide) with
      | all rows uniform last small =>
          rw [Int.zero_add] at last small
          have tracks := LoadsFrom.all rows (.inr nonneg) uniform last small
          rwa [← mapM_make_eq] at tracks
      | short rows items uniform isShort before small =>
          rw [Int.zero_add] at before small
          exact .short rows items nonneg uniform isShort before small
    · obtain ⟨rfl, rfl, rfl⟩ := (rounds_negative (Int.not_le.mp nonneg)).mp rounds
      by_cases more : 0 < info.frames.toInt
      · rw [if_pos more]
        exact .negative (Int.not_le.mp nonneg) more
      · rw [if_neg more]
        have none : (([] : List (List α)).length : Int) = max 0 info.frames.toInt := by
          rw [List.length_nil]
          omega
        have tracks := LoadsFrom.all [] (.inl rfl) (by simp) none (by simp [intMax])
        rwa [← mapM_make_eq] at tracks
  · rintro (⟨negative, more⟩ | ⟨rows, some, uniform, last, small⟩ |
      ⟨rows, items, nonneg, uniform, isShort, before, small⟩)
    · exact ⟨.error .lengthError, _,
        (rounds_negative negative).mpr ⟨rfl, rfl, by rw [if_pos more]⟩, rfl⟩
    · refine ⟨.ok (), deinterleave (channelCount info) rows, ?_, (mapM_make_eq rows).symm⟩
      by_cases nonneg : 0 ≤ info.channels.toInt
      · have same : info.channels.toInt = channelCount info := (Int.toNat_of_nonneg nonneg).symm
        exact rounds_of_frames same (.all rows uniform (by rwa [Int.zero_add])
          (by rwa [Int.zero_add])) length
      · obtain rfl := some.resolve_right nonneg
        refine (rounds_negative (Int.not_le.mp nonneg)).mpr ⟨rfl, rfl, ?_⟩
        rw [List.length_nil] at last
        rw [if_neg (by omega)]
    · have same : info.channels.toInt = channelCount info := (Int.toNat_of_nonneg nonneg).symm
      exact ⟨_, _, rounds_of_frames same (.short rows items uniform isShort
        (by rwa [Int.zero_add]) (by rwa [Int.zero_add])) length, rfl⟩

end Load

/-! ### The whole function -/

/-- How `loadFromFile` ends. A file that could be opened is closed at the end. -/
inductive Loads (fileName : String) :
    List (Event (interface α)) → Except Exn (List (SoundTrack α)) → Prop where
  | unopened (text : String) :
      Loads fileName [⟨.sfOpen fileName, .error text⟩] (.error (.runtimeError text))
  | opened {info : SfInfo} {h : List (Event (interface α))}
      {result : Except Exn (List (SoundTrack α))} : LoadsFrom info h result →
      Loads fileName (⟨.sfOpen fileName, .ok info⟩ :: (h ++ [⟨.sfClose, ()⟩])) result

section Whole

variable [Zero α]

theorem ends_loadFrame (fits : channels.length = channelCount info) :
    (loadFrame (opened info) channels : Call (interface α) Exn Fault _ _).wp fun _ o channels' =>
      (∀ v, o = .returned v → channels'.length = channelCount info) ∧
        Ends info.frames.toInt o := by
  by_cases nonneg : 0 ≤ info.channels.toInt
  · have same : info.channels.toInt = channelCount info := (Int.toNat_of_nonneg nonneg).symm
    rw [loadFrame_apply same fits, Call.wp_asking]
    refine ⟨⟨by simp, by simp [Ends]⟩, fun items => ?_⟩
    by_cases whole : items.length = channelCount info
    · rw [if_pos whole]
      exact ⟨fun _ _ => by rw [length_extend, fits], by simp [Ends]⟩
    · rw [if_neg whole]
      exact ⟨by simp, by simp [Ends]⟩
  · have isNegative : (opened info).getChannelCount < 0 := Int.not_le.mp nonneg
    simp [loadFrame, getNextFrame, isNegative, Ends]

theorem ends_load : (load (opened info) [] : Call (interface α) Exn Fault _ _).wp fun _ o _ =>
    Ends info.frames.toInt o := by
  have frames : (forUpTo info.frames.toInt (fun _ => loadFrame (opened info))
      (List.replicate (channelCount info) ([] : List α))).wp fun _ o _ =>
        Ends info.frames.toInt o :=
    ends_forUpTo (fun channels => channels.length = channelCount info)
      List.length_replicate fun _ _ fits => ends_loadFrame fits
  rw [load_apply]
  refine Call.wp_andThen.mpr (frames.mono ?_)
  rintro h (v | e | x | _ | q) channels ends
  case returned =>
    show (orThrow _ channels : Call (interface α) Exn Fault _ _).wp _
    generalize (channels.mapM fun samples => make samples info.samplerate.toInt) = tracks
    cases tracks with
    | ok tracks => exact ⟨by simp, by simp⟩
    | error e => exact ⟨by simp, by simp⟩
  case faulted => exact ⟨by simp, by simpa using ends.2⟩
  case running => exact absurd rfl ends.1
  all_goals exact ⟨by simp, by simp⟩

/-- The function ends, unless the header promises more frames than the counter
can count. -/
theorem ends_loadFromFile (fileName : String) (s : σ) :
    (loadFromFile fileName s : Call (interface α) Exn Fault _ _).wp fun h o _ =>
      o ≠ .running ∧ ∀ x, o = .faulted x → x = .intOverflow ∧
        ∃ info, h.head? = some ⟨.sfOpen fileName, .ok info⟩ ∧ intMax < info.frames.toInt := by
  rw [loadFromFile_apply, Call.wp_within, Call.wp_asking]
  refine ⟨⟨by simp, by simp⟩, ?_⟩
  rintro (text | info)
  · exact ⟨by simp, by simp⟩
  · refine Call.wp_andThen.mpr (Call.wp_caught.mpr (ends_load.mono ?_))
    rintro h (v | e | x | _ | q) channels ends
    case faulted =>
      refine ⟨by simp, ?_⟩
      rintro x' ⟨⟩
      obtain ⟨overflow, large⟩ := ends.2 x rfl
      exact ⟨overflow, info, rfl, large⟩
    case running => exact absurd rfl ends.1
    case asking => exact ⟨by simp, by simp⟩
    all_goals exact ⟨⟨by simp, by simp⟩, fun _ => ⟨by simp, by simp⟩⟩

end Whole

theorem exits_loadFromFile [Zero α] {fileName : String} {s s' : σ}
    {result : Except Exn (List (SoundTrack α))} :
    (loadFromFile fileName s).Exits h result s' ↔ s' = s ∧ Loads fileName h result := by
  rw [loadFromFile_apply, Call.exits_within]
  simp only [Call.exits_asking]
  constructor
  · rintro ⟨channels, ⟨text | info, k, rfl, exits⟩, rfl⟩
    · obtain ⟨rfl, rfl, -⟩ := Call.exits_threw.mp exits
      exact ⟨rfl, .unopened text⟩
    · rcases Call.exits_andThen.mp exits with
        ⟨e, rfl, caught⟩ | ⟨tracks, t, k, k', rfl, caught, closed⟩
      · obtain ⟨inner, impossible, -⟩ := Call.exits_caught.mp caught
        cases impossible
      · obtain ⟨inner, same, loaded⟩ := Call.exits_caught.mp caught
        obtain rfl := Except.ok.inj same
        obtain ⟨⟨⟩, k'', rfl, ended⟩ := Call.exits_asking.mp closed
        obtain ⟨rfl, rfl, -⟩ := Call.exits_orThrow.mp ended
        exact ⟨rfl, .opened (load_exits.mp ⟨t, loaded⟩)⟩
  · rintro ⟨rfl, ⟨text⟩ | ⟨loads⟩⟩
    · exact ⟨[], ⟨.error text, [], rfl, Call.exits_threw.mpr ⟨rfl, rfl, rfl⟩⟩, rfl⟩
    · rename_i info h
      obtain ⟨channels, loaded⟩ := load_exits.mpr loads
      refine ⟨channels, ⟨.ok info, _, rfl, Call.exits_andThen.mpr (.inr
        ⟨result, channels, h, [⟨.sfClose, ()⟩], rfl, Call.exits_caught.mpr ⟨_, rfl, loaded⟩, ?_⟩)⟩,
        rfl⟩
      exact Call.exits_asking.mpr ⟨(), [], rfl, Call.exits_orThrow.mpr ⟨rfl, rfl, rfl⟩⟩

/-- The ways out of `loadFromFile` are those of `Loads`, for any header and any
answers of libsndfile, and it takes one of them as long as its questions are
answered, unless there are more frames than an `int` can count. -/
theorem loadFromFile_waysOut [Zero α] (fileName : String) (s : σ) :
    (∀ (h : List (Event (interface α))) result s',
      (loadFromFile fileName s).Exits h result s' ↔ s' = s ∧ Loads fileName h result) ∧
    (loadFromFile fileName s : Call (interface α) Exn Fault _ _).wp fun h o _ =>
      o ≠ .running ∧ ∀ x, o = .faulted x → x = .intOverflow ∧
        ∃ info, h.head? = some ⟨.sfOpen fileName, .ok info⟩ ∧ intMax < info.frames.toInt :=
  ⟨fun _ _ _ => exits_loadFromFile, ends_loadFromFile fileName s⟩

end SoundTrack

end MarathonKit.Sound
