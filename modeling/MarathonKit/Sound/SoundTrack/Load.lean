import MarathonKit.Signal.Interleave
import MarathonKit.Sound.SoundTrack
import Mathlib.Algebra.Ring.Nat
import Mathlib.Data.Nat.Find

/-!
`SoundTrack::loadFromFile`, and what the tracks it returns hold.

A file is what `sf_open` reports of it and what each of the reads stores
(`libsndfile`); everything else the function does is its own. After `n` frames
the channels are the first `n` reads deinterleaved, so there are three ways for
the loop over the frames to end: it comes to the last of them, a read is short,
or the counter is at `INT_MAX` and there is still a frame to come.
-/

namespace MarathonKit.Sound.SoundTrack

open Dialogue Dialogue.Method Signal SoundFile

variable {α σ : Type}

/-- A file: what is reported of it, and what each read stores. The state is the
number of reads. -/
def libsndfile (info : SfInfo) (reads : Nat → List α) :
    (q : Request) → Nat → Option (Answer α q × Nat)
  | .sfOpen _, k => some (.ok info, k)
  | .sfReadDouble _, k => some (reads k, k + 1)
  | .sfClose, k => some ((), k)

/-- It is reported to have `frameCount` frames of `channelCount` samples. -/
structure Reports (info : SfInfo) (frameCount channelCount : Nat) : Prop where
  frames : info.frames.toInt = frameCount
  channels : info.channels.toInt = channelCount
  samplerate : 0 ≤ info.samplerate.toInt

variable {info : SfInfo} {frameCount channelCount : Nat} {reads : Nat → List α}
  {channels : List (List α)} {values : List α} {k : Nat}

theorem Reports.channelCount_le (reports : Reports info frameCount channelCount) :
    (channelCount : Int) ≤ intMax := by
  rw [← reports.channels]
  exact info.channels.toInt_le

/-! ### One frame -/

theorem pushBack_apply {channel : Nat} {sample : α} (inside : channel < channels.length) :
    pushBack channel sample channels =
      .returned (channels.modify channel fun samples => samples ++ [sample]) () := by
  have nonneg : ¬ (channel : Int) < 0 := Int.not_lt.mpr (Int.natCast_nonneg channel)
  simp [pushBack, nonneg, inside]

/-- The samples of a frame go to the channels one by one. -/
theorem loadSample_apply {n : Nat} (inside : n < values.length)
    (fits : values.length = channels.length) :
    loadSample ⟨values⟩ n (extend channels (values.take n)) =
      .returned (extend channels (values.take (n + 1))) () := by
  have found : values[n]? = some values[n] := List.getElem?_eq_getElem inside
  have sample : (⟨values⟩ : Frame α).getSample n = .ok values[n] :=
    Frame.getSample_of_getElem? found
  have length : (values.take n).length = n := List.length_take_of_le (Nat.le_of_lt inside)
  have more : extend channels (values.take (n + 1)) =
      (extend channels (values.take n)).modify n fun samples => samples ++ [values[n]] := by
    rw [List.take_succ_eq_append_getElem inside, extend_snoc (by omega), length]
  have there : n < (extend channels (values.take n)).length := by
    rw [length_extend]
    omega
  simp only [loadSample, sample, bind_apply, orThrow_ok, Call.andThen_returned,
    pushBack_apply there, more]

theorem loadSamples_serve {ε : Type} {env : (q : Request) → ε → Option (Answer α q × ε)}
    (whole : values.length = channelCount) (fits : channels.length = channelCount)
    (small : (channelCount : Int) ≤ intMax) (e : ε) :
    (forUpTo channelCount (loadSample ⟨values⟩) channels).serve env e =
      (.returned (extend channels values) (), e) := by
  have body : ∀ n < channelCount,
      (loadSample ⟨values⟩ n (extend channels (values.take n))).serve env e =
        (.returned (extend channels (values.take (n + 1))) (), e) := by
    intro n less
    rw [loadSample_apply (by omega) (by omega)]
    rfl
  have all := serve_forUpTo_all (fun n => (extend channels (values.take n), e)) small body
  simpa [← whole] using all

section File

variable [Zero α] (reports : Reports info frameCount channelCount)

include reports

/-- A frame is loaded if its read is not short. -/
theorem loadFrame_serve (fits : channels.length = channelCount) :
    (loadFrame (opened info) channels).serve (libsndfile info reads) k =
      if (reads k).length = channelCount then (.returned (extend channels (reads k)) (), k + 1)
      else (.threw channels (.runtimeError ""), k + 1) := by
  have count : (opened info).getChannelCount = channelCount := reports.channels
  simp only [loadFrame, bind_apply, getNextFrame_apply count, Call.andThen_asking,
    Call.serve, libsndfile]
  split
  · rename_i whole
    rw [Call.andThen_returned, count]
    exact loadSamples_serve whole fits reports.channelCount_le (k + 1)
  · rfl

/-! ### All frames -/

/-- After `k` frames that are whole, the channels are these, deinterleaved. -/
theorem loadFrames_serve (inside : k ≤ frameCount) (small : (k : Int) ≤ intMax)
    (whole : ∀ n < k, (reads n).length = channelCount) :
    (forUpTo frameCount (fun _ => loadFrame (opened info))
        (List.replicate channelCount [])).serve (libsndfile info reads) 0 =
      (countLoop increment frameCount (fun _ => loadFrame (opened info)) (frameCount - k + 1) k
        (deinterleave channelCount ((List.range k).map reads))).serve
          (libsndfile info reads) k := by
  apply serve_forUpTo (fun n => (deinterleave channelCount ((List.range n).map reads), n)) inside
    small
  intro n less
  rw [loadFrame_serve reports length_deinterleave, if_pos (whole n less)]
  simp [deinterleave, List.range_succ]

theorem loadFrames_whole (small : (frameCount : Int) ≤ intMax)
    (whole : ∀ n < frameCount, (reads n).length = channelCount) :
    (forUpTo frameCount (fun _ => loadFrame (opened info))
        (List.replicate channelCount [])).serve (libsndfile info reads) 0 =
      (.returned (deinterleave channelCount ((List.range frameCount).map reads)) (),
        frameCount) := by
  rw [loadFrames_serve reports (Nat.le_refl _) small whole, countLoop_succ,
    if_neg (Int.lt_irrefl _)]
  rfl

/-- A short read ends the loop. -/
theorem loadFrames_short (less : k < frameCount) (small : (k : Int) ≤ intMax)
    (whole : ∀ n < k, (reads n).length = channelCount) (short : (reads k).length ≠ channelCount) :
    (forUpTo frameCount (fun _ => loadFrame (opened info))
        (List.replicate channelCount [])).serve (libsndfile info reads) 0 =
      (.threw (deinterleave channelCount ((List.range k).map reads)) (.runtimeError ""),
        k + 1) := by
  have goesOn : (k : Int) < frameCount := Int.ofNat_lt.mpr less
  rw [loadFrames_serve reports (Nat.le_of_lt less) small whole, countLoop_succ, if_pos goesOn,
    Call.serve_andThen, loadFrame_serve reports length_deinterleave, if_neg short]
  rfl

/-- So does the counter, if it is at `INT_MAX` with a frame to come. -/
theorem loadFrames_overflow (large : intMax < frameCount)
    (whole : ∀ n < frameCount, (reads n).length = channelCount) :
    ∃ channels k, (forUpTo frameCount (fun _ => loadFrame (opened info))
        (List.replicate channelCount [])).serve (libsndfile info reads) 0 =
      (.faulted channels .intOverflow, k) := by
  obtain ⟨last, isLast⟩ : ∃ last : Nat, (last : Int) = intMax := ⟨2147483647, rfl⟩
  have goesOn : (last : Int) < frameCount := isLast ▸ large
  have less : last < frameCount := Int.ofNat_lt.mp goesOn
  refine ⟨extend (deinterleave channelCount ((List.range last).map reads)) (reads last),
    last + 1, ?_⟩
  rw [loadFrames_serve reports (Nat.le_of_lt less) (Int.le_of_eq isLast)
      fun n before => whole n (Nat.lt_trans before less),
    countLoop_succ, if_pos goesOn, Call.serve_andThen,
    loadFrame_serve reports length_deinterleave, if_pos (whole last less), isLast]
  rfl

end File

/-! ### The tracks -/

/-- The tracks of these channels. -/
def tracksOf (channels : List (List α)) (sampleRate : Int) (nonneg : 0 ≤ sampleRate) :
    List (SoundTrack α) :=
  channels.map fun samples => ⟨samples, sampleRate, nonneg⟩

theorem mSamples_tracksOf {sampleRate : Int} (nonneg : 0 ≤ sampleRate) (channels : List (List α)) :
    (tracksOf channels sampleRate nonneg).map mSamples = channels := by
  rw [tracksOf, List.map_map]
  exact List.map_id channels

/-- As many samples to a track as there were frames. -/
theorem length_mSamples {rows : List (List α)} {sampleRate : Int} {nonneg : 0 ≤ sampleRate}
    (uniform : ∀ frame ∈ rows, frame.length = channelCount) :
    ∀ track ∈ tracksOf (deinterleave channelCount rows) sampleRate nonneg,
      track.mSamples.length = rows.length := by
  intro track mem
  obtain ⟨channel, inChannels, rfl⟩ := List.mem_map.mp mem
  rw [deinterleave_eq] at inChannels
  obtain ⟨c, inRange, rfl⟩ := List.mem_map.mp inChannels
  apply length_column
  intro frame inRows
  rw [uniform frame inRows]
  exact List.mem_range.mp inRange

theorem mapM_make {sampleRate : Int} (nonneg : 0 ≤ sampleRate) (channels : List (List α)) :
    (channels.mapM fun samples => make samples sampleRate) =
      .ok (tracksOf channels sampleRate nonneg) := by
  induction channels with
  | nil => rfl
  | cons samples channels ih =>
      have made : make samples sampleRate = .ok ⟨samples, sampleRate, nonneg⟩ := dif_pos nonneg
      rw [List.mapM_cons, made, ih]
      rfl

/-- The channels are there before the first frame is read. -/
theorem openChannels_serve {ε : Type} {env : (q : Request) → ε → Option (Answer α q × ε)}
    (small : (channelCount : Int) ≤ intMax) (e : ε) :
    (forUpTo channelCount (fun _ => update fun channels => channels ++ [[]]) []).serve env e =
      (.returned (List.replicate channelCount ([] : List α)) (), e) := by
  apply serve_forUpTo_all (fun n => (List.replicate n [], e)) small
  intro n less
  simp [Call.serve, List.replicate_succ']

section File

variable [Zero α] (reports : Reports info frameCount channelCount)
  {c : Call (interface α) Exn Fault (List (List α)) Unit} (ended : ∀ q, c.outcome ≠ .asking q)
  (frames : (forUpTo frameCount (fun _ => loadFrame (opened info))
    (List.replicate channelCount [])).serve (libsndfile info reads) 0 = (c, k))

include ended frames

/-- The function ends as the loop over the frames does: with the tracks of the
channels if that returns. -/
theorem load_serve : (load (opened info) []).serve (libsndfile info reads) 0 =
    (c.andThen fun channels _ => .returned channels
      (tracksOf channels info.samplerate.toInt reports.samplerate), k) := by
  have channelsAre : (opened info).getChannelCount = channelCount := reports.channels
  have framesAre : (opened info).getFrameCount = frameCount := reports.frames
  have rateIs : (opened info).getSampleRate = info.samplerate.toInt := rfl
  simp only [load, bind_apply, channelsAre, framesAre, rateIs]
  rw [Call.serve_andThen, openChannels_serve reports.channelCount_le, Call.andThen_returned,
    Call.serve_andThen, frames]
  cases c with
  | asking s q resume => exact absurd rfl (ended q)
  | returned channels _ => simp [mapM_make reports.samplerate, Call.serve]
  | _ => rfl

theorem loadFromFile_serve (fileName : String) (s : σ) :
    (loadFromFile fileName s).serve (libsndfile info reads) 0 =
      ((c.andThen fun channels _ => .returned channels
        (tracksOf channels info.samplerate.toInt reports.samplerate)).within fun _ => s, k) := by
  have closed : ((load (opened info) []).caught.andThen fun channels tracks =>
      .asking channels .sfClose fun _ => orThrow tracks channels).serve
        (libsndfile info reads) 0 = (c.andThen fun channels _ => .returned channels
          (tracksOf channels info.samplerate.toInt reports.samplerate), k) := by
    rw [Call.serve_andThen, Call.serve_caught, load_serve reports ended frames]
    cases c with
    | asking s q resume => exact absurd rfl (ended q)
    | _ => rfl
  rw [loadFromFile_apply, Call.serve_within]
  exact congrArg (fun result => (result.1.within fun _ => s, result.2)) closed

end File

/-- Every frame is delivered, and the counter reaches the last one. -/
theorem loadFromFile_whole [Zero α] (reports : Reports info frameCount channelCount)
    (small : (frameCount : Int) ≤ intMax)
    (whole : ∀ n < frameCount, (reads n).length = channelCount) (fileName : String) (s : σ) :
    (loadFromFile fileName s).serve (libsndfile info reads) 0 =
      (.returned s (tracksOf (deinterleave channelCount ((List.range frameCount).map reads))
        info.samplerate.toInt reports.samplerate), frameCount) :=
  loadFromFile_serve reports (by simp [Call.outcome]) (loadFrames_whole reports small whole)
    fileName s

/-- The first short read is the last. -/
theorem loadFromFile_short [Zero α] (reports : Reports info frameCount channelCount)
    (small : (frameCount : Int) ≤ intMax)
    (short : ∃ n < frameCount, (reads n).length ≠ channelCount) (fileName : String) (s : σ) :
    ∃ k < frameCount, (∀ n < k, (reads n).length = channelCount) ∧
      (reads k).length ≠ channelCount ∧
      (loadFromFile fileName s).serve (libsndfile info reads) 0 =
        (.threw s (.runtimeError ""), k + 1) := by
  obtain ⟨less, isShort⟩ := Nat.find_spec short
  have whole : ∀ n < Nat.find short, (reads n).length = channelCount := by
    intro n before
    by_contra isShort'
    exact Nat.find_min short before ⟨Nat.lt_trans before less, isShort'⟩
  refine ⟨Nat.find short, less, whole, isShort, ?_⟩
  exact loadFromFile_serve reports (by simp [Call.outcome])
    (loadFrames_short reports less (by omega) whole isShort) fileName s

/-- There are more frames than the counter can count. -/
theorem loadFromFile_overflow [Zero α] (reports : Reports info frameCount channelCount)
    (large : intMax < frameCount) (whole : ∀ n < frameCount, (reads n).length = channelCount)
    (fileName : String) (s : σ) :
    ∃ k, (loadFromFile fileName s).serve (libsndfile info reads) 0 =
      (.faulted s .intOverflow, k) := by
  obtain ⟨channels, k, frames⟩ := loadFrames_overflow reports large whole
  exact ⟨k, loadFromFile_serve reports (by simp [Call.outcome]) frames fileName s⟩

/-- The samples of a file, in reads of one frame each: the tracks are the
samples deinterleaved. If any read does not bring a whole frame, there are none. -/
theorem loadFromFile_deinterleaves [Zero α] (reports : Reports info frameCount channelCount)
    (small : (frameCount : Int) ≤ 2147483647) (fileName : String) (s : σ) :
    (∀ values : List α, values.length = frameCount * channelCount → ∃ tracks,
      (loadFromFile fileName s).serve (libsndfile info (row channelCount values)) 0 =
        (.returned s tracks, frameCount) ∧
      tracks.length = channelCount ∧
      (∀ track ∈ tracks, track.mSamples.length = frameCount ∧
        track.getSampleRate = info.samplerate.toInt) ∧
      (∀ c < channelCount, ∀ f < frameCount, (tracks[c]?.bind fun track => track.mSamples[f]?) =
        values[f * channelCount + c]?) ∧
      interleave frameCount (tracks.map mSamples) = values) ∧
    (∀ reads : Nat → List α, (∃ n < frameCount, (reads n).length ≠ channelCount) →
      ∃ k < frameCount, (∀ n < k, (reads n).length = channelCount) ∧
        (loadFromFile fileName s).serve (libsndfile info reads) 0 =
          (.threw s (.runtimeError ""), k + 1)) := by
  constructor
  · intro values length
    have whole : ∀ f < frameCount, (row channelCount values f).length = channelCount := by
      intro f less
      exact length_row (length ▸ Nat.mul_le_mul_right channelCount less)
    generalize framed : (List.range frameCount).map (row channelCount values) = rows
    have uniform : ∀ frame ∈ rows, frame.length = channelCount := by
      rw [← framed]
      simpa using whole
    have rowCount : rows.length = frameCount := by simp [← framed]
    have all : rows.flatten = values := by
      rw [← framed, flatten_rows, ← length, List.take_length]
    refine ⟨tracksOf (deinterleave channelCount rows) info.samplerate.toInt reports.samplerate,
      ?_, ?_, ?_, ?_, ?_⟩
    · rw [← framed]
      exact loadFromFile_whole reports small whole fileName s
    · simp [tracksOf]
    · intro track mem
      refine ⟨by rw [length_mSamples uniform track mem, rowCount], ?_⟩
      obtain ⟨channel, -, rfl⟩ := List.mem_map.mp mem
      rfl
    · intro c inside f less
      have insideAll : ∀ frame ∈ rows, c < frame.length := fun frame inRows =>
        uniform frame inRows ▸ inside
      rw [← all, getElem?_flatten uniform inside, ← getElem?_column insideAll]
      simp [tracksOf, getElem?_deinterleave inside]
    · rw [mSamples_tracksOf, ← rowCount, interleave_deinterleave uniform, all]
  · intro reads short
    obtain ⟨k, less, whole, -, threw⟩ := loadFromFile_short reports small short fileName s
    exact ⟨k, less, whole, threw⟩

/-- Two frames of two channels. -/
def stereo : SfInfo := ⟨2, 2, 44100⟩

theorem stereo_reports : Reports stereo 2 2 := ⟨rfl, rfl, by decide⟩

theorem loadFromFile_deinterleaves_stereo :
    (∃ tracks, (loadFromFile "a.wav" ()).serve (libsndfile stereo (row 2 [1, 2, 3, 4])) 0 =
      (.returned () tracks, 2) ∧ interleave 2 (tracks.map mSamples) = [1, 2, 3, 4]) ∧
    ∃ k < 2, (loadFromFile "a.wav" ()).serve (libsndfile stereo (row 2 [1, 2, 3])) 0 =
      (.threw () (.runtimeError ""), k + 1) := by
  constructor
  · obtain ⟨tracks, returned, -, -, -, same⟩ :=
      (loadFromFile_deinterleaves stereo_reports (by decide) "a.wav" ()).1 [1, 2, 3, 4] rfl
    exact ⟨tracks, returned, same⟩
  · obtain ⟨k, less, -, threw⟩ :=
      (loadFromFile_deinterleaves stereo_reports (by decide) "a.wav" ()).2 (row 2 [1, 2, 3])
        ⟨1, by decide, by decide⟩
    exact ⟨k, less, threw⟩

end MarathonKit.Sound.SoundTrack
