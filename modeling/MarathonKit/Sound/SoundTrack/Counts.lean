import MarathonKit.Sound.SoundTrack.Load

/-!
The number of frames on its way through the integer types.

A file reports it as a `long`, the loop counts it in an `int`, a vector holds it
as a `size_t` and `getSampleCount` casts that to an `int` again. All of these
agree as far as an `int` goes, and one frame more is too many for the loop.
-/

namespace MarathonKit.Sound.SoundTrack

open Dialogue Dialogue.Method Signal SoundFile

variable {α : Type} {track : SoundTrack α} {frameCount channelCount : Nat} {info : SfInfo}
  {reads : Nat → List α}

/-- The count is that of the file, and it says which indices have a sample. -/
structure Counted [Zero α] (track : SoundTrack α) (frameCount : Nat) : Prop where
  count : track.getSampleCount = frameCount
  sample : ∀ i, (∃ sample, track.getSample i = .ok sample) ↔ 0 ≤ i ∧ i < track.getSampleCount
  withoutThrowing : ∀ i sample, track.getSample i = .ok sample →
    track.getSampleWithoutThrowing i = sample

/-- The function returns, and every track is counted. -/
def CountsSurvive [Zero α] (fileName : String) (info : SfInfo) (reads : Nat → List α)
    (frameCount : Nat) : Prop :=
  ∃ tracks k, (loadFromFile fileName ()).serve (libsndfile info reads) 0 =
    (.returned () tracks, k) ∧ ∀ track ∈ tracks, track.Counted frameCount

theorem getSampleCount_eq (small : track.mSamples.length ≤ 2147483647) :
    track.getSampleCount = track.mSamples.length :=
  Int32.toInt_ofNat_of_lt (Nat.lt_succ_of_le small)

/-- There is a sample where the vector has an element. -/
theorem getSample_isOk (i : Int) : (∃ sample, track.getSample i = .ok sample) ↔
    0 ≤ i ∧ i < track.mSamples.length := by
  unfold getSample
  by_cases negative : i < 0
  · have outside : ¬ (0 ≤ i ∧ i < track.mSamples.length) := by omega
    simp [negative, outside]
  · by_cases inside : i.toNat < track.mSamples.length
    · have both : 0 ≤ i ∧ i < track.mSamples.length := by omega
      simp [negative, inside, both]
    · have outside : ¬ (0 ≤ i ∧ i < track.mSamples.length) := by omega
      simp [negative, List.getElem?_eq_none (Nat.not_lt.mp inside), outside]

theorem getSampleWithoutThrowing_of_ok [Zero α] {i : Int} {sample : α}
    (ok : track.getSample i = .ok sample) : track.getSampleWithoutThrowing i = sample := by
  unfold getSample at ok
  unfold getSampleWithoutThrowing
  by_cases negative : i < 0
  · simp [negative] at ok
  · cases found : track.mSamples[i.toNat]? with
    | none => simp [negative, found] at ok
    | some there => simpa [negative, found] using ok

theorem counted [Zero α] (length : track.mSamples.length = frameCount)
    (small : frameCount ≤ 2147483647) : track.Counted frameCount where
  count := by rw [getSampleCount_eq (length ▸ small), length]
  sample := by
    intro i
    rw [getSample_isOk, getSampleCount_eq (length ▸ small)]
  withoutThrowing := fun _ _ => getSampleWithoutThrowing_of_ok

/-- The counts agree exactly if the number of frames is an `int`. -/
theorem countsSurvive_iff [Zero α] (reports : Reports info frameCount channelCount)
    (whole : ∀ n < frameCount, (reads n).length = channelCount) (fileName : String) :
    CountsSurvive fileName info reads frameCount ↔ frameCount ≤ 2147483647 := by
  constructor
  · rintro ⟨tracks, k, returned, -⟩
    by_contra large
    have tooMany : intMax < frameCount := by
      unfold intMax
      omega
    obtain ⟨k', faulted⟩ := loadFromFile_overflow reports tooMany whole fileName ()
    rw [faulted] at returned
    cases returned
  · intro small
    have asInt : (frameCount : Int) ≤ intMax := by
      unfold intMax
      omega
    refine ⟨_, _, loadFromFile_whole reports asInt whole fileName (), ?_⟩
    intro track mem
    have uniform : ∀ frame ∈ (List.range frameCount).map reads,
        frame.length = channelCount := by simpa using whole
    have length : track.mSamples.length = frameCount := by
      simpa using length_mSamples uniform track mem
    exact counted length small

theorem countsSurvive_iff_stereo :
    CountsSurvive "a.wav" stereo (fun _ => [0, 0]) 2 :=
  (countsSurvive_iff stereo_reports (fun _ _ => rfl) "a.wav").mpr (by decide)

/-- A file of one channel, with a frame more than `INT_MAX`, all of them silent. -/
def long : SfInfo := ⟨2147483648, 1, 44100⟩

def silence : Nat → List Nat := fun _ => [0]

theorem long_reports : Reports long 2147483648 1 := ⟨by decide, rfl, by decide⟩

theorem countsSurvive_fails : ¬ CountsSurvive "a.wav" long silence 2147483648 := by
  rintro ⟨tracks, k, returned, -⟩
  have whole : ∀ n < 2147483648, (silence n).length = 1 := fun _ _ => rfl
  obtain ⟨k', faulted⟩ := loadFromFile_overflow long_reports (by decide) whole "a.wav" ()
  rw [faulted] at returned
  cases returned

end MarathonKit.Sound.SoundTrack
