import MarathonKit.Signal.Nearest
import MarathonKit.Sound.SoundTrack.Counts
import Mathlib.Data.Rat.Floor

/-!
Times in a track, as rationals.

Sample `i` stands at the time `i / mSampleRate`, and `getSampleIndex` rounds to the
sample nearest to a time. It does not look whether there is one: the last sample
stands one step before the end of the track, so a time in the last half step is
nearer to the end, and its index is the number of samples.
-/

namespace MarathonKit.Sound.SoundTrack

open Dialogue Dialogue.Method Signal

variable {α σ : Type} (track : SoundTrack α)

def checkSampleRateKnown : Except Exn Unit :=
  if track.mSampleRate = 0 then .error (.runtimeError "Unknown sample rate") else .ok ()

def getDuration : Except Exn ℚ := do
  track.checkSampleRateKnown
  return (track.mSamples.length : ℚ) / track.mSampleRate

/-- `(int)x` for a whole number `x`: it must be an `int`. -/
def toInt (x : Int) : Method α σ Int :=
  if -intMax - 1 ≤ x ∧ x ≤ intMax then pure x else fault .intOverflow

def getSampleIndex (time : ℚ) : Method α σ Int := do
  orThrow track.checkSampleRateKnown
  let index := time * track.mSampleRate
  toInt (roundAway index)

variable {track} {time duration : ℚ} {s : σ}

theorem checkSampleRateKnown_of_pos (known : 0 < track.mSampleRate) :
    track.checkSampleRateKnown = .ok () :=
  if_neg (Int.ne_of_gt known)

theorem getDuration_of_pos (known : 0 < track.mSampleRate) :
    track.getDuration = .ok ((track.mSamples.length : ℚ) / track.mSampleRate) := by
  rw [getDuration, checkSampleRateKnown_of_pos known]
  rfl

/-- An index that is an `int` is the rounded place of the time. -/
theorem getSampleIndex_of_pos (known : 0 < track.mSampleRate)
    (nonneg : 0 ≤ roundAway (time * track.mSampleRate))
    (small : roundAway (time * track.mSampleRate) ≤ intMax) :
    (track.getSampleIndex time : Method α σ Int) s =
      .returned s (roundAway (time * track.mSampleRate)) := by
  have isInt : -intMax - 1 ≤ roundAway (time * track.mSampleRate) := by
    unfold intMax
    omega
  simp [getSampleIndex, checkSampleRateKnown_of_pos known, toInt, isInt, small]

/-- Half a step before the end, in steps and in time. -/
theorem lt_sub_half_iff {rate : ℚ} (positive : 0 < rate) {n : ℚ} :
    time * rate < n - 1 / 2 ↔ time < n / rate - 1 / (2 * rate) := by
  have joined : n / rate - 1 / (2 * rate) = (n - 1 / 2) / rate := by
    field_simp
  rw [joined, lt_div_iff₀ positive]

/-- For a time in the track, the index is that of the sample nearest to it, or
the number of samples. It is the index of a sample, which can then be had without
an exception, exactly if the time is not in the last half step of the track. -/
theorem getSampleIndex_nearest (known : 0 < track.mSampleRate)
    (small : track.mSamples.length ≤ 2147483647) (lasts : track.getDuration = .ok duration)
    (nonneg : 0 ≤ time) (inside : time < duration) (s : σ) :
    ∃ i, (track.getSampleIndex time : Method α σ Int) s = .returned s i ∧
      |time * track.mSampleRate - i| ≤ 1 / 2 ∧ 0 ≤ i ∧ i ≤ track.getSampleCount ∧
      (i < track.getSampleCount ↔ time < duration - 1 / (2 * track.mSampleRate)) ∧
      ((∃ sample, track.getSample i = .ok sample) ↔
        time < duration - 1 / (2 * track.mSampleRate)) := by
  have positive : (0 : ℚ) < track.mSampleRate := Int.cast_pos.mpr known
  obtain rfl : (track.mSamples.length : ℚ) / track.mSampleRate = duration :=
    Except.ok.inj ((getDuration_of_pos known).symm.trans lasts)
  have place : 0 ≤ time * track.mSampleRate := mul_nonneg nonneg positive.le
  have below : time * track.mSampleRate < ((track.mSamples.length : ℤ) : ℚ) := by
    rw [Int.cast_natCast]
    exact (lt_div_iff₀ positive).mp inside
  have first := roundAway_nonneg place
  have last := roundAway_le place below
  have fits : (track.mSamples.length : ℤ) ≤ intMax := by
    unfold intMax
    omega
  have hasSample : roundAway (time * track.mSampleRate) < track.mSamples.length ↔
      time < (track.mSamples.length : ℚ) / track.mSampleRate - 1 / (2 * track.mSampleRate) := by
    rw [roundAway_lt_iff place, Int.cast_natCast, lt_sub_half_iff positive]
  rw [getSampleCount_eq small]
  refine ⟨_, getSampleIndex_of_pos known first (le_trans last fits), abs_sub_roundAway _, first,
    last, hasSample, ?_⟩
  rw [getSample_isOk, ← hasSample]
  exact and_iff_right first

/-- Two seconds, of four samples. -/
def four : SoundTrack Nat := ⟨[5, 6, 7, 8], 2, by decide⟩

theorem four_duration : four.getDuration = .ok 2 := by
  rw [getDuration_of_pos (by decide)]
  norm_num [four]

theorem getSampleIndex_nearest_early :
    ∃ i, (four.getSampleIndex (3 / 4) : Method Nat Unit Int) () = .returned () i ∧
      ∃ sample, four.getSample i = .ok sample := by
  obtain ⟨i, index, -, -, -, -, hasSample⟩ := getSampleIndex_nearest (by decide) (by decide)
    four_duration (by norm_num : (0 : ℚ) ≤ 3 / 4) (by norm_num) ()
  refine ⟨i, index, hasSample.mpr ?_⟩
  norm_num [four]

/-- A quarter of a second before the end, the index is 4. -/
theorem getSampleIndex_nearest_late :
    ¬ ∀ (track : SoundTrack Nat) (duration time : ℚ), 0 < track.mSampleRate →
      1 ≤ track.mSamples.length → track.mSamples.length ≤ 2147483647 →
      track.getDuration = .ok duration → 0 ≤ time → time < duration →
      ∃ i, (track.getSampleIndex time : Method Nat Unit Int) () = .returned () i ∧ 0 ≤ i ∧
        i < track.mSamples.length ∧ ∃ sample, track.getSample i = .ok sample := by
  intro always
  obtain ⟨i, index, -, less, -⟩ := always four 2 (7 / 4) (by decide) (by decide) (by decide)
    four_duration (by norm_num) (by norm_num)
  have rounded : roundAway ((7 / 4 : ℚ) * four.mSampleRate) = 4 := by
    norm_num [four, roundAway, round_eq]
  rw [getSampleIndex_of_pos (by decide) (by rw [rounded]; decide) (by rw [rounded]; decide),
    rounded] at index
  cases index
  exact absurd less (by decide)

end MarathonKit.Sound.SoundTrack
