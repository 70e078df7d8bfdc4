import MarathonKit.Sound.SoundFile

/-!
`Sound/SoundTrack.cpp`: the samples of one channel.
-/

namespace MarathonKit.Sound

open Dialogue Dialogue.Method

/-- A track as the constructors admit it. -/
structure SoundTrack (α : Type) where
  mSamples : List α
  mSampleRate : Int
  nonneg : 0 ≤ mSampleRate

namespace SoundTrack

variable {α σ : Type}

/-- `SoundTrack::SoundTrack(std::vector<double>, int)` -/
def make (samples : List α) (sampleRate : Int) : Except Exn (SoundTrack α) :=
  if nonneg : 0 ≤ sampleRate then
    .ok ⟨samples, sampleRate, nonneg⟩
  else
    .error (.runtimeError "Sample rate cannot be negative")

variable (track : SoundTrack α)

/-- The cast to `int` keeps the low 32 bits. -/
def getSampleCount : Int := (Int32.ofNat track.mSamples.length).toInt

def getSampleRate : Int := track.mSampleRate

def getSample (i : Int) : Except Exn α :=
  if i < 0 then
    .error (.runtimeError "Sample index is out of range")
  else
    match track.mSamples[i.toNat]? with
    | none => .error (.runtimeError "Sample index is out of range")
    | some sample => .ok sample

def getSampleWithoutThrowing [Zero α] (i : Int) : α :=
  if i < 0 then 0 else (track.mSamples[i.toNat]?).getD 0

/-- `channels[channel].push_back(sample)` -/
def pushBack (channel : Int) (sample : α) : Method α (List (List α)) Unit := do
  if channel < 0 ∨ (← this).length ≤ channel.toNat then
    fault .outOfRange
  update fun channels => channels.modify channel.toNat fun samples => samples ++ [sample]

/-- The body of the loop over the channels; the state is `channels`. -/
def loadSample (frame : SoundFile.Frame α) (channelI : Int) :
    Method α (List (List α)) Unit := do
  let sample ← orThrow (frame.getSample channelI)
  pushBack channelI sample

/-- The body of the loop over the frames. -/
def loadFrame [Zero α] (file : SoundFile) : Method α (List (List α)) Unit := do
  let frame ← file.getNextFrame
  forUpTo file.getChannelCount (loadSample frame)

/-- The body of `loadFromFile`, after the file is open. -/
def load [Zero α] (file : SoundFile) : Method α (List (List α)) (List (SoundTrack α)) := do
  forUpTo file.getChannelCount fun _ => update fun channels => channels ++ [[]]
  forUpTo file.getFrameCount fun _ => loadFrame file
  orThrow ((← this).mapM fun samples => make samples file.getSampleRate)

/-- The file is closed on every way out. -/
def loadFromFile [Zero α] (fileName : String) : Method α σ (List (SoundTrack α)) := fun s =>
  ((do
    let file ← SoundFile.make fileName
    let tracks ← attempt (load file)
    SoundFile.close
    orThrow tracks : Method α (List (List α)) (List (SoundTrack α))) []).within fun _ => s

theorem loadFromFile_apply [Zero α] {fileName : String} {s : σ} :
    (loadFromFile fileName : Method α σ (List (SoundTrack α))) s =
      (Call.asking (I := interface α) [] (.sfOpen fileName) fun
        | .error text => .threw [] (.runtimeError text)
        | .ok info => (load (SoundFile.opened info) []).caught.andThen fun channels tracks =>
            .asking channels .sfClose fun _ => orThrow tracks channels).within fun _ => s := by
  simp only [loadFromFile, SoundFile.make, bind_apply, ask_apply, Call.andThen_asking,
    Call.andThen_returned]
  congr 2
  funext answer
  cases answer <;> rfl

end SoundTrack

end MarathonKit.Sound
