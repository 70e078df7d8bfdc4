import MarathonKit.Dialogue.Method

/-!
`Sound/SoundFile.cpp`: a sound file, read frame by frame.

The calls to libsndfile are requests. The samples are of any type with a zero:
the code moves `double`s about and does not look at them.
-/

namespace MarathonKit.Sound

open Dialogue Dialogue.Method

/-- A `std::runtime_error`, and the `std::length_error` of a vector that would be
too long. -/
inductive Exn where
  | runtimeError (what : String)
  | lengthError
deriving DecidableEq, Repr

inductive Fault where
  /-- signed overflow of an `int` -/
  | intOverflow
  /-- an element of a vector that is not there -/
  | outOfRange
deriving DecidableEq, Repr

/-- `SF_INFO`, as far as it is read. -/
structure SfInfo where
  frames : Int64
  channels : Int32
  samplerate : Int32
deriving DecidableEq

inductive Request where
  /-- `sf_open(path, SFM_READ, &info)` -/
  | sfOpen (path : String)
  /-- `sf_read_double(handle, ptr, items)`, answered by the samples it stores -/
  | sfReadDouble (items : Int)
  | sfClose
deriving DecidableEq, Repr

/-- `sf_open` fails with the text of `sf_strerror(nullptr)`. -/
@[reducible] def Answer (α : Type) : Request → Type
  | .sfOpen _ => Except String SfInfo
  | .sfReadDouble _ => List α
  | .sfClose => Unit

abbrev interface (α : Type) : Interface := ⟨Request, Answer α⟩

abbrev Method (α σ : Type) := Dialogue.Method (interface α) Exn Fault σ

variable {α σ : Type}

/-- `INT_MAX` -/
def intMax : Int := 2147483647

/-- `++i` for an `int` -/
def increment (i : Int) : Method α σ Int :=
  if i < intMax then pure (i + 1) else fault .intOverflow

/-- `for (int i = 0; i < limit; ++i)` -/
def forUpTo (limit : Int) (body : Int → Method α σ Unit) : Method α σ Unit :=
  countLoop increment limit body (limit.toNat + 1) 0

variable {s : σ}

theorem increment_apply {i : Int} (less : i < intMax) :
    (increment i : Method α σ Int) s = .returned s (i + 1) := by
  simp [increment, less]

/-- The loop against one environment, after `k` of its rounds. -/
theorem serve_forUpTo {ε : Type} {env : (q : Request) → ε → Option (Answer α q × ε)} {limit k : Nat}
    {body : Int → Method α σ Unit} (point : Nat → σ × ε) (inside : k ≤ limit)
    (small : (k : Int) ≤ intMax)
    (body_serve : ∀ n < k, (body n (point n).1).serve env (point n).2 =
      (.returned (point (n + 1)).1 (), (point (n + 1)).2)) :
    (forUpTo limit body (point 0).1).serve env (point 0).2 =
      (countLoop increment limit body (limit - k + 1) k (point k).1).serve env (point k).2 := by
  have rounds : (limit : Int).toNat + 1 = limit - k + 1 + k := by omega
  rw [forUpTo, rounds]
  apply serve_countLoop point body_serve
  · intro n less s
    exact increment_apply (by omega)
  · intro n less
    omega

/-- All of its rounds. -/
theorem serve_forUpTo_all {ε : Type} {env : (q : Request) → ε → Option (Answer α q × ε)}
    {limit : Nat} {body : Int → Method α σ Unit} (point : Nat → σ × ε)
    (small : (limit : Int) ≤ intMax)
    (body_serve : ∀ n < limit, (body n (point n).1).serve env (point n).2 =
      (.returned (point (n + 1)).1 (), (point (n + 1)).2)) :
    (forUpTo limit body (point 0).1).serve env (point 0).2 =
      (.returned (point limit).1 (), (point limit).2) := by
  rw [serve_forUpTo point (Nat.le_refl limit) small body_serve, countLoop_succ,
    if_neg (Int.lt_irrefl _)]
  rfl

/-- An open file. -/
structure SoundFile where
  mFrameCount : Int64
  mChannelCount : Int32
  mSampleRate : Int32
deriving DecidableEq

namespace SoundFile

def opened (info : SfInfo) : SoundFile := ⟨info.frames, info.channels, info.samplerate⟩

/-- `SoundFile::SoundFile(const std::string&)` -/
def make (fileName : String) : Method α σ SoundFile := do
  match ← ask (I := interface α) (.sfOpen fileName) with
  | .error text => throw (.runtimeError text)
  | .ok info => return opened info

variable (file : SoundFile)

def getFrameCount : Int := file.mFrameCount.toInt

def getChannelCount : Int := file.mChannelCount.toInt

def getSampleRate : Int := file.mSampleRate.toInt

structure Frame (α : Type) where
  mSamples : List α
deriving DecidableEq, Repr

def getNextFrame [Zero α] : Method α σ (Frame α) := do
  if file.getChannelCount < 0 then
    throw .lengthError
  let samples := List.replicate file.getChannelCount.toNat (0 : α)
  let items ← ask (I := interface α) (.sfReadDouble file.getChannelCount)
  if (items.length : Int) ≠ file.getChannelCount then
    throw (.runtimeError "")
  -- what was stored, and the zeros that were not overwritten
  return ⟨items ++ samples.drop items.length⟩

def Frame.getSample (frame : Frame α) (channel : Int) : Except Exn α :=
  if channel < 0 then
    .error (.runtimeError "SoundFile::Frame::getSample called with a negative value")
  else
    match frame.mSamples[channel.toNat]? with
    | none => .error (.runtimeError
        "SoundFile::Frame::getSample called with too high channel number")
    | some sample => .ok sample

/-- The destructor. -/
def close : Method α σ Unit := ask (I := interface α) Request.sfClose

variable {file}

/-- With `count` channels a frame is `count` samples, or none. -/
theorem getNextFrame_apply [Zero α] {count : Nat} (channels : file.getChannelCount = count) :
    (file.getNextFrame : Method α σ (Frame α)) s =
      .asking s (.sfReadDouble file.getChannelCount) fun items =>
        if items.length = count then .returned s ⟨items⟩ else .threw s (.runtimeError "") := by
  have nonneg : ¬ file.getChannelCount < 0 := by omega
  simp only [getNextFrame, nonneg, bind_apply, ask_apply, if_false, Call.andThen_asking]
  congr 1
  funext items
  by_cases whole : items.length = count
  · simp [channels, whole]
  · have differs : ((List.length items : Nat) : Int) ≠ count := fun same =>
      whole (Int.ofNat_inj.mp same)
    simp only [channels, Call.andThen_returned, if_pos differs, if_neg whole]
    rfl

theorem Frame.getSample_of_getElem? {frame : Frame α} {channel : Nat} {sample : α}
    (found : frame.mSamples[channel]? = some sample) :
    frame.getSample channel = .ok sample := by
  simp [Frame.getSample, found]

end SoundFile

end MarathonKit.Sound
