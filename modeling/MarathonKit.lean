import MarathonKit.Core.LineBuffer
import MarathonKit.Core.LineBuffer.Spec
import MarathonKit.Dialogue.Run
import MarathonKit.Dialogue.Exits
import MarathonKit.Text.Queue
import MarathonKit.Core.LineBuffer.Session
import MarathonKit.Core.LineBuffer.Store
import MarathonKit.Core.LineBuffer.EndOfStream
import MarathonKit.Core.LineBuffer.Promise
import MarathonKit.Core.System
import MarathonKit.Core.StreamFileDescriptor
import MarathonKit.Core.TcpClient
import MarathonKit.Core.Framing
import MarathonKit.Core.Ownership
import MarathonKit.Core.Log
import MarathonKit.Core.Log.Routing
import MarathonKit.Core.MessageFileDescriptor
import MarathonKit.Core.SharedSocket
import MarathonKit.Core.StreamFileDescriptor.Schedule
import MarathonKit.Core.MessageFileDescriptor.SingleReader
import MarathonKit.Core.LineBuffer.Polls
import MarathonKit.Core.LineBuffer.CharByChar
import MarathonKit.Core.Network
import MarathonKit.Core.Network.FirstWorking
import MarathonKit.Core.Network.EachAddress
import MarathonKit.Bits.Words
import MarathonKit.Core.System.Select
import MarathonKit.Signal.Interleave
import MarathonKit.Signal.Nearest
import MarathonKit.Sound.SoundFile
import MarathonKit.Sound.SoundTrack
import MarathonKit.Sound.SoundTrack.Load
import MarathonKit.Sound.SoundTrack.Counts
import MarathonKit.Sound.SoundTrack.Time
import MarathonKit.Text.Torn
import MarathonKit.Core.Framing.Interrupted
import MarathonKit.Core.LineBuffer.PollingLoop
import MarathonKit.Transit.Network
import MarathonKit.Core.Messages
import MarathonKit.Dialogue.Asks
import MarathonKit.Core.Descriptors
import MarathonKit.Sound.SoundTrack.WaysOut
import MarathonKit.Sound.SoundFile.Handles
import MarathonKit.Text.Answers
import MarathonKit.Core.Framing.Conversation
import MarathonKit.Core.Sockets
import MarathonKit.Text.Fields
import MarathonKit.Core.Log.ReadBack
import MarathonKit.DebugMacro
import MarathonKit.Sound.SoundTrack.Playback
import MarathonKit.Core.Messages.Lines
import MarathonKit.Dialogue.Faults
import MarathonKit.Core.Sockets.Limit
import MarathonKit.Core.Network.Transcript
