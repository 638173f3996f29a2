/-
Recording and playing: `stareRecord`, `storeRecord` and `play` of
`PostTaskViewController` and of `ReplyTaskViewController`.

The two controllers have the same code for it, line by line.  A recorder writes one file
of the device, a player plays what the file held when the player was made, and a timer
counts the seconds of either.  Three buttons work them, two of which are disabled at
times; the button for recording never is.

`record` on a recorder that has been stopped starts the file anew, on one that has been
paused it goes on.  Recordings are numbered, and the file holds the last one begun.  The
label that shows the seconds and the alerts are left out; where `uploadAudioToFirebase`
puts a recording is in `Controller/Media.lean`.
-/
import GoodThing.Lib.Run
import GoodThing.Lib.Timer

namespace GoodThing

open Timer

/-- What an `AVAudioRecorder` is doing. -/
inductive RecorderStatus where
  | stopped
  | recording
  | paused
  deriving DecidableEq

/-- An `AVAudioPlayer`, made out of this recording. -/
structure AudioPlayer where
  recording : Nat
  isPlaying : Bool
  deriving DecidableEq

structure RecorderState where
  storeEnabled : Bool
  playEnabled : Bool
  recorder : RecorderStatus
  /-- How many recordings have been begun. -/
  recordings : Nat
  /-- The recording in the file, if there is one. -/
  file : Option Nat
  audioPlayer : Option AudioPlayer
  timers : Host
  elapsedTimeInSecond : Nat
  /-- The recordings stored so far and sent by `uploadAudioToFirebase`, the last one first. -/
  stored : List Nat
  /-- Every playback started so far, with the recording stored last before. -/
  played : List (Nat × Option Nat)
  /-- A recording has been stored since the player was made. -/
  storedSincePlayer : Bool
  /-- Nothing has been started since `storeRecord`. -/
  atRest : Bool
  deriving DecidableEq

inductive RecorderAction where
  | stareRecord
  | storeRecord
  /-- The button is tapped; if there is no player yet, the file opens or does not. -/
  | play (opens : Bool)
  | audioPlayerDidFinishPlaying
  /-- A timer fires. -/
  | tick (t : Nat)

/-- `configure` disables two buttons and prepares the recorder. -/
def openRecorder : RecorderState where
  storeEnabled := false
  playEnabled := false
  recorder := .stopped
  recordings := 0
  file := none
  audioPlayer := none
  timers := .empty
  elapsedTimeInSecond := 0
  stored := []
  played := []
  storedSincePlayer := false
  atRest := false

namespace RecorderState

/-- Whether the player is playing. -/
def isPlaying (s : RecorderState) : Bool :=
  match s.audioPlayer with
  | some player => player.isPlaying
  | none => false

def startTimer (s : RecorderState) : RecorderState :=
  { s with timers := s.timers.schedule, atRest := false }

def pauseTimer (s : RecorderState) : RecorderState := { s with timers := s.timers.invalidate }

def resetTimer (s : RecorderState) : RecorderState :=
  { s with timers := s.timers.invalidate, elapsedTimeInSecond := 0 }

/-- The player stops or pauses; it stays where it is. -/
def haltPlayer (s : RecorderState) : RecorderState :=
  { s with audioPlayer := s.audioPlayer.map fun player => { player with isPlaying := false } }

/-- `audioRecorder.record()`. -/
def record (s : RecorderState) : RecorderState :=
  match s.recorder with
  | .stopped =>
      { s with
        recorder := .recording, recordings := s.recordings + 1, file := some s.recordings }
  | _ => { s with recorder := .recording }

/-- `audioRecorder?.stop()`; one that was recording or paused finishes its recording. -/
def stop (s : RecorderState) : RecorderState :=
  match s.recorder with
  | .stopped => s
  | _ =>
      { s with
        recorder := .stopped, stored := s.file.toList ++ s.stored
        storedSincePlayer := s.audioPlayer.isSome }

/-- `player.play()`. -/
def start (s : RecorderState) (player : AudioPlayer) : RecorderState :=
  { s with
    audioPlayer := some { player with isPlaying := true }
    played := (player.recording, s.stored.head?) :: s.played }

end RecorderState

open RecorderState

def stareRecord (s : RecorderState) : RecorderState :=
  let s := s.haltPlayer
  let s := if s.recorder = .recording then pauseTimer { s with recorder := .paused }
    else s.record.startTimer
  { s with storeEnabled := true, playEnabled := false }

def storeRecord (s : RecorderState) : RecorderState :=
  { s.stop.resetTimer with storeEnabled := false, playEnabled := true, atRest := true }

def play (s : RecorderState) (opens : Bool) : RecorderState :=
  match s.audioPlayer with
  | some player =>
      if player.isPlaying then s.haltPlayer.pauseTimer
      else (s.start player).startTimer
  | none =>
      match s.file, opens with
      | some recording, true =>
          { (s.start ⟨recording, false⟩).startTimer with storedSincePlayer := false }
      | _, _ => s

/-- Playback is over, and only then the delegate is called. -/
def audioPlayerDidFinishPlaying (s : RecorderState) : RecorderState :=
  if s.isPlaying then s.haltPlayer.resetTimer else s

/-- One tap on an enabled button, one callback or one tick. -/
def recorderStep (s : RecorderState) : RecorderAction → RecorderState
  | .stareRecord => stareRecord s
  | .storeRecord => if s.storeEnabled then storeRecord s else s
  | .play opens => if s.playEnabled then play s opens else s
  | .audioPlayerDidFinishPlaying => audioPlayerDidFinishPlaying s
  | .tick t =>
      if t ∈ s.timers.live then { s with elapsedTimeInSecond := s.elapsedTimeInSecond + 1 } else s

/-- A second in which nothing else happens: every timer that fires does so once. -/
def oneSecond (s : RecorderState) : RecorderState :=
  Machine.run recorderStep s (s.timers.live.map .tick)

end GoodThing
