/-
What the timer counts, and what the player plays.

Two buttons are disabled at times, and that keeps the recorder and the player apart:
while there is something to play the recorder stands still, and while there is something
to store the player does.  Only the button for recording works during a playback.

  * A tap on it then stops the player and schedules a timer, while the timer of the
    playback goes on and can no longer be stopped.
  * The player is made by the first tap that needs one and kept from then on, whatever
    is recorded and stored later.
-/
import GoodThing.Controller.Recorder

namespace GoodThing

open Machine Timer RecorderState

/-! ### What a step can do -/

/-- What the disabled buttons guarantee. -/
structure Controls (s : RecorderState) : Prop where
  playing : s.isPlaying = true → s.playEnabled = true
  playEnabled : s.playEnabled = true → s.recorder = .stopped ∧ s.storeEnabled = false
  storeEnabled : s.storeEnabled = true → s.recorder ≠ .stopped
  atRest : s.atRest = true → s.recorder ≠ .recording ∧ s.isPlaying = false

theorem isPlaying_haltPlayer (s : RecorderState) : s.haltPlayer.isPlaying = false := by
  unfold haltPlayer isPlaying
  cases s.audioPlayer with
  | none => rfl
  | some player => rfl

theorem timers_record (s : RecorderState) : s.record.timers = s.timers := by
  unfold record
  cases s.recorder with
  | stopped => rfl
  | recording => rfl
  | paused => rfl

/-- Stopping a recorder that is not stopped finishes a recording. -/
theorem stop_of_ne {s : RecorderState} (h : s.recorder ≠ .stopped) :
    s.stop = { s with
      recorder := .stopped, stored := s.file.toList ++ s.stored
      storedSincePlayer := s.audioPlayer.isSome } := by
  unfold stop
  cases hrec : s.recorder with
  | stopped => exact absurd hrec h
  | recording => rfl
  | paused => rfl

/-- The button pauses a playback, or starts one with the player there is or a new one. -/
theorem play_cases (s : RecorderState) (opens : Bool) :
    (s.audioPlayer = none ∧ play s opens = s) ∨
    (s.isPlaying = true ∧ play s opens = { s.haltPlayer with timers := s.timers.invalidate }) ∨
    (∃ player storedSincePlayer, player.isPlaying = false ∧
      (s.audioPlayer = some player ∧ storedSincePlayer = s.storedSincePlayer ∨
        s.audioPlayer = none ∧ s.file = some player.recording ∧ storedSincePlayer = false) ∧
      play s opens = { s.start player with
        timers := s.timers.schedule, atRest := false
        storedSincePlayer := storedSincePlayer }) := by
  unfold play
  cases hplayer : s.audioPlayer with
  | some player =>
      by_cases h : player.isPlaying = true
      · refine Or.inr (Or.inl ⟨?_, ?_⟩)
        · simp only [isPlaying, hplayer, h]
        · simp only [if_pos h]
          rfl
      · refine Or.inr (Or.inr ⟨player, s.storedSincePlayer, by simpa using h, ?_, ?_⟩)
        · exact Or.inl ⟨rfl, rfl⟩
        · simp only [if_neg h]
          rfl
  | none =>
      cases hfile : s.file with
      | none => exact Or.inl ⟨rfl, rfl⟩
      | some recording =>
          cases opens with
          | false => exact Or.inl ⟨rfl, rfl⟩
          | true =>
              exact Or.inr (Or.inr ⟨⟨recording, false⟩, false, rfl,
                Or.inr ⟨rfl, rfl, rfl⟩, rfl⟩)

/--
Everything a step can do.  Nothing happens when a button is disabled, the file does not
open, no playback is there to finish or the timer has been stopped.
-/
theorem recorderStep_cases (s : RecorderState) (a : RecorderAction) (hc : Controls s) :
    (a ≠ .stareRecord ∧
      ((∃ opens, a = .play opens) → s.playEnabled = true → s.audioPlayer = none) ∧
      recorderStep s a = s) ∨
    (∃ t ∈ s.timers.live, a = .tick t ∧
      recorderStep s a = { s with elapsedTimeInSecond := s.elapsedTimeInSecond + 1 }) ∨
    (a = .stareRecord ∧ s.recorder = .recording ∧
      recorderStep s a = { s.haltPlayer with
        recorder := .paused, timers := s.timers.invalidate
        storeEnabled := true, playEnabled := false }) ∨
    (a = .stareRecord ∧ s.recorder ≠ .recording ∧
      recorderStep s a = { s.haltPlayer.record with
        timers := s.timers.schedule, atRest := false
        storeEnabled := true, playEnabled := false }) ∨
    (a = .storeRecord ∧ s.storeEnabled = true ∧
      recorderStep s a = { s with
        recorder := .stopped, stored := s.file.toList ++ s.stored
        storedSincePlayer := s.audioPlayer.isSome
        timers := s.timers.invalidate, elapsedTimeInSecond := 0
        storeEnabled := false, playEnabled := true, atRest := true }) ∨
    ((∃ opens, a = .play opens) ∧ s.playEnabled = true ∧ s.isPlaying = true ∧
      recorderStep s a = { s.haltPlayer with timers := s.timers.invalidate }) ∨
    (∃ player storedSincePlayer, (∃ opens, a = .play opens) ∧ s.playEnabled = true ∧
      player.isPlaying = false ∧
      (s.audioPlayer = some player ∧ storedSincePlayer = s.storedSincePlayer ∨
        s.audioPlayer = none ∧ s.file = some player.recording ∧ storedSincePlayer = false) ∧
      recorderStep s a = { s.start player with
        timers := s.timers.schedule, atRest := false
        storedSincePlayer := storedSincePlayer }) ∨
    (a = .audioPlayerDidFinishPlaying ∧ s.isPlaying = true ∧
      recorderStep s a = { s.haltPlayer with
        timers := s.timers.invalidate, elapsedTimeInSecond := 0 }) := by
  cases a with
  | stareRecord =>
      refine Or.inr (Or.inr ?_)
      by_cases h : s.recorder = .recording
      · refine Or.inl ⟨rfl, h, ?_⟩
        have h' : s.haltPlayer.recorder = .recording := h
        simp only [recorderStep, stareRecord, if_pos h']
        rfl
      · refine Or.inr (Or.inl ⟨rfl, h, ?_⟩)
        have h' : ¬ s.haltPlayer.recorder = .recording := h
        simp only [recorderStep, stareRecord, if_neg h', startTimer, timers_record]
        rfl
  | storeRecord =>
      by_cases h : s.storeEnabled = true
      · refine Or.inr (Or.inr (Or.inr (Or.inr (Or.inl ⟨rfl, h, ?_⟩))))
        simp only [recorderStep, if_pos h, storeRecord, stop_of_ne (hc.storeEnabled h), resetTimer]
      · exact Or.inl ⟨nofun, nofun, by simp only [recorderStep, if_neg h]⟩
  | play opens =>
      by_cases h : s.playEnabled = true
      · have heq : recorderStep s (.play opens) = play s opens := by
          simp only [recorderStep, if_pos h]
        rw [heq]
        refine (play_cases s opens).imp (fun hsame => ⟨nofun, fun _ _ => hsame.1, hsame.2⟩) ?_
        intro hplay
        refine Or.inr (Or.inr (Or.inr (Or.inr ?_)))
        rcases hplay with ⟨hplaying, hnext⟩ | ⟨player, since, hhalted, hplayer, hnext⟩
        · exact Or.inl ⟨⟨opens, rfl⟩, h, hplaying, hnext⟩
        · exact Or.inr (Or.inl ⟨player, since, ⟨opens, rfl⟩, h, hhalted, hplayer, hnext⟩)
      · exact Or.inl ⟨nofun, fun _ h' => absurd h' h, by simp only [recorderStep, if_neg h]⟩
  | audioPlayerDidFinishPlaying =>
      by_cases h : s.isPlaying = true
      · refine Or.inr (Or.inr (Or.inr (Or.inr (Or.inr (Or.inr (Or.inr ⟨rfl, h, ?_⟩))))))
        simp only [recorderStep, audioPlayerDidFinishPlaying, if_pos h]
        rfl
      · refine Or.inl ⟨nofun, nofun, ?_⟩
        simp only [recorderStep, audioPlayerDidFinishPlaying, if_neg h]
  | tick t =>
      by_cases h : t ∈ s.timers.live
      · refine Or.inr (Or.inl ⟨t, h, rfl, ?_⟩)
        simp only [recorderStep, if_pos h]
      · exact Or.inl ⟨nofun, nofun, by simp only [recorderStep, if_neg h]⟩

theorem isPlaying_record (s : RecorderState) : s.record.isPlaying = s.isPlaying := by
  unfold record
  cases s.recorder with
  | stopped => rfl
  | recording => rfl
  | paused => rfl

theorem recorder_record (s : RecorderState) : s.record.recorder = .recording := by
  unfold record
  cases s.recorder with
  | stopped => rfl
  | recording => rfl
  | paused => rfl

theorem controls_step (s : RecorderState) (a : RecorderAction) (hc : Controls s) :
    Controls (recorderStep s a) := by
  have hhalt : ¬ s.haltPlayer.isPlaying = true := by
    rw [isPlaying_haltPlayer]
    exact Bool.false_ne_true
  rcases recorderStep_cases s a hc with ⟨-, -, heq⟩ | ⟨t, -, -, heq⟩ | ⟨-, -, heq⟩ | ⟨-, -, heq⟩ |
    ⟨-, hstore, heq⟩ | ⟨-, henabled, -, heq⟩ | ⟨player, since, -, henabled, -, -, heq⟩ |
    ⟨-, hplaying, heq⟩
  · rw [heq]
    exact hc
  · rw [heq]
    exact ⟨hc.playing, hc.playEnabled, hc.storeEnabled, hc.atRest⟩
  · rw [heq]
    refine ⟨fun h => absurd h hhalt, nofun, fun _ => nofun, ?_⟩
    intro _
    exact ⟨nofun, isPlaying_haltPlayer s⟩
  · rw [heq]
    have hrec := recorder_record s.haltPlayer
    have hplay : ¬ s.haltPlayer.record.isPlaying = true := by
      rw [isPlaying_record]
      exact hhalt
    refine ⟨fun h => absurd h hplay, nofun, ?_, nofun⟩
    intro _ hstopped
    have hstopped' : s.haltPlayer.record.recorder = .stopped := hstopped
    rw [hrec] at hstopped'
    cases hstopped'
  · rw [heq]
    refine ⟨fun _ => rfl, fun _ => ⟨rfl, rfl⟩, nofun, ?_⟩
    intro _
    refine ⟨nofun, ?_⟩
    -- Nothing plays while there is something to store.
    show s.isPlaying = false
    by_contra hplaying
    have henabled := hc.playing (by simpa using hplaying)
    rw [(hc.playEnabled henabled).2] at hstore
    cases hstore
  · rw [heq]
    exact ⟨fun h => absurd h hhalt, hc.playEnabled, hc.storeEnabled,
      fun h => ⟨(hc.atRest h).1, isPlaying_haltPlayer s⟩⟩
  · rw [heq]
    exact ⟨fun _ => henabled, hc.playEnabled, hc.storeEnabled, nofun⟩
  · rw [heq]
    exact ⟨fun h => absurd h hhalt, hc.playEnabled, hc.storeEnabled,
      fun h => ⟨(hc.atRest h).1, isPlaying_haltPlayer s⟩⟩

theorem controls_openRecorder : Controls openRecorder := ⟨nofun, nofun, nofun, nofun⟩

/-! ### The timer -/

/-- Ticks of timers that fire count one each. -/
theorem elapsed_ticks :
    ∀ (ts : List Nat) (s : RecorderState), (∀ t ∈ ts, t ∈ s.timers.live) →
      (run recorderStep s (ts.map .tick)).elapsedTimeInSecond
        = s.elapsedTimeInSecond + ts.length := by
  intro ts
  induction ts with
  | nil => intro s _; rfl
  | cons t rest ih =>
      intro s hlive
      have hstep : recorderStep s (.tick t)
          = { s with elapsedTimeInSecond := s.elapsedTimeInSecond + 1 } := by
        simp only [recorderStep, if_pos (hlive t List.mem_cons_self)]
      have hrest := ih { s with elapsedTimeInSecond := s.elapsedTimeInSecond + 1 }
        fun t' ht' => hlive t' (List.mem_cons_of_mem t ht')
      rw [List.map_cons, run_cons, hstep, hrest, List.length_cons]
      show s.elapsedTimeInSecond + 1 + rest.length = _
      omega

theorem elapsed_oneSecond (s : RecorderState) :
    (oneSecond s).elapsedTimeInSecond = s.elapsedTimeInSecond + s.timers.live.length :=
  elapsed_ticks s.timers.live s fun _ ht => ht

/--
One timer fires, the one in the property, while the recorder records or the player plays,
and none otherwise; a second counts once at most, and not at all after `storeRecord`.
-/
structure OneTimer (s : RecorderState) : Prop where
  sole : s.timers.Sole (s.recorder = .recording ∨ s.isPlaying = true)
  oneSecond : (oneSecond s).elapsedTimeInSecond ≤ s.elapsedTimeInSecond + 1
  atRest : s.atRest = true → s.elapsedTimeInSecond = 0

/-- The button for recording is not tapped during a playback. -/
def NotDuringPlayback (s : RecorderState) (a : RecorderAction) : Prop :=
  a = .stareRecord → s.isPlaying = false

theorem oneTimer_of_sole {s : RecorderState}
    (hsole : s.timers.Sole (s.recorder = .recording ∨ s.isPlaying = true))
    (hrest : s.atRest = true → s.elapsedTimeInSecond = 0) : OneTimer s := by
  refine ⟨hsole, ?_, hrest⟩
  have hlen := hsole.length_le
  rw [elapsed_oneSecond]
  omega

/-- There is nothing to play while the recorder records. -/
theorem Controls.recorder_ne {s : RecorderState} (hc : Controls s) (h : s.playEnabled = true) :
    s.recorder ≠ .recording := by
  rw [(hc.playEnabled h).1]
  nofun

/-- A recorder that does not record and a player that has been stopped are both at rest. -/
theorem not_working_haltPlayer {s : RecorderState} {status : RecorderStatus}
    (h : status ≠ .recording) : ¬ (status = .recording ∨ s.haltPlayer.isPlaying = true) := by
  rintro (hon | hon)
  · exact h hon
  · exact Bool.false_ne_true ((isPlaying_haltPlayer s).symm.trans hon)

theorem oneTimer_step_iff (s : RecorderState) (a : RecorderAction) (hc : Controls s)
    (h : OneTimer s) : OneTimer (recorderStep s a) ↔ NotDuringPlayback s a := by
  have hstopped := h.sole.live_invalidate
  rcases recorderStep_cases s a hc with ⟨hne, -, heq⟩ | ⟨t, ht, rfl, heq⟩ | ⟨rfl, hrec, heq⟩ |
    ⟨rfl, hrec, heq⟩ | ⟨rfl, hstore, heq⟩ | ⟨⟨opens, rfl⟩, henabled, hplaying, heq⟩ |
    ⟨player, since, ⟨opens, rfl⟩, henabled, hhalted, hplayer, heq⟩ | ⟨rfl, hplaying, heq⟩
  · rw [heq]
    exact ⟨fun _ ha => absurd ha hne, fun _ => h⟩
  · rw [heq]
    refine ⟨fun _ => nofun, fun _ => oneTimer_of_sole h.sole ?_⟩
    intro hrest
    -- A timer fires, so the recorder or the player is at work.
    obtain ⟨hrec, hplay⟩ := hc.atRest hrest
    rcases h.sole.fires_iff.mp (List.ne_nil_of_mem ht) with hon | hon
    · exact absurd hon hrec
    · rw [hplay] at hon
      cases hon
  · rw [heq]
    have hidle : s.isPlaying = false := by
      by_contra hplaying
      exact hc.recorder_ne (hc.playing (by simpa using hplaying)) hrec
    refine ⟨fun _ _ => hidle, fun _ => oneTimer_of_sole (Host.sole_of_nil hstopped ?_) h.atRest⟩
    exact not_working_haltPlayer nofun
  · rw [heq]
    have hon : s.haltPlayer.record.recorder = .recording ∨ s.haltPlayer.record.isPlaying = true :=
      Or.inl (recorder_record s.haltPlayer)
    refine ⟨?_, ?_⟩
    · intro hnext _
      have hnil : s.timers.live = [] := (Host.sole_schedule_iff hon).mp hnext.sole
      by_contra hplaying
      exact h.sole.fires_iff.mpr (Or.inr (by simpa using hplaying)) hnil
    · intro hguard
      have hnil : s.timers.live = [] := by
        refine h.sole.live_eq_nil ?_
        rintro (hon' | hon')
        · exact hrec hon'
        · rw [hguard rfl] at hon'
          cases hon'
      exact oneTimer_of_sole ((Host.sole_schedule_iff hon).mpr hnil) nofun
  · rw [heq]
    refine ⟨fun _ => nofun, ?_⟩
    intro _
    refine oneTimer_of_sole (Host.sole_of_nil hstopped ?_) fun _ => rfl
    rintro (hon | hon)
    · cases hon
    · have henabled := hc.playing hon
      rw [(hc.playEnabled henabled).2] at hstore
      cases hstore
  · rw [heq]
    refine ⟨fun _ => nofun, fun _ => oneTimer_of_sole (Host.sole_of_nil hstopped ?_) h.atRest⟩
    exact not_working_haltPlayer (hc.recorder_ne henabled)
  · rw [heq]
    refine ⟨fun _ => nofun, ?_⟩
    intro _
    have hnil : s.timers.live = [] := by
      refine h.sole.live_eq_nil ?_
      rintro (hon | hon)
      · exact hc.recorder_ne henabled hon
      · rcases hplayer with ⟨hsome, -⟩ | ⟨hnone, -⟩
        · simp only [isPlaying, hsome, hhalted] at hon
          cases hon
        · simp only [isPlaying, hnone] at hon
          cases hon
    exact oneTimer_of_sole ((Host.sole_schedule_iff (Or.inr rfl)).mpr hnil) nofun
  · rw [heq]
    refine ⟨fun _ => nofun, ?_⟩
    intro _
    refine oneTimer_of_sole (Host.sole_of_nil hstopped ?_) fun _ => rfl
    exact not_working_haltPlayer (hc.recorder_ne (hc.playing hplaying))

theorem oneTimer_openRecorder : OneTimer openRecorder := by
  refine oneTimer_of_sole (Host.sole_of_nil rfl ?_) nofun
  rintro (hon | hon)
  · cases hon
  · cases hon

/--
There is one timer at a time, in every state of a run, exactly when the button for
recording is never tapped during a playback.
-/
theorem one_timer_iff (as : List RecorderAction) :
    Always recorderStep OneTimer openRecorder as ↔
      Guarded recorderStep NotDuringPlayback openRecorder as :=
  always_iff_guarded controls_step oneTimer_step_iff as controls_openRecorder
    oneTimer_openRecorder

/-- Somebody records, stores, plays and records again while it plays: two timers fire. -/
theorem two_timers :
    ¬ Always recorderStep OneTimer openRecorder
      [.stareRecord, .storeRecord, .play true, .stareRecord] := by
  intro h
  have hlen := h.last.sole.length_le
  revert hlen
  decide

/-! ### The player -/

/-- How the recordings in the file, in the player and in store hang together. -/
structure Takes (s : RecorderState) : Prop where
  controls : Controls s
  made : ∀ player, s.audioPlayer = some player → player.recording < s.recordings
  /-- What is being recorded is newer than what the player was made of. -/
  writing : s.recorder ≠ .stopped → ∃ n, s.file = some n ∧ n < s.recordings ∧
    ∀ player, s.audioPlayer = some player → player.recording < n
  playable : s.playEnabled = true → ∃ n, s.file = some n ∧ n < s.recordings ∧
    s.stored.head? = some n
  current : ∀ player, s.audioPlayer = some player →
    (s.stored.head? = some player.recording ↔ s.storedSincePlayer = false)

/-- Every playback was of the recording stored last before it. -/
def LatestPlayed (s : RecorderState) : Prop := ∀ p ∈ s.played, p.2 = some p.1

/-- No playback starts with a player made before the last `storeRecord`. -/
def FreshPlayer (s : RecorderState) (a : RecorderAction) : Prop :=
  ∀ opens, a = .play opens → s.playEnabled = true → ∀ player, s.audioPlayer = some player →
    player.isPlaying = false → s.storedSincePlayer = false

/-- A player that stops is still made of the same recording. -/
theorem recording_haltPlayer {s : RecorderState} {P : Nat → Prop}
    (h : ∀ player, s.audioPlayer = some player → P player.recording) :
    ∀ player, s.haltPlayer.audioPlayer = some player → P player.recording := by
  intro player hplayer
  obtain ⟨old, hold, rfl⟩ := Option.map_eq_some_iff.mp hplayer
  exact h old hold

/-- Starting to record, or going on with it. -/
theorem record_cases (s : RecorderState) :
    (s.recorder = .stopped ∧ s.record = { s with
      recorder := .recording, recordings := s.recordings + 1, file := some s.recordings }) ∨
    (s.recorder ≠ .stopped ∧ s.record = { s with recorder := .recording }) := by
  unfold record
  cases h : s.recorder with
  | stopped => exact Or.inl ⟨rfl, rfl⟩
  | recording => exact Or.inr ⟨nofun, rfl⟩
  | paused => exact Or.inr ⟨nofun, rfl⟩

theorem takes_step (s : RecorderState) (a : RecorderAction) (h : Takes s) :
    Takes (recorderStep s a) := by
  have hc := controls_step s a h.controls
  have hmade := recording_haltPlayer (P := fun n => n < s.recordings) h.made
  have hcurrent := recording_haltPlayer
    (P := fun n => s.stored.head? = some n ↔ s.storedSincePlayer = false) h.current
  rcases recorderStep_cases s a h.controls with ⟨-, -, heq⟩ | ⟨t, -, -, heq⟩ | ⟨-, hrec, heq⟩ |
    ⟨-, -, heq⟩ | ⟨-, hstore, heq⟩ | ⟨-, henabled, -, heq⟩ |
    ⟨player, since, -, henabled, -, hplayer, heq⟩ | ⟨-, hplaying, heq⟩
  · rw [heq]
    exact h
  · rw [heq] at hc ⊢
    exact ⟨hc, h.made, h.writing, h.playable, h.current⟩
  · rw [heq] at hc ⊢
    obtain ⟨n, hn, hlt, hnewer⟩ := h.writing (by rw [hrec]; nofun)
    have hnewer' := recording_haltPlayer (P := fun m => m < n) hnewer
    exact ⟨hc, hmade, fun _ => ⟨n, hn, hlt, hnewer'⟩, nofun, hcurrent⟩
  · rw [heq] at hc ⊢
    rcases record_cases s.haltPlayer with ⟨-, hrecord⟩ | ⟨hrec, hrecord⟩
    · -- A new recording, with a number of its own.
      rw [hrecord] at hc ⊢
      refine ⟨hc, ?_, ?_, nofun, hcurrent⟩
      · intro player hplayer
        exact Nat.lt_succ_of_lt (hmade player hplayer)
      · intro _
        exact ⟨s.recordings, rfl, Nat.lt_succ_self _, hmade⟩
    · rw [hrecord] at hc ⊢
      obtain ⟨n, hn, hlt, hnewer⟩ := h.writing hrec
      have hnewer' := recording_haltPlayer (P := fun m => m < n) hnewer
      exact ⟨hc, hmade, fun _ => ⟨n, hn, hlt, hnewer'⟩, nofun, hcurrent⟩
  · rw [heq] at hc ⊢
    obtain ⟨n, hn, hlt, hnewer⟩ := h.writing (h.controls.storeEnabled hstore)
    have hhead : (s.file.toList ++ s.stored).head? = some n := by
      rw [hn]
      rfl
    refine ⟨hc, h.made, fun hne => absurd rfl hne, fun _ => ⟨n, hn, hlt, hhead⟩, ?_⟩
    intro player hplayer
    have hplayer' : s.audioPlayer = some player := hplayer
    show (s.file.toList ++ s.stored).head? = some player.recording ↔
      s.audioPlayer.isSome = false
    rw [hhead, hplayer']
    refine ⟨?_, nofun⟩
    intro hsame
    have hlt' := hnewer player hplayer'
    rw [Option.some.inj hsame] at hlt'
    exact absurd hlt' (Nat.lt_irrefl _)
  · rw [heq] at hc ⊢
    have hstopped := (h.controls.playEnabled henabled).1
    exact ⟨hc, hmade, fun hne => absurd hstopped hne, h.playable, hcurrent⟩
  · rw [heq] at hc ⊢
    obtain ⟨n, hn, hlt, hhead⟩ := h.playable henabled
    have hstopped := (h.controls.playEnabled henabled).1
    have hthis : player.recording < s.recordings ∧
        (s.stored.head? = some player.recording ↔ since = false) := by
      rcases hplayer with ⟨hsome, rfl⟩ | ⟨-, hfile, rfl⟩
      · exact ⟨h.made player hsome, h.current player hsome⟩
      · obtain rfl : n = player.recording := Option.some.inj (hn.symm.trans hfile)
        exact ⟨hlt, fun _ => rfl, fun _ => hhead⟩
    refine ⟨hc, ?_, fun hne => absurd hstopped hne, fun _ => ⟨n, hn, hlt, hhead⟩, ?_⟩
    · intro player' hplayer'
      obtain rfl := Option.some.inj hplayer'
      exact hthis.1
    · intro player' hplayer'
      obtain rfl := Option.some.inj hplayer'
      exact hthis.2
  · rw [heq] at hc ⊢
    have hstopped := (h.controls.playEnabled (h.controls.playing hplaying)).1
    exact ⟨hc, hmade, fun hne => absurd hstopped hne, h.playable, hcurrent⟩

theorem takes_openRecorder : Takes openRecorder :=
  ⟨controls_openRecorder, nofun, fun h => absurd rfl h, nofun, nofun⟩

/-- Only a playback that starts can be of the wrong recording. -/
theorem latestPlayed_step_iff (s : RecorderState) (a : RecorderAction) (ht : Takes s)
    (h : LatestPlayed s) : LatestPlayed (recorderStep s a) ↔ FreshPlayer s a := by
  rcases recorderStep_cases s a ht.controls with ⟨-, hidle, heq⟩ | ⟨t, -, rfl, heq⟩ |
    ⟨rfl, -, heq⟩ | ⟨rfl, -, heq⟩ | ⟨rfl, -, heq⟩ | ⟨⟨opens, rfl⟩, -, hplaying, heq⟩ |
    ⟨player, since, ⟨opens, rfl⟩, henabled, hhalted, hplayer, heq⟩ | ⟨rfl, -, heq⟩
  · rw [heq]
    refine ⟨?_, fun _ => h⟩
    intro _ opens ha henabled player hplayer
    rw [hidle ⟨opens, ha⟩ henabled] at hplayer
    cases hplayer
  · rw [heq]
    exact ⟨fun _ => nofun, fun _ => h⟩
  · rw [heq]
    exact ⟨fun _ => nofun, fun _ => h⟩
  · rw [heq]
    refine ⟨fun _ => nofun, ?_⟩
    intro _
    show ∀ p ∈ s.haltPlayer.record.played, p.2 = some p.1
    rcases record_cases s.haltPlayer with ⟨-, hrecord⟩ | ⟨-, hrecord⟩
    · rw [hrecord]
      exact h
    · rw [hrecord]
      exact h
  · rw [heq]
    exact ⟨fun _ => nofun, fun _ => h⟩
  · rw [heq]
    refine ⟨?_, fun _ => h⟩
    intro _ _ _ _ player hplayer hhalted
    simp only [isPlaying, hplayer, hhalted] at hplaying
    cases hplaying
  · rw [heq]
    have hnext : LatestPlayed { s.start player with
        timers := s.timers.schedule, atRest := false, storedSincePlayer := since } ↔
        s.stored.head? = some player.recording := by
      refine ⟨fun hall => hall _ List.mem_cons_self, ?_⟩
      intro hhead p hp
      rcases List.mem_cons.mp hp with rfl | hold
      · exact hhead
      · exact h p hold
    rw [hnext]
    rcases hplayer with ⟨hsome, -⟩ | ⟨hnone, hfile, -⟩
    · rw [ht.current player hsome]
      refine ⟨fun hfresh _ _ _ _ _ _ => hfresh, ?_⟩
      intro hfresh
      exact hfresh opens rfl henabled player hsome hhalted
    · -- A new player is made of what was stored last.
      obtain ⟨n, hn, -, hhead⟩ := ht.playable henabled
      refine ⟨?_, fun _ => by rw [hhead, ← hn, hfile]⟩
      intro _ _ _ _ player' hplayer'
      rw [hnone] at hplayer'
      cases hplayer'
  · rw [heq]
    exact ⟨fun _ => nofun, fun _ => h⟩

/--
Every playback is of the recording stored last, in every state of a run, exactly when
none starts with a player made before the last `storeRecord`.
-/
theorem latest_recording_played_iff (as : List RecorderAction) :
    Always recorderStep LatestPlayed openRecorder as ↔
      Guarded recorderStep FreshPlayer openRecorder as :=
  always_iff_guarded takes_step latestPlayed_step_iff as takes_openRecorder nofun

/-- Somebody listens to a recording, makes another and listens again: it is the first. -/
theorem first_recording_played :
    ¬ Always recorderStep LatestPlayed openRecorder
      [.stareRecord, .storeRecord, .play true, .audioPlayerDidFinishPlaying,
        .stareRecord, .storeRecord, .play true] := by
  intro h
  have hlast := h.last (0, some 1) (by decide)
  cases hlast

end GoodThing
