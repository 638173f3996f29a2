/-
Recordings that change after they were published.

Every recording of a user is uploaded to the same path, and every recording of any
answer to one and the same, so an upload replaces what earlier documents refer to.
`recordings_kept_iff` says that this is the only harm there is: a run keeps every
published recording exactly when no upload of a recording goes to a path that a
stored document refers to with other content.  Pictures are out of it, as no
recording is where a picture goes.
-/
import GoodThing.Controller.Media
import GoodThing.Proofs.Response

namespace GoodThing

open Firestore Machine

/-! ### Paths -/

/-- A path `uploadAudioToFirebase` uses. -/
def IsAudioPath (path : String) : Prop := ∃ screen userId, audioPath screen userId = some path

/-- No picture goes where recordings go. -/
theorem imagePath_not_audio (screen : Screen) (uuid : String) :
    ¬ IsAudioPath (imagePath screen uuid) := by
  intro h
  obtain ⟨screen', userId, hpath⟩ := h
  cases screen' with
  | post =>
      obtain ⟨user, -, heq⟩ := Option.map_eq_some_iff.mp hpath
      cases screen with
      | post => exact Text.append_ne_of_getElem? 0 rfl rfl (by decide) _ _ heq
      | reply => exact Text.append_ne_of_getElem? 0 rfl rfl (by decide) _ _ heq
  | reply =>
      have heq := Option.some.inj hpath
      cases screen with
      | post => exact Text.append_ne_of_getElem? 0 rfl rfl (by decide) _ _ heq
      | reply => exact Text.append_ne_of_getElem? 12 rfl rfl (by decide) _ _ heq

/-! ### The URL a document keeps -/

theorem taskVoice_postTask {form : TaskForm} {userId : Option String} {date id : String} {r : Rat}
    {d : Document} (h : postTask form userId date r id = some d) :
    d.string? "taskVoice" = form.recordingURL := by
  obtain ⟨_, _, _, -, -, -, hstores, -⟩ := postTask_stores h
  rw [Document.string?, hstores "taskVoice" (by simp [taskCodec])]
  cases form.recordingURL with
  | none => rfl
  | some url => rfl

theorem responseRecording_replyTask {form : ReplyForm} {task : Option GoodThingTasks}
    {userId : Option String} {taskId : String} {d : Document}
    (h : replyTask form task userId = some (taskId, d)) :
    d.string? "responseRecording" = some (form.recordingURL.getD "") := by
  obtain ⟨title, content, task, -, -, -, -, rfl⟩ := replyTask_eq h
  rfl

/-! ### Every recording is at an audio path -/

variable {D B : Type} {urls : StorageURLs}

/-- Wherever a path or a URL of a recording is kept, it is one of an upload. -/
structure AudioOnly (urls : StorageURLs) (s : MediaState D B) : Prop where
  uploading : ∀ x ∈ s.uploading, IsAudioPath x.2.2
  uploaded : ∀ x ∈ s.uploaded, IsAudioPath x.2.2
  fields : ∀ device screen url, s.recordingURL device screen = some url →
    ∃ path, IsAudioPath path ∧ url = urls.url path
  sending : ∀ x ∈ s.sending, ∀ path, recordingPath? urls x.1 x.2 = some path → IsAudioPath path
  stored : ∀ p ∈ s.stored, ∀ path, recordingPath? urls p.screen p.document = some path →
    IsAudioPath path

variable [DecidableEq D]

theorem setURL_eq_some {fields : D → Screen → Option String} {device device' : D}
    {screen screen' : Screen} {url : Option String} {u : String}
    (h : setURL fields device screen url device' screen' = some u) :
    url = some u ∨ fields device' screen' = some u := by
  unfold setURL at h
  by_cases hd : device' = device
  · subst hd
    rw [Function.update_self] at h
    by_cases hs : screen' = screen
    · subst hs
      rw [Function.update_self] at h
      exact Or.inl h
    · rw [Function.update_of_ne hs] at h
      exact Or.inr h
  · rw [Function.update_of_ne hd] at h
    exact Or.inr h

omit [DecidableEq D] in
/-- A document that is sent refers to the recording of its screen, or to none. -/
theorem AudioOnly.send {s : MediaState D B} (h : AudioOnly urls s) {screen : Screen} {d : Document}
    (device : D) (hd : ∀ url, d.string? screen.field = some url →
      s.recordingURL device screen = some url ∨ url = "") :
    AudioOnly urls { s with sending := s.sending ++ [(screen, d)] } := by
  refine ⟨h.uploading, h.uploaded, h.fields, ?_, h.stored⟩
  intro x hx path hpath
  rcases List.mem_append.mp hx with hold | hnew
  · exact h.sending x hold path hpath
  · rw [List.mem_singleton.mp hnew] at hpath
    obtain ⟨url, hurl, hurlpath⟩ := Option.bind_eq_some_iff.mp hpath
    rcases hd url hurl with hfield | hempty
    · obtain ⟨path', haudio, rfl⟩ := h.fields device screen url hfield
      rw [urls.path?_url] at hurlpath
      rw [← Option.some.inj hurlpath]
      exact haudio
    · rw [hempty, urls.path?_empty] at hurlpath
      cases hurlpath

/-- A field is cleared, or set to the URL of an upload. -/
theorem AudioOnly.fields_setURL {s : MediaState D B} (h : AudioOnly urls s) {device : D}
    {screen : Screen} {url : Option String}
    (hurl : ∀ u, url = some u → ∃ path, IsAudioPath path ∧ u = urls.url path)
    (device' : D) (screen' : Screen) (u : String)
    (hu : setURL s.recordingURL device screen url device' screen' = some u) :
    ∃ path, IsAudioPath path ∧ u = urls.url path := by
  rcases setURL_eq_some hu with hnew | hold
  · exact hurl u hnew
  · exact h.fields device' screen' u hold

theorem audioOnly_uploadAudio {s : MediaState D B} (h : AudioOnly urls s) (device : D)
    (screen : Screen) : AudioOnly urls (mediaStep urls s (.uploadAudio device screen)) := by
  simp only [mediaStep]
  split
  · rename_i path hpath
    refine ⟨?_, h.uploaded, h.fields, h.sending, h.stored⟩
    intro x hx
    rcases List.mem_cons.mp hx with rfl | hold
    · exact ⟨screen, s.userId device, hpath⟩
    · exact h.uploading x hold
  · exact h

/-- Everything `putFile` can do: the file goes to its path, or there is no such upload. -/
theorem putFile_cases (urls : StorageURLs) (s : MediaState D B) (device : D) (screen : Screen)
    (path : String) :
    (∃ content, (device, screen, path) ∈ s.uploading ∧ s.file device = some content ∧
      mediaStep urls s (.putFile device screen path) = { s with
        storage := Function.update s.storage path (some content)
        uploading := s.uploading.erase (device, screen, path)
        uploaded := (device, screen, path) :: s.uploaded }) ∨
    ((∀ content, (device, screen, path) ∈ s.uploading → s.file device ≠ some content) ∧
      mediaStep urls s (.putFile device screen path) = s) := by
  simp only [mediaStep]
  by_cases hmem : (device, screen, path) ∈ s.uploading
  · rw [if_pos hmem]
    cases hfile : s.file device with
    | some content => exact Or.inl ⟨content, hmem, rfl, rfl⟩
    | none => exact Or.inr ⟨fun content _ h => (nomatch h), rfl⟩
  · rw [if_neg hmem]
    exact Or.inr ⟨fun content h => absurd h hmem, rfl⟩

theorem audioOnly_putFile {s : MediaState D B} (h : AudioOnly urls s) (device : D) (screen : Screen)
    (path : String) : AudioOnly urls (mediaStep urls s (.putFile device screen path)) := by
  rcases putFile_cases urls s device screen path with ⟨content, hmem, -, heq⟩ | ⟨-, heq⟩
  · rw [heq]
    refine ⟨fun x hx => h.uploading x (List.mem_of_mem_erase hx), ?_, h.fields, h.sending, h.stored⟩
    intro x hx
    rcases List.mem_cons.mp hx with rfl | hold
    · exact h.uploading _ hmem
    · exact h.uploaded x hold
  · rw [heq]
    exact h

theorem audioOnly_downloadURL {s : MediaState D B} (h : AudioOnly urls s) (device : D)
    (screen : Screen) (path : String) :
    AudioOnly urls (mediaStep urls s (.downloadURL device screen path)) := by
  simp only [mediaStep]
  by_cases hmem : (device, screen, path) ∈ s.uploaded
  · rw [if_pos hmem]
    refine ⟨h.uploading, fun x hx => h.uploaded x (List.mem_of_mem_erase hx), h.fields_setURL ?_,
      h.sending, h.stored⟩
    intro u hu
    exact ⟨path, h.uploaded _ hmem, (Option.some.inj hu).symm⟩
  · rw [if_neg hmem]
    exact h

/-- A response refers to the recording of its screen, if there is one. -/
theorem audioOnly_replyTask {s : MediaState D B} (h : AudioOnly urls s) (device : D)
    (form : ReplyForm) (task : Option GoodThingTasks) :
    AudioOnly urls (mediaStep urls s (.replyTask device form task)) := by
  simp only [mediaStep]
  split
  · rename_i taskId d hd
    refine h.send device fun url hurl => ?_
    have hfield : some url = some ((s.recordingURL device .reply).getD "") :=
      hurl.symm.trans (responseRecording_replyTask hd)
    cases hrec : s.recordingURL device .reply with
    | some u =>
        rw [hrec] at hfield
        exact Or.inl hfield.symm
    | none =>
        rw [hrec] at hfield
        exact Or.inr (Option.some.inj hfield)
  · exact h

theorem audioOnly_setData {s : MediaState D B} (h : AudioOnly urls s) (i : Nat) :
    AudioOnly urls (mediaStep urls s (.setData i)) := by
  simp only [mediaStep]
  split
  · rename_i screen d hd
    refine ⟨h.uploading, h.uploaded, h.fields,
      fun x hx => h.sending x (List.mem_of_mem_eraseIdx hx), ?_⟩
    intro p hp path hpath
    rcases List.mem_cons.mp hp with rfl | hold
    · exact h.sending (screen, d) (List.mem_of_getElem? hd) path hpath
    · exact h.stored p hold path hpath
  · exact h

theorem audioOnly_step (s : MediaState D B) (a : MediaAction D B) (h : AudioOnly urls s) :
    AudioOnly urls (mediaStep urls s a) := by
  cases a with
  | signIn device userId => exact ⟨h.uploading, h.uploaded, h.fields, h.sending, h.stored⟩
  | configure device screen blank =>
      exact ⟨h.uploading, h.uploaded, h.fields_setURL fun u hu => (nomatch hu), h.sending, h.stored⟩
  | record device content => exact ⟨h.uploading, h.uploaded, h.fields, h.sending, h.stored⟩
  | uploadAudio device screen => exact audioOnly_uploadAudio h device screen
  | putFile device screen path => exact audioOnly_putFile h device screen path
  | downloadURL device screen path => exact audioOnly_downloadURL h device screen path
  | uploadImage device screen uuid imageData =>
      exact ⟨h.uploading, h.uploaded, h.fields, h.sending, h.stored⟩
  | downloadImageURL device screen path =>
      simp only [mediaStep]
      split
      · exact ⟨h.uploading, h.uploaded, h.fields, h.sending, h.stored⟩
      · exact h
  | postTask device form date randomValue id =>
      simp only [mediaStep]
      split
      · rename_i d hd
        refine h.send device fun url hurl => Or.inl ?_
        rw [← hurl]
        exact (taskVoice_postTask hd).symm
      · exact h
  | replyTask device form task => exact audioOnly_replyTask h device form task
  | setData i => exact audioOnly_setData h i

/-! ### Every run -/

/-- The recording of every stored document holds what it held when that was stored. -/
def RecordingsKept (urls : StorageURLs) (s : MediaState D B) : Prop :=
  ∀ p ∈ s.stored, recording? urls s.storage p.screen p.document = p.content

/--
An upload goes to a path no stored document refers to, or replaces what it refers
to by the same.
-/
def OverwritesNothing (urls : StorageURLs) (s : MediaState D B) (a : MediaAction D B) : Prop :=
  ∀ device screen path content, a = .putFile device screen path →
    (device, screen, path) ∈ s.uploading → s.file device = some content →
      ∀ p ∈ s.stored, recordingPath? urls p.screen p.document = some path →
        p.content = some content

omit [DecidableEq D] in
/-- Replacing the object at one path. -/
theorem recording?_update {storage : String → Option B} {path : String} {content : Option B}
    (screen : Screen) (d : Document) :
    recording? urls (Function.update storage path content) screen d =
      if recordingPath? urls screen d = some path then content
      else recording? urls storage screen d := by
  unfold recording?
  cases recordingPath? urls screen d with
  | none => simp
  | some path' =>
      by_cases hpath : path' = path
      · rw [hpath, if_pos rfl]
        exact Function.update_self path content storage
      · rw [if_neg fun h => hpath (Option.some.inj h)]
        exact Function.update_of_ne hpath content storage

/-- Every step but three leaves the objects and the stored documents alone. -/
theorem mediaStep_frame (s : MediaState D B) {a : MediaAction D B}
    (hput : ∀ device screen path, a ≠ .putFile device screen path)
    (himage : ∀ device screen uuid imageData, a ≠ .uploadImage device screen uuid imageData)
    (hset : ∀ i, a ≠ .setData i) :
    (mediaStep urls s a).storage = s.storage ∧ (mediaStep urls s a).stored = s.stored := by
  cases a with
  | signIn device userId => exact ⟨rfl, rfl⟩
  | configure device screen blank => exact ⟨rfl, rfl⟩
  | record device content => exact ⟨rfl, rfl⟩
  | uploadAudio device screen => simp only [mediaStep]; split <;> exact ⟨rfl, rfl⟩
  | putFile device screen path => exact absurd rfl (hput device screen path)
  | downloadURL device screen path => simp only [mediaStep]; split <;> exact ⟨rfl, rfl⟩
  | uploadImage device screen uuid imageData =>
      exact absurd rfl (himage device screen uuid imageData)
  | downloadImageURL device screen path => simp only [mediaStep]; split <;> exact ⟨rfl, rfl⟩
  | postTask device form date randomValue id =>
      simp only [mediaStep]
      split <;> exact ⟨rfl, rfl⟩
  | replyTask device form task => simp only [mediaStep]; split <;> exact ⟨rfl, rfl⟩
  | setData i => exact absurd rfl (hset i)

/-- A picture goes where no recording is. -/
theorem recordingsKept_uploadImage {s : MediaState D B} (haudio : AudioOnly urls s)
    (h : RecordingsKept urls s) (device : D) (screen : Screen) (uuid : String) (imageData : B) :
    RecordingsKept urls (mediaStep urls s (.uploadImage device screen uuid imageData)) := by
  intro p hp
  show recording? urls (Function.update s.storage (imagePath screen uuid) (some imageData))
    p.screen p.document = p.content
  rw [recording?_update, if_neg fun hpath =>
    imagePath_not_audio screen uuid (haudio.stored p hp _ hpath)]
  exact h p hp

/-- A document that is stored takes the content down as it is. -/
theorem recordingsKept_setData {s : MediaState D B} (h : RecordingsKept urls s) (i : Nat) :
    RecordingsKept urls (mediaStep urls s (.setData i)) := by
  simp only [mediaStep]
  split
  · intro p hp
    rcases List.mem_cons.mp hp with rfl | hold
    · rfl
    · exact h p hold
  · exact h

theorem recordingsKept_putFile_iff {s : MediaState D B} (h : RecordingsKept urls s) (device : D)
    (screen : Screen) (path : String) :
    RecordingsKept urls (mediaStep urls s (.putFile device screen path)) ↔
      OverwritesNothing urls s (.putFile device screen path) := by
  rcases putFile_cases urls s device screen path with
    ⟨content, hmem, hcontent, heq⟩ | ⟨hnone, heq⟩
  · rw [heq]
    refine ⟨?_, ?_⟩
    · intro hkept device' screen' path' content' ha _ hcontent' p hp hpath
      obtain ⟨rfl, rfl, rfl⟩ := MediaAction.putFile.inj ha
      obtain rfl : content = content' := Option.some.inj (hcontent.symm.trans hcontent')
      have hp' := hkept p hp
      rw [recording?_update, if_pos hpath] at hp'
      exact hp'.symm
    · intro hguard p hp
      rw [recording?_update]
      by_cases hpath : recordingPath? urls p.screen p.document = some path
      · rw [if_pos hpath]
        exact (hguard device screen path content rfl hmem hcontent p hp hpath).symm
      · rw [if_neg hpath]
        exact h p hp
  · rw [heq]
    refine ⟨?_, fun _ => h⟩
    intro _ device' screen' path' content ha hmem hcontent
    obtain ⟨rfl, rfl, rfl⟩ := MediaAction.putFile.inj ha
    exact absurd hcontent (hnone content hmem)

/-- Whether a step keeps every published recording. -/
theorem recordingsKept_step_iff (s : MediaState D B) (a : MediaAction D B)
    (haudio : AudioOnly urls s) (h : RecordingsKept urls s) :
    RecordingsKept urls (mediaStep urls s a) ↔ OverwritesNothing urls s a := by
  by_cases hput : ∃ device screen path, a = .putFile device screen path
  · obtain ⟨device, screen, path, rfl⟩ := hput
    exact recordingsKept_putFile_iff h device screen path
  · -- Nothing else overwrites a recording, and the guard asks for nothing.
    refine ⟨fun _ device screen path content ha => absurd ⟨device, screen, path, ha⟩ hput, ?_⟩
    intro _
    by_cases himage : ∃ device screen uuid imageData, a = .uploadImage device screen uuid imageData
    · obtain ⟨device, screen, uuid, imageData, rfl⟩ := himage
      exact recordingsKept_uploadImage haudio h device screen uuid imageData
    by_cases hset : ∃ i, a = .setData i
    · obtain ⟨i, rfl⟩ := hset
      exact recordingsKept_setData h i
    obtain ⟨hstorage, hstored⟩ : (mediaStep urls s a).storage = s.storage ∧
        (mediaStep urls s a).stored = s.stored := by
      refine mediaStep_frame s (fun device screen path ha => hput ⟨device, screen, path, ha⟩) ?_ ?_
      · intro device screen uuid imageData ha
        exact himage ⟨device, screen, uuid, imageData, ha⟩
      · intro i ha
        exact hset ⟨i, ha⟩
    intro p hp
    rw [hstored] at hp
    rw [hstorage]
    exact h p hp

/--
Every published recording holds what it held, in every state of a run, exactly when
no recording is uploaded to where a stored document's is, unless it is the same.
-/
theorem recordings_kept_iff (urls : StorageURLs) (as : List (MediaAction D B)) :
    Always (mediaStep urls) (RecordingsKept urls) (startMedia : MediaState D B) as ↔
      Guarded (mediaStep urls) (OverwritesNothing urls) startMedia as := by
  refine always_iff_guarded (J := AudioOnly urls) audioOnly_step recordingsKept_step_iff as ?_ ?_
  · exact ⟨fun x hx => absurd hx List.not_mem_nil, fun x hx => absurd hx List.not_mem_nil,
      fun device screen url hurl => (nomatch hurl), fun x hx => absurd hx List.not_mem_nil,
      fun p hp => absurd hp List.not_mem_nil⟩
  · intro p hp
    exact absurd hp List.not_mem_nil

/-- URLs as the storage service writes its own references. -/
def gsURLs : StorageURLs where
  url path := "gs://" ++ path
  path? url :=
    match url.toList with
    | 'g' :: 's' :: ':' :: '/' :: '/' :: path => some (String.ofList path)
    | _ => none
  path?_url := by
    intro path
    have hlist : ("gs://" ++ path).toList = 'g' :: 's' :: ':' :: '/' :: '/' :: path.toList := by
      rw [String.toList_append]
      rfl
    simp only [hlist, String.ofList_toList]
  path?_empty := rfl

/-- A greeting is recorded and posted, and the next recording is uploaded. -/
def twoRecordings : List (MediaAction Unit String) := [
  .signIn () (some "aaron"), .configure () .post "",
  .record () "早安", .uploadAudio () .post, .putFile () .post "audioFiles/aaron_MyAudioMemo.m4a",
  .downloadURL () .post "audioFiles/aaron_MyAudioMemo.m4a",
  .postTask () ⟨some "打招呼", some "跟鄰居說早安", none, none, false, "2023.10.14 20:15"⟩
    "2023.10.14" (1 / 2) "t1",
  .setData 0,
  .record () "晚安", .uploadAudio () .post, .putFile () .post "audioFiles/aaron_MyAudioMemo.m4a"]

/-- The posted task says something else now. -/
theorem recording_overwritten :
    ¬ Always (mediaStep gsURLs) (RecordingsKept gsURLs) startMedia twoRecordings := by
  intro h
  have hkept := h.last
  unfold RecordingsKept at hkept
  exact absurd hkept (by decide +kernel)

end GoodThing
