/-
Recordings and pictures: the uploads of `PostTaskViewController` and of
`ReplyTaskViewController`.

Both screens record into the same file of the device and upload it when the recorder
stops.  The object it becomes is named after the file and a user: the one who is
signed in, on the one screen, and `Aaron` on the other.  Pictures are named by a new
`UUID` each.  A document keeps the URL of its recording, not the recording.

`putFile` and `putData` replace the object at their path, and a download URL refers to
a path.  What the object behind a document's URL held when the document was stored is
kept along, for comparison.
-/
import GoodThing.Controller.Response

namespace GoodThing

open Firestore

/-- The two screens that record. -/
inductive Screen where
  | post
  | reply
  deriving DecidableEq

/-- The field that keeps the URL of the recording. -/
def Screen.field : Screen → String
  | .post => "taskVoice"
  | .reply => "responseRecording"

/-- `audioURL.lastPathComponent`, the same on both screens. -/
def audioFileName : String := "MyAudioMemo.m4a"

/-- Where `uploadAudioToFirebase` puts the recording, unless its guard returns first. -/
def audioPath : Screen → Option String → Option String
  | .post, userId => userId.map fun userId => "audioFiles/" ++ (userId ++ "_" ++ audioFileName)
  | .reply, _ => some ("taskResponseAudioFiles/" ++ ("Aaron" ++ "_" ++ audioFileName))

/-- Where `uploadImageToFirebase` puts a picture. -/
def imagePath : Screen → String → String
  | .post, uuid => "publicTaskImages/" ++ (uuid ++ ".jpg")
  | .reply, uuid => "taskResponseImages/" ++ (uuid ++ ".jpg")

/-- The download URLs of the storage service, and the paths they refer to. -/
structure StorageURLs where
  url : String → String
  path? : String → Option String
  path?_url : ∀ path, path? (url path) = some path
  path?_empty : path? "" = none

/-- A stored task or response, with what its recording held at that moment. -/
structure Published (B : Type) where
  screen : Screen
  document : Document
  content : Option B

/-- `B` is what a file or an object holds. -/
structure MediaState (D B : Type) where
  storage : String → Option B
  userId : D → Option String
  /-- The file the recorder writes. -/
  file : D → Option B
  recordingURL : D → Screen → Option String
  imageURL : D → Screen → Option String
  /-- Uploads of a recording that have begun, and those that wait for their URL. -/
  uploading : List (D × Screen × String)
  uploaded : List (D × Screen × String)
  /-- Pictures that wait for their URL. -/
  pictures : List (D × Screen × String)
  /-- Documents on their way. -/
  sending : List (Screen × Document)
  stored : List (Published B)

inductive MediaAction (D B : Type) where
  | signIn (device : D) (userId : Option String)
  /-- A screen opens; `configure` prepares the recorder, which starts a new file. -/
  | configure (device : D) (screen : Screen) (blank : B)
  | record (device : D) (content : B)
  /-- `audioRecorderDidFinishRecording` calls `uploadAudioToFirebase`. -/
  | uploadAudio (device : D) (screen : Screen)
  | putFile (device : D) (screen : Screen) (path : String)
  | downloadURL (device : D) (screen : Screen) (path : String)
  | uploadImage (device : D) (screen : Screen) (uuid : String) (imageData : B)
  | downloadImageURL (device : D) (screen : Screen) (path : String)
  | postTask (device : D) (form : TaskForm) (date : String) (randomValue : Rat) (id : String)
  | replyTask (device : D) (form : ReplyForm) (task : Option GoodThingTasks)
  /-- The document at this place among those on their way is stored. -/
  | setData (i : Nat)

def startMedia {D B : Type} : MediaState D B where
  storage := fun _ => none
  userId := fun _ => none
  file := fun _ => none
  recordingURL := fun _ _ => none
  imageURL := fun _ _ => none
  uploading := []
  uploaded := []
  pictures := []
  sending := []
  stored := []

section

variable {D B : Type} [DecidableEq D]

/-- One field of one screen on one device. -/
def setURL (urls : D → Screen → Option String) (device : D) (screen : Screen)
    (url : Option String) : D → Screen → Option String :=
  Function.update urls device (Function.update (urls device) screen url)

/-- The path of the recording a document refers to. -/
def recordingPath? (urls : StorageURLs) (screen : Screen) (d : Document) : Option String :=
  (d.string? screen.field).bind urls.path?

/-- What the object behind a document's recording holds. -/
def recording? (urls : StorageURLs) (storage : String → Option B) (screen : Screen)
    (d : Document) : Option B :=
  (recordingPath? urls screen d).bind storage

def mediaStep (urls : StorageURLs) (s : MediaState D B) : MediaAction D B → MediaState D B
  | .signIn device userId => { s with userId := Function.update s.userId device userId }
  | .configure device screen blank =>
      { s with
        file := Function.update s.file device (some blank)
        recordingURL := setURL s.recordingURL device screen none
        imageURL := setURL s.imageURL device screen none }
  | .record device content => { s with file := Function.update s.file device (some content) }
  | .uploadAudio device screen =>
      match audioPath screen (s.userId device) with
      | some path => { s with uploading := (device, screen, path) :: s.uploading }
      | none => s
  | .putFile device screen path =>
      if (device, screen, path) ∈ s.uploading then
        match s.file device with
        | some content =>
            { s with
              storage := Function.update s.storage path (some content)
              uploading := s.uploading.erase (device, screen, path)
              uploaded := (device, screen, path) :: s.uploaded }
        | none => s
      else s
  | .downloadURL device screen path =>
      if (device, screen, path) ∈ s.uploaded then
        { s with
          recordingURL := setURL s.recordingURL device screen (some (urls.url path))
          uploaded := s.uploaded.erase (device, screen, path) }
      else s
  | .uploadImage device screen uuid imageData =>
      { s with
        storage := Function.update s.storage (imagePath screen uuid) (some imageData)
        pictures := (device, screen, imagePath screen uuid) :: s.pictures }
  | .downloadImageURL device screen path =>
      if (device, screen, path) ∈ s.pictures then
        { s with
          imageURL := setURL s.imageURL device screen (some (urls.url path))
          pictures := s.pictures.erase (device, screen, path) }
      else s
  | .postTask device form date randomValue id =>
      let form := { form with
        recordingURL := s.recordingURL device .post, imageURL := s.imageURL device .post }
      match postTask form (s.userId device) date randomValue id with
      | some d => { s with sending := s.sending ++ [(.post, d)] }
      | none => s
  | .replyTask device form task =>
      let form := { form with
        recordingURL := s.recordingURL device .reply, imageURL := s.imageURL device .reply }
      match replyTask form task (s.userId device) with
      | some (_, d) => { s with sending := s.sending ++ [(.reply, d)] }
      | none => s
  | .setData i =>
      match s.sending[i]? with
      | some (screen, d) =>
          { s with
            sending := s.sending.eraseIdx i
            stored := ⟨screen, d, recording? urls s.storage screen d⟩ :: s.stored }
      | none => s

end

end GoodThing
