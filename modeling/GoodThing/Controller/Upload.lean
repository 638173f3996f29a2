/-
Picking a picture: `imagePickerController` and `uploadImageToFirebase` of
`PostTaskViewController`, `ReplyTaskViewController` and `PostMemoryViewController`.

The three screens do the same.  Every picture that is picked is uploaded under a new
name at once; when the upload is through, its URL is asked for, and when that comes,
it is kept in the screen's one `imageURL`.  Posting takes what is there at that moment.
They differ in the folder, in the document they store and in its field for the picture.
-/
import GoodThing.Controller.Media
import GoodThing.Controller.Memory

namespace GoodThing

open Firestore

/-- A screen that posts a picture; `F` is everything else it posts. -/
structure ImageScreen (F : Type) where
  /-- Where `uploadImageToFirebase` puts a picture. -/
  path : String → String
  /-- The document stored, unless a guard returns first. -/
  post : F → Option String → Option Document
  /-- The field that keeps the URL of the picture. -/
  field : String

/-- What `postTask` reads besides the picture. -/
structure TaskPost where
  form : TaskForm
  userId : Option String
  date : String
  randomValue : Rat
  id : String

def postTaskScreen : ImageScreen TaskPost where
  path := imagePath .post
  post t imageURL :=
    postTask { t.form with imageURL := imageURL } t.userId t.date t.randomValue t.id
  field := "taskImage"

/-- What `replyTask` reads besides the picture. -/
structure TaskReply where
  form : ReplyForm
  task : Option GoodThingTasks
  userId : Option String

def replyTaskScreen : ImageScreen TaskReply where
  path := imagePath .reply
  post r imageURL := (replyTask { r.form with imageURL := imageURL } r.task r.userId).map (·.2)
  field := "responseImage"

/-- What `postMemory` reads besides the picture. -/
structure MemoryPost where
  form : MemoryForm
  id : String

def postMemoryScreen : ImageScreen MemoryPost where
  path uuid := "memoryImages/" ++ (uuid ++ ".jpg")
  post m imageURL := postMemory { m.form with imageURL := imageURL } m.id
  field := "memoryImage"

/-! ### Picking, uploading, posting -/

/-- How far the picture of this name has come. -/
inductive UploadStage where
  | unused
  | putData
  | downloadURL
  | arrived
  | failed
  deriving DecidableEq

structure UploadState where
  imageURL : Option String
  /-- The picture picked last. -/
  lastPick : Option String
  stage : String → UploadStage
  /-- The documents posted, each with the picture picked last before. -/
  posted : List (Document × Option String)

inductive UploadAction (F : Type) where
  /-- A picture is picked and `jpegData` converts it, or does not. -/
  | pick (uuid : String) (converts : Bool)
  | putData (uuid : String) (succeeds : Bool)
  | downloadURL (uuid : String) (succeeds : Bool)
  | post (rest : F)

/-- The screen has just been opened. -/
def openScreen : UploadState where
  imageURL := none
  lastPick := none
  stage := fun _ => .unused
  posted := []

def setStage (s : UploadState) (uuid : String) (stage : UploadStage) : UploadState :=
  { s with stage := Function.update s.stage uuid stage }

def uploadStep {F : Type} (urls : StorageURLs) (screen : ImageScreen F) (s : UploadState) :
    UploadAction F → UploadState
  | .pick uuid converts =>
      -- No `UUID` is made twice.
      if s.stage uuid = .unused then
        { setStage s uuid (if converts then .putData else .failed) with lastPick := some uuid }
      else s
  | .putData uuid succeeds =>
      if s.stage uuid = .putData then setStage s uuid (if succeeds then .downloadURL else .failed)
      else s
  | .downloadURL uuid succeeds =>
      if s.stage uuid = .downloadURL then
        if succeeds then
          { setStage s uuid .arrived with imageURL := some (urls.url (screen.path uuid)) }
        else setStage s uuid .failed
      else s
  | .post rest =>
      match screen.post rest s.imageURL with
      | some d => { s with posted := (d, s.lastPick) :: s.posted }
      | none => s

end GoodThing
