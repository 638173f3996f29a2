/-
The preview of a task: `previewTaskButton` and `prepare(for:sender:)` of
`PostTaskViewController`.

There are two preview screens, one with a picture and one without.  Which of them opens
is decided by a label, which says that a picture has been added or that a task has been
posted and is empty at first.  The one with a picture is given everything or nothing, and
the one without is given no recording, though it would play one.
-/
import GoodThing.Controller.Task

namespace GoodThing

open Firestore

/-- The two segues to a preview. -/
inductive PreviewSegue where
  | toPostPublicTasksImagePreviewVC
  | toPostPublicTasksTextPreviewVC
  deriving DecidableEq

/-- What a preview screen has been given, its poster aside, who is always the same. -/
structure TaskPreview where
  taskName : Option String
  taskContent : Option String
  imageURL : Option String
  recordingURL : Option String
  deriving DecidableEq

/-- The screen as the storyboard makes it. -/
def TaskPreview.empty : TaskPreview := ⟨none, none, none, none⟩

structure PreviewState where
  /-- The text field, the text view and the two URLs. -/
  form : TaskForm
  /-- `imageNameLabel.text`. -/
  imageNameLabel : Option String
  /-- Tasks on their way. -/
  posting : Nat
  /-- A task has been posted. -/
  posted : Bool

inductive PreviewAction where
  | editTitle (text : Option String)
  | editContent (text : Option String)
  /-- The download URL of a picture, or of a recording, has come. -/
  | imageURL (url : String)
  | recordingURL (url : String)
  | postTask (userId : Option String) (date : String) (randomValue : Rat) (time id : String)
  /-- The completion of `setData`. -/
  | setData (succeeds : Bool)

/-- The screen with its texts; the label is empty in the storyboard. -/
def openPreview (taskTitle taskContent : Option String) : PreviewState where
  form := ⟨taskTitle, taskContent, none, none, false, ""⟩
  imageNameLabel := some ""
  posting := 0
  posted := false

def previewStep (s : PreviewState) : PreviewAction → PreviewState
  | .editTitle text => { s with form := { s.form with taskTitle := text } }
  | .editContent text => { s with form := { s.form with taskContent := text } }
  | .imageURL url =>
      { s with
        form := { s.form with imageURL := some url }, imageNameLabel := some "已經成功添加照片！" }
  | .recordingURL url => { s with form := { s.form with recordingURL := some url } }
  | .postTask userId date randomValue time id =>
      match postTask { s.form with time := time } userId date randomValue id with
      | some _ => { s with posting := s.posting + 1 }
      | none => s
  | .setData succeeds =>
      if s.posting = 0 then s
      else if succeeds then
        { s with
          posting := s.posting - 1, posted := true, imageNameLabel := some "好事任務已經成功發佈！" }
      else { s with posting := s.posting - 1 }

/-- The segue the button performs. -/
def previewTaskButton (s : PreviewState) : PreviewSegue :=
  if s.imageNameLabel = some "" then .toPostPublicTasksTextPreviewVC
  else .toPostPublicTasksImagePreviewVC

/-- What the next screen is given. -/
def prepare (s : PreviewState) : PreviewSegue → TaskPreview
  | .toPostPublicTasksImagePreviewVC =>
      match s.form.taskTitle, s.form.taskContent, s.form.imageURL, s.form.recordingURL with
      | some taskName, some taskContent, some imageURL, some recordingURL =>
          ⟨some taskName, some taskContent, some imageURL, some recordingURL⟩
      | _, _, _, _ => .empty
  | .toPostPublicTasksTextPreviewVC =>
      match s.form.taskTitle, s.form.taskContent with
      | some taskName, some taskContent => ⟨some taskName, some taskContent, none, none⟩
      | _, _ => .empty

/-- What a tap on the button shows. -/
def preview (s : PreviewState) : TaskPreview := prepare s (previewTaskButton s)

end GoodThing
