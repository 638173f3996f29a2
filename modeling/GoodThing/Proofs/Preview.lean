/-
Whether the preview of a task shows what would be posted.

`postTask` takes the picture and the recording as they come, each for itself.  The preview
shows both or, if one of them is missing, mostly nothing: only as long as no picture has
come and nothing has been posted does it show the texts by themselves.
-/
import GoodThing.Controller.Preview
import GoodThing.Proofs.TaskPool

namespace GoodThing

open Firestore Machine

/-- The document has what the preview shows; what is missing or empty is not shown. -/
structure Shows (p : TaskPreview) (d : Document) : Prop where
  taskName : filled p.taskName = filled (d.string? "taskTitle")
  taskContent : filled p.taskContent = filled (d.string? "taskContent")
  imageURL : filled p.imageURL = filled (d.string? "taskImage")
  recordingURL : filled p.recordingURL = filled (d.string? "taskVoice")

/-- The preview shows the task that a tap on the other button would store. -/
def PreviewAgrees (s : PreviewState) : Prop :=
  ∀ userId date randomValue time id d,
    postTask { s.form with time := time } userId date randomValue id = some d →
      Shows (preview s) d

/--
Nothing would be stored, or a picture and a recording have both come, or neither has and
nothing has been posted yet.
-/
def BothOrNeither (s : PreviewState) : Prop :=
  filled s.form.taskTitle = none ∨ filled s.form.taskContent = none ∨
  (s.form.imageURL.isSome = true ∧ s.form.recordingURL.isSome = true) ∨
  (s.form.imageURL = none ∧ filled s.form.recordingURL = none ∧ s.posted = false)

/-- The label is empty until a picture has come or a task has been posted. -/
def LabelTells (s : PreviewState) : Prop :=
  s.imageNameLabel = some "" ↔ s.form.imageURL = none ∧ s.posted = false

theorem labelTells_step (s : PreviewState) (a : PreviewAction) (h : LabelTells s) :
    LabelTells (previewStep s a) := by
  cases a with
  | editTitle text => exact h
  | editContent text => exact h
  | imageURL url =>
      have hadded : some "已經成功添加照片！" ≠ some "" := by decide
      exact ⟨fun hlabel => absurd hlabel hadded, fun hnone => nomatch hnone.1⟩
  | recordingURL url => exact h
  | postTask userId date randomValue time id =>
      simp only [previewStep]
      cases postTask { s.form with time := time } userId date randomValue id with
      | none => exact h
      | some d => exact h
  | setData succeeds =>
      simp only [previewStep]
      by_cases hposting : s.posting = 0
      · rw [if_pos hposting]
        exact h
      · rw [if_neg hposting]
        cases succeeds with
        | false => exact h
        | true =>
            have hdone : some "好事任務已經成功發佈！" ≠ some "" := by decide
            exact ⟨fun hlabel => absurd hlabel hdone, fun hposted => nomatch hposted.2⟩

/-- What `postTask` stores of the four. -/
theorem postTask_fields {form : TaskForm} {userId : Option String} {date id : String} {r : Rat}
    {d : Document} (h : postTask form userId date r id = some d) :
    ∃ title content, filled form.taskTitle = some title ∧
      filled form.taskContent = some content ∧
      d.string? "taskTitle" = some title ∧ d.string? "taskContent" = some content ∧
      d.string? "taskImage" = some (form.imageURL.getD "") ∧
      d.string? "taskVoice" = form.recordingURL := by
  obtain ⟨title, content, creator, htitle, hcontent, -, hstores, -⟩ := postTask_stores h
  refine ⟨title, content, htitle, hcontent, ?_, ?_, ?_, ?_⟩
  · rw [Document.string?, hstores "taskTitle" (by simp [taskCodec])]
    rfl
  · rw [Document.string?, hstores "taskContent" (by simp [taskCodec])]
    rfl
  · rw [Document.string?, hstores "taskImage" (by simp [taskCodec])]
    rfl
  · rw [Document.string?, hstores "taskVoice" (by simp [taskCodec])]
    cases form.recordingURL with
    | none => rfl
    | some url => rfl

theorem filled_getD (url : Option String) : filled (some (url.getD "")) = filled url := by
  cases url with
  | none => rfl
  | some url => rfl

/-- With a title, a content and a user there is something to store. -/
theorem postTask_of_filled (form : TaskForm) {title content : String}
    (htitle : filled form.taskTitle = some title) (hcontent : filled form.taskContent = some content)
    (userId date : String) (r : Rat) (id : String) :
    ∃ d, postTask form (some userId) date r id = some d := by
  simp only [postTask, htitle, hcontent, Option.bind_eq_bind, Option.bind_some]
  cases form.recordingURL with
  | none => exact ⟨_, rfl⟩
  | some url => exact ⟨_, rfl⟩

/-! ### What the button shows -/

section

variable {s : PreviewState} {title content : String}

theorem preview_of_empty (hlabel : s.imageNameLabel = some "")
    (htitle : s.form.taskTitle = some title) (hcontent : s.form.taskContent = some content) :
    preview s = ⟨some title, some content, none, none⟩ := by
  simp only [preview, previewTaskButton, if_pos hlabel, prepare, htitle, hcontent]

theorem preview_of_both (hlabel : s.imageNameLabel ≠ some "")
    (htitle : s.form.taskTitle = some title) (hcontent : s.form.taskContent = some content)
    {imageURL recordingURL : String} (himage : s.form.imageURL = some imageURL)
    (hrecording : s.form.recordingURL = some recordingURL) :
    preview s = ⟨some title, some content, some imageURL, some recordingURL⟩ := by
  simp only [preview, previewTaskButton, if_neg hlabel, prepare, htitle, hcontent, himage,
    hrecording]

/-- Without a picture or without a recording the screen for pictures is given nothing. -/
theorem preview_of_missing (hlabel : s.imageNameLabel ≠ some "")
    (hmissing : s.form.imageURL = none ∨ s.form.recordingURL = none) : preview s = .empty := by
  simp only [preview, previewTaskButton, if_neg hlabel, prepare]
  rcases hmissing with hnone | hnone
  · simp [hnone]
  · simp [hnone]

end

/-- Where something would be stored, whether the preview shows it. -/
theorem shows_iff {s : PreviewState} (hlabel : LabelTells s) {title content : String}
    (htitle : filled s.form.taskTitle = some title)
    (hcontent : filled s.form.taskContent = some content) {d : Document}
    {userId : Option String} {date time id : String} {r : Rat}
    (hd : postTask { s.form with time := time } userId date r id = some d) :
    Shows (preview s) d ↔
      (s.form.imageURL.isSome = true ∧ s.form.recordingURL.isSome = true) ∨
      (s.form.imageURL = none ∧ filled s.form.recordingURL = none ∧ s.posted = false) := by
  obtain ⟨title', content', htitle', hcontent', hname, htext, himage, hvoice⟩ := postTask_fields hd
  obtain rfl : title = title' := Option.some.inj (htitle.symm.trans htitle')
  obtain rfl : content = content' := Option.some.inj (hcontent.symm.trans hcontent')
  obtain ⟨htitle, -⟩ := filled_eq_some.mp htitle
  obtain ⟨hcontent, -⟩ := filled_eq_some.mp hcontent
  have himage' : filled (d.string? "taskImage") = filled s.form.imageURL := by
    rw [himage]
    exact filled_getD s.form.imageURL
  by_cases hempty : s.imageNameLabel = some ""
  · -- The texts by themselves.
    obtain ⟨hnone, hposted⟩ := hlabel.mp hempty
    rw [preview_of_empty hempty htitle hcontent]
    refine ⟨?_, ?_⟩
    · intro h
      refine Or.inr ⟨hnone, ?_, hposted⟩
      have hrecording := h.recordingURL
      rw [hvoice] at hrecording
      exact hrecording.symm
    · rintro (⟨hsome, -⟩ | ⟨-, hrecording, -⟩)
      · rw [hnone] at hsome
        cases hsome
      · refine ⟨by rw [hname], by rw [htext], ?_, ?_⟩
        · rw [himage', hnone]
        · rw [hvoice]
          exact hrecording.symm
  · have hcase : ¬ (s.form.imageURL = none ∧ filled s.form.recordingURL = none ∧
        s.posted = false) := fun h => hempty (hlabel.mpr ⟨h.1, h.2.2⟩)
    rw [or_iff_left hcase]
    by_cases hboth : s.form.imageURL.isSome = true ∧ s.form.recordingURL.isSome = true
    · refine ⟨fun _ => hboth, ?_⟩
      intro _
      obtain ⟨imageURL, hi⟩ := Option.isSome_iff_exists.mp hboth.1
      obtain ⟨recordingURL, hr⟩ := Option.isSome_iff_exists.mp hboth.2
      rw [preview_of_both hempty htitle hcontent hi hr]
      exact ⟨by rw [hname], by rw [htext], by rw [himage', hi], by rw [hvoice]; exact hr ▸ rfl⟩
    · refine ⟨?_, fun h => absurd h hboth⟩
      intro h
      -- Nothing at all, though there is a title.
      have hmissing : s.form.imageURL = none ∨ s.form.recordingURL = none := by
        rw [not_and_or, Bool.not_eq_true, Bool.not_eq_true, Option.isSome_eq_false_iff,
          Option.isSome_eq_false_iff, Option.isNone_iff_eq_none, Option.isNone_iff_eq_none] at hboth
        exact hboth
      have hnothing := h.taskName
      rw [preview_of_missing hempty hmissing, hname, ← htitle, htitle'] at hnothing
      cases hnothing

theorem previewAgrees_iff {s : PreviewState} (hlabel : LabelTells s) :
    PreviewAgrees s ↔ BothOrNeither s := by
  unfold BothOrNeither
  cases htitle : filled s.form.taskTitle with
  | none =>
      refine ⟨fun _ => Or.inl rfl, ?_⟩
      intro _ userId date r time id d hd
      obtain ⟨title, _, htitle', _⟩ := postTask_fields hd
      exact nomatch htitle.symm.trans htitle'
  | some title =>
      cases hcontent : filled s.form.taskContent with
      | none =>
          refine ⟨fun _ => Or.inr (Or.inl rfl), ?_⟩
          intro _ userId date r time id d hd
          obtain ⟨_, content, _, hcontent', _⟩ := postTask_fields hd
          exact nomatch hcontent.symm.trans hcontent'
      | some content =>
          refine ⟨?_, ?_⟩
          · intro h
            obtain ⟨d, hd⟩ := postTask_of_filled { s.form with time := "" } htitle hcontent
              "" "" 0 ""
            exact Or.inr (Or.inr ((shows_iff hlabel htitle hcontent hd).mp (h _ _ _ _ _ d hd)))
          · rintro (h | h | h) userId date r time id d hd
            · cases h
            · cases h
            · exact (shows_iff hlabel htitle hcontent hd).mpr h

/--
After any edits, uploads and posts the preview shows what would be posted exactly when
nothing would be, or a picture and a recording have both come, or neither has and nothing
has been posted yet.
-/
theorem preview_agrees_iff (taskTitle taskContent : Option String) (as : List PreviewAction) :
    PreviewAgrees (run previewStep (openPreview taskTitle taskContent) as) ↔
      BothOrNeither (run previewStep (openPreview taskTitle taskContent) as) := by
  refine previewAgrees_iff (run_invariant labelTells_step as _ ?_)
  exact ⟨fun _ => ⟨rfl, rfl⟩, fun _ => rfl⟩

/-- A picture has come and no recording: the preview shows nothing of the task. -/
theorem picture_without_recording :
    ¬ PreviewAgrees (run previewStep (openPreview (some "打招呼") (some "跟鄰居說早安"))
      [.imageURL "gs://morning.jpg"]) := by
  intro h
  have hname := (h (some "ella") "2023.10.13" 0 "2023.10.13 20:15" "t1" _ rfl).taskName
  exact absurd hname (by decide)

end GoodThing
