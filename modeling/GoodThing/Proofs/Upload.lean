/-
Which picture is posted.

`imageURL` is the URL that came last, not that of the picture picked last, and a post
does not wait for either.  `lastPickPosted_step_iff` says what this costs: a post is
wrong if the URL of the picture picked last has come and another has come since, and it
turns out wrong if that URL comes after it.  Nothing else can go wrong, because a URL
that has not come is in no document.
-/
import GoodThing.Controller.Upload
import GoodThing.Proofs.Media
import GoodThing.Proofs.MemoryWall

namespace GoodThing

open Firestore Machine

variable {F : Type} {urls : StorageURLs} {screen : ImageScreen F}

/-! ### The screens -/

/-- Pictures have different places, and a document keeps the URL it is given, if any. -/
structure KeepsURL (screen : ImageScreen F) : Prop where
  path_injective : Function.Injective screen.path
  stores : ∀ rest imageURL d, screen.post rest imageURL = some d →
    d.string? screen.field = imageURL ∨ imageURL = none ∧ d.string? screen.field = some ""

theorem jpg_injective (folder : String) :
    Function.Injective fun uuid => folder ++ (uuid ++ ".jpg") := by
  intro a b h
  exact (String.append_left_inj _).mp ((String.append_right_inj _).mp h)

theorem keepsURL_postTask : KeepsURL postTaskScreen where
  path_injective := jpg_injective "publicTaskImages/"
  stores := by
    intro rest imageURL d h
    obtain ⟨_, _, _, -, -, -, hstores, -⟩ := postTask_stores h
    have hfield : d.string? "taskImage" = some (imageURL.getD "") := by
      rw [Document.string?, hstores "taskImage" (by simp [taskCodec])]
      rfl
    cases imageURL with
    | none => exact .inr ⟨rfl, hfield⟩
    | some url => exact .inl hfield

theorem keepsURL_replyTask : KeepsURL replyTaskScreen where
  path_injective := jpg_injective "taskResponseImages/"
  stores := by
    intro rest imageURL d h
    obtain ⟨r, hr, rfl⟩ := Option.map_eq_some_iff.mp h
    obtain ⟨title, content, task, -, -, -, -, hd⟩ := replyTask_eq hr
    rw [hd]
    cases imageURL with
    | none => exact .inr ⟨rfl, rfl⟩
    | some url => exact .inl rfl

theorem keepsURL_postMemory : KeepsURL postMemoryScreen where
  path_injective := jpg_injective "memoryImages/"
  stores := by
    intro rest imageURL d h
    obtain ⟨title, content, hstores⟩ := postMemory_stores h
    refine .inl ?_
    show d.string? "memoryImage" = imageURL
    rw [Document.string?, hstores "memoryImage" (by simp [memoryCodec])]
    cases imageURL with
    | none => rfl
    | some url => rfl

/-! ### The picture a document shows -/

/-- The document shows the picture of this name. -/
def ShowsPicture (urls : StorageURLs) (screen : ImageScreen F) (d : Document) (uuid : String) :
    Prop :=
  d.string? screen.field = some (urls.url (screen.path uuid))

theorem url_injective (hscreen : KeepsURL screen) {a b : String}
    (h : urls.url (screen.path a) = urls.url (screen.path b)) : a = b := by
  have hpath := congrArg urls.path? h
  rw [urls.path?_url, urls.path?_url] at hpath
  exact hscreen.path_injective (Option.some.inj hpath)

theorem url_ne_empty (urls : StorageURLs) (path : String) : urls.url path ≠ "" := by
  intro h
  have hpath := urls.path?_url path
  rw [h, urls.path?_empty] at hpath
  cases hpath

/-- A posted document shows the picture whose URL was there. -/
theorem showsPicture_post_iff (hscreen : KeepsURL screen) {rest : F} {imageURL : Option String}
    {d : Document} (h : screen.post rest imageURL = some d) (uuid : String) :
    ShowsPicture urls screen d uuid ↔ imageURL = some (urls.url (screen.path uuid)) := by
  unfold ShowsPicture
  rcases hscreen.stores rest imageURL d h with hsame | ⟨hnone, hempty⟩
  · rw [hsame]
  · rw [hnone, hempty]
    refine ⟨?_, fun heq => (nomatch heq)⟩
    intro heq
    exact absurd (Option.some.inj heq).symm (url_ne_empty urls _)

/-! ### What a step can do -/

/-- No URL has come, and nothing has been posted. -/
structure Quiet (s s' : UploadState) : Prop where
  imageURL : s'.imageURL = s.imageURL
  arrived : ∀ uuid, s'.stage uuid = .arrived ↔ s.stage uuid = .arrived
  posted : s'.posted = s.posted

theorem Quiet.refl (s : UploadState) : Quiet s s := ⟨rfl, fun _ => Iff.rfl, rfl⟩

/-- A picture that has not arrived gets as far as any other stage. -/
theorem quiet_setStage {s : UploadState} {uuid : String} {stage : UploadStage}
    (hbefore : s.stage uuid ≠ .arrived) (hafter : stage ≠ .arrived) :
    Quiet s (setStage s uuid stage) := by
  refine ⟨rfl, ?_, rfl⟩
  intro uuid'
  unfold setStage
  by_cases huuid : uuid' = uuid
  · rw [huuid]
    simp [hbefore, hafter]
  · simp [huuid]

/-- Everything a step can do: a URL comes, a document is posted, or nothing of the kind. -/
theorem uploadStep_cases (urls : StorageURLs) (screen : ImageScreen F) (s : UploadState)
    (a : UploadAction F) :
    ((∀ rest, a = .post rest → screen.post rest s.imageURL = none) ∧
      (∀ uuid, a = .downloadURL uuid true → s.stage uuid ≠ .downloadURL) ∧
      Quiet s (uploadStep urls screen s a)) ∨
    (∃ uuid, a = .downloadURL uuid true ∧ s.stage uuid = .downloadURL ∧
      uploadStep urls screen s a =
        { setStage s uuid .arrived with imageURL := some (urls.url (screen.path uuid)) }) ∨
    (∃ rest d, a = .post rest ∧ screen.post rest s.imageURL = some d ∧
      uploadStep urls screen s a = { s with posted := (d, s.lastPick) :: s.posted }) := by
  cases a with
  | pick uuid converts =>
      refine .inl ⟨nofun, nofun, ?_⟩
      simp only [uploadStep]
      by_cases hstage : s.stage uuid = .unused
      · rw [if_pos hstage]
        have hquiet : Quiet s (setStage s uuid (if converts = true then .putData else .failed)) :=
          quiet_setStage (by simp [hstage]) (by cases converts <;> simp)
        exact ⟨hquiet.imageURL, hquiet.arrived, hquiet.posted⟩
      · rw [if_neg hstage]
        exact .refl s
  | putData uuid succeeds =>
      refine .inl ⟨nofun, nofun, ?_⟩
      simp only [uploadStep]
      by_cases hstage : s.stage uuid = .putData
      · rw [if_pos hstage]
        exact quiet_setStage (by simp [hstage]) (by cases succeeds <;> simp)
      · rw [if_neg hstage]
        exact .refl s
  | downloadURL uuid succeeds =>
      by_cases hstage : s.stage uuid = .downloadURL
      · cases succeeds with
        | true => exact .inr (.inl ⟨uuid, rfl, hstage, if_pos hstage⟩)
        | false =>
            refine .inl ⟨nofun, nofun, ?_⟩
            simp only [uploadStep]
            rw [if_pos hstage]
            exact quiet_setStage (by simp [hstage]) (by simp)
      · refine .inl ⟨nofun, fun uuid' ha => ?_, ?_⟩
        · rw [← (UploadAction.downloadURL.inj ha).1]
          exact hstage
        · simp only [uploadStep]
          rw [if_neg hstage]
          exact .refl s
  | post rest =>
      cases hpost : screen.post rest s.imageURL with
      | none =>
          refine .inl ⟨fun rest' ha => ?_, nofun, ?_⟩
          · rw [← UploadAction.post.inj ha]
            exact hpost
          · simp only [uploadStep, hpost]
            exact .refl s
      | some d => exact .inr (.inr ⟨rest, d, rfl, hpost, by simp only [uploadStep, hpost]⟩)

/-! ### A URL that has not come is nowhere -/

structure OnlyArrived (urls : StorageURLs) (screen : ImageScreen F) (s : UploadState) : Prop where
  imageURL : ∀ uuid, s.imageURL = some (urls.url (screen.path uuid)) → s.stage uuid = .arrived
  posted : ∀ p ∈ s.posted, ∀ uuid, ShowsPicture urls screen p.1 uuid → s.stage uuid = .arrived

theorem onlyArrived_step (hscreen : KeepsURL screen) (s : UploadState) (a : UploadAction F)
    (h : OnlyArrived urls screen s) : OnlyArrived urls screen (uploadStep urls screen s a) := by
  rcases uploadStep_cases urls screen s a with ⟨-, -, hquiet⟩ | ⟨uuid, -, -, heq⟩ |
    ⟨rest, d, -, hpost, heq⟩
  · refine ⟨?_, ?_⟩
    · intro uuid huuid
      rw [hquiet.imageURL] at huuid
      exact (hquiet.arrived uuid).mpr (h.imageURL uuid huuid)
    · intro p hp uuid huuid
      rw [hquiet.posted] at hp
      exact (hquiet.arrived uuid).mpr (h.posted p hp uuid huuid)
  · rw [heq]
    refine ⟨?_, ?_⟩
    · intro uuid' huuid'
      obtain rfl : uuid = uuid' := url_injective hscreen (Option.some.inj huuid')
      simp [setStage]
    · intro p hp uuid' huuid'
      by_cases hsame : uuid' = uuid
      · rw [hsame]
        simp [setStage]
      · simp only [setStage, Function.update_of_ne hsame]
        exact h.posted p hp uuid' huuid'
  · rw [heq]
    refine ⟨h.imageURL, ?_⟩
    intro p hp uuid huuid
    rcases List.mem_cons.mp hp with rfl | hold
    · exact h.imageURL uuid ((showsPicture_post_iff hscreen hpost uuid).mp huuid)
    · exact h.posted p hold uuid huuid

/-! ### The picture picked last -/

/-- Every document shows the picture picked last before it, if that has been uploaded. -/
def LastPickPosted (urls : StorageURLs) (screen : ImageScreen F) (s : UploadState) : Prop :=
  ∀ p ∈ s.posted, ∀ uuid, p.2 = some uuid → s.stage uuid = .arrived →
    ShowsPicture urls screen p.1 uuid

/--
A document is posted only while `imageURL` is that of the picture picked last, if that
has come at all, and a URL comes only if nothing has been posted with its picture picked
last.
-/
def PostsInTime (urls : StorageURLs) (screen : ImageScreen F) (s : UploadState)
    (a : UploadAction F) : Prop :=
  (∀ rest, a = .post rest → (screen.post rest s.imageURL).isSome = true →
    ∀ uuid, s.lastPick = some uuid → s.stage uuid = .arrived →
      s.imageURL = some (urls.url (screen.path uuid))) ∧
  (∀ uuid, a = .downloadURL uuid true → s.stage uuid = .downloadURL →
    ∀ p ∈ s.posted, p.2 ≠ some uuid)

theorem lastPickPosted_step_iff (hscreen : KeepsURL screen) (s : UploadState) (a : UploadAction F)
    (hcome : OnlyArrived urls screen s) (h : LastPickPosted urls screen s) :
    LastPickPosted urls screen (uploadStep urls screen s a) ↔ PostsInTime urls screen s a := by
  rcases uploadStep_cases urls screen s a with ⟨hpost, hurl, hquiet⟩ | ⟨uuid, rfl, hstage, heq⟩ |
    ⟨rest, d, rfl, hpost, heq⟩
  · refine ⟨fun _ => ⟨fun rest ha hstored => ?_, fun uuid ha hstage => ?_⟩, fun _ => ?_⟩
    · rw [hpost rest ha] at hstored
      cases hstored
    · exact absurd hstage (hurl uuid ha)
    · intro p hp uuid huuid harrived
      rw [hquiet.posted] at hp
      exact h p hp uuid huuid ((hquiet.arrived uuid).mp harrived)
  · rw [heq]
    refine ⟨fun hnext => ⟨nofun, fun uuid' ha _ p hp hpick => ?_⟩, fun htime => ?_⟩
    · -- A document posted before shows no picture whose URL had not come.
      obtain rfl : uuid = uuid' := (UploadAction.downloadURL.inj ha).1
      have hshown := hnext p hp uuid hpick (by simp [setStage])
      rw [hcome.posted p hp uuid hshown] at hstage
      cases hstage
    · intro p hp uuid' huuid' harrived
      have hne : uuid' ≠ uuid := by
        intro hsame
        rw [hsame] at huuid'
        exact htime.2 uuid rfl hstage p hp huuid'
      simp only [setStage, Function.update_of_ne hne] at harrived
      exact h p hp uuid' huuid' harrived
  · rw [heq]
    refine ⟨fun hnext => ⟨fun rest' ha _ uuid hpick harrived => ?_, nofun⟩, fun htime => ?_⟩
    · have hshown := hnext (d, s.lastPick) List.mem_cons_self uuid hpick harrived
      exact (showsPicture_post_iff hscreen hpost uuid).mp hshown
    · intro p hp uuid hpick harrived
      rcases List.mem_cons.mp hp with rfl | hold
      · refine (showsPicture_post_iff hscreen hpost uuid).mpr ?_
        exact htime.1 rest rfl (by rw [hpost]; rfl) uuid hpick harrived
      · exact h p hold uuid hpick harrived

theorem lastPickPosted_iff (hscreen : KeepsURL screen) (urls : StorageURLs)
    (as : List (UploadAction F)) :
    Always (uploadStep urls screen) (LastPickPosted urls screen) openScreen as ↔
      Guarded (uploadStep urls screen) (PostsInTime urls screen) openScreen as := by
  refine always_iff_guarded (onlyArrived_step hscreen) (lastPickPosted_step_iff hscreen) as ?_ ?_
  · exact ⟨fun _ h => (nomatch h), fun _ h => (nomatch h)⟩
  · intro p hp
    cases hp

/--
On each of the three screens, every document shows the picture picked last before it was
posted, if that picture's upload succeeds at all, exactly when each post finds that
picture's URL in `imageURL` once it has come, and no such URL comes after the post.
-/
theorem last_pick_posted_iff (urls : StorageURLs) :
    (∀ as, Always (uploadStep urls postTaskScreen) (LastPickPosted urls postTaskScreen)
        openScreen as ↔
      Guarded (uploadStep urls postTaskScreen) (PostsInTime urls postTaskScreen) openScreen as) ∧
    (∀ as, Always (uploadStep urls replyTaskScreen) (LastPickPosted urls replyTaskScreen)
        openScreen as ↔
      Guarded (uploadStep urls replyTaskScreen) (PostsInTime urls replyTaskScreen)
        openScreen as) ∧
    (∀ as, Always (uploadStep urls postMemoryScreen) (LastPickPosted urls postMemoryScreen)
        openScreen as ↔
      Guarded (uploadStep urls postMemoryScreen) (PostsInTime urls postMemoryScreen)
        openScreen as) :=
  ⟨lastPickPosted_iff keepsURL_postTask urls, lastPickPosted_iff keepsURL_replyTask urls,
    lastPickPosted_iff keepsURL_postMemory urls⟩

/-- Two pictures are picked, the second one is uploaded first, and the memory is posted. -/
theorem first_pick_posted :
    ¬ Always (uploadStep gsURLs postMemoryScreen) (LastPickPosted gsURLs postMemoryScreen)
      openScreen [
        .pick "u1" true, .pick "u2" true,
        .putData "u2" true, .downloadURL "u2" true,
        .putData "u1" true, .downloadURL "u1" true,
        .post ⟨rainyDay, "m1"⟩] := by
  intro h
  have hshown := h.last _ List.mem_cons_self "u2" rfl (by decide)
  unfold ShowsPicture at hshown
  exact absurd hshown (by decide)

end GoodThing
