/-
Whose picture is shown.

On the reception screen all texts come from the response read last (`showsResponses_loaded`),
and every picture that is on its way is that of some response.  So whether the screen
shows one response is a matter of the downloads alone: one that ends with an image has
to be that response's, and one that fails must not take its image away.

In the tables it is a matter of the cells that are used again.
-/
import GoodThing.Controller.Picture

namespace GoodThing

open Firestore Download Machine

/-! ### The reception screen -/

/-- What was read from a response is really in it. -/
def ReadFrom (responses : Collection) (x : String × GoodThingTasksResponses) : Prop :=
  ∃ d, responses.lookup x.1 = some d ∧ GoodThingTasksResponses.decode d = some x.2

/-- The three texts are those of this response. -/
structure Labels (s : ReceptionScreen) (x : Option (String × GoodThingTasksResponses)) : Prop where
  taskCompleterLabel : s.taskCompleterLabel = x.map fun x => ⟨x.1, x.2.completerId⟩
  completerId : s.completerId = x.map fun x => ⟨x.1, x.2.completerId⟩
  taskResponseLabel : s.taskResponseLabel = x.map fun x => ⟨x.1, x.2.responseContent⟩

/--
All that the screen shows comes from one response: the texts, and the picture as soon
as it has arrived.
-/
def OneResponse (responses : Collection) (s : ReceptionScreen) : Prop :=
  ∃ x : Option (String × GoodThingTasksResponses), (∀ y, x = some y → ReadFrom responses y) ∧
    Labels s x ∧
    ∀ picture, s.taskResponseImageView.image = some picture ↔
      picture ∈ s.arrived ∧ x.map (·.1) = some picture.document

/-- The picture of a response. -/
def PictureOf (responses : Collection) (picture : Shown) : Prop :=
  ∃ response, ReadFrom responses (picture.document, response) ∧
    picture.value = response.responseImage

/-- The texts are those of one response, and all pictures are of responses. -/
structure ShowsResponses (responses : Collection) (s : ReceptionScreen) : Prop where
  labels : ∃ x, (∀ y, x = some y → ReadFrom responses y) ∧ Labels s x
  downloads : ∀ picture ∈ s.taskResponseImageView.downloads, PictureOf responses picture
  arrived : ∀ picture ∈ s.arrived, PictureOf responses picture

/-- A response has one picture. -/
theorem PictureOf.eq {responses : Collection} {a b : Shown} (ha : PictureOf responses a)
    (hb : PictureOf responses b) (h : a.document = b.document) : a = b := by
  obtain ⟨ra, ⟨da, hda, hra⟩, hva⟩ := ha
  obtain ⟨rb, ⟨db, hdb, hrb⟩, hvb⟩ := hb
  rw [← h] at hdb
  obtain rfl : da = db := Option.some.inj (hda.symm.trans hdb)
  obtain rfl : ra = rb := Option.some.inj (hra.symm.trans hrb)
  cases a
  cases b
  simp only at h hva hvb
  rw [h, hva, hvb]

theorem showsResponses_blank (responses : Collection) : ShowsResponses responses .blank where
  labels := ⟨none, fun _ h => (nomatch h), ⟨rfl, rfl, rfl⟩⟩
  downloads := fun _ h => (nomatch h)
  arrived := fun _ h => (nomatch h)

/-- A response that decodes replaces the texts and adds its picture. -/
theorem showsResponses_next (urls : URLs) {responses : Collection} {s : ReceptionScreen}
    (h : ShowsResponses responses s) {x : String × Document}
    (hx : responses.lookup x.1 = some x.2) :
    ShowsResponses responses (showResponse urls s x) := by
  unfold showResponse
  cases hdecode : GoodThingTasksResponses.decode x.2 with
  | none => exact h
  | some response =>
      have hread : ReadFrom responses (x.1, response) := ⟨x.2, hx, hdecode⟩
      refine ⟨⟨some (x.1, response), fun y hy => ?_, ⟨rfl, rfl, rfl⟩⟩, fun picture hpicture => ?_,
        h.arrived⟩
      · rw [← Option.some.inj hy]
        exact hread
      · rcases List.mem_append.mp hpicture with hnew | hold
        · obtain ⟨url, hurl, rfl⟩ := Option.map_eq_some_iff.mp (Option.mem_toList.mp hnew)
          refine ⟨response, hread, ?_⟩
          unfold downloadImage at hurl
          split at hurl
          · exact (Option.some.inj hurl).symm
          · cases hurl
        · exact h.downloads picture hold

theorem showsResponses_foldl (urls : URLs) {responses : Collection} :
    ∀ (xs : List (String × Document)) (s : ReceptionScreen),
      (∀ x ∈ xs, responses.lookup x.1 = some x.2) → ShowsResponses responses s →
        ShowsResponses responses (xs.foldl (showResponse urls) s) := by
  intro xs
  induction xs with
  | nil => intro s _ h; exact h
  | cons x rest ih =>
      intro s hmem h
      refine ih _ (fun y hy => hmem y (List.mem_cons_of_mem x hy)) ?_
      exact showsResponses_next urls h (hmem x List.mem_cons_self)

theorem showsResponses_loaded (urls : URLs) (responses : Collection) :
    ShowsResponses responses (showResponses urls responses) := by
  refine showsResponses_foldl urls _ _ (fun x hx => ?_) (showsResponses_blank responses)
  exact (Query.mem_getDocuments hx).1

/-- The user agrees with whoever the screen's loop has read last. -/
theorem completerId_showResponses (urls : URLs) (responses : Collection) :
    (showResponses urls responses).completerId.map (·.value) =
      fetchResponsesForTask responses none := by
  have hstart : (none : Option String) = ReceptionScreen.blank.completerId.map (·.value) := rfl
  unfold showResponses fetchResponsesForTask
  rw [hstart]
  generalize ReceptionScreen.blank = s
  induction responsesQuery.getDocuments responses generalizing s with
  | nil => rfl
  | cons x rest ih =>
      rw [List.foldl_cons, List.foldl_cons, ih]
      congr 1
      unfold showResponse
      cases GoodThingTasksResponses.decode x.2 with
      | none => rfl
      | some response => rfl

/-! ### Downloads ending -/

theorem showsResponses_step (responses : Collection) (s : ReceptionScreen) (a : Shown × Outcome)
    (h : ShowsResponses responses s) : ShowsResponses responses (receptionStep s a) := by
  obtain ⟨x, hx, hlabels⟩ := h.labels
  refine ⟨⟨x, hx, ⟨hlabels.1, hlabels.2, hlabels.3⟩⟩, ?_, ?_⟩
  · intro picture hpicture
    exact h.downloads picture (View.mem_of_mem_finish hpicture)
  · intro picture hpicture
    simp only [receptionStep] at hpicture
    split at hpicture
    · rename_i hnew
      rcases List.mem_cons.mp hpicture with rfl | hold
      · exact h.downloads _ hnew.1
      · exact h.arrived picture hold
    · exact h.arrived picture hpicture

/--
A download that ends with an image is of the response whose texts are shown, and one
that fails leaves no image behind that it would take away.
-/
def EndsWell (s : ReceptionScreen) (a : Shown × Outcome) : Prop :=
  a.1 ∈ s.taskResponseImageView.downloads →
    (a.2 = .image → s.taskCompleterLabel.map (·.document) = some a.1.document) ∧
    (a.2 = .failed → s.taskResponseImageView.image = none)

/-- The response whose texts are shown. -/
theorem Labels.document {s : ReceptionScreen} {x : Option (String × GoodThingTasksResponses)}
    (h : Labels s x) : s.taskCompleterLabel.map (·.document) = x.map (·.1) := by
  rw [h.taskCompleterLabel, Option.map_map]
  rfl

/-- Which response is shown can be read off the label. -/
theorem oneResponse_iff {responses : Collection} {s : ReceptionScreen}
    (h : ShowsResponses responses s) :
    OneResponse responses s ↔ ∀ picture, s.taskResponseImageView.image = some picture ↔
      picture ∈ s.arrived ∧ s.taskCompleterLabel.map (·.document) = some picture.document := by
  refine ⟨?_, ?_⟩
  · intro hone picture
    obtain ⟨x, -, hlabels, himage⟩ := hone
    rw [hlabels.document]
    exact himage picture
  · intro himage
    obtain ⟨x, hx, hlabels⟩ := h.labels
    refine ⟨x, hx, hlabels, ?_⟩
    intro picture
    rw [← hlabels.document]
    exact himage picture

/-- Nothing is on its way, and nothing ends. -/
theorem receptionStep_of_notMem {s : ReceptionScreen} {a : Shown × Outcome}
    (h : a.1 ∉ s.taskResponseImageView.downloads) : receptionStep s a = s := by
  unfold receptionStep
  rw [View.finish_of_notMem h, if_neg fun hnew => h hnew.1]

/-- Whether the screen still shows one response when a download has ended. -/
theorem oneResponse_step_iff (responses : Collection) (s : ReceptionScreen) (a : Shown × Outcome)
    (h : ShowsResponses responses s) (hone : OneResponse responses s) :
    OneResponse responses (receptionStep s a) ↔ EndsWell s a := by
  by_cases ha : a.1 ∈ s.taskResponseImageView.downloads
  · rw [oneResponse_iff (showsResponses_step responses s a h)]
    have hbefore := (oneResponse_iff h).mp hone
    obtain ⟨picture, outcome⟩ := a
    simp only at ha
    simp only [EndsWell, receptionStep, View.finish_of_mem ha, ha, true_and, forall_const]
    cases outcome with
    | image =>
        simp only [View.written, if_true, Option.some.injEq, List.mem_cons]
        refine ⟨fun himage => ⟨fun _ => ((himage picture).mp rfl).2, nofun⟩, ?_⟩
        intro hwell other
        have hlabel := hwell.1 trivial
        refine ⟨?_, ?_⟩
        · intro heq
          rw [← heq]
          exact ⟨.inl rfl, hlabel⟩
        · intro hother
          obtain ⟨harrived, hother⟩ := hother
          rcases harrived with heq | harrived
          · exact heq.symm
          · -- The response shown has one picture only.
            refine (h.downloads picture ha).eq (h.arrived other harrived) ?_
            exact Option.some.inj (hlabel.symm.trans hother)
    | failed =>
        simp only [View.written, reduceCtorEq, if_false, false_iff]
        refine ⟨fun himage => ⟨nofun, fun _ => ?_⟩, fun hwell other hother => ?_⟩
        · refine Option.eq_none_iff_forall_ne_some.mpr fun other hother => ?_
          exact himage other ((hbefore other).mp hother)
        · have hnone := hwell.2 trivial
          rw [(hbefore other).mpr hother] at hnone
          cases hnone
    | noImage =>
        simp only [View.written, reduceCtorEq, if_false]
        exact ⟨fun _ => ⟨nofun, nofun⟩, fun _ => hbefore⟩
  · rw [receptionStep_of_notMem ha]
    exact ⟨fun _ ha' => absurd ha' ha, fun _ => hone⟩

theorem oneResponse_showResponses (urls : URLs) (responses : Collection) :
    OneResponse responses (showResponses urls responses) := by
  rw [oneResponse_iff (showsResponses_loaded urls responses)]
  have hloop : ∀ (xs : List (String × Document)) (s : ReceptionScreen),
      s.taskResponseImageView.image = none ∧ s.arrived = [] →
        (xs.foldl (showResponse urls) s).taskResponseImageView.image = none ∧
          (xs.foldl (showResponse urls) s).arrived = [] := by
    intro xs
    induction xs with
    | nil => intro s hs; exact hs
    | cons x rest ih =>
        intro s hs
        refine ih _ ?_
        unfold showResponse
        cases GoodThingTasksResponses.decode x.2 with
        | none => exact hs
        | some response => exact hs
  obtain ⟨himage, harrived⟩ := hloop (responsesQuery.getDocuments responses) .blank ⟨rfl, rfl⟩
  intro picture
  unfold showResponses
  rw [himage, harrived]
  simp

/--
The reception screen shows one response, in every state after its callback, exactly
when each download that ends with an image is of the response whose texts are shown,
and each that fails finds no image to take away.
-/
theorem one_response_shown_iff (urls : URLs) (responses : Collection)
    (as : List (Shown × Outcome)) :
    Always receptionStep (OneResponse responses) (showResponses urls responses) as ↔
      Guarded receptionStep EndsWell (showResponses urls responses) as :=
  always_iff_guarded (showsResponses_step responses) (oneResponse_step_iff responses) as
    (showsResponses_loaded urls responses) (oneResponse_showResponses urls responses)

/-- A response with a picture. -/
def responseOf (completerId responseContent responseImage : String) : Document :=
  Document.ofFields [
    ("taskPosterId", .string "aaron"), ("completerId", .string completerId),
    ("completionStatus", .string ""), ("responseRecording", .string ""),
    ("responseImage", .string responseImage), ("responseTitle", .string "早安"),
    ("responseContent", .string responseContent), ("responseTime", .string "2023.10.15 10:00")]

def someURLs : URLs := { isURL := fun urlString => urlString != "", isURL_empty := rfl }

/-- Ella and Hank have answered, each with a picture. -/
def twoResponses : Collection :=
  ((∅ : Collection).insert "r1" (responseOf "ella" "鄰居笑了" "gs://ella.jpg")).insert "r2"
    (responseOf "hank" "鄰居不在" "gs://hank.jpg")

/-- Hank's picture arrives first, Ella's second: the screen shows Hank's name above it. -/
theorem picture_of_another :
    ¬ Always receptionStep (OneResponse twoResponses) (showResponses someURLs twoResponses)
      [(⟨"r2", "gs://hank.jpg"⟩, .image), (⟨"r1", "gs://ella.jpg"⟩, .image)] := by
  intro h
  obtain ⟨x, -, hlabels, himage⟩ := h.last
  obtain ⟨-, hella⟩ := (himage ⟨"r1", "gs://ella.jpg"⟩).mp (by decide)
  have hlabel := hlabels.document
  rw [hella] at hlabel
  exact absurd hlabel (by decide)

/-! ### The tables of memories -/

section

variable {K : Type} [DecidableEq K]

/--
Every image cell is empty or holds the picture at the `memoryImage` of the memory it
shows.
-/
def OwnPicture (s : TableState K) : Prop := Cells.Own GoodThingMemory.memoryImage s.cells

/-- What the action does to the image cells is in time. -/
def CellsInTime (urls : URLs) (table : MemoryTable) (s : TableState K) (a : TableAction K) : Prop :=
  ∀ c, cellAction urls table s a = some c → Cells.InTime GoodThingMemory.memoryImage s.cells c

theorem ownPicture_step_iff (urls : URLs) (table : MemoryTable) (s : TableState K)
    (a : TableAction K) (h : OwnPicture s) :
    OwnPicture (tableStep urls table s a) ↔ CellsInTime urls table s a := by
  unfold OwnPicture CellsInTime tableStep
  cases hc : cellAction urls table s a with
  | none => exact ⟨fun _ c hc' => (nomatch hc'), fun _ => h⟩
  | some c =>
      simp only [Option.some.injEq, forall_eq']
      exact Cells.own_step_iff GoodThingMemory.memoryImage s.cells c h

/--
No image cell ever holds another memory's picture exactly when a cell is used again
only while it is empty or holds the new memory's picture already, and an image arrives
only while its cell shows a memory with that picture.
-/
theorem reused_cell_own_picture_iff (urls : URLs) (table : MemoryTable)
    (memories : List GoodThingMemory) (as : List (TableAction K)) :
    Always (tableStep urls table) OwnPicture (openTable memories) as ↔
      Guarded (tableStep urls table) (CellsInTime urls table) (openTable memories) as :=
  always_iff_guarded_of_step (ownPicture_step_iff urls table) as (Cells.own_unused _)

end

/-- A memory with this picture. -/
def memoryWith (memoryID : String) (memoryImage : Option String) : GoodThingMemory :=
  ⟨memoryID, "海邊", "下雨天", none, memoryImage, true, "2023.10.14 21:00", "Aaron"⟩

/-- The one cell is used for a second memory before the picture of the first arrives. -/
def scrolledTooSoon : List (TableAction Unit) :=
  [.cellForRowAt 0 (), .cellForRowAt 1 (), .finish () "gs://beach.jpg" .image]

/-- In both tables the picture of the first memory is then shown with the second. -/
theorem picture_in_reused_cell :
    ¬ Always (tableStep someURLs .memoryWall) OwnPicture
      (openTable [memoryWith "m1" (some "gs://beach.jpg"), memoryWith "m2" none])
      scrolledTooSoon ∧
    ¬ Always (tableStep someURLs .privateMemory) OwnPicture
      (openTable [memoryWith "m1" (some "gs://beach.jpg"), memoryWith "m2" none])
      scrolledTooSoon := by
  refine ⟨?_, ?_⟩
  · intro h
    rcases h.last () with hnone | hother
    · exact absurd hnone (by decide)
    · exact absurd hother (by decide)
  · intro h
    rcases h.last () with hnone | hother
    · exact absurd hnone (by decide)
    · exact absurd hother (by decide)

end GoodThing
