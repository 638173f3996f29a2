/-
Which memories the date picker selects.

None, whatever is selected and in whatever order the answers come.  A stored minute is
never equal to a day (`Instant.format_ne_day`), so every answer is empty, and so is the
list.  That is right on the days without a memory.
-/
import GoodThing.Controller.DatePicker
import GoodThing.Proofs.MemoryWall
import GoodThing.Proofs.TaskPool

namespace GoodThing

open Firestore Calendar Machine

/-! ### What is stored -/

theorem PostedMemory.decode_document {p : PostedMemory} {d : Document}
    (h : p.document = some d) :
    d "memoryCreatedTime" = some (.string (dateFormatterWithTime p.instant)) ∧
      ∃ m, GoodThingMemory.decode d = some m := by
  obtain ⟨title, content, hstores⟩ := postMemory_stores h
  refine ⟨?_, _, hstores.decode⟩
  rw [hstores "memoryCreatedTime" (by simp [memoryCodec])]
  rfl

/-- Every document holds the minute of a post. -/
def HoldsMinutes (c : Collection) : Prop :=
  ∀ id d, c.lookup id = some d →
    ∃ instant, d "memoryCreatedTime" = some (.string (dateFormatterWithTime instant))

theorem holdsMinutes_storeMemory {c : Collection} (h : HoldsMinutes c) (p : PostedMemory) :
    HoldsMinutes (storeMemory c p) := by
  unfold storeMemory
  cases hp : p.document with
  | none => exact h
  | some d =>
      intro id d' hd'
      by_cases hid : id = p.id
      · rw [hid, AList.lookup_insert] at hd'
        rw [← Option.some.inj hd']
        exact ⟨p.instant, (PostedMemory.decode_document hp).1⟩
      · rw [AList.lookup_insert_ne hid] at hd'
        exact h id d' hd'

theorem holdsMinutes_foldl :
    ∀ (posts : List PostedMemory) {c : Collection}, HoldsMinutes c →
      HoldsMinutes (posts.foldl storeMemory c) := by
  intro posts
  induction posts with
  | nil => intro c h; exact h
  | cons p rest ih => intro c h; exact ih (holdsMinutes_storeMemory h p)

theorem holdsMinutes_collection (history : MemoryHistory) : HoldsMinutes history.collection := by
  refine holdsMinutes_foldl history.posts ?_
  intro id d hd
  cases hd

/-- A query for a day finds nothing. -/
theorem selectedDateQuery_nil {c : Collection} (h : HoldsMinutes c) (day : Day) :
    (selectedDateQuery (dateFormatterWithDate day)).getDocuments c = [] := by
  refine List.eq_nil_iff_forall_not_mem.mpr fun x hx => ?_
  obtain ⟨hd, hadmits⟩ := Query.mem_getDocuments hx
  simp only [Query.admits, selectedDateQuery, List.all_cons, List.all_nil, Bool.and_true,
    Bool.and_eq_true] at hadmits
  have hday := Filter.admits_isEqualTo_string.mp hadmits.1
  obtain ⟨instant, hminute⟩ := h x.1 x.2 hd
  rw [hminute] at hday
  exact instant.format_ne_day day (Value.string.inj (Option.some.inj hday))

/-! ### What is delivered -/

section

variable {R : Type}

/-- Days are asked for, and nothing has been found. -/
structure FindsNothing (s : DatePickerState R) : Prop where
  collection : HoldsMinutes s.collection
  asked : ∀ r selectedDateString, s.requests r = .asked selectedDateString →
    ∃ day, selectedDateString = dateFormatterWithDate day
  answered : ∀ r docs, s.requests r = .answered docs → docs = []
  selectedMemory : s.selectedMemory = []

variable [DecidableEq R]

theorem FindsNothing.setRequest {s : DatePickerState R} (h : FindsNothing s) (r : R)
    {request : DateRequest}
    (hasked : ∀ selectedDateString, request = .asked selectedDateString →
      ∃ day, selectedDateString = dateFormatterWithDate day)
    (hanswered : ∀ docs, request = .answered docs → docs = []) :
    FindsNothing (setRequest s r request) := by
  refine ⟨h.collection, ?_, ?_, h.selectedMemory⟩
  · intro r' selectedDateString hr'
    by_cases hsame : r' = r
    · rw [hsame] at hr'
      exact hasked selectedDateString (by simpa [GoodThing.setRequest] using hr')
    · exact h.asked r' selectedDateString (by simpa [GoodThing.setRequest, hsame] using hr')
  · intro r' docs hr'
    by_cases hsame : r' = r
    · rw [hsame] at hr'
      exact hanswered docs (by simpa [GoodThing.setRequest] using hr')
    · exact h.answered r' docs (by simpa [GoodThing.setRequest, hsame] using hr')

/-- A request is for a day. -/
theorem FindsNothing.fetch {s : DatePickerState R} (h : FindsNothing s) (r : R) :
    FindsNothing (fetchDataForSelectedDate s r) := by
  refine h.setRequest r (fun selectedDateString hasked => ?_) nofun
  exact ⟨s.date.day, (DateRequest.asked.inj hasked).symm⟩

theorem findsNothing_step (s : DatePickerState R) (a : DatePickerAction R) (h : FindsNothing s) :
    FindsNothing (datePickerStep s a) := by
  cases a with
  | datePickerValueChanged date r =>
      simp only [datePickerStep]
      split
      · have hmoved : FindsNothing { s with date } :=
          ⟨h.collection, h.asked, h.answered, h.selectedMemory⟩
        exact hmoved.fetch r
      · exact h
  | getDocuments r =>
      simp only [datePickerStep]
      split
      · rename_i selectedDateString hasked
        obtain ⟨day, rfl⟩ := h.asked r selectedDateString hasked
        rw [selectedDateQuery_nil h.collection day]
        exact h.setRequest r nofun fun docs hdocs => (DateRequest.answered.inj hdocs).symm
      · exact h
  | getDocumentsFails r =>
      simp only [datePickerStep]
      split
      · exact h.setRequest r nofun nofun
      · exact h
  | deliver r =>
      simp only [datePickerStep]
      split
      · rename_i docs hanswered
        have hdone : FindsNothing (setRequest s r .done) := h.setRequest r nofun nofun
        rw [h.answered r docs hanswered]
        exact ⟨hdone.collection, hdone.asked, hdone.answered, rfl⟩
      · exact h

theorem findsNothing_open (history : MemoryHistory) (date : Instant) (r : R) :
    FindsNothing (openDatePicker history date r) := by
  refine FindsNothing.fetch ?_ r
  exact ⟨holdsMinutes_collection history, fun _ _ h => (nomatch h), fun _ _ h => (nomatch h), rfl⟩

/-- Nothing is ever selected. -/
theorem selectedMemory_nil (history : MemoryHistory) (date : Instant) (r : R)
    (as : List (DatePickerAction R)) :
    (run datePickerStep (openDatePicker history date r) as).selectedMemory = [] :=
  (run_invariant findsNothing_step as _ (findsNothing_open history date r)).selectedMemory

/-! ### What should be selected -/

/-- The stored memories whose instant is on this day. -/
def MemoryHistory.memoriesOn (history : MemoryHistory) (day : Day) : List GoodThingMemory :=
  history.posts.filterMap fun p =>
    if p.instant.day = day then p.document.bind GoodThingMemory.decode else none

/-- The list is exactly the memories of the day the picker shows. -/
def SelectsDay (history : MemoryHistory) (s : DatePickerState R) : Prop :=
  s.selectedMemory.Perm (history.memoriesOn s.date.day)

/-- No memory was stored on this day. -/
def MemoryHistory.NoneOn (history : MemoryHistory) (day : Day) : Prop :=
  ∀ p ∈ history.posts, p.document.isSome = true → p.instant.day ≠ day

omit [DecidableEq R] in
theorem memoriesOn_nil_iff (history : MemoryHistory) (day : Day) :
    history.memoriesOn day = [] ↔ history.NoneOn day := by
  unfold MemoryHistory.memoriesOn MemoryHistory.NoneOn
  rw [List.filterMap_eq_nil_iff]
  refine forall₂_congr fun p _ => ?_
  by_cases hday : p.instant.day = day
  · rw [if_pos hday]
    cases hp : p.document with
    | none => simp
    | some d =>
        obtain ⟨-, m, hm⟩ := PostedMemory.decode_document hp
        simp [hm, hday]
  · rw [if_neg hday]
    simp [hday]

/--
After any sequence of changes of the picker and of deliveries, the list is exactly the
memories of the day the picker shows exactly when none was stored on that day.
-/
theorem date_picker_selects_iff (history : MemoryHistory) (date : Instant) (r : R)
    (as : List (DatePickerAction R)) :
    SelectsDay history (run datePickerStep (openDatePicker history date r) as) ↔
      history.NoneOn (run datePickerStep (openDatePicker history date r) as).date.day := by
  unfold SelectsDay
  rw [selectedMemory_nil, List.nil_perm, memoriesOn_nil_iff]

/-- Every request has been answered and delivered, or has failed. -/
def AllDelivered (s : DatePickerState R) : Prop :=
  ∀ r, s.requests r = .unused ∨ s.requests r = .done

end

def halfPastNine : Instant := ⟨october14, 77400, by omega⟩

def tenInTheEvening : Instant := ⟨october14, 79200, by omega⟩

/-- One memory, posted at half past nine. -/
def eveningMemory : MemoryHistory where
  posts := [⟨rainyDay, "m1", halfPastNine⟩]
  ids_nodup := List.nodup_singleton _

/-- At ten the picker shows the same day, its answer is delivered, and nothing is there. -/
theorem memory_of_the_day_missing :
    AllDelivered (run datePickerStep (openDatePicker eveningMemory tenInTheEvening ())
      [.getDocuments (), .deliver ()]) ∧
    ¬ SelectsDay eveningMemory
      (run datePickerStep (openDatePicker eveningMemory tenInTheEvening ())
        [.getDocuments (), .deliver ()]) := by
  refine ⟨fun _ => .inr rfl, ?_⟩
  intro h
  unfold SelectsDay at h
  rw [selectedMemory_nil, List.nil_perm, memoriesOn_nil_iff] at h
  exact h _ (List.mem_singleton_self _) rfl rfl

end GoodThing
