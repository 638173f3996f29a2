/-
Who can end up on the memory wall.

The wall's query asks for public memories only, so its answer can be delivered at
any moment without harm.  The listener has no such filter: a private memory it
reports goes on the wall like any other.  Since `postMemory` stores nothing but
private memories, the first one posted while a wall is open is shown on it.

It does not stay there: the answer to the query, when it comes later, replaces the
list.  Until the table has counted again it asks for rows that are gone, on the wall as
on the page of one memory (`rows_in_range_iff`).
-/
import GoodThing.Controller.Comment
import Mathlib.Tactic.FinCases

namespace GoodThing

open Firestore Machine

/-- Nothing private is on the wall. -/
def OnlyPublic (s : WallState) : Prop :=
  ∀ m ∈ publicMemory s, m.memoryPrivacyStatus = false

/-- A snapshot is delivered only if no addition in it decodes as a private memory. -/
def ReportsNothingPrivate (s : WallState) (a : Feed.Action) : Prop :=
  Feed.ReportsOnly memoryWall (fun m => m.memoryPrivacyStatus = false) s a

/-- The query for public memories admits no document that decodes as a private one. -/
theorem fetchMemory_public {d : Document} {m : GoodThingMemory}
    (hadmits : (fetchMemoryQuery none (some false)).admits d = true)
    (hdec : GoodThingMemory.decode d = some m) : m.memoryPrivacyStatus = false := by
  simp only [Query.admits, fetchMemoryQuery, List.nil_append, List.all_cons, List.all_nil,
    Bool.and_true, Bool.and_eq_true] at hadmits
  have hflag := Filter.admits_isEqualTo_boolean.mp hadmits.1
  have hstored := GoodThingMemory.decode_privacy hdec
  rw [hflag] at hstored
  simpa using hstored.symm

/--
Nothing private is on the wall in any state of a run exactly when no snapshot
delivered in it reports a private memory.
-/
theorem only_public_iff (c : Collection) (as : List Feed.Action) :
    Always wallStep OnlyPublic (Feed.start c) as ↔
      Guarded wallStep ReportsNothingPrivate (Feed.start c) as :=
  Feed.items_iff_reportsOnly memoryWall (fun _ _ hadmits hdec => fetchMemory_public hadmits hdec)
    c as

/-! ### Over every order of deliveries -/

/-- No stored document decodes as a private memory. -/
def StoresOnlyPublic (c : Collection) : Prop :=
  ∀ id d m, c.lookup id = some d → GoodThingMemory.decode d = some m →
    m.memoryPrivacyStatus = false

/-- The listener's query takes every document. -/
theorem wholeCollection_admits (d : Document) : wholeCollection.admits d = true := rfl

/-- A wall that never shows a private memory is over a collection that holds none. -/
theorem stores_only_public_of_always {c : Collection} {adds : List (String × Document)}
    (h : ∀ as, Feed.additions as <+: adds → Always wallStep OnlyPublic (Feed.start c) as) :
    StoresOnlyPublic (Feed.addAll c adds) := by
  intro id d m hd hm
  exact (Feed.items_iff_stored memoryWall
    (fun _ _ hadmits hdec => fetchMemory_public hadmits hdec) c adds).mp h id d hd
    (wholeCollection_admits d) m hm

/--
Nothing private reaches the wall, whatever the order of deliveries, exactly when
nothing private is in the collection or added to it.
-/
theorem wall_private_iff (c : Collection) (adds : List (String × Document)) :
    (∀ as, Feed.additions as <+: adds → Always wallStep OnlyPublic (Feed.start c) as) ↔
      StoresOnlyPublic (Feed.addAll c adds) := by
  refine ⟨stores_only_public_of_always, ?_⟩
  intro h as has
  refine (Feed.items_iff_stored memoryWall
    (fun _ _ hadmits hdec => fetchMemory_public hadmits hdec) c adds).mpr ?_ as has
  intro id d hd _ m hm
  exact h id d m hd hm

/-! ### What is posted is private -/

/-- What `postMemory` stores is a record as its struct reads it. -/
theorem postMemory_stores {form : MemoryForm} {id : String} {d : Document}
    (h : postMemory form id = some d) :
    ∃ title content, memoryCodec.Stores ⟨id, title, content, some ["感謝"], form.imageURL, true,
      form.time, "Aaron"⟩ d := by
  simp only [postMemory, Option.bind_eq_bind, Option.bind_eq_some_iff] at h
  obtain ⟨title, -, content, -, hd⟩ := h
  refine ⟨title, content, ?_⟩
  intro k hk
  split at hd
  · rename_i imageURL himage
    rw [← Option.some.inj hd, himage]
    fin_cases hk <;> rfl
  · rename_i himage
    rw [← Option.some.inj hd, himage]
    fin_cases hk <;> rfl

/-- Every memory `postMemory` stores is private. -/
theorem postMemory_private {form : MemoryForm} {id : String} {d : Document}
    (h : postMemory form id = some d) :
    ∃ m, GoodThingMemory.decode d = some m ∧ m.memoryPrivacyStatus = true := by
  obtain ⟨title, content, hstores⟩ := postMemory_stores h
  exact ⟨_, hstores.decode, rfl⟩

/-- One posted memory is enough: some order of deliveries puts it on the wall. -/
theorem posted_memory_leaks {form : MemoryForm} {id : String} {d : Document} {c : Collection}
    (hpost : postMemory form id = some d) (hnew : id ∉ c) :
    ∃ as, Feed.additions as <+: [(id, d)] ∧
      ¬ Always wallStep OnlyPublic (Feed.start c) as := by
  obtain ⟨m, hm, hprivate⟩ := postMemory_private hpost
  by_contra hnone
  have hall : ∀ as, Feed.additions as <+: [(id, d)] →
      Always wallStep OnlyPublic (Feed.start c) as := by
    intro as has
    by_contra hleak
    exact hnone ⟨as, has, hleak⟩
  have hstored : (Feed.addAll c [(id, d)]).lookup id = some d := by
    simp [Feed.addAll, Feed.addOne, hnew]
  have hpublic := (stores_only_public_of_always hall) id d m hstored hm
  rw [hprivate] at hpublic
  cases hpublic

/-- A memory as its author posts it. -/
def rainyDay : MemoryForm :=
  ⟨some "下雨天", some "有人把傘借給我", none, "2023.10.14 21:30"⟩

/-- It is posted while a wall over an empty collection is open, and the wall shows it. -/
theorem posted_memory_on_wall :
    ∃ d, postMemory rainyDay "m1" = some d ∧
      ¬ Always wallStep OnlyPublic (Feed.start ∅)
        [.add "m1" d, .answer, .deliverAnswer, .takeSnapshot, .deliverSnapshot] := by
  refine ⟨_, rfl, ?_⟩
  intro h
  have hshown := h.last
    ⟨"m1", "下雨天", "有人把傘借給我", some ["感謝"], none, true, "2023.10.14 21:30", "Aaron"⟩
    (by decide)
  exact absurd hshown (by decide)

/-! ### The rows the tables ask for -/

/--
On the wall and on the detail page, every row asked for is in range in every state of a
run exactly when no answer has fewer documents that decode than the table has counted.
-/
theorem rows_in_range_iff (as : List Table.Action) :
    (Always (Table.step wallTable) (Table.InRange wallTable) Table.start as ↔
      Guarded (Table.step wallTable) (Table.LongEnough wallTable) Table.start as) ∧
    (Always (Table.step detailTable) (Table.InRange detailTable) Table.start as ↔
      Guarded (Table.step detailTable) (Table.LongEnough detailTable) Table.start as) :=
  ⟨Table.inRange_iff as, Table.inRange_iff as⟩

/-- A collection with the one memory of a rainy day. -/
def rainyDays : Collection :=
  match postMemory rainyDay "m1" with
  | some d => (∅ : Collection).insert "m1" d
  | none => ∅

/--
The listener reports the memory, the wall counts one row, and the query, which does not
ask for private memories, empties the list.
-/
theorem row_out_of_range :
    ¬ Always (Table.step wallTable) (Table.InRange wallTable) Table.start [
      .updated (some ((memoryWall.watched.getDocuments rainyDays).map
        fun x => ⟨.added, x.1, x.2⟩)),
      .reload,
      .fetched (some (memoryWall.query.getDocuments rainyDays))] := by
  intro h
  exact absurd (h.last 0 (by decide) 0 rfl) (by decide)

end GoodThing
