/-
The lists are in time order.

Each of the four is sorted by the field its query orders by, in the same direction, and
items carry that field as a string.  So they are sorted by stamps whatever is delivered
when; and the order of the stamps `dateFormatterWithTime` prints is that of the minutes.
-/
import GoodThing.Controller.Comment
import GoodThing.Controller.GroupList
import GoodThing.Lib.Sorted
import GoodThing.Lib.Stamp
import GoodThing.Proofs.DailyTask

namespace GoodThing

open Firestore Feed Machine Calendar

/-! ### The stamps of decoded items -/

theorem GoodThingGroup.decode_createdTime {d : Document} {g : GoodThingGroup}
    (h : decode d = some g) : d "createdTime" = some (.string g.createdTime) := by
  unfold decode at h
  -- One bind for each field; `createdTime` is the seventh of eleven.
  iterate 6 obtain ⟨_, -, h⟩ := Option.bind_eq_some_iff.mp h
  obtain ⟨createdTime, htime, h⟩ := Option.bind_eq_some_iff.mp h
  iterate 4 obtain ⟨_, -, h⟩ := Option.bind_eq_some_iff.mp h
  rw [← Option.some.inj h]
  exact Document.eq_of_string? htime

theorem GoodThingMemory.decode_createdTime {d : Document} {m : GoodThingMemory}
    (h : decode d = some m) : d "memoryCreatedTime" = some (.string m.memoryCreatedTime) := by
  simp only [decode, Option.bind_eq_bind, Option.bind_eq_some_iff, Option.pure_def,
    Option.some.injEq] at h
  obtain ⟨-, -, -, -, -, -, -, -, -, -, -, -, createdTime, htime, -, -, rfl⟩ := h
  exact Document.eq_of_string? htime

theorem GoodThingComment.decode_createdTime {d : Document} {c : GoodThingComment}
    (h : decode d = some c) : d "commentCreatedTime" = some (.string c.commentCreatedTime) := by
  simp only [decode, Option.bind_eq_bind, Option.bind_eq_some_iff, Option.pure_def,
    Option.some.injEq] at h
  obtain ⟨-, -, createdTime, htime, -, -, -, -, -, -, rfl⟩ := h
  exact Document.eq_of_string? htime

/-! ### The four screens -/

theorem sortedBy_groups :
    groupList.screen.SortedBy "createdTime" true GoodThingGroup.createdTime where
  before _ _ := decide_eq_false_iff_not.trans not_lt
  order _ _ := rfl
  decode _ _ := GoodThingGroup.decode_createdTime

theorem sortedBy_publicMemory :
    publicMemoryScreen.SortedBy "memoryCreatedTime" true GoodThingMemory.memoryCreatedTime where
  before _ _ := decide_eq_false_iff_not.trans not_lt
  order _ _ := rfl
  decode _ _ := GoodThingMemory.decode_createdTime

theorem sortedBy_privateMemory :
    privateMemoryScreen.SortedBy "memoryCreatedTime" true GoodThingMemory.memoryCreatedTime where
  before _ _ := decide_eq_false_iff_not.trans not_lt
  order _ _ := rfl
  decode _ _ := GoodThingMemory.decode_createdTime

theorem sortedBy_memoryWall :
    memoryWall.screen.SortedBy "memoryCreatedTime" true GoodThingMemory.memoryCreatedTime where
  before _ _ := decide_eq_false_iff_not.trans not_lt
  order _ _ := rfl
  decode _ _ := GoodThingMemory.decode_createdTime

theorem sortedBy_comments :
    detailPage.screen.SortedBy "commentCreatedTime" false GoodThingComment.commentCreatedTime where
  before _ _ := decide_eq_false_iff_not.trans not_lt
  order _ _ := rfl
  decode _ _ := GoodThingComment.decode_createdTime

/-! ### Stamps and minutes -/

variable {α : Type}

/-- From the latest stamp to the earliest. -/
def LatestFirst (stamp : α → String) (items : List α) : Prop :=
  items.Pairwise fun a b => stamp b ≤ stamp a

/-- From the earliest stamp to the latest. -/
def EarliestFirst (stamp : α → String) (items : List α) : Prop :=
  items.Pairwise fun a b => stamp a ≤ stamp b

/-- The three screens with the collection behind them. -/
theorem screens_in_time_order (c : Collection) (as : List Feed.Action) :
    Always groupsStep (fun s => LatestFirst (·.createdTime) s.items) (Feed.start c) as ∧
    Always wallStep (fun s => LatestFirst (·.memoryCreatedTime) (publicMemory s))
      (Feed.start c) as ∧
    Always commentsStep (fun s => EarliestFirst (·.commentCreatedTime) s.items)
      (Feed.start c) as :=
  ⟨always_items_inOrder sortedBy_groups c as, always_items_inOrder sortedBy_memoryWall c as,
    always_items_inOrder sortedBy_comments c as⟩

/--
The stamps are what `dateFormatterWithTime` prints at these times on the clocks of one
zone, in years up to 9999.
-/
def StampedIn (zone : Zone) (stamp : α → String) (created : α → ℤ) (items : List α) : Prop :=
  ∀ m ∈ items, ∃ i, zone.clock (created m) = some i ∧ i.day.year ≤ 9999 ∧
    stamp m = dateFormatterWithTime i

theorem stamp_le_iff {zone : Zone} {stamp : α → String} {created : α → ℤ} {items : List α}
    (h : StampedIn zone stamp created items) {a b : α} (ha : a ∈ items) (hb : b ∈ items) :
    stamp a ≤ stamp b ↔ zone.minute (created a) ≤ zone.minute (created b) := by
  obtain ⟨i, hi, hyear, hstamp⟩ := h a ha
  obtain ⟨j, hj, hyear', hstamp'⟩ := h b hb
  rw [hstamp, hstamp']
  exact Zone.format_clock_le_iff hi hj hyear hyear'

/--
Whatever is delivered in whatever order, the lists are sorted by their stamps; and for
stamps of one zone that is the order of the minutes.
-/
theorem lists_in_time_order :
    (∀ ds, Always (deliver groupList.screen) (LatestFirst (·.createdTime)) [] ds) ∧
    (∀ ds, Always (deliver publicMemoryScreen) (LatestFirst (·.memoryCreatedTime)) [] ds) ∧
    (∀ ds, Always (deliver privateMemoryScreen) (LatestFirst (·.memoryCreatedTime)) [] ds) ∧
    (∀ ds, Always (deliver detailPage.screen) (EarliestFirst (·.commentCreatedTime)) [] ds) ∧
    ∀ (α : Type) (zone : Zone) (stamp : α → String) (created : α → ℤ) (items : List α),
      StampedIn zone stamp created items →
      (LatestFirst stamp items ↔
        items.Pairwise fun a b => zone.minute (created b) ≤ zone.minute (created a)) ∧
      (EarliestFirst stamp items ↔
        items.Pairwise fun a b => zone.minute (created a) ≤ zone.minute (created b)) := by
  refine ⟨always_inOrder sortedBy_groups, always_inOrder sortedBy_publicMemory,
    always_inOrder sortedBy_privateMemory, always_inOrder sortedBy_comments, ?_⟩
  intro α zone stamp created items h
  refine ⟨?_, ?_⟩
  · exact List.Pairwise.iff_of_mem fun ha hb => stamp_le_iff h hb ha
  · exact List.Pairwise.iff_of_mem fun ha hb => stamp_le_iff h ha hb

def stampAt (zone : Zone) (t : ℤ) : String := ((zone.clock t).map dateFormatterWithTime).getD ""

/-- The first minute of February and the last one of January, in the first year. -/
theorem february_before_january :
    LatestFirst (stampAt taipei) [31 * 86400 - 28800, 31 * 86400 - 28860] := by
  obtain ⟨-, -, -, -, hminutes⟩ := lists_in_time_order
  refine (hminutes ℤ taipei (stampAt taipei) id _ ?_).1.mpr (by decide)
  intro t ht
  rcases List.mem_cons.mp ht with rfl | ht
  · exact ⟨_, rfl, by decide +kernel, rfl⟩
  · obtain rfl := List.mem_singleton.mp ht
    exact ⟨_, rfl, by decide +kernel, rfl⟩

end GoodThing
