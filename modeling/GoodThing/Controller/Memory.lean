/-
Memories: `PostMemoryViewController` and `GoodThingMemoryWallViewController`.

The wall asks for the public memories and listens to the collection.  Its query
filters on `memoryPrivacyStatus`; its listener is attached to the whole collection,
where `listenForPrivateMemoryUpdates` of the private list filters as well.
-/
import GoodThing.Controller.Form
import GoodThing.Lib.Table
import GoodThing.Model

namespace GoodThing

open Firestore

/-! ### Posting a memory -/

structure MemoryForm where
  memoryTitle : Option String
  memoryContent : Option String
  imageURL : Option String
  /-- What `dateFormatterWithTime` prints when the button is tapped. -/
  time : String

/-- The document `postMemory` stores under a new id, unless a guard returns first. -/
def postMemory (form : MemoryForm) (id : String) : Option Document := do
  let title ← filled form.memoryTitle
  let content ← filled form.memoryContent
  let data := [
    ("memoryID", Value.string id),
    ("memoryTitle", .string title),
    ("memoryContent", .string content),
    ("memoryTag", .strings ["感謝"]),
    ("memoryPrivacyStatus", .boolean true),
    ("memoryCreatedTime", .string form.time),
    ("memoryCreatorID", .string "Aaron")]
  match form.imageURL with
  | some imageURL => return Document.ofFields (data ++ [("memoryImage", .string imageURL)])
  | none => return Document.ofFields data

/-! ### The memory wall -/

/-- The query of `fetchMemory(byCreatorID:withPrivateStatus:)`. -/
def fetchMemoryQuery (creatorID : Option String) (isPrivate : Option Bool) : Query where
  filters :=
    (match creatorID with
      | some creatorID => [.isEqualTo "memoryCreatorID" (.string creatorID)]
      | none => []) ++
    (match isPrivate with
      | some isPrivate => [.isEqualTo "memoryPrivacyStatus" (.boolean isPrivate)]
      | none => [])
  order := some ("memoryCreatedTime", true)
  limit := none

/-- The whole collection, as `listenForMemoryWallUpdates` listens to it. -/
def wholeCollection : Query where
  filters := []
  order := none
  limit := none

/-- What `viewDidLoad` of the wall starts: `fetchMemory(withPrivateStatus: false)` and the
listener. -/
def memoryWall : Feed.Config GoodThingMemory where
  decode := GoodThingMemory.decode
  before a b := decide (b.memoryCreatedTime < a.memoryCreatedTime)
  query := fetchMemoryQuery none (some false)
  watched := wholeCollection

/-- The wall's `publicMemory` with the collection behind it. -/
abbrev WallState := Feed.State GoodThingMemory

abbrev wallStep : WallState → Feed.Action → WallState := Feed.step memoryWall

/-- `publicMemory` as the screen shows it. -/
abbrev publicMemory (s : WallState) : List GoodThingMemory := s.items

/-- The table of the wall: `cellForRowAt` and `didSelectRowAt` read `publicMemory[row]`. -/
def wallTable : Table.Config GoodThingMemory where
  decode := memoryWall.decode
  before := memoryWall.before
  numberOfRows count := count
  index row := some row
  index_lt_iff := by
    intro rows n
    refine ⟨fun h => ?_, fun h row hrow i hi => ?_⟩
    · by_contra hlt
      exact Nat.lt_irrefl n (h n (by omega) n rfl)
    · obtain rfl : row = i := Option.some.inj hi
      omega

/-! ### What the two lists of memories are made of -/

/-- The arguments of `fetchMemory(byCreatorID:withPrivateStatus:)`. -/
structure FetchMemory where
  creatorID : Option String
  isPrivate : Option Bool

/-- The callbacks that change `publicMemory`, whatever `fetchMemory` is called with. -/
def publicMemoryScreen : Feed.Screen GoodThingMemory FetchMemory where
  decode := GoodThingMemory.decode
  before a b := decide (b.memoryCreatedTime < a.memoryCreatedTime)
  query call := fetchMemoryQuery call.creatorID call.isPrivate
  replaces _ := true

/--
The callbacks that change `privateMemory` of `FetchMemoryViewController`.  Its `fetchMemory`
leaves the list alone unless it was asked for private memories.
-/
def privateMemoryScreen : Feed.Screen GoodThingMemory FetchMemory where
  decode := GoodThingMemory.decode
  before a b := decide (b.memoryCreatedTime < a.memoryCreatedTime)
  query call := fetchMemoryQuery call.creatorID call.isPrivate
  replaces call := call.isPrivate == some true

end GoodThing
