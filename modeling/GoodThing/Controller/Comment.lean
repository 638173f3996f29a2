/-
Comments: `CommentViewController` and `MemoryWallDetailPageViewController`.

The comments on a memory are a collection of their own under the memory's document.
The detail page asks for them once and listens to them from then on, as the wall
does with the memories.  The comparison with the placeholder stands for Swift's `==` of texts.
-/
import GoodThing.Controller.Memory

namespace GoodThing

open Firestore

/-! ### Posting a comment -/

/-- What the text view shows while nothing has been typed. -/
def commentPlaceholder : String := "請輸入留言"

/-- The document `postCommet` stores under a new id, unless its guard returns first. -/
def postCommet (commentText : Option String) (selectedMemory : Option GoodThingMemory)
    (time id : String) : Option Document := do
  let commentContent ← filled commentText
  let memory ← selectedMemory
  return Document.ofFields [
    ("memoryId", .string memory.memoryID),
    ("commentId", .string id),
    ("commentContent", .string commentContent),
    ("commentCreatedTime", .string time),
    ("commentCreatorId", .string "Aaron")]

/-- The button posts what has been typed; with nothing typed it only closes the view. -/
def didTapSubmit (commentText : String) (selectedMemory : Option GoodThingMemory)
    (time id : String) : Option Document :=
  if commentText.isEmpty || commentText == commentPlaceholder then none
  else postCommet (some commentText) selectedMemory time id

/-! ### The comments of a memory -/

def fetchCommentsQuery : Query where
  filters := []
  order := some ("commentCreatedTime", false)
  limit := none

/-- What `viewDidLoad` of the detail page starts: `fetchComments` and the listener. -/
def detailPage : Feed.Config GoodThingComment where
  decode := GoodThingComment.decode
  before a b := decide (a.commentCreatedTime < b.commentCreatedTime)
  query := fetchCommentsQuery
  watched := wholeCollection

/-- `articleComments` with the collection behind it. -/
abbrev CommentsState := Feed.State GoodThingComment

abbrev commentsStep : CommentsState → Feed.Action → CommentsState := Feed.step detailPage

/--
The table of the detail page: three rows about the memory, and one for each comment,
which `cellForRowAt` reads as `articleComments[rowNumber - 1]`.
-/
def detailTable : Table.Config GoodThingComment where
  decode := detailPage.decode
  before := detailPage.before
  numberOfRows count := 3 + count
  index row :=
    if row < 3 then none
    else
      let rowNumber := row - 2
      some (rowNumber - 1)
  index_lt_iff := by
    intro rows n
    refine ⟨fun h => ?_, fun h row hrow i hi => ?_⟩
    · by_contra hlt
      refine Nat.lt_irrefl n (h (3 + n) (by omega) n ?_)
      rw [if_neg (by omega)]
      exact congrArg some (by omega)
    · by_cases hfixed : row < 3
      · rw [if_pos hfixed] at hi
        cases hi
      · rw [if_neg hfixed] at hi
        obtain rfl := Option.some.inj hi
        omega

end GoodThing
