/-
The date picker of `FetchMemoryViewController`.

Whenever the picker changes, and once when the screen opens, `fetchDataForSelectedDate`
asks for the memories of the selected day; each answer replaces `selectedMemory` when it
comes.  A memory carries the minute it was posted, and the query compares that with the
day.
-/
import GoodThing.Controller.Memory
import GoodThing.Controller.Task

namespace GoodThing

open Firestore Calendar

/-! ### The memories -/

/-- A call of `postMemory`, and the instant at which it was made. -/
structure PostedMemory where
  form : MemoryForm
  id : String
  instant : Instant

/-- The document it stores, unless a guard returned first. -/
def PostedMemory.document (p : PostedMemory) : Option Document :=
  postMemory { p.form with time := dateFormatterWithTime p.instant } p.id

/-- The calls made so far; no id is given twice. -/
structure MemoryHistory where
  posts : List PostedMemory
  ids_nodup : (posts.map (·.id)).Nodup

def storeMemory (c : Collection) (p : PostedMemory) : Collection :=
  match p.document with
  | some d => c.insert p.id d
  | none => c

def MemoryHistory.collection (h : MemoryHistory) : Collection := h.posts.foldl storeMemory ∅

/-! ### The screen -/

def selectedDateQuery (selectedDateString : String) : Query where
  filters := [.isEqualTo "memoryCreatedTime" (.string selectedDateString)]
  order := some ("memoryCreatedTime", true)
  limit := none

/-- A call of `fetchDataForSelectedDate`. -/
inductive DateRequest where
  | unused
  | asked (selectedDateString : String)
  | answered (docs : List (String × Document))
  | done

/-- `R` are the calls of `fetchDataForSelectedDate`. -/
structure DatePickerState (R : Type) where
  collection : Collection
  /-- `privateMemoryDatePicker.date`. -/
  date : Instant
  requests : R → DateRequest
  selectedMemory : List GoodThingMemory

inductive DatePickerAction (R : Type) where
  | datePickerValueChanged (date : Instant) (r : R)
  | getDocuments (r : R)
  | getDocumentsFails (r : R)
  | deliver (r : R)

section

variable {R : Type} [DecidableEq R]

def setRequest (s : DatePickerState R) (r : R) (request : DateRequest) : DatePickerState R :=
  { s with requests := Function.update s.requests r request }

/-- The request for the day the picker shows. -/
def fetchDataForSelectedDate (s : DatePickerState R) (r : R) : DatePickerState R :=
  setRequest s r (.asked (dateFormatterWithDate s.date.day))

/-- `viewDidLoad`, over the memories posted so far. -/
def openDatePicker (history : MemoryHistory) (date : Instant) (r : R) : DatePickerState R :=
  fetchDataForSelectedDate
    { collection := history.collection, date, requests := fun _ => .unused, selectedMemory := [] } r

def datePickerStep (s : DatePickerState R) : DatePickerAction R → DatePickerState R
  | .datePickerValueChanged date r =>
      match s.requests r with
      | .unused => fetchDataForSelectedDate { s with date } r
      | _ => s
  | .getDocuments r =>
      match s.requests r with
      | .asked selectedDateString =>
          setRequest s r
            (.answered ((selectedDateQuery selectedDateString).getDocuments s.collection))
      | _ => s
  | .getDocumentsFails r =>
      match s.requests r with
      | .asked _ => setRequest s r .done
      | _ => s
  | .deliver r =>
      match s.requests r with
      | .answered docs =>
          { setRequest s r .done with
            selectedMemory := Feed.replaced GoodThingMemory.decode docs }
      | _ => s

end

end GoodThing
