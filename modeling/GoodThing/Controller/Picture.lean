/-
Pictures: what `MediaDownloader` is asked to put where.

The reception screen of `TaskResponseReceptionViewController` writes the texts of one
response after the other and starts a download for each.  The tables of
`GoodThingMemoryWallViewController` and of `FetchMemoryViewController` start one
whenever a cell is used for a memory.  In both cases the completion writes the view,
whatever has become of it; no cell is emptied before it is used again.
-/
import GoodThing.Controller.Memory
import GoodThing.Controller.Response
import GoodThing.Lib.Download

namespace GoodThing

open Firestore Download

/-- `URL(string:)`, as far as it decides whether a download is started. -/
structure URLs where
  isURL : String → Bool
  isURL_empty : isURL "" = false

/-- The download `downloadImage(from:)` starts, if it starts one. -/
def downloadImage (urls : URLs) (urlString : String) : Option String :=
  if urls.isURL urlString then some urlString else none

/-! ### The reception screen -/

/-- Something on the screen, and the id of the response it was read from. -/
structure Shown where
  document : String
  value : String
  deriving DecidableEq

structure ReceptionScreen where
  taskCompleterLabel : Option Shown
  completerId : Option Shown
  taskResponseLabel : Option Shown
  /-- A picture is named by its URL. -/
  taskResponseImageView : View Shown
  /-- The pictures that have arrived so far. -/
  arrived : List Shown

def ReceptionScreen.blank : ReceptionScreen where
  taskCompleterLabel := none
  completerId := none
  taskResponseLabel := none
  taskResponseImageView := .empty
  arrived := []

/-- The loop body of `fetchResponsesForTask`. -/
def showResponse (urls : URLs) (s : ReceptionScreen) (x : String × Document) : ReceptionScreen :=
  match GoodThingTasksResponses.decode x.2 with
  | some response =>
      { s with
        taskCompleterLabel := some ⟨x.1, response.completerId⟩
        completerId := some ⟨x.1, response.completerId⟩
        taskResponseLabel := some ⟨x.1, response.responseContent⟩
        taskResponseImageView := s.taskResponseImageView.start
          ((downloadImage urls response.responseImage).map fun url => ⟨x.1, url⟩) }
  | none => s

/-- The screen when the callback of `fetchResponsesForTask` has run. -/
def showResponses (urls : URLs) (responses : Collection) : ReceptionScreen :=
  (responsesQuery.getDocuments responses).foldl (showResponse urls) .blank

/-- A download ends. -/
def receptionStep (s : ReceptionScreen) (a : Shown × Outcome) : ReceptionScreen :=
  { s with
    taskResponseImageView := s.taskResponseImageView.finish a.1 a.2
    arrived :=
      if a.1 ∈ s.taskResponseImageView.downloads ∧ a.2 = .image then a.1 :: s.arrived
      else s.arrived }

/-! ### The tables of memories -/

/-- The two tables whose cells show a memory's picture. -/
inductive MemoryTable where
  | memoryWall
  | privateMemory
  deriving DecidableEq

/--
Whether a memory is shown in a cell with an image view.  The wall compares with the
empty string, so a memory without a picture gets one.
-/
def MemoryTable.usesImageCell : MemoryTable → GoodThingMemory → Bool
  | .memoryWall, memory => memory.memoryImage != some ""
  | .privateMemory, _ => true

/-- `K` are the image cells of the table. -/
structure TableState (K : Type) where
  memories : List GoodThingMemory
  cells : Cells K GoodThingMemory String

inductive TableAction (K : Type) where
  /-- The list the table reads from is another. -/
  | setMemories (memories : List GoodThingMemory)
  /-- `tableView(_:cellForRowAt:)`; `cell` is what `dequeueReusableCell` would hand out. -/
  | cellForRowAt (row : Nat) (cell : K)
  /-- A download that was started for this cell ends. -/
  | finish (cell : K) (url : String) (outcome : Outcome)

section

variable {K : Type}

def openTable (memories : List GoodThingMemory) : TableState K := ⟨memories, .unused⟩

/-- What an action does to the image cells. -/
def cellAction (urls : URLs) (table : MemoryTable) (s : TableState K) :
    TableAction K → Option (Cells.Action K GoodThingMemory String)
  | .setMemories _ => none
  | .cellForRowAt row cell =>
      match s.memories[row]? with
      | some memory =>
          if table.usesImageCell memory then
            some (.display cell memory (downloadImage urls (memory.memoryImage.getD "")))
          else none
      | none => none
  | .finish cell url outcome => some (.finish cell url outcome)

def listed (s : TableState K) : TableAction K → List GoodThingMemory
  | .setMemories memories => memories
  | _ => s.memories

variable [DecidableEq K]

def tableStep (urls : URLs) (table : MemoryTable) (s : TableState K) (a : TableAction K) :
    TableState K where
  memories := listed s a
  cells :=
    match cellAction urls table s a with
    | some c => Cells.step s.cells c
    | none => s.cells

end

end GoodThing
