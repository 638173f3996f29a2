/-
Writes on the documents of the local store.

A mutation is applied twice: to the view, as soon as it is written and again whenever the view
is worked out anew, and to the cached document when the backend has acknowledged it.  With the
view goes a mask of the fields that were patched; it is lost when the whole document is
replaced.

What several mutations have done to a document can be kept as a single one, its overlay.
`calculateOverlayMutation` reads it off the document and the mask.

Field transforms are left out: no write of the app has one.
-/
import GoodThing.Firebase.ObjectValue
import GoodThing.Firebase.View
import GoodThing.Lib.Versioned

namespace Firebase.Local

open Versioned (Precondition Cell)

variable {K S A : Type} [LinearOrder S]

/-! ### Documents -/

/-- A document of the cache or of a view.  The version `None` is `0`. -/
structure MutableDocument (K S A : Type) [LinearOrder S] where
  key : K
  type : DocumentType
  version : Nat
  value : ObjectValue S A
  state : DocumentState

namespace MutableDocument

def invalidDocument (key : K) : MutableDocument K S A := ⟨key, .invalid, 0, .empty, .synced⟩

def convertToFoundDocument (d : MutableDocument K S A) (version : Nat) (value : ObjectValue S A) :
    MutableDocument K S A :=
  { d with version, type := .foundDocument, value, state := .synced }

def convertToNoDocument (d : MutableDocument K S A) (version : Nat) : MutableDocument K S A :=
  { d with version, type := .noDocument, value := .empty, state := .synced }

def convertToUnknownDocument (d : MutableDocument K S A) (version : Nat) :
    MutableDocument K S A :=
  { d with version, type := .unknownDocument, value := .empty, state := .hasCommittedMutations }

def setHasCommittedMutations (d : MutableDocument K S A) : MutableDocument K S A :=
  { d with state := .hasCommittedMutations }

def setHasLocalMutations (d : MutableDocument K S A) : MutableDocument K S A :=
  { d with state := .hasLocalMutations, version := 0 }

def foundDocument (key : K) (version : Nat) (value : ObjectValue S A) : MutableDocument K S A :=
  (invalidDocument key).convertToFoundDocument version value

def noDocument (key : K) (version : Nat) : MutableDocument K S A :=
  (invalidDocument key).convertToNoDocument version

def isValidDocument (d : MutableDocument K S A) : Bool := d.type ≠ .invalid

def isFoundDocument (d : MutableDocument K S A) : Bool := d.type = .foundDocument

def isNoDocument (d : MutableDocument K S A) : Bool := d.type = .noDocument

def hasLocalMutations (d : MutableDocument K S A) : Bool := d.state = .hasLocalMutations

def hasPendingWrites (d : MutableDocument K S A) : Bool :=
  d.state = .hasLocalMutations || d.state = .hasCommittedMutations

/-- What a precondition looks at. -/
def cell (d : MutableDocument K S A) : Cell (ObjectValue S A) :=
  if d.isFoundDocument then some (d.value, d.version) else none

end MutableDocument

/-! ### Mutations -/

abbrev FieldMask (S : Type) := Finset (List S)

/-- The fields of a mask in their order. -/
def FieldMask.paths (mask : FieldMask S) : List (List S) := mask.sort

inductive Mutation (K S A : Type) [LinearOrder S] where
  | set (key : K) (precondition : Precondition) (value : ObjectValue S A)
  | patch (key : K) (precondition : Precondition) (value : ObjectValue S A)
      (fieldMask : FieldMask S)
  | delete (key : K) (precondition : Precondition)

/-- The fields of the mask; the ones without a value are to be deleted. -/
def getPatch (value : ObjectValue S A) (fieldMask : FieldMask S) : TransformMap S A :=
  ((FieldMask.paths fieldMask).filter fun path => path ≠ []).map fun path => (path, value.get path)

namespace Mutation

def key : Mutation K S A → K
  | .set key .. | .patch key .. | .delete key _ => key

def precondition : Mutation K S A → Precondition
  | .set _ precondition _ | .patch _ precondition .. | .delete _ precondition => precondition

/-- Only a patch has a mask. -/
def fieldMask : Mutation K S A → Option (FieldMask S)
  | .patch _ _ _ fieldMask => some fieldMask
  | _ => none

def isPatch (m : Mutation K S A) : Bool := m.fieldMask.isSome

/-- The document and the mask after the mutation. -/
def applyToLocalView (m : Mutation K S A) (document : MutableDocument K S A)
    (previousMask : Option (FieldMask S)) : MutableDocument K S A × Option (FieldMask S) :=
  if m.precondition.isValidFor document.cell then
    match m with
    | .set _ _ value =>
        ((document.convertToFoundDocument document.version value).setHasLocalMutations, none)
    | .patch _ _ value fieldMask =>
        let data := document.value.setAll (getPatch value fieldMask)
        ((document.convertToFoundDocument document.version data).setHasLocalMutations,
          previousMask.map (· ∪ fieldMask))
    | .delete .. => ((document.convertToNoDocument 0).setHasLocalMutations, none)
  else (document, previousMask)

/-- Mutations of a document one after the other, with the fields they have patched. -/
def applyAll (ms : List (Mutation K S A)) (document : MutableDocument K S A) :
    MutableDocument K S A × Option (FieldMask S) :=
  ms.foldl (fun view m => m.applyToLocalView view.1 view.2) (document, some ∅)

/-- The cached document once the backend has taken the mutation. -/
def applyToRemoteDocument (m : Mutation K S A) (document : MutableDocument K S A)
    (version : Nat) : MutableDocument K S A :=
  match m with
  | .set _ _ value => (document.convertToFoundDocument version value).setHasCommittedMutations
  | .patch _ precondition value fieldMask =>
      -- The precondition held at the backend, so it is another document that is cached.
      if !precondition.isValidFor document.cell then document.convertToUnknownDocument version
      else
        let data := document.value.setAll (getPatch value fieldMask)
        (document.convertToFoundDocument version data).setHasCommittedMutations
  | .delete .. => (document.convertToNoDocument version).setHasCommittedMutations

/-- One field of the mask of an overlay. -/
def overlayField (docValue : ObjectValue S A) (overlay : ObjectValue S A × FieldMask S)
    (path : List S) : ObjectValue S A × FieldMask S :=
  if path ∈ overlay.2 then overlay
  else
    -- For a nested field that is gone its parent is taken, which may have been made for it.
    let path := if (docValue.get path).isNone ∧ 1 < path.length then path.dropLast else path
    match docValue.get path with
    | some value => (overlay.1.set path value, insert path overlay.2)
    | none => (overlay.1.delete path, insert path overlay.2)

def calculateOverlayMutation (doc : MutableDocument K S A) (mask : Option (FieldMask S)) :
    Option (Mutation K S A) :=
  if !doc.hasLocalMutations then none
  else
    match mask with
    | none =>
        if doc.isNoDocument then some (.delete doc.key .none)
        else some (.set doc.key .none doc.value)
    | some mask =>
        let overlay := (FieldMask.paths mask).foldl (overlayField doc.value) (.empty, ∅)
        some (.patch doc.key .none overlay.1 overlay.2)

end Mutation

/-! ### What the app can write -/

inductive Write (S A : Type) [LinearOrder S] where
  | setData (value : ObjectValue S A)
  | mergeData (value : ObjectValue S A) (fieldMask : FieldMask S)
  | updateData (value : ObjectValue S A) (fieldMask : FieldMask S)
  | deleteDocument

def Write.toMutation (key : K) : Write S A → Mutation K S A
  | .setData value => .set key .none value
  | .mergeData value fieldMask => .patch key .none value fieldMask
  | .updateData value fieldMask => .patch key (.exists true) value fieldMask
  | .deleteDocument => .delete key .none

end Firebase.Local
