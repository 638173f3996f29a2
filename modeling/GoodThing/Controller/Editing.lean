/-
Writing into a text view: the delegate methods of `PostTaskViewController`,
`ReplyTaskViewController` and `CommentViewController`.

A text view has no placeholder of its own, so each controller puts one into the text and
takes it out again.  The first two have the same code and tell it by its wording; the
third tells it by its colour as well.  Who wrote a character is not something a text view
knows.  It is kept along here, together with the text the user has written, for
comparison.

Ranges count characters.  `NSRange` counts code units, but a range of an edit never cuts
a character in two.  Equality of texts stands for Swift's `==`, which takes canonically
equivalent texts for the same: a placeholder spelt with compatibility ideographs is one to the
app and not here.
-/
import GoodThing.Controller.Comment
import GoodThing.Controller.Upload

namespace GoodThing

open Firestore

inductive TextColor where
  | lightGray
  | black
  deriving DecidableEq

/-! ### Tasks and replies -/

/-- `textViewPlaceHolderText`, the same on both screens. -/
def textViewPlaceHolderText : String := "請輸入好事任務內容:"

/-- A character in a text view, and whether the user has typed it. -/
structure Glyph where
  char : Char
  typed : Bool
  deriving DecidableEq

structure ContentView where
  text : List Glyph
  textColor : TextColor
  /-- What the user has typed and not deleted. -/
  net : List Char
  deriving DecidableEq

namespace ContentView

/-- `textView.text`, which is never nil once it is read. -/
def string (v : ContentView) : String := String.ofList (v.text.map (·.char))

def placeholderText : List Glyph := textViewPlaceHolderText.toList.map fun c => ⟨c, false⟩

def showPlaceholder (v : ContentView) : ContentView :=
  { v with text := placeholderText, textColor := .lightGray }

def clear (v : ContentView) : ContentView := { v with text := [], textColor := .black }

def textViewDidBeginEditing (v : ContentView) : ContentView :=
  if v.string = textViewPlaceHolderText then v.clear else v

def textViewDidEndEditing (v : ContentView) : ContentView :=
  if v.string.isEmpty then v.showPlaceholder else v

/-- `textView(_:shouldChangeTextIn:replacementText:)`, which always returns true. -/
def shouldChangeText (v : ContentView) (length : Nat) (text : List Char) : ContentView :=
  if text.isEmpty && decide (length > 0) && v.string == textViewPlaceHolderText then v.clear
  else if v.string.isEmpty && text.isEmpty then v.showPlaceholder
  else v

/-- How many of the first characters the user has typed. -/
def typedBefore (v : ContentView) (location : Nat) : Nat :=
  (v.text.take location).countP (·.typed)

/-- An edit: the delegate is asked, and the range of the text replaced. -/
def edit (v : ContentView) (location length : Nat) (text : List Char) : ContentView :=
  let asked := v.shouldChangeText length text
  { asked with
    text := asked.text.take location ++ text.map (⟨·, true⟩) ++ asked.text.drop (location + length)
    net := v.net.take (v.typedBefore location) ++ text ++
      v.net.drop (v.typedBefore (location + length)) }

end ContentView

/-- A screen with a text to post; `F` is everything else it posts. -/
structure TextScreen (F : Type) where
  /-- The document stored, unless a guard returns first. -/
  post : F → Option String → Option Document
  /-- Whether the guards that are not about the text let the post through. -/
  ready : F → Bool
  /-- The field that keeps the text. -/
  field : String

def postTaskText : TextScreen TaskPost where
  post t content :=
    postTask { t.form with taskContent := content } t.userId t.date t.randomValue t.id
  ready t := (filled t.form.taskTitle).isSome && t.userId.isSome
  field := "taskContent"

def replyTaskText : TextScreen TaskReply where
  post r content :=
    (replyTask { r.form with replyContent := content } r.task r.userId).map (·.2)
  ready r :=
    (filled r.form.replyTitle).isSome && (r.task.bind fun task => filled (some task.taskId)).isSome
  field := "responseContent"

structure ContentState where
  view : ContentView
  /-- The documents posted, each with what the text view was like. -/
  posted : List (Document × ContentView)

inductive ContentAction (F : Type) where
  | beginEditing
  | endEditing
  | edit (location length : Nat) (text : List Char)
  | post (rest : F)

/-- `viewDidLoad` puts the placeholder there. -/
def openContent : ContentState where
  view := ContentView.showPlaceholder ⟨[], .black, []⟩
  posted := []

def contentStep {F : Type} (screen : TextScreen F) (s : ContentState) :
    ContentAction F → ContentState
  | .beginEditing => { s with view := s.view.textViewDidBeginEditing }
  | .endEditing => { s with view := s.view.textViewDidEndEditing }
  | .edit location length text =>
      -- The range of an edit is one of the text.
      if location + length ≤ s.view.text.length then
        { s with view := s.view.edit location length text }
      else s
  | .post rest =>
      match screen.post rest (some s.view.string) with
      | some d => { s with posted := (d, s.view) :: s.posted }
      | none => s

/-! ### Comments -/

structure CommentState where
  text : List Char
  textColor : TextColor
  /-- `confirmButton`'s title. -/
  title : String
  /-- What the user has typed and not deleted. -/
  net : List Char
  /-- There has been an edit. -/
  edited : Bool
  deriving DecidableEq

inductive CommentAction where
  | beginEditing
  | endEditing
  | append (c : Char)
  | deleteLast

namespace CommentState

/-- `commentTextView.text`. -/
def string (s : CommentState) : String := String.ofList s.text

def showPlaceholder (s : CommentState) : CommentState :=
  { s with text := commentPlaceholder.toList, textColor := .lightGray }

def clear (s : CommentState) : CommentState := { s with text := [], textColor := .black }

def textViewDidBeginEditing (s : CommentState) : CommentState :=
  if s.textColor = .lightGray then s.clear else s

def textViewDidEndEditing (s : CommentState) : CommentState :=
  if s.string.isEmpty then s.showPlaceholder else s

def textViewDidChange (s : CommentState) : CommentState :=
  let s := if s.string.isEmpty then s.showPlaceholder
    else if s.textColor = .lightGray then s.clear else s
  { s with title := if s.string.isEmpty || s.string == commentPlaceholder then "取消" else "提交" }

end CommentState

/-- `setupTextView` and `setupButton`. -/
def openComment : CommentState where
  text := commentPlaceholder.toList
  textColor := .lightGray
  title := "取消"
  net := []
  edited := false

def commentStep (s : CommentState) : CommentAction → CommentState
  | .beginEditing => s.textViewDidBeginEditing
  | .endEditing => s.textViewDidEndEditing
  | .append c =>
      CommentState.textViewDidChange
        { s with text := s.text ++ [c], net := s.net ++ [c], edited := true }
  | .deleteLast =>
      CommentState.textViewDidChange
        { s with text := s.text.dropLast, net := s.net.dropLast, edited := true }

end GoodThing
