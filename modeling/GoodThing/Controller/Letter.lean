/-
Letters: `UserLetterWritingViewController` and `UserFriendLetterListViewController`.

The letters of two users are a collection under one document of `Inbox`, named after
both in alphabetical order.  `sendLetter` makes sure of the document first and adds
the letter then; `fetchLetters` reads the collection.

The friend a letter is for is handed from screen to screen, by `prepare(for:sender:)`
of the list and of a letter's page, and is not read at the end: `sendLetterButtonTapped`
takes the receiver from the same place as the sender.
-/
import GoodThing.Controller.Form
import GoodThing.Model

namespace GoodThing

open Firestore

def inbox : String := "Inbox"

/-- Where the letters of a conversation are. -/
def letters (conversationId : String) : String := inbox ++ "/" ++ conversationId ++ "/Letters"

/-- Uids are ASCII, so the order of strings is that of their characters. -/
def getConversationId (user1 user2 : String) : String :=
  if user1 < user2 then user1 ++ "_" ++ user2 else user2 ++ "_" ++ user1

/-- The copy of the list controller. -/
def UserFriendLetterListViewController.getConversationId (user1 user2 : String) : String :=
  if user1 < user2 then user1 ++ "_" ++ user2 else user2 ++ "_" ++ user1

/-! ### Sending -/

structure LetterForm where
  letterTitle : Option String
  letterContent : Option String
  /-- What `dateFormatterWithTime` prints when the button is tapped. -/
  time : String

def letterData (sender receiver title content time : String) : Document :=
  Document.ofFields [
    ("user1", .string sender),
    ("user2", .string receiver),
    ("title", .string title),
    ("content", .string content),
    ("createdTime", .string time)]

/-- Which of the requests of `sendLetter` succeed. -/
structure LetterRequests where
  getDocument : Bool
  setData : Bool
  addDocument : Bool

def LetterRequests.allSucceed : LetterRequests := ⟨true, true, true⟩

/-- `addDocument(data:)`: the store, and whether the completion gets no error. -/
def addDocument (s : Store) (path id : String) (d : Document) (accepted : Bool) : Store × Bool :=
  if accepted then (s.setData path id d, true) else (s, false)

/--
`sendLetter(from:to:)`: the store once its requests are through, and whether the
completion gets no error.  An empty letter is not sent, and no error either.
-/
def sendLetter (s : Store) (form : LetterForm) (sender receiver : String)
    (requests : LetterRequests) (id : String) : Store × Bool :=
  match filled form.letterTitle, filled form.letterContent with
  | some title, some content =>
      let conversationId := getConversationId sender receiver
      let data := letterData sender receiver title content form.time
      match s.getDocument inbox conversationId requests.getDocument with
      | .failed => (s, false)
      | .missing =>
          if requests.setData then
            addDocument
              (s.setData inbox conversationId
                (Document.ofFields [("metadata", .string "dummyData")]))
              (letters conversationId) id data requests.addDocument
          else (s, false)
      | .found _ => addDocument s (letters conversationId) id data requests.addDocument
  | _, _ => (s, true)

/-- Both ids are read from `UserDefaults`; the friend of the screen is not looked at. -/
def sendLetterButtonTapped (s : Store) (userId : Option String) (_friend : Option GoodThingUser)
    (form : LetterForm) (requests : LetterRequests) (id : String) : Store :=
  match userId with
  | some senderId =>
      match userId with
      | some receiverId => (sendLetter s form senderId receiverId requests id).1
      | none => s
  | none => s

/-! ### Reading -/

def fetchLettersQuery : Query where
  filters := []
  order := some ("CreatedTime", false)
  limit := none

/-- `fetchLetters`: the list its completion is given, if it is given one. -/
def fetchLetters (s : Store) (userId : Option String) (friend : Option GoodThingUser)
    (reached : Bool) : Option (List GoodThingLetter) :=
  match userId, friend with
  | some user1, some friend =>
      if reached then
        let documents := fetchLettersQuery.getDocuments
          (s (letters (UserFriendLetterListViewController.getConversationId user1 friend.userId)))
        some (documents.filterMap fun x => GoodThingLetter.decode x.2)
      else none
  | _, _ => none

end GoodThing
