/-
The records the app stores, and how they are read back.

Each `Codable` struct has a `decode`, which is what `data(as:)` does with the
fields of a document: every non-optional key has to be there with the right type,
an optional one may be missing, and other keys are ignored.  `encode` goes the other
way, leaving out what is `nil`; the group's is what `setData(from:)` writes.
-/
import GoodThing.Lib.Codec

namespace GoodThing

open Firestore

structure GoodThingGroup where
  groupID : String
  groupTime : String
  groupName : String
  groupContent : String
  groupLocation : String
  organizerID : String
  createdTime : String
  deadLine : String
  peopleNumberLimit : Int64
  currentPeopleNumber : Int64
  participants : List String
  deriving DecidableEq

def GoodThingGroup.encode (g : GoodThingGroup) : Document :=
  Document.ofFields [
    ("groupID", .string g.groupID),
    ("groupTime", .string g.groupTime),
    ("groupName", .string g.groupName),
    ("groupContent", .string g.groupContent),
    ("groupLocation", .string g.groupLocation),
    ("organizerID", .string g.organizerID),
    ("createdTime", .string g.createdTime),
    ("deadLine", .string g.deadLine),
    ("peopleNumberLimit", .integer g.peopleNumberLimit),
    ("currentPeopleNumber", .integer g.currentPeopleNumber),
    ("participants", .strings g.participants)]

def GoodThingGroup.decode (d : Document) : Option GoodThingGroup := do
  let groupID ← d.string? "groupID"
  let groupTime ← d.string? "groupTime"
  let groupName ← d.string? "groupName"
  let groupContent ← d.string? "groupContent"
  let groupLocation ← d.string? "groupLocation"
  let organizerID ← d.string? "organizerID"
  let createdTime ← d.string? "createdTime"
  let deadLine ← d.string? "deadLine"
  let peopleNumberLimit ← d.int? "peopleNumberLimit"
  let currentPeopleNumber ← d.int? "currentPeopleNumber"
  let participants ← d.strings? "participants"
  return ⟨groupID, groupTime, groupName, groupContent, groupLocation, organizerID, createdTime,
    deadLine, peopleNumberLimit, currentPeopleNumber, participants⟩

structure GoodThingMemory where
  memoryID : String
  memoryTitle : String
  memoryContent : String
  memoryTag : Option (List String)
  memoryImage : Option String
  memoryPrivacyStatus : Bool
  memoryCreatedTime : String
  memoryCreatorID : String
  deriving DecidableEq

def GoodThingMemory.encode (m : GoodThingMemory) : Document :=
  Document.ofFields ([
    ("memoryID", .string m.memoryID),
    ("memoryTitle", .string m.memoryTitle),
    ("memoryContent", .string m.memoryContent),
    ("memoryPrivacyStatus", .boolean m.memoryPrivacyStatus),
    ("memoryCreatedTime", .string m.memoryCreatedTime),
    ("memoryCreatorID", .string m.memoryCreatorID)] ++
    (m.memoryTag.map fun tags => ("memoryTag", .strings tags)).toList ++
    (m.memoryImage.map fun image => ("memoryImage", .string image)).toList)

def GoodThingMemory.decode (d : Document) : Option GoodThingMemory := do
  let memoryID ← d.string? "memoryID"
  let memoryTitle ← d.string? "memoryTitle"
  let memoryContent ← d.string? "memoryContent"
  let memoryTag ← d.optional Value.asStrings "memoryTag"
  let memoryImage ← d.optional Value.asString "memoryImage"
  let memoryPrivacyStatus ← d.bool? "memoryPrivacyStatus"
  let memoryCreatedTime ← d.string? "memoryCreatedTime"
  let memoryCreatorID ← d.string? "memoryCreatorID"
  return ⟨memoryID, memoryTitle, memoryContent, memoryTag, memoryImage, memoryPrivacyStatus,
    memoryCreatedTime, memoryCreatorID⟩

structure GoodThingTasks where
  taskId : String
  taskTitle : String
  taskContent : String
  taskImage : Option String
  taskVoice : Option String
  taskCreatorId : String
  taskCreatedTime : String
  deriving DecidableEq

def GoodThingTasks.encode (t : GoodThingTasks) : Document :=
  Document.ofFields ([
    ("taskId", .string t.taskId),
    ("taskTitle", .string t.taskTitle),
    ("taskContent", .string t.taskContent),
    ("taskCreatorId", .string t.taskCreatorId),
    ("taskCreatedTime", .string t.taskCreatedTime)] ++
    (t.taskImage.map fun image => ("taskImage", .string image)).toList ++
    (t.taskVoice.map fun voice => ("taskVoice", .string voice)).toList)

def GoodThingTasks.decode (d : Document) : Option GoodThingTasks := do
  let taskId ← d.string? "taskId"
  let taskTitle ← d.string? "taskTitle"
  let taskContent ← d.string? "taskContent"
  let taskImage ← d.optional Value.asString "taskImage"
  let taskVoice ← d.optional Value.asString "taskVoice"
  let taskCreatorId ← d.string? "taskCreatorId"
  let taskCreatedTime ← d.string? "taskCreatedTime"
  return ⟨taskId, taskTitle, taskContent, taskImage, taskVoice, taskCreatorId, taskCreatedTime⟩

structure GoodThingUser where
  userId : String
  userName : String
  birthday : String
  registrationTime : String
  introduction : String
  favoriteSentence : String
  latestPublishedTaskId : String
  groupsList : List String
  goodSentences : List String
  friends : List String
  articlesCollection : List String
  postedTasksList : List String
  postedMemoryList : List String
  deriving DecidableEq

def GoodThingUser.encode (u : GoodThingUser) : Document :=
  Document.ofFields [
    ("userId", .string u.userId),
    ("userName", .string u.userName),
    ("birthday", .string u.birthday),
    ("registrationTime", .string u.registrationTime),
    ("introduction", .string u.introduction),
    ("favoriteSentence", .string u.favoriteSentence),
    ("latestPublishedTaskId", .string u.latestPublishedTaskId),
    ("groupsList", .strings u.groupsList),
    ("goodSentences", .strings u.goodSentences),
    ("friends", .strings u.friends),
    ("articlesCollection", .strings u.articlesCollection),
    ("postedTasksList", .strings u.postedTasksList),
    ("postedMemoryList", .strings u.postedMemoryList)]

def GoodThingUser.decode (d : Document) : Option GoodThingUser := do
  let userId ← d.string? "userId"
  let userName ← d.string? "userName"
  let birthday ← d.string? "birthday"
  let registrationTime ← d.string? "registrationTime"
  let introduction ← d.string? "introduction"
  let favoriteSentence ← d.string? "favoriteSentence"
  let latestPublishedTaskId ← d.string? "latestPublishedTaskId"
  let groupsList ← d.strings? "groupsList"
  let goodSentences ← d.strings? "goodSentences"
  let friends ← d.strings? "friends"
  let articlesCollection ← d.strings? "articlesCollection"
  let postedTasksList ← d.strings? "postedTasksList"
  let postedMemoryList ← d.strings? "postedMemoryList"
  return ⟨userId, userName, birthday, registrationTime, introduction, favoriteSentence,
    latestPublishedTaskId, groupsList, goodSentences, friends, articlesCollection,
    postedTasksList, postedMemoryList⟩

structure GoodThingTasksResponses where
  taskPosterId : String
  completerId : String
  completionStatus : String
  responseRecording : String
  responseImage : String
  responseTitle : String
  responseContent : String
  responseTime : String
  deriving DecidableEq

def GoodThingTasksResponses.encode (r : GoodThingTasksResponses) : Document :=
  Document.ofFields [
    ("taskPosterId", .string r.taskPosterId),
    ("completerId", .string r.completerId),
    ("completionStatus", .string r.completionStatus),
    ("responseRecording", .string r.responseRecording),
    ("responseImage", .string r.responseImage),
    ("responseTitle", .string r.responseTitle),
    ("responseContent", .string r.responseContent),
    ("responseTime", .string r.responseTime)]

def GoodThingTasksResponses.decode (d : Document) : Option GoodThingTasksResponses := do
  let taskPosterId ← d.string? "taskPosterId"
  let completerId ← d.string? "completerId"
  let completionStatus ← d.string? "completionStatus"
  let responseRecording ← d.string? "responseRecording"
  let responseImage ← d.string? "responseImage"
  let responseTitle ← d.string? "responseTitle"
  let responseContent ← d.string? "responseContent"
  let responseTime ← d.string? "responseTime"
  return ⟨taskPosterId, completerId, completionStatus, responseRecording, responseImage,
    responseTitle, responseContent, responseTime⟩

structure GoodThingComment where
  commentContent : String
  commentCreatedTime : String
  commentCreatorId : String
  commentId : String
  memoryId : String
  deriving DecidableEq

def GoodThingComment.encode (c : GoodThingComment) : Document :=
  Document.ofFields [
    ("commentContent", .string c.commentContent),
    ("commentCreatedTime", .string c.commentCreatedTime),
    ("commentCreatorId", .string c.commentCreatorId),
    ("commentId", .string c.commentId),
    ("memoryId", .string c.memoryId)]

def GoodThingComment.decode (d : Document) : Option GoodThingComment := do
  let commentContent ← d.string? "commentContent"
  let commentCreatedTime ← d.string? "commentCreatedTime"
  let commentCreatorId ← d.string? "commentCreatorId"
  let commentId ← d.string? "commentId"
  let memoryId ← d.string? "memoryId"
  return ⟨commentContent, commentCreatedTime, commentCreatorId, commentId, memoryId⟩

structure GoodThingLetter where
  sender : String
  receiver : String
  title : String
  content : String
  createdTime : String
  deriving DecidableEq

/-- The coding keys rename `sender` and `receiver`. -/
def GoodThingLetter.decode (d : Document) : Option GoodThingLetter := do
  let sender ← d.string? "user1"
  let receiver ← d.string? "user2"
  let title ← d.string? "title"
  let content ← d.string? "content"
  let createdTime ← d.string? "createdTime"
  return ⟨sender, receiver, title, content, createdTime⟩

/-! ### Reading back what was stored -/

theorem GoodThingGroup.decode_encode (g : GoodThingGroup) : decode g.encode = some g := by
  obtain ⟨groupID, groupTime, groupName, groupContent, groupLocation, organizerID, createdTime,
    deadLine, peopleNumberLimit, currentPeopleNumber, participants⟩ := g
  rfl

/-- The privacy flag of a decoded memory is the one stored. -/
theorem GoodThingMemory.decode_privacy {d : Document} {m : GoodThingMemory}
    (h : decode d = some m) : d "memoryPrivacyStatus" = some (.boolean m.memoryPrivacyStatus) := by
  simp only [decode, Option.bind_eq_bind, Option.bind_eq_some_iff, Option.pure_def,
    Option.some.injEq] at h
  obtain ⟨-, -, -, -, -, -, -, -, -, -, b, hb, -, -, -, -, rfl⟩ := h
  obtain ⟨v, hv, hvb⟩ := Option.bind_eq_some_iff.mp hb
  rw [hv]
  cases v <;> simp_all [Value.asBool]

/-! ### The coding keys

A struct's coding keys are its field names; the field maps the controllers write may
hold others besides.
-/

def groupCodec : Codec GoodThingGroup where
  keys := ["groupID", "groupTime", "groupName", "groupContent", "groupLocation", "organizerID",
    "createdTime", "deadLine", "peopleNumberLimit", "currentPeopleNumber", "participants"]
  encode := GoodThingGroup.encode
  decode := GoodThingGroup.decode
  decode_encode := GoodThingGroup.decode_encode
  decode_restrict _ := rfl

def memoryCodec : Codec GoodThingMemory where
  keys := ["memoryID", "memoryTitle", "memoryContent", "memoryTag", "memoryImage",
    "memoryPrivacyStatus", "memoryCreatedTime", "memoryCreatorID"]
  encode := GoodThingMemory.encode
  decode := GoodThingMemory.decode
  decode_encode := by
    rintro ⟨memoryID, memoryTitle, memoryContent, _ | memoryTag, _ | memoryImage,
      memoryPrivacyStatus, memoryCreatedTime, memoryCreatorID⟩ <;> rfl
  decode_restrict _ := rfl

def taskCodec : Codec GoodThingTasks where
  keys := ["taskId", "taskTitle", "taskContent", "taskImage", "taskVoice", "taskCreatorId",
    "taskCreatedTime"]
  encode := GoodThingTasks.encode
  decode := GoodThingTasks.decode
  decode_encode := by
    rintro ⟨taskId, taskTitle, taskContent, _ | taskImage, _ | taskVoice, taskCreatorId,
      taskCreatedTime⟩ <;> rfl
  decode_restrict _ := rfl

def userCodec : Codec GoodThingUser where
  keys := ["userId", "userName", "birthday", "registrationTime", "introduction",
    "favoriteSentence", "latestPublishedTaskId", "groupsList", "goodSentences", "friends",
    "articlesCollection", "postedTasksList", "postedMemoryList"]
  encode := GoodThingUser.encode
  decode := GoodThingUser.decode
  decode_encode _ := rfl
  decode_restrict _ := rfl

def responseCodec : Codec GoodThingTasksResponses where
  keys := ["taskPosterId", "completerId", "completionStatus", "responseRecording",
    "responseImage", "responseTitle", "responseContent", "responseTime"]
  encode := GoodThingTasksResponses.encode
  decode := GoodThingTasksResponses.decode
  decode_encode _ := rfl
  decode_restrict _ := rfl

def commentCodec : Codec GoodThingComment where
  keys := ["commentContent", "commentCreatedTime", "commentCreatorId", "commentId", "memoryId"]
  encode := GoodThingComment.encode
  decode := GoodThingComment.decode
  decode_encode _ := rfl
  decode_restrict _ := rfl

end GoodThing
