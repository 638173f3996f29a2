/-
Where letters go, and who finds them.

`sendLetter` does what it should between any two users: `sendLetter_letters` says
that one letter is added, in their conversation, and `conversation_of_pair` that
both of them look there and nobody else does.  It is the two ends that fail.  The button passes the
sender for the receiver, so a letter reaches the friend it was written to only if
that is the sender; and the list sorts by a field that no letter has, so it stays
empty.
-/
import GoodThing.Controller.Letter
import GoodThing.Lib.Text
import Mathlib.Data.Set.Insert

namespace GoodThing

open Firestore

/-! ### Conversations -/

/-- Both sides of a conversation find it. -/
theorem getConversationId_comm (a b : String) : getConversationId a b = getConversationId b a := by
  unfold getConversationId
  by_cases hab : a < b
  · rw [if_pos hab, if_neg (String.lt_asymm hab)]
  · by_cases hba : b < a
    · rw [if_neg hab, if_pos hba]
    · rw [String.le_antisymm (String.not_lt.mp hba) (String.not_lt.mp hab)]

/-- The list looks where the letters are written, whoever of the two it is shown to. -/
theorem list_getConversationId (a b : String) :
    UserFriendLetterListViewController.getConversationId a b = getConversationId a b := rfl

/-- The id is the two users' names in one order or the other. -/
theorem getConversationId_cases (a b : String) :
    (getConversationId a b = a ++ "_" ++ b) ∨ (getConversationId a b = b ++ "_" ++ a) := by
  unfold getConversationId
  by_cases hab : a < b
  · exact .inl (if_pos hab)
  · exact .inr (if_neg hab)

/-- Names without an underscore are read off from what `"_"` joins. -/
theorem joined_inj {a b c d : String} (ha : '_' ∉ a.toList) (hc : '_' ∉ c.toList)
    (h : a ++ "_" ++ b = c ++ "_" ++ d) : a = c ∧ b = d := by
  have hlist := congrArg String.toList h
  have hsep : "_".toList = ['_'] := rfl
  simp only [String.toList_append, hsep, List.append_assoc, List.singleton_append] at hlist
  obtain ⟨hac, hbd⟩ := Text.append_sep_inj ha hc hlist
  exact ⟨String.toList_inj.mp hac, String.toList_inj.mp hbd⟩

/-- Whichever order the two ids have, the pairs have the same members. -/
theorem pair_eq_of_getConversationId_eq {a b c d : String} (ha : '_' ∉ a.toList)
    (hb : '_' ∉ b.toList) (hc : '_' ∉ c.toList) (hd : '_' ∉ d.toList)
    (h : getConversationId a b = getConversationId c d) :
    (a = c ∧ b = d) ∨ (a = d ∧ b = c) := by
  rcases getConversationId_cases a b with hab | hba <;>
    rcases getConversationId_cases c d with hcd | hdc
  · rw [hab, hcd] at h
    exact .inl (joined_inj ha hc h)
  · rw [hab, hdc] at h
    exact .inr (joined_inj ha hd h)
  · rw [hba, hcd] at h
    exact .inr (joined_inj hb hc h).symm
  · rw [hba, hdc] at h
    exact .inl (joined_inj hb hd h).symm

/--
Conversations are those of unordered pairs, and both controllers find the same one
in either order.
-/
theorem conversation_of_pair (a b c d : String) (ha : '_' ∉ a.toList) (hb : '_' ∉ b.toList)
    (hc : '_' ∉ c.toList) (hd : '_' ∉ d.toList) :
    (getConversationId a b = getConversationId c d ↔ ({a, b} : Set String) = {c, d}) ∧
    (UserFriendLetterListViewController.getConversationId a b = getConversationId a b) ∧
    (UserFriendLetterListViewController.getConversationId b a = getConversationId a b) := by
  refine ⟨⟨fun h => ?_, fun h => ?_⟩, list_getConversationId a b, ?_⟩
  · exact Set.pair_eq_pair_iff.mpr (pair_eq_of_getConversationId_eq ha hb hc hd h)
  · obtain ⟨hac, hbd⟩ | ⟨had, hbc⟩ := Set.pair_eq_pair_iff.mp h
    · rw [hac, hbd]
    · rw [had, hbc]
      exact getConversationId_comm d c
  · rw [list_getConversationId]
    exact getConversationId_comm b a

/-- Hank and Aaron write to the same place, and Ella's letters to Aaron are not there. -/
theorem conversation_of_pair_hank :
    getConversationId "hank" "aaron" = getConversationId "aaron" "hank" ∧
    getConversationId "ella" "aaron" ≠ getConversationId "aaron" "hank" := by
  refine ⟨?_, ?_⟩
  · refine (conversation_of_pair "hank" "aaron" "aaron" "hank" (by decide) (by decide) (by decide)
      (by decide)).1.mpr ?_
    exact Set.pair_comm _ _
  · intro h
    have hpair := (conversation_of_pair "ella" "aaron" "aaron" "hank" (by decide) (by decide)
      (by decide) (by decide)).1.mp h
    have hmem : "ella" ∈ ({"aaron", "hank"} : Set String) := by
      rw [← hpair]
      exact Set.mem_insert _ _
    simp at hmem

theorem letters_injective {c c' : String} (h : letters c = letters c') : c = c' := by
  unfold letters at h
  exact (String.append_right_inj _).mp ((String.append_left_inj _).mp h)

/-- A conversation's letters are not among the conversations. -/
theorem letters_ne_inbox (c : String) : letters c ≠ inbox := by
  intro h
  have hlength := congrArg String.length h
  have hslash : "/".length = 1 := rfl
  simp only [letters, String.length_append, hslash] at hlength
  omega

/-! ### Sending -/

/-- What a letter that is sent does: its conversation is there, and has one more letter. -/
theorem sendLetter_eq (s : Store) {title content : String} (time sender receiver id : String)
    (htitle : title ≠ "") (hcontent : content ≠ "") :
    ∃ s₀ : Store, (∀ path, path ≠ inbox → s₀ path = s path) ∧
      (∀ c, c ≠ getConversationId sender receiver → s₀.document inbox c = s.document inbox c) ∧
      (sendLetter s ⟨some title, some content, time⟩ sender receiver .allSucceed id).1 =
        s₀.setData (letters (getConversationId sender receiver)) id
          (letterData sender receiver title content time) := by
  simp only [sendLetter, filled_of_ne htitle, filled_of_ne hcontent, LetterRequests.allSucceed,
    Store.getDocument, if_true]
  cases hdoc : s.document inbox (getConversationId sender receiver) with
  | some d => exact ⟨s, fun _ _ => rfl, fun _ _ => rfl, rfl⟩
  | none =>
      refine ⟨s.setData inbox (getConversationId sender receiver)
        (Document.ofFields [("metadata", .string "dummyData")]), ?_, ?_, rfl⟩
      · intro path hpath
        exact Function.update_of_ne hpath _ _
      · intro c hc
        rw [Store.document_setData, if_neg fun h => hc h.2]

/-- The letters of every conversation once a letter is sent. -/
theorem sendLetter_letters (s : Store) {title content : String} (time sender receiver id : String)
    (htitle : title ≠ "") (hcontent : content ≠ "") (c : String) :
    (sendLetter s ⟨some title, some content, time⟩ sender receiver .allSucceed id).1 (letters c) =
      if c = getConversationId sender receiver then
        (s (letters c)).insert id (letterData sender receiver title content time)
      else s (letters c) := by
  obtain ⟨s₀, hs₀, -, heq⟩ := sendLetter_eq s time sender receiver id htitle hcontent
  rw [heq, Store.setData]
  by_cases hc : c = getConversationId sender receiver
  · rw [if_pos hc, hc, Function.update_self, hs₀ _ (letters_ne_inbox _)]
  · rw [if_neg hc, Function.update_of_ne fun h => hc (letters_injective h),
      hs₀ _ (letters_ne_inbox c)]

/-! ### To whom -/

/--
Exactly one letter is new, it is from `u` to `v` and in their conversation, and no
other conversation changes.
-/
structure AddsOneLetter (s s' : Store) (u v : String) : Prop where
  added : ∃ id d, s.document (letters (getConversationId u v)) id = none ∧
    d "user1" = some (.string u) ∧ d "user2" = some (.string v) ∧
    s' (letters (getConversationId u v)) = (s (letters (getConversationId u v))).insert id d
  others : ∀ c, c ≠ getConversationId u v →
    s' (letters c) = s (letters c) ∧ s'.document inbox c = s.document inbox c

/-- Between the two users it is called with, `sendLetter` keeps its word. -/
theorem sendLetter_adds_one (s : Store) {title content : String}
    (time sender receiver id : String) (htitle : title ≠ "") (hcontent : content ≠ "")
    (hfresh : s.document (letters (getConversationId sender receiver)) id = none) :
    AddsOneLetter s
      (sendLetter s ⟨some title, some content, time⟩ sender receiver .allSucceed id).1
      sender receiver := by
  refine ⟨⟨id, letterData sender receiver title content time, hfresh, rfl, rfl, ?_⟩, ?_⟩
  · rw [sendLetter_letters s time sender receiver id htitle hcontent, if_pos rfl]
  · intro c hc
    refine ⟨?_, ?_⟩
    · rw [sendLetter_letters s time sender receiver id htitle hcontent, if_neg hc]
    · obtain ⟨s₀, -, hinbox, heq⟩ := sendLetter_eq s time sender receiver id htitle hcontent
      rw [heq, Store.document_setData, if_neg fun h => letters_ne_inbox _ h.1.symm]
      exact hinbox c hc

/-- The only letter the button adds is to its sender. -/
theorem sendLetterButtonTapped_self {s : Store} {u title content time id : String}
    {friend : GoodThingUser} (htitle : title ≠ "") (hcontent : content ≠ "")
    (h : AddsOneLetter s
      (sendLetterButtonTapped s (some u) (some friend) ⟨some title, some content, time⟩
        .allSucceed id) u friend.userId) : friend.userId = u := by
  obtain ⟨id', d, hnew, -, hreceiver, hadded⟩ := h.added
  have hd : (s (letters (getConversationId u friend.userId))).lookup id' = none := hnew
  -- A letter that is new in the friend's conversation is the one that was sent.
  have hlookup := congrArg (fun c : Collection => c.lookup id') hadded
  simp only [AList.lookup_insert] at hlookup
  change ((sendLetter s _ u u .allSucceed id).1 _).lookup id' = some d at hlookup
  rw [sendLetter_letters s time u u id htitle hcontent] at hlookup
  by_cases hsame : getConversationId u friend.userId = getConversationId u u
  · rw [if_pos hsame] at hlookup
    by_cases hid : id' = id
    · rw [hid, AList.lookup_insert] at hlookup
      rw [← Option.some.inj hlookup] at hreceiver
      exact (Value.string.inj (Option.some.inj hreceiver)).symm
    · rw [AList.lookup_insert_ne hid, hd] at hlookup
      cases hlookup
  · rw [if_neg hsame, hd] at hlookup
    cases hlookup

/--
A letter written to a friend is added for that friend exactly when the friend is
the sender.
-/
theorem letter_addressed_iff (s : Store) (u : String) (friend : GoodThingUser)
    (title content time id : String) (htitle : title ≠ "") (hcontent : content ≠ "")
    (hfresh : s.document (letters (getConversationId u u)) id = none) :
    AddsOneLetter s
      (sendLetterButtonTapped s (some u) (some friend) ⟨some title, some content, time⟩
        .allSucceed id) u friend.userId ↔
    friend.userId = u := by
  refine ⟨sendLetterButtonTapped_self htitle hcontent, ?_⟩
  intro h
  rw [h]
  exact sendLetter_adds_one s time u u id htitle hcontent hfresh

/-- A friend as the friend list decodes one. -/
def friendHank : GoodThingUser :=
  ⟨"hank", "Hank", "", "2023.10.14 09:05", "", "", "", [""], [""], ["", "aaron"], [""], [""], [""]⟩

/-- A user who is on their own friend list. -/
def friendAaron : GoodThingUser := { friendHank with userId := "aaron", userName := "Aaron" }

theorem letter_addressed_iff_aaron :
    AddsOneLetter (fun _ => ∅)
      (sendLetterButtonTapped (fun _ => ∅) (some "aaron") (some friendAaron)
        ⟨some "你好", some "最近好嗎", "2023.10.14 21:00"⟩ .allSucceed "l1") "aaron" "aaron" :=
  (letter_addressed_iff (fun _ => ∅) "aaron" friendAaron "你好" "最近好嗎" "2023.10.14 21:00" "l1"
    (by decide) (by decide) rfl).mpr rfl

/-- Aaron writes to Hank, and the letter stays with Aaron. -/
theorem letter_goes_to_sender :
    ¬ AddsOneLetter (fun _ => ∅)
      (sendLetterButtonTapped (fun _ => ∅) (some "aaron") (some friendHank)
        ⟨some "你好", some "最近好嗎", "2023.10.14 21:00"⟩ .allSucceed "l1") "aaron"
      friendHank.userId := by
  intro h
  have hself := sendLetterButtonTapped_self (by decide) (by decide) h
  exact absurd hself (by decide)

/-! ### The mailbox -/

/-- A letter that is sent: which way, and the texts, neither of them empty. -/
structure Mail where
  /-- From the second of the two users to the first. -/
  back : Bool
  title : String
  content : String
  time : String
  /-- The id the letter is given. -/
  id : String
  title_ne : title ≠ ""
  content_ne : content ≠ ""

section

variable (a b : String)

/-- The letter as it should be read back. -/
def Mail.letter (m : Mail) : GoodThingLetter where
  sender := if m.back then b else a
  receiver := if m.back then a else b
  title := m.title
  content := m.content
  createdTime := m.time

/-- The store once a letter is sent. -/
def Mail.send (s : Store) (m : Mail) : Store :=
  (sendLetter s ⟨some m.title, some m.content, m.time⟩ (m.letter a b).sender (m.letter a b).receiver
    .allSucceed m.id).1

/-- The store once all of these letters are sent, one after the other. -/
def sendAll (s : Store) (mails : List Mail) : Store := mails.foldl (Mail.send a b) s

/-- Whichever way it goes, a letter is added to the conversation of the two. -/
theorem Mail.send_letters (s : Store) (m : Mail) :
    m.send a b s (letters (getConversationId a b)) =
      (s (letters (getConversationId a b))).insert m.id
        (letterData (m.letter a b).sender (m.letter a b).receiver m.title m.content m.time) := by
  have hconv : getConversationId a b
      = getConversationId (m.letter a b).sender (m.letter a b).receiver := by
    by_cases hback : m.back = true
    · simp only [Mail.letter, hback, if_true]
      exact getConversationId_comm a b
    · simp [Mail.letter, hback]
  unfold Mail.send
  rw [sendLetter_letters s m.time _ _ m.id m.title_ne m.content_ne, if_pos hconv]

/-- No letter has the field the list sorts by. -/
def LacksOrder (c : Collection) : Prop := ∀ id d, c.lookup id = some d → d "CreatedTime" = none

theorem lacksOrder_sendAll :
    ∀ (mails : List Mail) (s : Store), LacksOrder (s (letters (getConversationId a b))) →
      LacksOrder (sendAll a b s mails (letters (getConversationId a b))) := by
  intro mails
  induction mails with
  | nil => intro s h; exact h
  | cons m rest ih =>
      intro s h
      refine ih (m.send a b s) ?_
      rw [m.send_letters a b s]
      intro id d hd
      by_cases hid : id = m.id
      · rw [hid, AList.lookup_insert] at hd
        rw [← Option.some.inj hd]
        rfl
      · rw [AList.lookup_insert_ne hid] at hd
        exact h id d hd

end

/-- Sorting by a field no letter has leaves nothing. -/
theorem fetchLettersQuery_nil {c : Collection} (h : LacksOrder c) :
    fetchLettersQuery.getDocuments c = [] := by
  refine List.eq_nil_iff_forall_not_mem.mpr fun x hx => ?_
  obtain ⟨hd, hadmits⟩ := Query.mem_getDocuments hx
  simp [Query.admits, fetchLettersQuery, h x.1 x.2 hd] at hadmits

/-- The list is the letters sent, each once, the oldest first. -/
def IsMailbox (a b : String) (mails : List Mail) (fetched : Option (List GoodThingLetter)) : Prop :=
  ∃ ls, fetched = some ls ∧ ls.Perm (mails.map (Mail.letter a b)) ∧
    ls.Pairwise fun l m => l.createdTime ≤ m.createdTime

/--
Both users read exactly the letters sent between them exactly when none was sent.
-/
theorem mailbox_round_trip_iff (s : Store) (a b : GoodThingUser) (mails : List Mail)
    (hempty : s (letters (getConversationId a.userId b.userId)) = ∅) :
    (IsMailbox a.userId b.userId mails
        (fetchLetters (sendAll a.userId b.userId s mails) (some a.userId) (some b) true) ∧
      IsMailbox a.userId b.userId mails
        (fetchLetters (sendAll a.userId b.userId s mails) (some b.userId) (some a) true)) ↔
    mails = [] := by
  have hlacks : LacksOrder (sendAll a.userId b.userId s mails
      (letters (getConversationId a.userId b.userId))) := by
    refine lacksOrder_sendAll a.userId b.userId mails s ?_
    rw [hempty]
    intro id d hd
    cases hd
  have hfetched : fetchLetters (sendAll a.userId b.userId s mails) (some a.userId) (some b) true
      = some [] := by
    simp [fetchLetters, list_getConversationId, fetchLettersQuery_nil hlacks]
  have hfetched' : fetchLetters (sendAll a.userId b.userId s mails) (some b.userId) (some a) true
      = some [] := by
    simp [fetchLetters, list_getConversationId, getConversationId_comm b.userId a.userId,
      fetchLettersQuery_nil hlacks]
  rw [hfetched, hfetched']
  refine ⟨?_, ?_⟩
  · intro h
    obtain ⟨ls, hls, hperm, -⟩ := h.1
    rw [← Option.some.inj hls] at hperm
    exact List.map_eq_nil_iff.mp hperm.nil_eq.symm
  · intro h
    rw [h]
    exact ⟨⟨[], rfl, .refl _, .nil⟩, ⟨[], rfl, .refl _, .nil⟩⟩

/-- A letter from Aaron to Hank. -/
def howAreYou : Mail :=
  ⟨false, "你好", "最近好嗎", "2023.10.14 21:00", "l1", by decide, by decide⟩

/-- Before the letter there is nothing to list, and with it not both lists are right. -/
theorem mailbox_round_trip_iff_nothing :
    IsMailbox "aaron" "hank" []
      (fetchLetters (sendAll "aaron" "hank" (fun _ => ∅) []) (some "aaron") (some friendHank)
        true) ∧
    ¬ (IsMailbox "aaron" "hank" [howAreYou]
        (fetchLetters (sendAll "aaron" "hank" (fun _ => ∅) [howAreYou]) (some "aaron")
          (some friendHank) true) ∧
      IsMailbox "aaron" "hank" [howAreYou]
        (fetchLetters (sendAll "aaron" "hank" (fun _ => ∅) [howAreYou]) (some "hank")
          (some friendAaron) true)) := by
  refine ⟨((mailbox_round_trip_iff (fun _ => ∅) friendAaron friendHank [] rfl).mpr rfl).1, ?_⟩
  intro h
  cases (mailbox_round_trip_iff (fun _ => ∅) friendAaron friendHank [howAreYou] rfl).mp h

/-- It is stored where both look for it, and neither finds it. -/
theorem letter_not_listed :
    ¬ IsMailbox "aaron" "hank" [howAreYou]
      (fetchLetters (sendAll "aaron" "hank" (fun _ => ∅) [howAreYou]) (some "hank")
        (some friendAaron) true) := by
  intro h
  obtain ⟨ls, hls, hperm, -⟩ := h
  have hnone : fetchLetters (sendAll "aaron" "hank" (fun _ => ∅) [howAreYou]) (some "hank")
      (some friendAaron) true = some [] := by decide
  rw [hnone] at hls
  rw [← Option.some.inj hls] at hperm
  cases hperm.nil_eq

end GoodThing
