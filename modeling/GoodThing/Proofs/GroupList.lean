/-
Two lists that drift from what is stored.

The list of groups and the comments of a memory are filled by a query and by a
listener.  The query's answer replaces the list and the listener's first snapshot
appends everything there is, so a document is on the list once only if the answer
arrives when the list already holds what the answer holds; `merge_iff` is about all
orders of arrival.

Later on the listener is told of changes as well, and does nothing about them.  A
join is such a change: `join_unseen` says that no join ever reaches the list.
-/
import GoodThing.Controller.Comment
import GoodThing.Controller.GroupList
import GoodThing.Lib.Merge
import GoodThing.Proofs.Group

namespace GoodThing

open Firestore Machine

/-! ### Query and listener -/

/--
Once the answer and all snapshots have been delivered, `groups` and
`articleComments` have each document once exactly when the answer, if there was
one, came at a moment when the list held just what the answer holds.
-/
theorem merge_iff (c c' : Collection) (as as' : List Feed.Action) :
    (Feed.Complete groupList (run groupsStep (Feed.start c) as) →
      (Feed.OnePerDocument groupList (run groupsStep (Feed.start c) as) ↔
        Guarded groupsStep (Feed.AnswerMatches groupList) (Feed.start c) as)) ∧
    (Feed.Complete detailPage (run commentsStep (Feed.start c') as') →
      (Feed.OnePerDocument detailPage (run commentsStep (Feed.start c') as') ↔
        Guarded commentsStep (Feed.AnswerMatches detailPage) (Feed.start c') as')) := by
  refine ⟨?_, ?_⟩
  · intro hcomplete
    exact Feed.onePerDocument_iff (fun _ => rfl) c as hcomplete
  · intro hcomplete
    exact Feed.onePerDocument_iff (fun _ => rfl) c' as' hcomplete

/-- One group, as it is stored after nobody has joined it. -/
def oneGroup : Collection := (∅ : Collection).insert "g1" beachGroup.encode

/-- The snapshot arrives before the answer, which then changes nothing. -/
def snapshotFirst : List Feed.Action :=
  [.takeSnapshot, .answer, .deliverSnapshot, .deliverAnswer]

/-- The answer arrives before the snapshot, which then reports the group once more. -/
def answerFirst : List Feed.Action :=
  [.answer, .deliverAnswer, .takeSnapshot, .deliverSnapshot]

theorem merge_iff_snapshotFirst :
    (Feed.OnePerDocument groupList (run groupsStep (Feed.start oneGroup) snapshotFirst) ↔
      Guarded groupsStep (Feed.AnswerMatches groupList) (Feed.start oneGroup) snapshotFirst) ∧
    (Feed.OnePerDocument detailPage (run commentsStep (Feed.start ∅) snapshotFirst) ↔
      Guarded commentsStep (Feed.AnswerMatches detailPage) (Feed.start ∅) snapshotFirst) :=
  ⟨(merge_iff oneGroup ∅ snapshotFirst snapshotFirst).1 ⟨rfl, rfl, by rfl⟩,
    (merge_iff oneGroup ∅ snapshotFirst snapshotFirst).2 ⟨rfl, rfl, by rfl⟩⟩

/-- The one group there is, is on the list twice. -/
theorem answer_first_duplicates :
    Feed.Complete groupList (run groupsStep (Feed.start oneGroup) answerFirst) ∧
      ¬ Feed.OnePerDocument groupList (run groupsStep (Feed.start oneGroup) answerFirst) := by
  refine ⟨⟨rfl, rfl, by rfl⟩, ?_⟩
  intro h
  have hlength := h.length_eq
  exact absurd hlength (by decide)

/-! ### Changes nobody follows -/

/-- Every group on the list is the one stored under its id now. -/
def GroupsCurrent (s : Listener.State GoodThingGroup) : Prop :=
  ∀ g ∈ s.items, (s.view.lookup g.groupID).bind GoodThingGroup.decode = some g

/-- A snapshot neither removes a group on the list nor changes it. -/
def LeavesGroups (s : Listener.State GoodThingGroup) (snapshot : GroupChanges) : Prop :=
  ∀ ch ∈ snapshot.list, ∀ g ∈ s.items, g.groupID = ch.id →
    ch.type ≠ .removed ∧ GoodThingGroup.decode ch.data = some g

/--
The list is what is stored, after every snapshot of a run, exactly when no snapshot
removes or changes a group that is on it.
-/
theorem groups_current_iff (snapshots : List GroupChanges) :
    Always listenForGroupsUpdates GroupsCurrent Listener.start snapshots ↔
      Guarded listenForGroupsUpdates LeavesGroups Listener.start snapshots :=
  Listener.current_iff groupList.before snapshots

/-- What a join stores is under the group's id, with one more name on it. -/
theorem joined_eq {g : GoodThingGroup} {userId : String} {d : Document}
    (h : modifyCurrentPeopleNumber (some g.encode) userId = (.joined, some (some d))) :
    ∃ g' : GoodThingGroup, d = g'.encode ∧ g'.groupID = g.groupID ∧
      g'.participants = g.participants ++ [userId] := by
  rcases modifyCurrentPeopleNumber_cases (some g.encode) userId with
    ⟨-, heq⟩ | ⟨g', hg', ⟨n, -, -, -, heq⟩ | ⟨-, heq⟩ | ⟨-, heq⟩⟩
  · rw [h] at heq
    cases heq
  · obtain rfl : g = g' := Option.some.inj ((GoodThingGroup.decode_encode g).symm.trans hg')
    rw [h] at heq
    exact ⟨_, Option.some.inj (Option.some.inj (Prod.mk.inj heq).2), rfl, rfl⟩
  · rw [h] at heq
    cases heq
  · rw [h] at heq
    cases heq

/-- A join of a group on the list is a change of it. -/
theorem join_unseen {s : Listener.State GoodThingGroup} {snapshot : GroupChanges}
    {g : GoodThingGroup} {userId : String} {d : Document} (hg : g ∈ s.items)
    (hjoin : modifyCurrentPeopleNumber (some g.encode) userId = (.joined, some (some d)))
    (hch : ⟨.modified, g.groupID, d⟩ ∈ snapshot.list) : ¬ LeavesGroups s snapshot := by
  intro hleaves
  obtain ⟨-, hdec⟩ := hleaves _ hch g hg rfl
  obtain ⟨g', rfl, -, hmore⟩ := joined_eq hjoin
  have hsame : g' = g :=
    Option.some.inj ((GoodThingGroup.decode_encode g').symm.trans hdec)
  rw [hsame] at hmore
  have hlength := congrArg List.length hmore
  simp at hlength

/-- A snapshot that reports one change of one group. -/
def oneChange (type : Feed.ChangeType) (g : GoodThingGroup) : GroupChanges where
  list := [⟨type, g.groupID, g.encode⟩]
  once := List.nodup_singleton _
  keyed := by
    intro ch hch m hm
    rw [List.mem_singleton.mp hch] at hm ⊢
    rw [Option.some.inj ((GoodThingGroup.decode_encode g).symm.trans hm)]

/-- Whatever group is posted and whoever joins it, the list shows it without them. -/
theorem posted_then_joined {form : GroupForm} {id userId : String} {d d' : Document}
    (hpost : postGroup form id = some d)
    (hjoin : modifyCurrentPeopleNumber (some d) userId = (.joined, some (some d'))) :
    ∃ snapshots : List GroupChanges,
      snapshots.map (·.list) = [[⟨.added, id, d⟩], [⟨.modified, id, d'⟩]] ∧
        ¬ Always listenForGroupsUpdates GroupsCurrent Listener.start snapshots := by
  obtain ⟨g, rfl, rfl, -⟩ := postGroup_eq hpost
  obtain ⟨g', rfl, hid, -⟩ := joined_eq hjoin
  refine ⟨[oneChange .added g, oneChange .modified g'], ?_, ?_⟩
  · simp only [oneChange, List.map_cons, List.map_nil, hid]
  · intro hcurrent
    have hguard := (Listener.current_iff groupList.before _).mp hcurrent
    have hleaves := hguard [oneChange .added g] (oneChange .modified g') (List.prefix_refl _)
    refine join_unseen (g := g) ?_ hjoin ?_ hleaves
    · have hadded : Feed.newItems GoodThingGroup.decode (oneChange .added g).list = [g] := by
        simp [Feed.newItems, oneChange, GoodThingGroup.decode_encode]
      rw [run_cons, run_nil]
      show g ∈ Feed.merged GoodThingGroup.decode groupList.before (oneChange .added g).list []
      refine Feed.mem_merged.mpr (Or.inr ?_)
      rw [hadded]
      exact List.mem_singleton_self g
    · rw [← hid]
      exact List.mem_singleton_self _

/-- A group is posted and somebody joins; the list still says four people. -/
theorem join_not_shown :
    ∃ d d', postGroup (beachForm "10") "g1" = some d ∧
      modifyCurrentPeopleNumber (some d) "王花月" = (.joined, some (some d')) ∧
      ∃ snapshots : List GroupChanges,
        snapshots.map (·.list) = [[⟨.added, "g1", d⟩], [⟨.modified, "g1", d'⟩]] ∧
          ¬ Always listenForGroupsUpdates GroupsCurrent Listener.start snapshots := by
  let joined : GoodThingGroup :=
    { beachGroup with
      currentPeopleNumber := 5
      participants := seedParticipants ++ ["王花月"] }
  obtain ⟨d, hpost, hjoin⟩ : ∃ d, postGroup (beachForm "10") "g1" = some d ∧
      modifyCurrentPeopleNumber (some d) "王花月" = (.joined, some (some joined.encode)) :=
    ⟨_, rfl, rfl⟩
  exact ⟨d, joined.encode, hpost, hjoin, posted_then_joined hpost hjoin⟩

end GoodThing
