/-
The list of groups: `FetchGroupViewController`.

It asks for all groups once and listens to them from then on.  Its listener, like
the others, has one `case` for additions and a `default` for the rest.
-/
import GoodThing.Controller.Group
import GoodThing.Controller.Memory
import GoodThing.Lib.Listener

namespace GoodThing

open Firestore

def fetchGroupsQuery : Query where
  filters := []
  order := some ("createdTime", true)
  limit := none

/-- What `viewDidLoad` starts: `fetchGroups` and `listenForGroupsUpdates`. -/
def groupList : Feed.Config GoodThingGroup where
  decode := GoodThingGroup.decode
  before a b := decide (b.createdTime < a.createdTime)
  query := fetchGroupsQuery
  watched := wholeCollection

/-- `groups` with the collection behind it. -/
abbrev GroupsState := Feed.State GoodThingGroup

abbrev groupsStep : GroupsState → Feed.Action → GroupsState := Feed.step groupList

/-- A snapshot of groups, each stored under its `groupID`. -/
abbrev GroupChanges := Listener.Changes GoodThingGroup.decode GoodThingGroup.groupID

/-- The callback of `listenForGroupsUpdates`, with no fetch result to come. -/
abbrev listenForGroupsUpdates :
    Listener.State GoodThingGroup → GroupChanges → Listener.State GoodThingGroup :=
  Listener.step groupList.before

end GoodThing
