/-
What holds of a group document while any number of people press join.

The join is a read, a decision and a write of the whole document, taken at three
different moments.  The first half of the file is what survives every order of
these steps: the counter agrees with the list, nobody is listed twice, the limit
never changes and the counter never overflows, since each of these is a property
of a single document that the callback keeps.  Whether the group stays within its
limit is decided at creation alone, by comparing the limit with the four people
every group is seeded with.

The second half is what does not survive, with the exact condition each time.  A
successful join can be overwritten by somebody else's write; and a join that was
refused because the user is already in writes the group back all the same.
-/
import GoodThing.Controller.Group

namespace GoodThing

open Firestore Machine Rmw

variable {C : Type} [DecidableEq C]

/-! ### What the callback can do -/

/-- Everything `modifyCurrentPeopleNumber` can do.  The increment never traps. -/
theorem modifyCurrentPeopleNumber_cases (document : Option Document) (userId : String) :
    (document.bind GoodThingGroup.decode = none ∧
      modifyCurrentPeopleNumber document userId = (.unreadable, none)) ∨
    ∃ g, document.bind GoodThingGroup.decode = some g ∧
      ((∃ n : Int64, userId ∉ g.participants ∧ n.toInt = g.currentPeopleNumber.toInt + 1 ∧
          n.toInt ≤ g.peopleNumberLimit.toInt ∧
          modifyCurrentPeopleNumber document userId =
            (.joined, some (some { g with
              currentPeopleNumber := n, participants := g.participants ++ [userId] }.encode))) ∨
        (userId ∈ g.participants ∧
          modifyCurrentPeopleNumber document userId = (.alreadyJoined, some (some g.encode))) ∨
        (userId ∉ g.participants ∧ modifyCurrentPeopleNumber document userId = (.full, none))) := by
  unfold modifyCurrentPeopleNumber
  cases hg : document.bind GoodThingGroup.decode with
  | none => exact Or.inl ⟨rfl, rfl⟩
  | some g =>
      refine Or.inr ⟨g, rfl, ?_⟩
      by_cases hmem : userId ∈ g.participants
      · exact Or.inr (Or.inl ⟨hmem, by simp [hmem]⟩)
      · by_cases hlt : g.currentPeopleNumber < g.peopleNumberLimit
        · obtain ⟨n, hsucc, hn, hle⟩ := Swift.succ?_of_lt hlt
          exact Or.inl ⟨n, hmem, hn, hle, by simp [hmem, hlt, hsucc]⟩
        · exact Or.inr (Or.inr ⟨hmem, by simp [hmem, hlt]⟩)

@[simp] theorem participants_encode (g : GoodThingGroup) :
    participants (some g.encode) = g.participants := by
  simp [participants, GoodThingGroup.decode_encode]

theorem participants_of_decode {document : Option Document} {g : GoodThingGroup}
    (h : document.bind GoodThingGroup.decode = some g) :
    participants document = g.participants := by
  simp [participants, h]

/-! ### What a new group looks like -/

/-- The limit the form asks for. -/
def GroupForm.limit (form : GroupForm) : Option Int64 := form.peopleNumber.bind Swift.parseInt

/-- `postGroup` stores a group with its id, the typed limit and the four seeded people. -/
theorem postGroup_eq {form : GroupForm} {id : String} {d : Document}
    (h : postGroup form id = some d) :
    ∃ g : GoodThingGroup, d = g.encode ∧ g.groupID = id ∧
      form.limit = some g.peopleNumberLimit ∧ g.participants = seedParticipants ∧
      g.currentPeopleNumber = 4 := by
  simp only [postGroup, Option.bind_eq_bind, Option.bind_eq_some_iff, Option.pure_def,
    Option.some.injEq] at h
  obtain ⟨title, -, location, -, text, htext, content, -, limit, hlimit, rfl⟩ := h
  refine ⟨⟨id, form.groupTime, title, content, location, "Aaron", form.createdTime,
    form.deadLine, limit, 4, seedParticipants⟩, ?_, rfl, ?_, rfl, rfl⟩
  · funext f
    by_cases hp : f = "participants"
    · subst hp; rfl
    · have hp' : (f == "participants") = false := by simpa using hp
      simp only [GoodThingGroup.encode, Document.ofFields, List.lookup_cons, hp']
      rfl
  · rw [GroupForm.limit, (filled_eq_some.mp htext).1]
    exact hlimit

/-! ### The representation invariant -/

/-- The counter counts the list, the list has nobody twice, and the limit is `limit`. -/
structure GroupInv (limit : Int64) (g : GoodThingGroup) : Prop where
  count : g.currentPeopleNumber.toInt = g.participants.length
  nodup : g.participants.Nodup
  limit : g.peopleNumberLimit = limit

/-- A stored document that is a group with the invariant. -/
def IsGroup (limit : Int64) (document : Option Document) : Prop :=
  ∃ g : GoodThingGroup, document = some g.encode ∧ GroupInv limit g

theorem isGroup_of_postGroup {form : GroupForm} {id : String} {d : Document}
    (h : postGroup form id = some d) :
    ∃ limit, form.limit = some limit ∧ IsGroup limit (some d) := by
  obtain ⟨g, rfl, -, hlimit, hpart, hcount⟩ := postGroup_eq h
  refine ⟨g.peopleNumberLimit, hlimit, g, rfl, ?_, ?_, rfl⟩
  · rw [hpart, hcount]; decide
  · rw [hpart]; decide

theorem IsGroup.decode {limit : Int64} {document : Option Document}
    (h : IsGroup limit document) :
    ∃ g, document.bind GoodThingGroup.decode = some g ∧ document = some g.encode ∧
      GroupInv limit g := by
  obtain ⟨g, rfl, hinv⟩ := h
  exact ⟨g, GoodThingGroup.decode_encode g, rfl, hinv⟩

/-- The callback writes back a group with the invariant, and does not trap. -/
theorem modifyCurrentPeopleNumber_isGroup {limit : Int64} {document : Option Document}
    (h : IsGroup limit document) (userId : String) :
    (modifyCurrentPeopleNumber document userId).1 ≠ .trapped ∧
      ∀ w, (modifyCurrentPeopleNumber document userId).2 = some w → IsGroup limit w := by
  obtain ⟨g, hdec, -, hinv⟩ := h.decode
  rcases modifyCurrentPeopleNumber_cases document userId with
    ⟨hnone, -⟩ | ⟨g', hg', ⟨n, hmem, hn, -, heq⟩ | ⟨-, heq⟩ | ⟨-, heq⟩⟩
  · rw [hnone] at hdec; cases hdec
  all_goals
    obtain rfl : g = g' := Option.some.inj (hdec.symm.trans hg')
    rw [heq]
    refine ⟨by simp, ?_⟩
    intro w hw
  · obtain rfl : some _ = w := Option.some.inj hw
    refine ⟨_, rfl, ?_, ?_, hinv.limit⟩
    · show n.toInt = ((g.participants ++ [userId]).length : Int)
      rw [hn, hinv.count]
      simp
    · show (g.participants ++ [userId]).Nodup
      refine List.nodup_append.mpr ⟨hinv.nodup, List.nodup_singleton userId, ?_⟩
      intro a ha b hb hab
      have hbu : b = userId := by simpa using hb
      exact hmem (by rw [← hbu, ← hab]; exact ha)
  · obtain rfl : some _ = w := Option.some.inj hw
    exact ⟨g, rfl, hinv⟩
  · simp at hw

/--
In every state the stored document is a group whose counter counts its
participants, with nobody listed twice and the limit it was created with, and no
client holds a copy on which the increment could overflow.
-/
theorem group_representation {form : GroupForm} {id : String} {d : Document}
    (hpost : postGroup form id = some d) (userId : C → String) (as : List (Action C)) :
    Always groupStep
      (fun s => (∃ g : GoodThingGroup, s.value = some g.encode ∧
          g.currentPeopleNumber.toInt = g.participants.length ∧ g.participants.Nodup ∧
          form.limit = some g.peopleNumberLimit) ∧
        ∀ c seen, (s.clients c).seen? = some seen →
          ∀ u, (modifyCurrentPeopleNumber seen u).1 ≠ .trapped)
      (start (some d) userId) as := by
  obtain ⟨limit, hlimit, hgroup⟩ := isGroup_of_postGroup hpost
  have hall := always_holds (C := C) (P := IsGroup limit)
    (fun v u w hv hw => (modifyCurrentPeopleNumber_isGroup hv u).2 w hw) hgroup userId as
  refine hall.mono fun s hs => ⟨?_, ?_⟩
  · obtain ⟨g, hval, hinv⟩ := hs.value
    exact ⟨g, hval, hinv.count, hinv.nodup, by rw [hlimit, hinv.limit]⟩
  · intro c seen hseen u
    exact (modifyCurrentPeopleNumber_isGroup (hs.seen c seen hseen) u).1

/-- A form a user might fill in, with the limit left open. -/
def beachForm (peopleNumber : String) : GroupForm where
  groupName := some "淨灘"
  groupLocation := some "白沙灣"
  peopleNumber := some peopleNumber
  groupContent := some "一起撿垃圾"
  groupTime := "2023.10.14 09:00"
  deadLine := "2023.10.12 18:00"
  createdTime := "2023.10.07 20:15"

theorem group_representation_beach :
    ∃ d, postGroup (beachForm "10") "g1" = some d ∧
      Always groupStep
        (fun s => (∃ g : GoodThingGroup, s.value = some g.encode ∧
            g.currentPeopleNumber.toInt = g.participants.length ∧ g.participants.Nodup ∧
            (beachForm "10").limit = some g.peopleNumberLimit) ∧
          ∀ c seen, (s.clients c).seen? = some seen →
            ∀ u, (modifyCurrentPeopleNumber seen u).1 ≠ .trapped)
        (start (some d) fun _ : Bool => defaultUserId)
        [.read true, .read false, .callback true, .write true, .callback false, .write false] := by
  obtain ⟨d, hd⟩ := Option.isSome_iff_exists.mp
    (show (postGroup (beachForm "10") "g1").isSome = true by decide)
  exact ⟨d, hd, group_representation hd _ _⟩

/-! ### Capacity is decided when the group is created -/

/-- The stored group has no more people than it allows. -/
def WithinLimit (s : GroupState C) : Prop :=
  ∀ g, s.value.bind GoodThingGroup.decode = some g → g.currentPeopleNumber ≤ g.peopleNumberLimit

/-- The callback keeps a document within its limit. -/
theorem modifyCurrentPeopleNumber_within {document w : Option Document} {userId : String}
    (h : ∀ g, document.bind GoodThingGroup.decode = some g →
      g.currentPeopleNumber ≤ g.peopleNumberLimit)
    (hw : (modifyCurrentPeopleNumber document userId).2 = some w) :
    ∀ g, w.bind GoodThingGroup.decode = some g → g.currentPeopleNumber ≤ g.peopleNumberLimit := by
  intro g' hg'
  rcases modifyCurrentPeopleNumber_cases document userId with
    ⟨-, heq⟩ | ⟨g, hg, ⟨n, -, -, hle, heq⟩ | ⟨-, heq⟩ | ⟨-, heq⟩⟩
  all_goals
    rw [heq] at hw
  · cases hw
  · obtain rfl : some _ = w := Option.some.inj hw
    rw [Option.bind_some, GoodThingGroup.decode_encode] at hg'
    obtain rfl := Option.some.inj hg'
    exact Int64.le_iff_toInt_le.mpr hle
  · obtain rfl : some _ = w := Option.some.inj hw
    rw [Option.bind_some, GoodThingGroup.decode_encode] at hg'
    obtain rfl := Option.some.inj hg'
    exact h g hg
  · cases hw

/--
A group stays within its limit, in every run, exactly when the limit typed at
creation leaves room for the four people it is seeded with.
-/
theorem group_capacity_iff {form : GroupForm} {id : String} {d : Document}
    (hpost : postGroup form id = some d) (userId : C → String) (as : List (Action C)) :
    Always groupStep WithinLimit (start (some d) userId) as ↔
      ∃ limit, form.limit = some limit ∧ 4 ≤ limit.toInt := by
  obtain ⟨g, rfl, -, hlimit, -, hcount⟩ := postGroup_eq hpost
  have hdec : (some g.encode).bind GoodThingGroup.decode = some g :=
    GoodThingGroup.decode_encode g
  have hfour : g.currentPeopleNumber.toInt = 4 := by rw [hcount]; decide
  refine ⟨fun h => ⟨g.peopleNumberLimit, hlimit, ?_⟩, ?_⟩
  · have h0 : g.currentPeopleNumber ≤ g.peopleNumberLimit := h [] List.nil_prefix g hdec
    rw [← hfour]
    exact Int64.le_iff_toInt_le.mp h0
  · intro hroom
    obtain ⟨limit, hl, hle⟩ := hroom
    obtain rfl : g.peopleNumberLimit = limit := Option.some.inj (hlimit.symm.trans hl)
    have h0 : ∀ g', (some g.encode).bind GoodThingGroup.decode = some g' →
        g'.currentPeopleNumber ≤ g'.peopleNumberLimit := by
      intro g' hg'
      obtain rfl : g = g' := Option.some.inj (hdec.symm.trans hg')
      exact Int64.le_iff_toInt_le.mpr (by rw [hfour]; exact hle)
    exact (always_holds (fun v u w hv hw => modifyCurrentPeopleNumber_within hv hw) h0
      userId as).mono fun s hs => hs.value

theorem group_capacity_beach :
    ∃ d, postGroup (beachForm "10") "g1" = some d ∧
      (Always groupStep WithinLimit (start (some d) fun _ : Bool => defaultUserId)
          [.read true, .callback true, .write true] ↔
        ∃ limit, (beachForm "10").limit = some limit ∧ 4 ≤ limit.toInt) := by
  obtain ⟨d, hd⟩ := Option.isSome_iff_exists.mp
    (show (postGroup (beachForm "10") "g1").isSome = true by decide)
  exact ⟨d, hd, group_capacity_iff hd _ _⟩

/-- A limit of three is accepted, and the new group is over it before anyone joins. -/
theorem group_created_over_limit :
    ∃ d, postGroup (beachForm "3") "g1" = some d ∧
      ¬ Always groupStep WithinLimit (start (some d) fun _ : Bool => defaultUserId) [] := by
  obtain ⟨d, hd⟩ := Option.isSome_iff_exists.mp
    (show (postGroup (beachForm "3") "g1").isSome = true by decide)
  obtain ⟨g, rfl, -, hlimit, -, hcount⟩ := postGroup_eq hd
  refine ⟨_, hd, ?_⟩
  intro h
  have h0 : g.currentPeopleNumber ≤ g.peopleNumberLimit :=
    h [] List.nil_prefix g (GoodThingGroup.decode_encode g)
  have hthree : g.peopleNumberLimit = 3 :=
    Option.some.inj (hlimit.symm.trans (show (beachForm "3").limit = some 3 by decide))
  rw [hcount, hthree] at h0
  exact absurd h0 (by decide)

/-! ### A join can be lost -/

/-- Whoever was told the join succeeded, and whose write was applied, is in the group. -/
def NoLostJoin (s : GroupState C) : Prop :=
  ∀ c u seen, s.clients c = .written u seen → (modifyCurrentPeopleNumber seen u).1 = .joined →
    u ∈ participants s.value

/-- The callback gets to its write: the user is in already, or there is room. -/
def GoodThingGroup.Writes (g : GoodThingGroup) (userId : String) : Prop :=
  userId ∈ g.participants ∨ g.currentPeopleNumber < g.peopleNumberLimit

theorem modifyCurrentPeopleNumber_writes_iff {document : Option Document} {userId : String} :
    (modifyCurrentPeopleNumber document userId).2 ≠ none ↔
      ∃ g, document.bind GoodThingGroup.decode = some g ∧ g.Writes userId := by
  unfold modifyCurrentPeopleNumber GoodThingGroup.Writes
  cases hg : document.bind GoodThingGroup.decode with
  | none => simp
  | some g =>
      by_cases hmem : userId ∈ g.participants
      · simp [hmem]
      · by_cases hlt : g.currentPeopleNumber < g.peopleNumberLimit
        · obtain ⟨n, hsucc, -, -⟩ := Swift.succ?_of_lt hlt
          simp [hmem, hlt, hsucc]
        · simp [hmem, hlt]

/--
A run that gets to its write does so over a document that lists only people it has
read, and perhaps its own user.
-/
def WriteIsFresh (s : GroupState C) (a : Action C) : Prop :=
  ∀ c u seen g, a = .write c → s.clients c = .decided u seen →
    seen.bind GoodThingGroup.decode = some g → g.Writes u →
    ∀ v ∈ participants s.value, v ∈ g.participants ∨ v = u

theorem modifyCurrentPeopleNumber_recorder :
    Recorder modifyCurrentPeopleNumber (fun v u => u ∈ participants v) (· = .joined) := by
  intro v u w hw j
  rcases modifyCurrentPeopleNumber_cases v u with
    ⟨-, heq⟩ | ⟨g, hg, ⟨n, -, -, -, heq⟩ | ⟨-, heq⟩ | ⟨-, heq⟩⟩
  all_goals
    rw [heq] at hw ⊢
  · cases hw
  · obtain rfl : some _ = w := Option.some.inj hw
    simp [participants_of_decode hg]
  · obtain rfl : some _ = w := Option.some.inj hw
    simp [participants_of_decode hg]
  · cases hw

omit [DecidableEq C] in
/-- A user whose run writes but did not join was in the document it read. -/
theorem writeIsFresh_iff (s : GroupState C) (a : Action C) :
    Fresh modifyCurrentPeopleNumber (fun v u => u ∈ participants v) (· = .joined) s a ↔
      WriteIsFresh s a := by
  have key : ∀ (u : String) (seen : Option Document),
      (modifyCurrentPeopleNumber seen u).2 ≠ none → ∀ v,
        (v ∈ participants seen ∨ (v = u ∧ (modifyCurrentPeopleNumber seen u).1 = .joined)) ↔
          (v ∈ participants seen ∨ v = u) := by
    intro u seen hne v
    rcases modifyCurrentPeopleNumber_cases seen u with
      ⟨-, heq⟩ | ⟨g, hg, ⟨n, -, -, -, heq⟩ | ⟨hmem, heq⟩ | ⟨-, heq⟩⟩
    · exact absurd (by rw [heq]) hne
    · simp [heq]
    · refine ⟨fun h => h.imp_right fun hv => hv.1, ?_⟩
      intro h
      rcases h with hv | rfl
      · exact Or.inl hv
      · exact Or.inl (by rw [participants_of_decode hg]; exact hmem)
    · exact absurd (by rw [heq]) hne
  refine ⟨?_, ?_⟩
  · intro h c u seen g ha hc hg hwrites v hv
    have hne := modifyCurrentPeopleNumber_writes_iff.mpr ⟨g, hg, hwrites⟩
    rw [← participants_of_decode hg]
    exact (key u seen hne v).mp (h c u seen ha hc hne v hv)
  · intro h c u seen ha hc hne v hv
    obtain ⟨g, hg, hwrites⟩ := modifyCurrentPeopleNumber_writes_iff.mp hne
    refine (key u seen hne v).mpr ?_
    rw [participants_of_decode hg]
    exact h c u seen g ha hc hg hwrites v hv

/-- No join is lost in a run exactly when each of its writes is fresh. -/
theorem no_lost_join_iff (document : Option Document) (userId : C → String)
    (as : List (Action C)) :
    Always groupStep NoLostJoin (start document userId) as ↔
      Guarded groupStep WriteIsFresh (start document userId) as := by
  rw [← guarded_congr writeIsFresh_iff, ← noLoss_iff_fresh modifyCurrentPeopleNumber_recorder]
  refine ⟨?_, ?_⟩
  · intro h pre hpre u hu
    obtain ⟨c, seen, hc, hs⟩ := hu
    exact h pre hpre c u seen hc hs
  · intro h pre hpre c u seen hc hs
    exact h pre hpre u ⟨c, seen, hc, hs⟩

/-- A group of four that lets six more people in. -/
def beachGroup : GoodThingGroup :=
  ⟨"g1", "2023.10.14 09:00", "淨灘", "一起撿垃圾", "白沙灣", "Aaron", "2023.10.07 20:15",
    "2023.10.12 18:00", 10, 4, seedParticipants⟩

/-- Two runs of the join button on that group. -/
def beachRuns (first second : String) : GroupState Bool :=
  start (some beachGroup.encode) fun c => if c then first else second

/-- Two people join at once, both are told it worked, and the first one is gone. -/
theorem concurrent_joins_lose_one :
    ¬ Always groupStep NoLostJoin (beachRuns "王花月" "林小雨")
      [.read true, .read false, .callback true, .callback false, .write true, .write false] := by
  intro h
  have hlost := h.last true "王花月" (some beachGroup.encode) rfl (by decide)
  exact absurd hlost (by decide)

/-! ### A refused join can undo somebody else's -/

/-- The run of `c` has ended in one of the two refusing branches. -/
def Refused (c : C) (s : GroupState C) : Prop :=
  ∃ u seen, (s.clients c = .decided u seen ∨ s.clients c = .written u seen) ∧
    ((modifyCurrentPeopleNumber seen u).1 = .alreadyJoined ∨
      (modifyCurrentPeopleNumber seen u).1 = .full)

/-- When `c` writes back a group its user is already in, that group is what is stored. -/
def WriteBackIsCurrent (c : C) (s : GroupState C) (a : Action C) : Prop :=
  ∀ u seen g, a = .write c → s.clients c = .decided u seen →
    seen.bind GoodThingGroup.decode = some g → u ∈ g.participants → s.value = some g.encode

/--
A refused run leaves the stored document, at every moment, as the other runs alone
would have left it, exactly when the group it writes back is the one stored.
-/
theorem refused_join_no_trace_iff (document : Option Document) (userId : C → String)
    (as : List (Action C)) (c : C)
    (hrefused : Refused c (run groupStep (start document userId) as)) :
    (∀ pre, pre <+: as → (run groupStep (start document userId) pre).value
        = (run groupStep (start document userId) (pre.filter fun a => a.client ≠ c)).value) ↔
      Guarded groupStep (WriteBackIsCurrent c) (start document userId) as := by
  rw [no_trace_iff]
  refine ⟨?_, ?_⟩
  · intro h pre a hpre u seen g ha hc hg hmem
    have hbody : (modifyCurrentPeopleNumber seen u).2 = some (some g.encode) := by
      simp [modifyCurrentPeopleNumber, hg, hmem]
    exact h pre a hpre u seen _ ha hc hbody
  · -- The run is refused at the end, so it was when it decided to write.
    intro h pre a hpre u seen w ha hc hw
    obtain ⟨post, rfl⟩ := hpre
    rw [List.append_assoc, run_append] at hrefused
    obtain ⟨u', seen', hphase, hout⟩ := hrefused
    have hend := run_decided modifyCurrentPeopleNumber ([a] ++ post) _ (Or.inl hc)
    have hsame : u' = u ∧ seen' = seen := by
      rcases hphase with hp | hp
      · rw [hp] at hend; simpa using hend
      · rw [hp] at hend; simpa using hend
    rw [hsame.1, hsame.2] at hout
    rcases modifyCurrentPeopleNumber_cases seen u with
      ⟨-, heq⟩ | ⟨g, hg, ⟨n, -, -, -, heq⟩ | ⟨hmem, heq⟩ | ⟨-, heq⟩⟩
    · rw [heq] at hw; cases hw
    · rw [heq] at hout; simp at hout
    · rw [heq] at hw
      rw [← Option.some.inj hw]
      exact h pre a ⟨post, rfl⟩ u seen g ha hc hg hmem
    · rw [heq] at hw; cases hw

theorem refused_join_no_trace_beach :
    Refused true (run groupStep (beachRuns "Aaron" "林小雨")
      [.read true, .callback true, .write true, .read false, .callback false, .write false]) ∧
    ((∀ pre, pre <+: [.read true, .callback true, .write true,
          .read false, .callback false, .write false] →
        (run groupStep (beachRuns "Aaron" "林小雨") pre).value
          = (run groupStep (beachRuns "Aaron" "林小雨")
              (pre.filter fun a => a.client ≠ true)).value) ↔
      Guarded groupStep (WriteBackIsCurrent true) (beachRuns "Aaron" "林小雨")
        [.read true, .callback true, .write true, .read false, .callback false, .write false]) := by
  have hrefused : Refused true (run groupStep (beachRuns "Aaron" "林小雨")
      [.read true, .callback true, .write true, .read false, .callback false, .write false]) :=
    ⟨"Aaron", some beachGroup.encode, Or.inr rfl, Or.inl (by decide)⟩
  exact ⟨hrefused, refused_join_no_trace_iff _ _ _ true hrefused⟩

/--
Aaron, who is in the group, presses join; his run reads before another user's join
and writes after it, and that user is no longer in the group.
-/
theorem refused_join_undoes_another :
    Refused true (run groupStep (beachRuns "Aaron" "林小雨")
      [.read true, .callback true, .read false, .callback false, .write false, .write true]) ∧
    (run groupStep (beachRuns "Aaron" "林小雨")
      [.read true, .callback true, .read false, .callback false, .write false, .write true]).value
    ≠ (run groupStep (beachRuns "Aaron" "林小雨")
      ([.read true, .callback true, .read false, .callback false, .write false,
        .write true].filter fun a => a.client ≠ true)).value := by
  refine ⟨⟨"Aaron", some beachGroup.encode, Or.inr rfl, Or.inl (by decide)⟩, ?_⟩
  intro h
  have hpart := congrArg participants h
  exact absurd hpart (by decide)

end GoodThing
