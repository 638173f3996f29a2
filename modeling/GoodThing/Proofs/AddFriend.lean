/-
Making friends at the same time.

Everywhere else `addFriend` is one atomic step.  It is none: it reads two profiles one after
the other, and sends its updates later.  Here any number of devices do that at once, each
retried as the runner sees fit, and what the profiles come to is what the atomic steps make
of them, in the order the backend takes the commits.  So no friend is lost to a concurrent
`addFriend`.
-/
import GoodThing.Proofs.Transaction
import GoodThing.Proofs.User

namespace GoodThing

open Firestore Firebase

variable {C D : Type} [DecidableEq C] [DecidableEq D]

/-- The documents of a store. -/
def documents (s : Firestore.Store) : String × String → Option Document :=
  fun key => s.document key.1 key.2

/-- The event of an `addFriend` that gets through. -/
def befriend (parties : Uid × Uid) : UserEvent D :=
  .addFriend parties.1.1 parties.2.1 (fun _ => true) true

/-- The blocks of `addFriend`, one for each client. -/
def friendBlocks (parties : C → Uid × Uid) (c : C) : UpdateBlock (String × String) Document :=
  addFriendBlock (parties c).1.1 (parties c).2.1

/-! ### One transaction -/

theorem documents_updateData (s : Firestore.Store) (path id : String)
    (fields : List (String × Value)) {d : Document} (hd : s.document path id = some d) :
    documents (s.updateData path id fields) =
      Function.update (documents s) (path, id) (some (d.update fields)) := by
  funext key
  show (s.updateData path id fields).document key.1 key.2 = _
  rw [Store.document_updateData]
  by_cases hkey : key = (path, id)
  · rw [hkey, Function.update_self, if_pos ⟨rfl, rfl⟩, hd]
    rfl
  · rw [Function.update_of_ne hkey, if_neg]
    · rfl
    · intro heq
      exact hkey (Prod.ext heq.1 heq.2)

/-- What the block of `addFriend` means on its own. -/
theorem serial_addFriendBlock {p c : String} {values after : String × String → Option Document}
    (h : Serial (addFriendBlock p c) values after) :
    (∃ dp dc xs ys, values (goodThingUsers, p) = some dp ∧ dp.strings? "friends" = some xs ∧
        values (goodThingUsers, c) = some dc ∧ dc.strings? "friends" = some ys ∧
        Serial (.updateData (goodThingUsers, p) (·.update [("friends", .strings (addOnce c xs))]) <|
          .updateData (goodThingUsers, c) (·.update [("friends", .strings (addOnce p ys))]) .return)
          values after) ∨
      (((values (goodThingUsers, p)).bind (·.strings? "friends") = none ∨
        (values (goodThingUsers, c)).bind (·.strings? "friends") = none) ∧ after = values) := by
  unfold addFriendBlock at h
  cases h with
  | readFails code h => cases h
  | read h =>
      cases h with
      | readFails code h => cases h
      | read h =>
          cases hxs : (values (goodThingUsers, p)).bind (·.strings? "friends") with
          | none =>
              simp only [hxs] at h
              cases h
              exact Or.inr ⟨Or.inl rfl, rfl⟩
          | some xs =>
              cases hys : (values (goodThingUsers, c)).bind (·.strings? "friends") with
              | none =>
                  simp only [hxs, hys] at h
                  cases h
                  exact Or.inr ⟨Or.inr rfl, rfl⟩
              | some ys =>
                  simp only [hxs, hys] at h
                  obtain ⟨dp, hdp, hxs'⟩ := Option.bind_eq_some_iff.mp hxs
                  obtain ⟨dc, hdc, hys'⟩ := Option.bind_eq_some_iff.mp hys
                  exact Or.inl ⟨dp, dc, xs, ys, hdp, hxs', hdc, hys', h⟩

/-- The block does what the atomic step does. -/
theorem serial_befriend {s : UserState D} {parties : Uid × Uid}
    {after : String × String → Option Document}
    (h : Serial (addFriendBlock parties.1.1 parties.2.1) (documents s.store) after) :
    after = documents (userStep s (befriend parties)).store := by
  obtain ⟨⟨p, hp⟩, ⟨c, hc⟩⟩ := parties
  rcases serial_addFriendBlock h with ⟨dp, dc, xs, ys, hdp, hxs, hdc, hys, hupdates⟩ | ⟨hnone, rfl⟩
  · have hstep : userStep s (befriend (⟨p, hp⟩, ⟨c, hc⟩)) =
        { s with store := befriended s.store p c xs ys } := by
      have hthrough : addFriend s.store p c (fun _ => true) true = _ :=
        addFriend_goes_through hp hc hdp hxs hdc hys rfl rfl
      simp only [userStep, befriend, hthrough]
    rw [hstep]
    cases hupdates with
    | update hv hupdates =>
        obtain rfl := Option.some_inj.mp (hdp.symm.trans hv)
        rw [← documents_updateData s.store _ _ _ hdp] at hupdates
        cases hupdates with
        | update hv' hupdates =>
            rw [← documents_updateData _ _ _ _ hv'] at hupdates
            cases hupdates
            rfl
  · have hidle : ¬ (HasFriendsList s.store p ∧ HasFriendsList s.store c) := by
      rintro ⟨⟨dp, xs, hdp, hxs⟩, dc, ys, hdc, hys⟩
      rcases hnone with hnone | hnone
      · simp [documents, hdp, hxs] at hnone
      · simp [documents, hdc, hys] at hnone
    have hthrough : addFriend s.store p c (fun _ => true) true = _ :=
      addFriend_idle hp hc rfl rfl hidle
    simp only [userStep, befriend, hthrough]

/-! ### All of them -/

omit [DecidableEq C] in
theorem serialRun_befriend {s : UserState D} {parties : C → Uid × Uid} {cs : List C}
    {after : String × String → Option Document}
    (h : SerialRun (friendBlocks parties) (documents s.store) cs after) :
    after = documents (Machine.run userStep s (cs.map fun c => befriend (parties c))).store := by
  induction h with
  | nil => rfl
  | snoc hbefore h ih =>
      rw [List.map_append, Machine.run_append]
      subst ih
      exact serial_befriend h

variable (s₀ : UserState D) (store : Versioned.Store (String × String) Document)
  (parties : C → Uid × Uid) (maxAttempts : C → Nat) (as : List (System.Action C))

/-- Every device has tapped the button. -/
def tapped : System C (String × String) Document :=
  System.start store (friendBlocks parties) maxAttempts

theorem values_run (hstore : store.values = documents s₀.store) :
    let s := Machine.run System.step (tapped store parties maxAttempts) as
    s.store.values =
      documents (Machine.run userStep s₀ (s.taken.map fun c => befriend (parties c))).store := by
  intro s
  have hserial := (System.serialized_run store (friendBlocks parties) maxAttempts as).serial
  rw [hstore] at hserial
  exact serialRun_befriend hserial

/-- However the devices interleave, the documents are those of the atomic steps. -/
theorem addFriend_atomic (hstore : store.values = documents s₀.store) :
    let s := Machine.run System.step (tapped store parties maxAttempts) as
    s.store.values =
      documents (Machine.run userStep s₀ (s.taken.map fun c => befriend (parties c))).store :=
  values_run s₀ store parties maxAttempts as hstore

/-- A backend that holds the documents of `s`, all written at the same time. -/
def backend (s : Firestore.Store) : Versioned.Store (String × String) Document where
  cells key := (documents s key).map fun d => (d, 1)
  now := 2
  pos := Nat.two_pos
  past := by
    intro k x hx
    obtain ⟨d, -, rfl⟩ := Option.map_eq_some_iff.mp hx
    exact ⟨Nat.one_pos, Nat.one_lt_two⟩

theorem values_backend (s : Firestore.Store) : (backend s).values = documents s := by
  funext key
  show Option.map Prod.fst ((documents s key).map fun d => (d, 1)) = documents s key
  rw [Option.map_map]
  exact Option.map_id'

/-- Three users who have registered. -/
def threeUsers : UserState Unit where
  store := ["Aaron", "Hank", "Mia"].foldl
    (fun s u => s.setData goodThingUsers u (blankProfile u "" "")) fun _ => ∅
  userId _ := none

/-- Hank has answered a task of Aaron's, and Aaron one of Mia's. -/
def twoParties : Bool → Uid × Uid
  | true => (⟨"Aaron", by decide⟩, ⟨"Hank", by decide⟩)
  | false => (⟨"Mia", by decide⟩, ⟨"Aaron", by decide⟩)

/-- Both devices have read Aaron's profile when the first of them commits; the other one is refused
and tries again. -/
def bothTap : List (System.Action Bool) :=
  [.backoffElapsed true, .backoffElapsed false, .lookupAnswered true, .lookupAnswered false,
    .lookupAnswered true, .lookupAnswered false, .commitTaken true, .commitTaken false,
    .commitFailed false .aborted, .backoffElapsed false, .lookupAnswered false,
    .lookupAnswered false, .commitTaken false]

theorem addFriend_atomic_bothTap :
    let s := Machine.run System.step
      (tapped (backend threeUsers.store) twoParties fun _ => 5) bothTap
    s.taken = [true, false] ∧ s.store.values = documents (Machine.run userStep threeUsers
      ([true, false].map fun c => befriend (twoParties c))).store :=
  ⟨rfl, addFriend_atomic threeUsers (backend threeUsers.store) twoParties (fun _ => 5) bothTap
    (values_backend threeUsers.store)⟩

/-! ### No friend is lost -/

omit [DecidableEq C] in
/-- The lists after an `addFriend` of two users who have one each. -/
theorem friendsField_befriend {s : UserState D} {p c : Uid} {xs ys : List String}
    (hp : friendsField s p.1 = some (some xs)) (hc : friendsField s c.1 = some (some ys))
    (u : String) :
    friendsField (userStep s (befriend (p, c))) u =
      if u = p.1 then some (some (addOnce c.1 xs))
      else if u = c.1 then some (some (addOnce p.1 ys))
      else friendsField s u := by
  obtain ⟨dp, hdp, hxs⟩ := Option.map_eq_some_iff.mp hp
  obtain ⟨dc, hdc, hys⟩ := Option.map_eq_some_iff.mp hc
  have hthrough : addFriend s.store p.1 c.1 (fun _ => true) true = _ :=
    addFriend_goes_through p.2 c.2 hdp hxs hdc hys rfl rfl
  have hstep : userStep s (befriend (p, c)) =
      { s with store := befriended s.store p.1 c.1 xs ys } := by
    simp only [userStep, befriend, hthrough]
  rw [hstep]
  exact document_befriended hdp hxs hdc hys u

/-- A user who has a list of friends keeps it, and everybody on it. -/
theorem friends_grow {s : UserState D} (parties : Uid × Uid) {u : String} {xs : List String}
    (h : friendsField s u = some (some xs)) :
    ∃ ys, friendsField (userStep s (befriend parties)) u = some (some ys) ∧ ∀ x ∈ xs, x ∈ ys := by
  rcases friendsField_addFriend s parties.1.1 parties.2.1 (fun _ => true) true with
    hsame | ⟨ps, cs, -, hp, hc, -⟩
  · exact ⟨xs, (hsame u).trans h, fun x hx => hx⟩
  · rw [friendsField_befriend hp hc]
    by_cases hup : u = parties.1.1
    · rw [hup, hp, Option.some_inj, Option.some_inj] at h
      rw [if_pos hup]
      exact ⟨_, rfl, fun x hx => mem_addOnce.mpr (Or.inl (h ▸ hx))⟩
    · rw [if_neg hup]
      by_cases huc : u = parties.2.1
      · rw [huc, hc, Option.some_inj, Option.some_inj] at h
        rw [if_pos huc]
        exact ⟨_, rfl, fun x hx => mem_addOnce.mpr (Or.inl (h ▸ hx))⟩
      · rw [if_neg huc]
        exact ⟨xs, h, fun x hx => hx⟩

/-- `u` has a list of friends, and everybody in `known` is on it. -/
def Lists (s : UserState D) (u : String) (known : List String) : Prop :=
  ∃ xs, friendsField s u = some (some xs) ∧ ∀ x ∈ known, x ∈ xs

theorem Lists.run {s : UserState D} {u : String} {known : List String} (h : Lists s u known)
    (events : List (Uid × Uid)) : Lists (Machine.run userStep s (events.map befriend)) u known := by
  induction events generalizing s with
  | nil => exact h
  | cons parties rest ih =>
      obtain ⟨xs, hxs, hknown⟩ := h
      obtain ⟨ys, hys, hgrow⟩ := friends_grow parties hxs
      exact ih ⟨ys, hys, fun x hx => hgrow x (hknown x hx)⟩

/-- Once two users who have lists have made friends, they are on each other's for good. -/
theorem lists_run_of_mem {s : UserState D} {p c : Uid} (hp : Lists s p.1 []) (hc : Lists s c.1 [])
    {events : List (Uid × Uid)} (hmem : (p, c) ∈ events) :
    Lists (Machine.run userStep s (events.map befriend)) p.1 [c.1] ∧
      Lists (Machine.run userStep s (events.map befriend)) c.1 [p.1] := by
  obtain ⟨before, after, rfl⟩ := List.append_of_mem hmem
  rw [List.map_append, Machine.run_append, List.map_cons, Machine.run_cons]
  obtain ⟨xs, hxs, -⟩ := hp.run before
  obtain ⟨ys, hys, -⟩ := hc.run before
  have hfield := friendsField_befriend hxs hys
  refine ⟨Lists.run ?_ after, Lists.run ?_ after⟩
  · refine ⟨addOnce c.1 xs, (hfield p.1).trans (if_pos rfl), ?_⟩
    intro x hx
    exact mem_addOnce.mpr (Or.inr (List.mem_singleton.mp hx))
  · by_cases hpc : c.1 = p.1
    · refine ⟨addOnce c.1 xs, (hfield c.1).trans (if_pos hpc), ?_⟩
      intro x hx
      exact mem_addOnce.mpr (Or.inr ((List.mem_singleton.mp hx).trans hpc.symm))
    · refine ⟨addOnce p.1 ys, (hfield c.1).trans ((if_neg hpc).trans (if_pos rfl)), ?_⟩
      intro x hx
      exact mem_addOnce.mpr (Or.inr (List.mem_singleton.mp hx))

/-- The friends a profile in the backend lists. -/
def friendsIn (store : Versioned.Store (String × String) Document) (u : String) :
    Option (List String) :=
  (store.values (goodThingUsers, u)).bind (·.strings? "friends")

omit [DecidableEq D] in
theorem friendsIn_eq_some_iff {s : UserState D}
    {store : Versioned.Store (String × String) Document}
    (hstore : store.values = documents s.store) {u : String} {xs : List String} :
    friendsIn store u = some xs ↔ friendsField s u = some (some xs) := by
  unfold friendsIn friendsField profile
  rw [hstore]
  show (s.store.document goodThingUsers u).bind _ = _ ↔ _
  rw [Option.bind_eq_some_iff, Option.map_eq_some_iff]

omit [DecidableEq D] in
theorem lists_iff {s : UserState D} {store : Versioned.Store (String × String) Document}
    (hstore : store.values = documents s.store) {u : String} {known : List String} :
    Lists s u known ↔ ∃ xs, friendsIn store u = some xs ∧ ∀ x ∈ known, x ∈ xs := by
  unfold Lists
  simp only [friendsIn_eq_some_iff hstore]

/-- A device that is told that its `addFriend` has been committed can rely on it: whatever the
others do at the same time, the two users are on each other's list from then on. -/
theorem friend_never_lost (hstore : store.values = documents s₀.store) (c : C)
    (hp : (friendsIn store (parties c).1.1).isSome = true)
    (hc : (friendsIn store (parties c).2.1).isSome = true) :
    let s := Machine.run System.step (tapped store parties maxAttempts) as
    (s.runners c).results = [.ok ()] →
      (∃ xs, friendsIn s.store (parties c).1.1 = some xs ∧ (parties c).2.1 ∈ xs) ∧
        ∃ ys, friendsIn s.store (parties c).2.1 = some ys ∧ (parties c).1.1 ∈ ys := by
  intro s hresult
  have hvalues : s.store.values =
      documents (Machine.run userStep s₀ ((s.taken.map parties).map befriend)).store := by
    rw [List.map_map]
    exact values_run s₀ store parties maxAttempts as hstore
  -- One commit of this device has been taken.
  have htaken : c ∈ s.taken := by
    have haccount := System.account_run store (friendBlocks parties) maxAttempts as c
    rw [← List.count_pos_iff]
    rcases haccount.result with ⟨hnone, -⟩ | ⟨⟨code, herror⟩, -⟩ | ⟨-, -, hcount, -⟩
    · have hne : ([] : List Status) = [.ok ()] := hnone.symm.trans hresult
      cases hne
    · have hne : ([.error code] : List Status) = [.ok ()] := herror.symm.trans hresult
      cases hne
    · exact Nat.lt_of_lt_of_eq (Nat.succ_pos _) hcount.symm
  have hlist : ∀ u, (friendsIn store u).isSome = true → Lists s₀ u [] := by
    intro u hu
    obtain ⟨xs, hxs⟩ := Option.isSome_iff_exists.mp hu
    exact (lists_iff hstore).mpr ⟨xs, hxs, by simp⟩
  have hmem : ((parties c).1, (parties c).2) ∈ s.taken.map parties :=
    List.mem_map.mpr ⟨c, htaken, rfl⟩
  obtain ⟨hposter, hcompleter⟩ := lists_run_of_mem (hlist _ hp) (hlist _ hc) hmem
  obtain ⟨xs, hxs, hxsmem⟩ := (lists_iff hvalues).mp hposter
  obtain ⟨ys, hys, hysmem⟩ := (lists_iff hvalues).mp hcompleter
  exact ⟨⟨xs, hxs, hxsmem _ List.mem_cons_self⟩, ys, hys, hysmem _ List.mem_cons_self⟩

theorem friend_never_lost_bothTap :
    let s := Machine.run System.step
      (tapped (backend threeUsers.store) twoParties fun _ => 5) bothTap
    (s.runners false).results = [.ok ()] ∧
      (∃ xs, friendsIn s.store "Mia" = some xs ∧ "Aaron" ∈ xs) ∧
        ∃ ys, friendsIn s.store "Aaron" = some ys ∧ "Mia" ∈ ys :=
  ⟨rfl, friend_never_lost threeUsers (backend threeUsers.store) twoParties (fun _ => 5) bothTap
    (values_backend threeUsers.store) false rfl rfl rfl⟩

end GoodThing
