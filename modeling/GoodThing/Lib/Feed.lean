/-
A list kept current by one query and one listener.

A screen asks once for the documents of a collection and at the same time listens
for changes.  The query's answer replaces the list; a snapshot appends what it
reports as added and sorts.  Both are taken at one moment and delivered at a later
one, in any order, while documents keep being added.

The listener's first snapshot reports every matching document as added, and each
later one the matching documents that are new since; `reported` is what it has
told so far.
-/
import GoodThing.Lib.Firestore
import GoodThing.Lib.Run

namespace Feed

open Firestore Machine

inductive ChangeType where
  | added
  | modified
  | removed
  deriving DecidableEq

/-- One entry of a snapshot's `documentChanges`. -/
structure DocumentChange where
  type : ChangeType
  id : String
  data : Document

variable {α : Type}

/-! ### The two callbacks -/

/-- The list after a query's answer: cleared, then every document that decodes. -/
def replaced (decode : Document → Option α) (docs : List (String × Document)) : List α :=
  docs.filterMap fun x => decode x.2

/-- What a listener's callback makes of a snapshot: additions that decode, nothing else. -/
def newItems (decode : Document → Option α) (changes : List DocumentChange) : List α :=
  changes.filterMap fun ch =>
    match ch.type with
    | .added => decode ch.data
    | _ => none

/-- The list after a snapshot: the new items appended and the whole sorted. -/
def merged (decode : Document → Option α) (before : α → α → Bool)
    (changes : List DocumentChange) (items : List α) : List α :=
  if (newItems decode changes).isEmpty then items
  else (items ++ newItems decode changes).insertionSort fun a b => before b a = false

theorem mem_merged {decode : Document → Option α} {before : α → α → Bool}
    {changes : List DocumentChange} {items : List α} {m : α} :
    m ∈ merged decode before changes items ↔ m ∈ items ∨ m ∈ newItems decode changes := by
  unfold merged
  by_cases h : (newItems decode changes).isEmpty = true
  · rw [if_pos h, List.isEmpty_iff.mp h]
    simp
  · rw [if_neg h, List.mem_insertionSort, List.mem_append]

/-! ### Callbacks in any order -/

/-- How a screen changes its list; `Q` are the arguments it fetches with. -/
structure Screen (α Q : Type) where
  decode : Document → Option α
  /-- `before a b`: the sort puts `a` strictly before `b`. -/
  before : α → α → Bool
  query : Q → Query
  /-- The answer replaces the list; otherwise it is not used. -/
  replaces : Q → Bool

/-- What a callback is called with; `none` is an error. -/
inductive Delivery (Q : Type) where
  /-- The answer to a query, with the collection as it was when it was answered. -/
  | fetched (call : Q) (answered : Option Collection)
  | updated (changes : Option (List DocumentChange))

variable {Q : Type}

def deliver (screen : Screen α Q) (items : List α) : Delivery Q → List α
  | .fetched call (some c) =>
      if screen.replaces call then replaced screen.decode ((screen.query call).getDocuments c)
      else items
  | .fetched _ none => items
  | .updated (some changes) => merged screen.decode screen.before changes items
  | .updated none => items

/-! ### A screen and the collection it shows -/

/-- How a screen reads its collection. -/
structure Config (α : Type) where
  decode : Document → Option α
  /-- `before a b`: the sort puts `a` strictly before `b`. -/
  before : α → α → Bool
  query : Query
  watched : Query

/-- The callbacks of a screen that fetches once. -/
def Config.screen (cfg : Config α) : Screen α Unit where
  decode := cfg.decode
  before := cfg.before
  query _ := cfg.query
  replaces _ := true

/-- The one-shot query. -/
inductive Fetch where
  | asked
  | answered (docs : List (String × Document))
  | done

structure State (α : Type) where
  collection : Collection
  fetch : Fetch
  /-- Ids the listener has reported. -/
  reported : List String
  /-- Snapshots taken and not delivered yet, oldest first. -/
  snapshots : List (List DocumentChange)
  items : List α

inductive Action where
  /-- Somebody adds a document. -/
  | add (id : String) (d : Document)
  | answer
  | answerFails
  | deliverAnswer
  | takeSnapshot
  | deliverSnapshot

/-- The screen has just asked and listens. -/
def start (c : Collection) : State α :=
  { collection := c, fetch := .asked, reported := [], snapshots := [], items := [] }

/-- What a snapshot taken now reports. -/
def unreported (q : Query) (s : State α) : List (String × Document) :=
  (q.found s.collection).filter fun x => !s.reported.contains x.1

def step (cfg : Config α) (s : State α) : Action → State α
  | .add id d =>
      if id ∈ s.collection then s else { s with collection := s.collection.insert id d }
  | .answer =>
      match s.fetch with
      | .asked => { s with fetch := .answered (cfg.query.getDocuments s.collection) }
      | _ => s
  | .answerFails =>
      match s.fetch with
      | .asked => { s with fetch := .done }
      | _ => s
  | .deliverAnswer =>
      match s.fetch with
      | .answered docs => { s with fetch := .done, items := replaced cfg.decode docs }
      | _ => s
  | .takeSnapshot =>
      let new := unreported cfg.watched s
      { s with
        reported := s.reported ++ new.map (·.1)
        snapshots := s.snapshots ++ [new.map fun x => ⟨.added, x.1, x.2⟩] }
  | .deliverSnapshot =>
      match s.snapshots with
      | changes :: rest =>
          { s with snapshots := rest, items := merged cfg.decode cfg.before changes s.items }
      | [] => s

/--
Everything a step can do.  It does nothing when the id is taken, when no answer is due
or when no snapshot is on its way.
-/
theorem step_cases (cfg : Config α) (s : State α) (a : Action) :
    ((∀ id d, a = .add id d → id ∈ s.collection) ∧ (a = .deliverSnapshot → s.snapshots = []) ∧
      step cfg s a = s) ∨
    (∃ id d, a = .add id d ∧ id ∉ s.collection ∧
      step cfg s a = { s with collection := s.collection.insert id d }) ∨
    (∃ fetch, s.fetch = .asked ∧
      (a = .answer ∧ fetch = .answered (cfg.query.getDocuments s.collection) ∨
        a = .answerFails ∧ fetch = .done) ∧
      step cfg s a = { s with fetch }) ∨
    (∃ docs, a = .deliverAnswer ∧ s.fetch = .answered docs ∧
      step cfg s a = { s with fetch := .done, items := replaced cfg.decode docs }) ∨
    (a = .takeSnapshot ∧
      step cfg s a = { s with
        reported := s.reported ++ (unreported cfg.watched s).map (·.1)
        snapshots := s.snapshots ++
          [(unreported cfg.watched s).map fun x => ⟨.added, x.1, x.2⟩] }) ∨
    (∃ changes rest, a = .deliverSnapshot ∧ s.snapshots = changes :: rest ∧
      step cfg s a = { s with
        snapshots := rest, items := merged cfg.decode cfg.before changes s.items }) := by
  cases a with
  | add id d =>
      simp only [step]
      by_cases hid : id ∈ s.collection
      · rw [if_pos hid]
        refine Or.inl ⟨fun id' d' ha => ?_, by simp, rfl⟩
        rw [← (Action.add.inj ha).1]
        exact hid
      · rw [if_neg hid]
        exact Or.inr (Or.inl ⟨id, d, rfl, hid, rfl⟩)
  | answer =>
      cases hfetch : s.fetch with
      | asked =>
          refine Or.inr (Or.inr (Or.inl ⟨_, rfl, Or.inl ⟨rfl, rfl⟩, ?_⟩))
          simp only [step, hfetch]
      | answered docs => exact Or.inl ⟨by simp, by simp, by simp only [step, hfetch]⟩
      | done => exact Or.inl ⟨by simp, by simp, by simp only [step, hfetch]⟩
  | answerFails =>
      cases hfetch : s.fetch with
      | asked =>
          refine Or.inr (Or.inr (Or.inl ⟨_, rfl, Or.inr ⟨rfl, rfl⟩, ?_⟩))
          simp only [step, hfetch]
      | answered docs => exact Or.inl ⟨by simp, by simp, by simp only [step, hfetch]⟩
      | done => exact Or.inl ⟨by simp, by simp, by simp only [step, hfetch]⟩
  | deliverAnswer =>
      cases hfetch : s.fetch with
      | answered docs =>
          refine Or.inr (Or.inr (Or.inr (Or.inl ⟨docs, rfl, rfl, ?_⟩)))
          simp only [step, hfetch]
      | asked => exact Or.inl ⟨by simp, by simp, by simp only [step, hfetch]⟩
      | done => exact Or.inl ⟨by simp, by simp, by simp only [step, hfetch]⟩
  | takeSnapshot => exact Or.inr (Or.inr (Or.inr (Or.inr (Or.inl ⟨rfl, rfl⟩))))
  | deliverSnapshot =>
      cases hs : s.snapshots with
      | nil => exact Or.inl ⟨by simp, fun _ => rfl, by simp only [step, hs]⟩
      | cons changes rest =>
          refine Or.inr (Or.inr (Or.inr (Or.inr (Or.inr ⟨changes, rest, rfl, rfl, ?_⟩))))
          simp only [step, hs]

/-! ### When every item of the list is as it should be

The query's answer is filtered, and where the filter guarantees `Q` the answer
never puts anything else on the list.  A snapshot is only as good as what it
reports.
-/

/-- The answer on its way holds only documents the query admits. -/
def AnswerAdmitted (cfg : Config α) (s : State α) : Prop :=
  ∀ docs, s.fetch = .answered docs → ∀ x ∈ docs, cfg.query.admits x.2 = true

/-- A snapshot is delivered only if every addition in it decodes to an item with `Q`. -/
def ReportsOnly (cfg : Config α) (Q : α → Prop) (s : State α) (a : Action) : Prop :=
  a = .deliverSnapshot → ∀ changes, s.snapshots.head? = some changes →
    ∀ ch ∈ changes, ch.type = .added → ∀ m, cfg.decode ch.data = some m → Q m

theorem answerAdmitted_step (cfg : Config α) (s : State α) (a : Action)
    (h : AnswerAdmitted cfg s) : AnswerAdmitted cfg (step cfg s a) := by
  rcases step_cases cfg s a with ⟨-, -, heq⟩ | ⟨_, _, -, -, heq⟩ | ⟨fetch, -, hfetch, heq⟩ |
    ⟨_, -, -, heq⟩ | ⟨-, heq⟩ | ⟨_, _, -, -, heq⟩
  · rw [heq]
    exact h
  · rw [heq]
    exact h
  · rw [heq]
    intro docs hdocs x hx
    rcases hfetch with ⟨-, rfl⟩ | ⟨-, rfl⟩
    · rw [← Fetch.answered.inj hdocs] at hx
      exact (Query.mem_getDocuments hx).2
    · cases hdocs
  · rw [heq]
    intro docs hdocs
    cases hdocs
  · rw [heq]
    exact h
  · rw [heq]
    exact h

theorem mem_newItems {decode : Document → Option α} {changes : List DocumentChange} {m : α} :
    m ∈ newItems decode changes ↔
      ∃ ch ∈ changes, ch.type = .added ∧ decode ch.data = some m := by
  unfold newItems
  rw [List.mem_filterMap]
  refine ⟨fun ⟨ch, hch, hm⟩ => ⟨ch, hch, ?_⟩,
    fun ⟨ch, hch, ht, hm⟩ => ⟨ch, hch, by rw [ht]; exact hm⟩⟩
  cases ht : ch.type with
  | added => rw [ht] at hm; exact ⟨rfl, hm⟩
  | modified => rw [ht] at hm; cases hm
  | removed => rw [ht] at hm; cases hm

/-- Whether delivering a snapshot puts only items with `Q` on the list. -/
theorem merged_iff {decode : Document → Option α} {before : α → α → Bool} {Q : α → Prop}
    {items : List α} (h : ∀ m ∈ items, Q m) (changes : List DocumentChange) :
    (∀ m ∈ merged decode before changes items, Q m) ↔
      ∀ ch ∈ changes, ch.type = .added → ∀ m, decode ch.data = some m → Q m := by
  refine ⟨?_, ?_⟩
  · intro hall ch hmem ht m hm
    exact hall m (mem_merged.mpr (Or.inr (mem_newItems.mpr ⟨ch, hmem, ht, hm⟩)))
  · intro hall m hm
    rcases mem_merged.mp hm with hold | hnew
    · exact h m hold
    · obtain ⟨ch, hmem, ht, hdec⟩ := mem_newItems.mp hnew
      exact hall ch hmem ht m hdec

/-- Whether a step leaves only items with `Q` on the list. -/
theorem items_step_iff (cfg : Config α) {Q : α → Prop}
    (hquery : ∀ d m, cfg.query.admits d = true → cfg.decode d = some m → Q m) (s : State α)
    (a : Action) (hanswer : AnswerAdmitted cfg s) (h : ∀ m ∈ s.items, Q m) :
    (∀ m ∈ (step cfg s a).items, Q m) ↔ ReportsOnly cfg Q s a := by
  rcases step_cases cfg s a with ⟨-, hnone, heq⟩ | ⟨id, d, rfl, -, heq⟩ |
    ⟨fetch, -, ha, heq⟩ | ⟨docs, rfl, hdocs, heq⟩ | ⟨rfl, heq⟩ | ⟨changes, rest, rfl, hs, heq⟩
  · rw [heq]
    refine ⟨?_, fun _ => h⟩
    intro _ ha changes hhead
    rw [hnone ha] at hhead
    cases hhead
  · rw [heq]
    exact ⟨fun _ ha => (nomatch ha), fun _ => h⟩
  · rw [heq]
    refine ⟨?_, fun _ => h⟩
    intro _ hsnap
    rw [hsnap] at ha
    rcases ha with ⟨hne, -⟩ | ⟨hne, -⟩
    · cases hne
    · cases hne
  · rw [heq]
    refine ⟨fun _ ha => (nomatch ha), ?_⟩
    intro _ m hm
    obtain ⟨x, hx, hdec⟩ := List.mem_filterMap.mp hm
    exact hquery x.2 m (hanswer docs hdocs x hx) hdec
  · rw [heq]
    exact ⟨fun _ ha => (nomatch ha), fun _ => h⟩
  · rw [heq]
    refine (merged_iff h changes).trans ⟨fun hall _ changes' hhead => ?_, fun hall => ?_⟩
    · rw [hs] at hhead
      rw [← Option.some.inj hhead]
      exact hall
    · exact hall rfl changes (by rw [hs]; rfl)

/--
Every item has `Q` all along a run exactly when no delivered snapshot reports one
that has not, provided the query's own filter guarantees `Q`.
-/
theorem items_iff_reportsOnly (cfg : Config α) {Q : α → Prop}
    (hquery : ∀ d m, cfg.query.admits d = true → cfg.decode d = some m → Q m)
    (c : Collection) (as : List Action) :
    Always (step cfg) (fun s => ∀ m ∈ s.items, Q m) (start c) as ↔
      Guarded (step cfg) (ReportsOnly cfg Q) (start c) as := by
  refine always_iff_guarded (J := AnswerAdmitted cfg) (answerAdmitted_step cfg)
    (items_step_iff cfg hquery) as ?_ ?_
  · intro docs hdocs
    simp [start] at hdocs
  · intro m hm
    simp [start] at hm

/-! ### The same, told from what is stored

Which snapshots a run delivers is up to the network; what the collection holds and
what is added to it is not.  Over every order of deliveries the two come to the
same: a stored document the listener is attached to is reported sooner or later.
-/

/-- The documents a run adds, in order. -/
def additions (as : List Action) : List (String × Document) :=
  as.filterMap fun a =>
    match a with
    | .add id d => some (id, d)
    | _ => none

/-- One addition.  An id that is taken is not new. -/
def addOne (c : Collection) (x : String × Document) : Collection :=
  if x.1 ∈ c then c else c.insert x.1 x.2

/-- The collection once all of these have been added. -/
def addAll (c : Collection) (adds : List (String × Document)) : Collection :=
  adds.foldl addOne c

theorem lookup_addOne {c : Collection} {x : String × Document} {id : String} {d : Document}
    (h : c.lookup id = some d) : (addOne c x).lookup id = some d := by
  unfold addOne
  by_cases hx : x.1 ∈ c
  · rw [if_pos hx]; exact h
  · rw [if_neg hx]
    have hne : id ≠ x.1 := by
      intro heq
      rw [heq, AList.lookup_eq_none.mpr hx] at h
      cases h
    rw [AList.lookup_insert_ne hne]
    exact h

/-- A document that is there stays there, whatever is added. -/
theorem lookup_addAll {id : String} {d : Document} :
    ∀ (adds : List (String × Document)) (c : Collection),
      c.lookup id = some d → (addAll c adds).lookup id = some d := by
  intro adds
  induction adds with
  | nil => intro c h; exact h
  | cons x rest ih => intro c h; exact ih _ (lookup_addOne h)

/-- A step changes the collection by its addition, if it is one. -/
theorem collection_step (cfg : Config α) (s : State α) (a : Action) :
    (step cfg s a).collection = addAll s.collection (additions [a]) := by
  rcases step_cases cfg s a with ⟨htaken, -, heq⟩ | ⟨id, d, rfl, hid, heq⟩ |
    ⟨fetch, -, ⟨rfl, -⟩ | ⟨rfl, -⟩, heq⟩ | ⟨docs, rfl, -, heq⟩ | ⟨rfl, heq⟩ |
    ⟨changes, rest, rfl, -, heq⟩
  · rw [heq]
    cases a with
    | add id d => simp [additions, addAll, addOne, htaken id d rfl]
    | _ => rfl
  · rw [heq]
    simp [additions, addAll, addOne, hid]
  all_goals
    rw [heq]
    rfl

/-- A run changes the collection by its additions alone. -/
theorem collection_run (cfg : Config α) :
    ∀ (as : List Action) (s : State α),
      (run (step cfg) s as).collection = addAll s.collection (additions as) := by
  intro as
  induction as with
  | nil => intro s; rfl
  | cons a rest ih =>
      intro s
      have happend : additions (a :: rest) = additions [a] ++ additions rest := by
        rw [additions, additions, additions, ← List.filterMap_append, List.singleton_append]
      rw [run_cons, ih, collection_step, happend, addAll, addAll, addAll, List.foldl_append]

/-- Snapshots on their way report stored documents that the listener is attached to. -/
def SnapshotsStored (cfg : Config α) (s : State α) : Prop :=
  ∀ changes ∈ s.snapshots, ∀ ch ∈ changes,
    s.collection.lookup ch.id = some ch.data ∧ cfg.watched.admits ch.data = true

theorem snapshotsStored_step (cfg : Config α) (s : State α) (a : Action)
    (h : SnapshotsStored cfg s) : SnapshotsStored cfg (step cfg s a) := by
  intro changes hchanges ch hch
  rw [collection_step]
  have hold : changes ∈ s.snapshots →
      (addAll s.collection (additions [a])).lookup ch.id = some ch.data ∧
        cfg.watched.admits ch.data = true := by
    intro hmem
    obtain ⟨hstored, hadmits⟩ := h changes hmem ch hch
    exact ⟨lookup_addAll _ _ hstored, hadmits⟩
  rcases step_cases cfg s a with ⟨-, -, heq⟩ | ⟨_, _, -, -, heq⟩ | ⟨_, -, -, heq⟩ |
    ⟨_, -, -, heq⟩ | ⟨rfl, heq⟩ | ⟨head, rest, -, hs, heq⟩
  · rw [heq] at hchanges
    exact hold hchanges
  · rw [heq] at hchanges
    exact hold hchanges
  · rw [heq] at hchanges
    exact hold hchanges
  · rw [heq] at hchanges
    exact hold hchanges
  · rw [heq] at hchanges
    rcases List.mem_append.mp hchanges with hmem | hnew
    · exact hold hmem
    · rw [List.mem_singleton.mp hnew] at hch
      obtain ⟨x, hx, rfl⟩ := List.mem_map.mp hch
      exact Query.mem_found.mp (List.mem_filter.mp hx).1
  · rw [heq] at hchanges
    refine hold ?_
    rw [hs]
    exact List.mem_cons_of_mem head hchanges

/-- Adding documents to a screen that has just opened changes nothing but the collection. -/
theorem run_adds (cfg : Config α) :
    ∀ (adds : List (String × Document)) (c : Collection),
      run (step cfg) (start c) (adds.map fun x => .add x.1 x.2) = start (addAll c adds) := by
  intro adds
  induction adds with
  | nil => intro c; rfl
  | cons x rest ih =>
      intro c
      have heq : step cfg (start c) (.add x.1 x.2) = (start (addOne c x) : State α) := by
        by_cases hx : x.1 ∈ c
        · simp [step, start, addOne, hx]
        · simp [step, start, addOne, hx]
      rw [List.map_cons, run_cons, heq, ih]
      rfl

/--
Every item has `Q` in every state, whatever the order of deliveries, exactly when
every stored document the listener is attached to decodes, if at all, to an item
with `Q`.
-/
theorem items_iff_stored (cfg : Config α) {Q : α → Prop}
    (hquery : ∀ d m, cfg.query.admits d = true → cfg.decode d = some m → Q m)
    (c : Collection) (adds : List (String × Document)) :
    (∀ as, additions as <+: adds →
        Always (step cfg) (fun s => ∀ m ∈ s.items, Q m) (start c) as) ↔
      ∀ id d, (addAll c adds).lookup id = some d → cfg.watched.admits d = true →
        ∀ m, cfg.decode d = some m → Q m := by
  refine ⟨?_, ?_⟩
  · -- Everything is added, then one snapshot is taken and delivered.
    intro h id d hd hadmits m hm
    let adding : List Action := adds.map fun x => .add x.1 x.2
    have hadds : additions (adding ++ [.takeSnapshot, .deliverSnapshot]) = adds := by
      simp [additions, adding, List.filterMap_map]
    have hrun := h (adding ++ [.takeSnapshot, .deliverSnapshot]) (by rw [hadds])
    have hguard := (items_iff_reportsOnly cfg hquery c _).mp hrun
      (adding ++ [.takeSnapshot]) .deliverSnapshot (by simp)
    rw [run_append, run_adds] at hguard
    have hmem : (id, d) ∈ unreported cfg.watched (start (addAll c adds) : State α) := by
      simp only [unreported, start]
      exact List.mem_filter.mpr ⟨Query.mem_found.mpr ⟨hd, hadmits⟩, by simp⟩
    exact hguard rfl _ rfl ⟨.added, id, d⟩ (List.mem_map.mpr ⟨(id, d), hmem, rfl⟩) rfl m hm
  · intro h as has
    refine (items_iff_reportsOnly cfg hquery c as).mpr ?_
    intro pre a hpre _ changes hhead ch hch _ m hm
    have hstored := run_invariant (snapshotsStored_step cfg) pre (start c)
      (by intro changes hc; simp [start] at hc) changes (List.mem_of_mem_head? hhead) ch hch
    rw [collection_run] at hstored
    -- What was stored when the snapshot was taken is stored in the end.
    have hprefix : additions pre <+: adds := by
      refine List.IsPrefix.trans ?_ has
      obtain ⟨post, rfl⟩ := hpre
      exact ⟨additions ([a] ++ post), by simp [additions, List.append_assoc]⟩
    obtain ⟨rest, hrest⟩ := hprefix
    have hfinal : (addAll c adds).lookup ch.id = some ch.data := by
      rw [← hrest, addAll, List.foldl_append]
      exact lookup_addAll rest _ hstored.1
    exact h ch.id ch.data hfinal hstored.2 m hm

end Feed
