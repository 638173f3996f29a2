/-
What a list holds once its query and its listener have both been heard.

Each document should be on the list once.  The books are kept in multisets: at any
moment, what is on the list, what snapshots on their way will add and what the
listener has still to report make up the collection, but for the moment the answer
is delivered.  That one throws away the list as it is and puts the answer in its
place.  `Balanced` carries the two amounts along, and the list is right in the end
exactly when they are equal.
-/
import GoodThing.Lib.Feed
import Mathlib.Algebra.Order.Group.Multiset
import Mathlib.Tactic.Abel

namespace Feed

open Firestore Machine

variable {α : Type}

/-- Everything has been delivered, and the listener has nothing to add. -/
structure Complete (cfg : Config α) (s : State α) : Prop where
  fetch : s.fetch = .done
  snapshots : s.snapshots = []
  unreported : unreported cfg.watched s = []

/-- The list has one item for each document of the collection that decodes. -/
def OnePerDocument (cfg : Config α) (s : State α) : Prop :=
  s.items.Perm (replaced cfg.decode s.collection.documents)

/-- The answer is delivered only if it holds what is on the list at that moment. -/
def AnswerMatches (cfg : Config α) (s : State α) (a : Action) : Prop :=
  a = .deliverAnswer → ∀ docs, s.fetch = .answered docs → (replaced cfg.decode docs).Perm s.items

/-! ### The books -/

/-- The items these documents decode to. -/
def decoded (cfg : Config α) (docs : List (String × Document)) : Multiset α :=
  (replaced cfg.decode docs : Multiset α)

/-- What the snapshots on their way will add. -/
def onTheWay (cfg : Config α) (s : State α) : Multiset α :=
  (s.snapshots.flatMap (newItems cfg.decode) : Multiset α)

/-- The books balance, `lost` having been thrown away for `gained`. -/
def Balanced (cfg : Config α) (lost gained : Multiset α) (s : State α) : Prop :=
  (s.items : Multiset α) + onTheWay cfg s + decoded cfg (unreported cfg.watched s) + lost =
    decoded cfg s.collection.documents + gained

/-- What the listener has reported is stored. -/
def ReportedStored (s : State α) : Prop := ∀ id ∈ s.reported, id ∈ s.collection

theorem decoded_cons (cfg : Config α) (x : String × Document) (docs : List (String × Document)) :
    decoded cfg (x :: docs) = (cfg.decode x.2).toList + decoded cfg docs := by
  unfold decoded replaced
  rw [List.filterMap_cons]
  cases cfg.decode x.2 with
  | none => simp
  | some m => simp

theorem decoded_congr (cfg : Config α) {docs docs' : List (String × Document)}
    (h : docs.Perm docs') : decoded cfg docs = decoded cfg docs' :=
  Multiset.coe_eq_coe.mpr (h.filterMap _)

/-- A snapshot that reports documents as added adds what they decode to. -/
theorem newItems_added (decode : Document → Option α) (docs : List (String × Document)) :
    newItems decode (docs.map fun x => ⟨.added, x.1, x.2⟩) = replaced decode docs := by
  unfold newItems replaced
  rw [List.filterMap_map]
  rfl

theorem merged_coe (decode : Document → Option α) (before : α → α → Bool)
    (changes : List DocumentChange) (items : List α) :
    (merged decode before changes items : Multiset α) = items + newItems decode changes := by
  unfold merged
  by_cases h : (newItems decode changes).isEmpty = true
  · rw [if_pos h, List.isEmpty_iff.mp h]
    simp
  · rw [if_neg h, Multiset.coe_eq_coe.mpr (List.perm_insertionSort _ _), Multiset.coe_add]

theorem documents_insert {c : Collection} {id : String} (d : Document) (h : id ∉ c) :
    Collection.documents (c.insert id d) = (id, d) :: c.documents := by
  unfold Collection.documents
  rw [AList.entries_insert_of_notMem h, List.map_cons]

/-- A query without filters finds the whole collection. -/
theorem found_perm {q : Query} (hq : ∀ d, q.admits d = true) (c : Collection) :
    (q.found c).Perm c.documents := by
  have hall : (c.documents.filter fun x => q.admits x.2) = c.documents :=
    List.filter_eq_self.mpr fun x _ => hq x.2
  unfold Query.found
  rw [hall]
  exact List.perm_insertionSort _ _

/-- A new document is what the next snapshot will report. -/
theorem unreported_insert {q : Query} (hq : ∀ d, q.admits d = true) {s : State α} {id : String}
    (d : Document) (hid : id ∉ s.collection) (hreported : id ∉ s.reported) :
    (unreported q { s with collection := s.collection.insert id d }).Perm
      ((id, d) :: unreported q s) := by
  have hdocs := found_perm hq (s.collection.insert id d)
  rw [documents_insert d hid] at hdocs
  have hperm : (q.found (s.collection.insert id d)).Perm ((id, d) :: q.found s.collection) :=
    hdocs.trans ((found_perm hq s.collection).symm.cons (id, d))
  have hfilter := hperm.filter fun x => !s.reported.contains x.1
  rw [List.filter_cons, if_pos (by simp [hreported])] at hfilter
  exact hfilter

/-- Once a snapshot is taken, there is nothing left to report. -/
theorem unreported_takeSnapshot (cfg : Config α) (s : State α) :
    unreported cfg.watched (step cfg s .takeSnapshot) = [] := by
  refine List.filter_eq_nil_iff.mpr fun x hx => ?_
  by_cases hreported : x.1 ∈ s.reported
  · simp [step, hreported]
  · have hnew : x ∈ unreported cfg.watched s :=
      List.mem_filter.mpr ⟨hx, by simp [hreported]⟩
    have hmem : x.1 ∈ (unreported cfg.watched s).map (·.1) := List.mem_map_of_mem hnew
    simp only [step, List.contains_eq_mem, List.mem_append, hmem, or_true, decide_true,
      Bool.not_true, Bool.false_eq_true, not_false_eq_true]

/-! ### One step -/

theorem reportedStored_step (cfg : Config α) (s : State α) (a : Action) (h : ReportedStored s) :
    ReportedStored (step cfg s a) := by
  rcases step_cases cfg s a with ⟨-, -, heq⟩ | ⟨id', d, -, -, heq⟩ | ⟨_, -, -, heq⟩ |
    ⟨_, -, -, heq⟩ | ⟨-, heq⟩ | ⟨_, _, -, -, heq⟩
  · rw [heq]
    exact h
  · rw [heq]
    intro id hid
    exact (AList.mem_insert _).mpr (Or.inr (h id hid))
  · rw [heq]
    exact h
  · rw [heq]
    exact h
  · rw [heq]
    intro id hid
    rcases List.mem_append.mp hid with hold | hnew
    · exact h id hold
    · obtain ⟨x, hx, rfl⟩ := List.mem_map.mp hnew
      have hfound := Query.mem_found.mp (List.mem_filter.mp hx).1
      show x.1 ∈ s.collection
      exact AList.lookup_isSome.mp (by rw [hfound.1]; rfl)
  · rw [heq]
    exact h

section

variable {cfg : Config α} (hwatched : ∀ d, cfg.watched.admits d = true)
variable {lost gained : Multiset α} {s : State α}

include hwatched in
theorem balanced_add (hstored : ReportedStored s) (h : Balanced cfg lost gained s) {id : String}
    (hid : id ∉ s.collection) (d : Document) :
    Balanced cfg lost gained { s with collection := s.collection.insert id d } := by
  have hreported : id ∉ s.reported := fun hmem => hid (hstored id hmem)
  unfold Balanced at h ⊢
  rw [decoded_congr cfg (unreported_insert hwatched d hid hreported), decoded_cons,
    documents_insert d hid, decoded_cons]
  -- Both sides gain what the new document decodes to.
  calc (s.items : Multiset α) + onTheWay cfg s
        + (((cfg.decode d).toList : Multiset α) + decoded cfg (unreported cfg.watched s)) + lost
      = ((cfg.decode d).toList : Multiset α) + ((s.items : Multiset α) + onTheWay cfg s
        + decoded cfg (unreported cfg.watched s) + lost) := by abel
    _ = ((cfg.decode d).toList : Multiset α)
        + (decoded cfg s.collection.documents + gained) := by rw [h]
    _ = _ := by abel

/-- A snapshot moves what is to be reported onto the way. -/
theorem balanced_takeSnapshot (h : Balanced cfg lost gained s) :
    Balanced cfg lost gained (step cfg s .takeSnapshot) := by
  have hway : onTheWay cfg (step cfg s .takeSnapshot)
      = onTheWay cfg s + decoded cfg (unreported cfg.watched s) := by
    simp only [onTheWay, step, List.flatMap_append, List.flatMap_cons, List.flatMap_nil,
      List.append_nil, newItems_added, decoded, ← Multiset.coe_add]
  unfold Balanced at h ⊢
  rw [unreported_takeSnapshot, hway]
  show (s.items : Multiset α) + (onTheWay cfg s + decoded cfg (unreported cfg.watched s)) + 0 + lost
    = decoded cfg s.collection.documents + gained
  rw [← h]
  abel

/-- Delivering a snapshot moves what it adds onto the list. -/
theorem balanced_deliverSnapshot (h : Balanced cfg lost gained s) {changes : List DocumentChange}
    {rest : List (List DocumentChange)} (hs : s.snapshots = changes :: rest) :
    Balanced cfg lost gained { s with
      snapshots := rest, items := merged cfg.decode cfg.before changes s.items } := by
  have hway : onTheWay cfg s = (newItems cfg.decode changes : Multiset α)
      + (rest.flatMap (newItems cfg.decode) : Multiset α) := by
    simp only [onTheWay, hs, List.flatMap_cons, ← Multiset.coe_add]
  unfold Balanced at h ⊢
  rw [hway] at h
  show (merged cfg.decode cfg.before changes s.items : Multiset α)
    + (rest.flatMap (newItems cfg.decode) : Multiset α)
    + decoded cfg (unreported cfg.watched s) + lost = _
  rw [merged_coe, ← h]
  abel

/-- Delivering the answer throws the list away. -/
theorem balanced_deliverAnswer {docs : List (String × Document)} (hdocs : s.fetch = .answered docs)
    (h : Balanced cfg 0 0 s) :
    Balanced cfg s.items (decoded cfg docs) (step cfg s .deliverAnswer) := by
  simp only [step, hdocs]
  unfold Balanced at h ⊢
  show decoded cfg docs + onTheWay cfg s + decoded cfg (unreported cfg.watched s) + s.items
    = decoded cfg s.collection.documents + decoded cfg docs
  rw [add_zero, add_zero] at h
  rw [← h]
  abel

include hwatched in
/-- Every other step leaves the books balanced as they are. -/
theorem balanced_step (hstored : ReportedStored s) (h : Balanced cfg lost gained s) {a : Action}
    (ha : a = .deliverAnswer → ∀ docs, s.fetch ≠ .answered docs) :
    Balanced cfg lost gained (step cfg s a) := by
  rcases step_cases cfg s a with ⟨-, -, heq⟩ | ⟨id, d, -, hid, heq⟩ | ⟨_, -, -, heq⟩ |
    ⟨docs, hdeliver, hdocs, -⟩ | ⟨rfl, -⟩ | ⟨changes, rest, -, hs, heq⟩
  · rw [heq]
    exact h
  · rw [heq]
    exact balanced_add hwatched hstored h hid d
  · rw [heq]
    exact h
  · exact absurd hdocs (ha hdeliver docs)
  · exact balanced_takeSnapshot h
  · rw [heq]
    exact balanced_deliverSnapshot h hs

/-- An answer that has been delivered, or has failed, is not delivered again. -/
theorem fetch_done_step (h : s.fetch = .done) (a : Action) : (step cfg s a).fetch = .done := by
  rcases step_cases cfg s a with ⟨-, -, heq⟩ | ⟨_, _, -, -, heq⟩ | ⟨_, hasked, -, -⟩ |
    ⟨_, -, -, heq⟩ | ⟨-, heq⟩ | ⟨_, _, -, -, heq⟩
  · rw [heq]
    exact h
  · rw [heq]
    exact h
  · rw [h] at hasked
    cases hasked
  · rw [heq]
  · rw [heq]
    exact h
  · rw [heq]
    exact h

end

/-! ### A whole run -/

variable {cfg : Config α}

/-- After the answer nothing is lost, and no delivery of an answer is left to be guarded. -/
theorem balanced_run_done (hwatched : ∀ d, cfg.watched.admits d = true)
    {lost gained : Multiset α} :
    ∀ (as : List Action) {s : State α}, s.fetch = .done → ReportedStored s →
      Balanced cfg lost gained s →
        Balanced cfg lost gained (run (step cfg) s as) ∧
          Guarded (step cfg) (AnswerMatches cfg) s as := by
  intro as
  induction as with
  | nil => intro s _ _ h; exact ⟨h, guarded_nil⟩
  | cons a rest ih =>
      intro s hdone hstored h
      have hnone : ∀ docs, s.fetch ≠ .answered docs := by
        intro docs hdocs
        rw [hdone] at hdocs
        cases hdocs
      obtain ⟨hrun, hguard⟩ := ih (fetch_done_step hdone a) (reportedStored_step cfg s a hstored)
        (balanced_step hwatched hstored h fun _ => hnone)
      exact ⟨hrun, guarded_cons.mpr ⟨fun _ docs hdocs => absurd hdocs (hnone docs), hguard⟩⟩

/-- What a run throws away is what it gains exactly when the answer matches the list. -/
theorem balanced_run (hwatched : ∀ d, cfg.watched.admits d = true) :
    ∀ (as : List Action) {s : State α}, ReportedStored s → Balanced cfg 0 0 s →
      ∃ lost gained, Balanced cfg lost gained (run (step cfg) s as) ∧
        (gained = lost ↔ Guarded (step cfg) (AnswerMatches cfg) s as) := by
  intro as
  induction as with
  | nil => intro s _ h; exact ⟨0, 0, h, iff_of_true rfl guarded_nil⟩
  | cons a rest ih =>
      intro s hstored h
      by_cases hdeliver : ∃ docs, a = .deliverAnswer ∧ s.fetch = .answered docs
      · obtain ⟨docs, rfl, hdocs⟩ := hdeliver
        have hdone : (step cfg s .deliverAnswer).fetch = .done := by simp only [step, hdocs]
        obtain ⟨hrun, hguard⟩ := balanced_run_done hwatched rest hdone
          (reportedStored_step cfg s _ hstored) (balanced_deliverAnswer hdocs h)
        refine ⟨s.items, decoded cfg docs, hrun, ?_⟩
        rw [guarded_cons, and_iff_left hguard]
        refine ⟨?_, ?_⟩
        · intro heq _ docs' hdocs'
          obtain rfl : docs = docs' := Fetch.answered.inj (hdocs.symm.trans hdocs')
          exact Multiset.coe_eq_coe.mp heq
        · intro hmatch
          exact Multiset.coe_eq_coe.mpr (hmatch rfl docs hdocs)
      · have hquiet : a = .deliverAnswer → ∀ docs, s.fetch ≠ .answered docs :=
          fun ha docs hdocs => hdeliver ⟨docs, ha, hdocs⟩
        obtain ⟨lost, gained, hrun, hiff⟩ := ih (reportedStored_step cfg s a hstored)
          (balanced_step hwatched hstored h hquiet)
        refine ⟨lost, gained, hrun, ?_⟩
        rw [guarded_cons, hiff]
        exact ⟨fun hguard => ⟨fun ha docs hdocs => absurd hdocs (hquiet ha docs), hguard⟩,
          fun hguard => hguard.2⟩

/--
Once everything is delivered, the list has each document once exactly when the
answer, if there was one, held what was on the list when it was delivered.
-/
theorem onePerDocument_iff (hwatched : ∀ d, cfg.watched.admits d = true) (c : Collection)
    (as : List Action) (hcomplete : Complete cfg (run (step cfg) (start c) as)) :
    OnePerDocument cfg (run (step cfg) (start c) as) ↔
      Guarded (step cfg) (AnswerMatches cfg) (start c) as := by
  have hstart : Balanced cfg 0 0 (start c) := by
    have hall : unreported cfg.watched (start c : State α) = cfg.watched.found c := by
      simp [unreported, start]
    unfold Balanced
    rw [hall, decoded_congr cfg (found_perm hwatched c)]
    show (0 : Multiset α) + 0 + decoded cfg c.documents + 0 = decoded cfg c.documents + 0
    abel
  obtain ⟨lost, gained, hbalanced, hiff⟩ := balanced_run hwatched as
    (fun id hid => absurd hid List.not_mem_nil) hstart
  rw [← hiff]
  unfold Balanced onTheWay at hbalanced
  rw [hcomplete.snapshots, hcomplete.unreported] at hbalanced
  have hbooks : ((run (step cfg) (start c) as).items : Multiset α) + lost
      = decoded cfg (run (step cfg) (start c) as).collection.documents + gained := by
    rw [← hbalanced]
    show _ = _ + 0 + 0 + lost
    abel
  unfold OnePerDocument
  rw [← Multiset.coe_eq_coe]
  refine ⟨?_, ?_⟩
  · intro heq
    rw [heq] at hbooks
    exact (add_left_cancel hbooks).symm
  · intro heq
    rw [heq] at hbooks
    exact add_right_cancel hbooks

end Feed
