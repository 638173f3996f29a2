/-
Lists in the order of a field.

A query sorts what it finds by a field, whatever the documents hold there: values of one
kind among each other, and the kinds by their rank.  A screen replaces its list by the
answers to such queries and sorts it by the same field after each snapshot.  The list is
then in order whatever is delivered when.

All comparisons of strings are by code points, which is the order of their bytes in UTF-8.
-/
import GoodThing.Lib.Feed
import Mathlib.Data.List.Lex
import Mathlib.Data.String.Basic

namespace Firestore

/-! ### The order of values -/

namespace Value

theorem leStrings_iff : ∀ as bs : List String, leStrings as bs = true ↔ ¬ bs < as := by
  intro as
  induction as with
  | nil =>
      intro bs
      simp [leStrings]
  | cons a as ih =>
      intro bs
      cases bs with
      | nil => simp [leStrings]
      | cons b bs =>
          rw [leStrings, List.cons_lt_cons_iff]
          by_cases hab : a = b
          · rw [if_pos hab, ih, hab]
            simp
          · rw [if_neg hab, decide_eq_true_eq, not_or, not_lt]
            simp [Ne.symm hab]

theorem le_of_rank_lt {v w : Value} (h : v.rank < w.rank) : v.le w = true := by
  cases v <;> cases w <;> simp_all [le, rank, number?]

theorem rank_le_of_le {v w : Value} (h : v.le w = true) : v.rank ≤ w.rank := by
  cases v <;> cases w <;> simp_all [le, rank, number?]

theorem le_number {v w : Value} {x y : Rat} (hv : v.number? = some x) (hw : w.number? = some y) :
    v.le w = true ↔ x ≤ y := by
  cases v <;> cases w <;> simp_all [le, number?]

/-- Values of one kind: what they hold, and how they are compared. -/
theorem kind_cases {v w : Value} (h : v.rank = w.rank) :
    (v = .null ∧ w = .null) ∨ (∃ a b, v = .boolean a ∧ w = .boolean b) ∨
    (∃ x y, v.number? = some x ∧ w.number? = some y) ∨ (∃ a b, v = .string a ∧ w = .string b) ∨
    (∃ a b, v = .strings a ∧ w = .strings b) ∨ (∃ a b, v = .other a ∧ w = .other b) := by
  cases v <;> cases w <;> simp_all [rank, number?]

theorem le_total (v w : Value) : v.le w = true ∨ w.le v = true := by
  rcases Nat.lt_trichotomy v.rank w.rank with hlt | heq | hgt
  · exact Or.inl (le_of_rank_lt hlt)
  · rcases kind_cases heq with ⟨rfl, rfl⟩ | ⟨a, b, rfl, rfl⟩ | ⟨x, y, hx, hy⟩ | ⟨a, b, rfl, rfl⟩ |
      ⟨a, b, rfl, rfl⟩ | ⟨a, b, rfl, rfl⟩
    · exact Or.inl rfl
    · cases a with
      | false => exact Or.inl rfl
      | true => exact Or.inr (by simp [le])
    · rw [le_number hx hy, le_number hy hx]
      exact Std.Total.total x y
    · simp only [le, decide_eq_true_eq]
      exact Std.Total.total a b
    · simp only [le, leStrings_iff, not_lt]
      exact Std.Total.total a b
    · simp only [le, decide_eq_true_eq]
      exact Std.Total.total a b
  · exact Or.inr (le_of_rank_lt hgt)

theorem le_trans {v w u : Value} (hvw : v.le w = true) (hwu : w.le u = true) :
    v.le u = true := by
  have hr := rank_le_of_le hvw
  have hr' := rank_le_of_le hwu
  by_cases hlt : v.rank < u.rank
  · exact le_of_rank_lt hlt
  · have heq : v.rank = w.rank := by omega
    have heq' : w.rank = u.rank := by omega
    rcases kind_cases heq with ⟨rfl, rfl⟩ | ⟨a, b, rfl, rfl⟩ | ⟨x, y, hx, hy⟩ | ⟨a, b, rfl, rfl⟩ |
      ⟨a, b, rfl, rfl⟩ | ⟨a, b, rfl, rfl⟩
    · exact hwu
    · obtain ⟨c, rfl⟩ : ∃ c, u = .boolean c := by cases u <;> simp_all [rank]
      cases a with
      | false => rfl
      | true =>
          simp only [le, Bool.not_true, Bool.false_or] at hvw
          rw [hvw] at hwu
          exact hwu
    · obtain ⟨z, hz⟩ : ∃ z, u.number? = some z := by
        cases w <;> cases u <;> simp_all [rank, number?]
      rw [le_number hx hy] at hvw
      rw [le_number hy hz] at hwu
      rw [le_number hx hz]
      exact Rat.le_trans hvw hwu
    · obtain ⟨c, rfl⟩ : ∃ c, u = .string c := by cases u <;> simp_all [rank]
      simp only [le, decide_eq_true_eq] at hvw hwu ⊢
      exact hvw.trans hwu
    · obtain ⟨c, rfl⟩ : ∃ c, u = .strings c := by cases u <;> simp_all [rank]
      simp only [le, leStrings_iff, not_lt] at hvw hwu ⊢
      exact hvw.trans hwu
    · obtain ⟨c, rfl⟩ : ∃ c, u = .other c := by cases u <;> simp_all [rank]
      simp only [le, decide_eq_true_eq] at hvw hwu ⊢
      exact hvw.trans hwu

end Value

/-! ### The order of answers -/

/--
Insertion sort by `r` leaves a list in order by `s`, if `r` decides between any two of its
elements as `s` does.
-/
theorem pairwise_insertionSort_of {β : Type*} {r s : β → β → Prop} [DecidableRel r]
    {P : β → Prop} (hr : ∀ a b, P a → P b → r a b → s a b)
    (hnr : ∀ a b, P a → P b → ¬ r a b → s b a) (htrans : ∀ a b c, s a b → s b c → s a c) :
    ∀ l : List β, (∀ a ∈ l, P a) → (l.insertionSort r).Pairwise s := by
  -- One element put in its place.
  have hinsert : ∀ (a : β) (l : List β), P a → (∀ b ∈ l, P b) → l.Pairwise s →
      (l.orderedInsert r a).Pairwise s := by
    intro a l ha
    induction l with
    | nil =>
        intro _ _
        exact List.pairwise_singleton s a
    | cons b l ih =>
        intro hP hl
        obtain ⟨hb, hl'⟩ := List.pairwise_cons.mp hl
        rw [List.orderedInsert_cons]
        by_cases hab : r a b
        · rw [if_pos hab]
          have hs := hr a b ha (hP b List.mem_cons_self) hab
          refine List.pairwise_cons.mpr ⟨?_, hl⟩
          intro c hc
          rcases List.mem_cons.mp hc with rfl | hc'
          · exact hs
          · exact htrans a b c hs (hb c hc')
        · rw [if_neg hab]
          refine List.pairwise_cons.mpr ⟨?_, ih (fun c hc => hP c (List.mem_cons_of_mem b hc)) hl'⟩
          intro c hc
          rcases (List.mem_orderedInsert r).mp hc with rfl | hc'
          · exact hnr c b ha (hP b List.mem_cons_self) hab
          · exact hb c hc'
  intro l
  induction l with
  | nil =>
      intro _
      exact List.Pairwise.nil
  | cons a l ih =>
      intro hP
      refine hinsert a _ (hP a List.mem_cons_self) ?_
        (ih fun b hb => hP b (List.mem_cons_of_mem a hb))
      intro b hb
      exact hP b (List.mem_cons_of_mem a ((List.mem_insertionSort r).mp hb))

/-- Documents by a field, from the least or from the greatest. -/
def byField (field : String) (descending : Bool) (x y : String × Document) : Prop :=
  if descending then ((y.2 field).getD .null).le ((x.2 field).getD .null) = true
  else ((x.2 field).getD .null).le ((y.2 field).getD .null) = true

theorem byField_trans {field : String} {descending : Bool} (x y z : String × Document)
    (hxy : byField field descending x y) (hyz : byField field descending y z) :
    byField field descending x z := by
  cases descending with
  | false => exact Value.le_trans hxy hyz
  | true => exact Value.le_trans hyz hxy

/-- Between two documents with the field, a query decides by it. -/
theorem Query.before_cases {q : Query} {field : String} {descending : Bool}
    (hq : q.order = some (field, descending)) {x y : String × Document}
    (hx : (x.2 field).isSome = true) (hy : (y.2 field).isSome = true) :
    (q.before x y = true → byField field descending x y) ∧
      (¬ q.before x y = true → byField field descending y x) := by
  obtain ⟨a, ha⟩ := Option.isSome_iff_exists.mp hx
  obtain ⟨b, hb⟩ := Option.isSome_iff_exists.mp hy
  have htotal := Value.le_total a b
  unfold Query.before byField
  simp only [hq, ha, hb, Option.getD_some]
  cases hab : a.le b <;> cases hba : b.le a <;> cases descending <;> simp_all

theorem Query.pairwise_found {q : Query} {field : String} {descending : Bool}
    (hq : q.order = some (field, descending)) (c : Collection) :
    (q.found c).Pairwise (byField field descending) := by
  refine pairwise_insertionSort_of (P := fun x => (x.2 field).isSome = true)
    (fun x y hx hy => (Query.before_cases hq hx hy).1)
    (fun x y hx hy => (Query.before_cases hq hx hy).2) byField_trans _ ?_
  intro x hx
  have hadmits := (List.mem_filter.mp hx).2
  simp only [Query.admits, hq, Bool.and_eq_true] at hadmits
  exact hadmits.2

theorem Query.pairwise_getDocuments {q : Query} {field : String} {descending : Bool}
    (hq : q.order = some (field, descending)) (c : Collection) :
    (q.getDocuments c).Pairwise (byField field descending) := by
  unfold Query.getDocuments
  split
  · exact (Query.pairwise_found hq c).sublist (List.take_sublist _ _)
  · exact Query.pairwise_found hq c

end Firestore

namespace Feed

open Firestore Machine

/-! ### Screens -/

variable {α Q : Type}

/-- Of two items in this order, the second does not come before the first. -/
def inOrder (descending : Bool) (stamp : α → String) (a b : α) : Prop :=
  if descending then stamp b ≤ stamp a else stamp a ≤ stamp b

/-- The screen fetches and sorts by one field, which its items hold as a string. -/
structure Screen.SortedBy (screen : Screen α Q) (field : String) (descending : Bool)
    (stamp : α → String) : Prop where
  before : ∀ a b, screen.before b a = false ↔ inOrder descending stamp a b
  order : ∀ call, screen.replaces call = true →
    (screen.query call).order = some (field, descending)
  decode : ∀ d m, screen.decode d = some m → d field = some (.string (stamp m))

section

variable {screen : Screen α Q} {field : String} {descending : Bool} {stamp : α → String}

theorem inOrder_total (a b : α) :
    inOrder descending stamp a b ∨ inOrder descending stamp b a := by
  cases descending with
  | false => exact le_total (stamp a) (stamp b)
  | true => exact le_total (stamp b) (stamp a)

theorem inOrder_trans (a b c : α) (hab : inOrder descending stamp a b)
    (hbc : inOrder descending stamp b c) : inOrder descending stamp a c := by
  cases descending with
  | false => exact le_trans hab hbc
  | true => exact le_trans hbc hab

theorem pairwise_replaced (h : screen.SortedBy field descending stamp) {call : Q}
    (hcall : screen.replaces call = true) (c : Collection) :
    (replaced screen.decode ((screen.query call).getDocuments c)).Pairwise
      (inOrder descending stamp) := by
  refine (Query.pairwise_getDocuments (h.order call hcall) c).filterMap _ ?_
  intro x y hxy a ha b hb
  unfold byField at hxy
  rw [h.decode x.2 a ha, h.decode y.2 b hb] at hxy
  cases descending with
  | false => simpa [Value.le, inOrder] using hxy
  | true => simpa [Value.le, inOrder] using hxy

theorem pairwise_merged (h : screen.SortedBy field descending stamp)
    {items : List α} (hitems : items.Pairwise (inOrder descending stamp))
    (changes : List DocumentChange) :
    (merged screen.decode screen.before changes items).Pairwise (inOrder descending stamp) := by
  unfold merged
  split
  · exact hitems
  · refine pairwise_insertionSort_of (P := fun _ => True) (fun a b _ _ => (h.before a b).mp) ?_
      inOrder_trans _ fun _ _ => trivial
    intro a b _ _ hnot
    refine (inOrder_total a b).resolve_left ?_
    intro hab
    exact hnot ((h.before a b).mpr hab)

/-- Whatever is delivered, a list in order stays in order. -/
theorem pairwise_deliver (h : screen.SortedBy field descending stamp) (items : List α)
    (d : Delivery Q) (hitems : items.Pairwise (inOrder descending stamp)) :
    (deliver screen items d).Pairwise (inOrder descending stamp) := by
  cases d with
  | fetched call answered =>
      cases answered with
      | none => exact hitems
      | some c =>
          show (if screen.replaces call = true then _ else items).Pairwise _
          by_cases hcall : screen.replaces call = true
          · rw [if_pos hcall]
            exact pairwise_replaced h hcall c
          · rw [if_neg hcall]
            exact hitems
  | updated changes =>
      cases changes with
      | none => exact hitems
      | some changes => exact pairwise_merged h hitems changes

/-- A list that starts empty is always in order. -/
theorem always_inOrder (h : screen.SortedBy field descending stamp) (ds : List (Delivery Q)) :
    Always (deliver screen) (fun items => items.Pairwise (inOrder descending stamp)) [] ds :=
  always_of_invariant (pairwise_deliver h) List.Pairwise.nil ds

end

/-! ### Screens with the collection behind them -/

/-- What the list is made of: deliveries so far, and perhaps an answer on its way. -/
structure Delivered (cfg : Config α) (s : State α) : Prop where
  items : ∃ ds, s.items = run (deliver cfg.screen) [] ds
  answered : ∀ docs, s.fetch = .answered docs → ∃ c, docs = cfg.query.getDocuments c

theorem Delivered.next {cfg : Config α} {s : State α} (h : Delivered cfg s)
    (d : Delivery Unit) : ∃ ds, deliver cfg.screen s.items d = run (deliver cfg.screen) [] ds := by
  obtain ⟨ds, hds⟩ := h.items
  refine ⟨ds ++ [d], ?_⟩
  rw [run_append, ← hds]
  rfl

theorem delivered_step (cfg : Config α) (s : State α) (a : Action) (h : Delivered cfg s) :
    Delivered cfg (step cfg s a) := by
  rcases step_cases cfg s a with ⟨-, -, heq⟩ | ⟨_, _, -, -, heq⟩ | ⟨fetch, -, hfetch, heq⟩ |
    ⟨docs, -, hdocs, heq⟩ | ⟨-, heq⟩ | ⟨changes, rest, -, -, heq⟩
  · rw [heq]
    exact h
  · rw [heq]
    exact ⟨h.items, h.answered⟩
  · rw [heq]
    refine ⟨h.items, ?_⟩
    intro docs hdocs
    rcases hfetch with ⟨-, rfl⟩ | ⟨-, rfl⟩
    · exact ⟨s.collection, (Fetch.answered.inj hdocs).symm⟩
    · cases hdocs
  · rw [heq]
    obtain ⟨c, rfl⟩ := h.answered docs hdocs
    exact ⟨h.next (.fetched () (some c)), nofun⟩
  · rw [heq]
    exact ⟨h.items, h.answered⟩
  · rw [heq]
    exact ⟨h.next (.updated (some changes)), h.answered⟩

/-- In every run the list is one that deliveries make. -/
theorem exists_deliveries (cfg : Config α) (c : Collection) (as : List Action) :
    ∃ ds, (run (step cfg) (start c) as).items = run (deliver cfg.screen) [] ds :=
  (run_invariant (delivered_step cfg) as (start c) ⟨⟨[], rfl⟩, nofun⟩).items

theorem always_items_inOrder {cfg : Config α} {field : String} {descending : Bool}
    {stamp : α → String} (h : cfg.screen.SortedBy field descending stamp) (c : Collection)
    (as : List Action) :
    Always (step cfg) (fun s => s.items.Pairwise (inOrder descending stamp)) (start c) as := by
  intro pre _
  obtain ⟨ds, hds⟩ := exists_deliveries cfg c pre
  rw [hds]
  exact (always_inOrder h ds).last

end Feed
