/-
Ordered sets of items with distinct keys.

Every item has a key and a rank.  A set holds at most one item of a key, in the order of
the ranks, and inserting an item takes the place of the one with its key wherever that
was.  Items with different keys never rank the same, so the members alone determine the
list, and so does what the set holds for each key.

The same set is told in two ways: by key, which is how it is looked up and changed, and by
position, which is how a change is handed to somebody who keeps only the list.
-/
import Mathlib.Data.List.InsertIdx
import Mathlib.Data.List.Sort
import Mathlib.Order.Defs.LinearOrder

namespace Keyed

/-- How items are told apart, and how they are ordered. -/
structure Order (D K R : Type*) [LinearOrder R] where
  key : D → K
  rank : D → R
  key_eq {a b : D} : rank a = rank b → key a = key b

variable {D E K R : Type*} [LinearOrder R]

namespace Order

variable (o : Order D K R)

def Before (a b : D) : Prop := o.rank a < o.rank b

instance irrefl_before : Std.Irrefl o.Before := ⟨fun a => lt_irrefl (o.rank a)⟩

instance asymm_before : Std.Asymm o.Before := ⟨fun _ _ h => lt_asymm h⟩

def Upto (a b : D) : Prop := o.rank a ≤ o.rank b

instance decidable_upto : DecidableRel o.Upto :=
  fun a b => inferInstanceAs (Decidable (o.rank a ≤ o.rank b))

instance total_upto : Std.Total o.Upto := ⟨fun a b => le_total (o.rank a) (o.rank b)⟩

instance trans_upto : IsTrans D o.Upto := ⟨fun _ _ _ => le_trans⟩

/-- The same items the other way round. -/
def dual : Order D K Rᵒᵈ where
  key := o.key
  rank d := OrderDual.toDual (o.rank d)
  key_eq h := o.key_eq (OrderDual.toDual_inj.mp h)

end Order

structure Set (o : Order D K R) where
  list : List D
  sorted : list.Pairwise o.Before
  nodup : (list.map o.key).Nodup

namespace Set

variable {o : Order D K R}

instance membership : Membership D (Set o) := ⟨fun s d => d ∈ s.list⟩

theorem mem_def {s : Set o} {d : D} : d ∈ s ↔ d ∈ s.list := Iff.rfl

theorem eq_of_list_eq {s t : Set o} (h : s.list = t.list) : s = t := by
  cases s
  cases t
  cases h
  rfl

/-- The members determine the set. -/
theorem ext {s t : Set o} (h : ∀ d, d ∈ s ↔ d ∈ t) : s = t :=
  eq_of_list_eq (s.sorted.eq_of_mem_iff t.sorted h)

theorem eq_of_key_eq (s : Set o) {a b : D} (ha : a ∈ s) (hb : b ∈ s) (h : o.key a = o.key b) :
    a = b := List.inj_on_of_nodup_map s.nodup ha hb h

def empty : Set o := ⟨[], List.Pairwise.nil, List.nodup_nil⟩

def size (s : Set o) : Nat := s.list.length

def isEmpty (s : Set o) : Bool := s.list.isEmpty

def first? (s : Set o) : Option D := s.list.head?

def last? (s : Set o) : Option D := s.list.getLast?

/-- Some of the items of a set. -/
def sub (s : Set o) (l : List D) (h : l.Sublist s.list) : Set o :=
  ⟨l, s.sorted.sublist h, s.nodup.sublist (h.map o.key)⟩

def take (s : Set o) (n : Nat) : Set o := s.sub (s.list.take n) (List.take_sublist n s.list)

def drop (s : Set o) (n : Nat) : Set o := s.sub (s.list.drop n) (List.drop_sublist n s.list)

def filter (s : Set o) (p : D → Bool) : Set o := s.sub (s.list.filter p) List.filter_sublist

theorem mem_filter {s : Set o} {p : D → Bool} {d : D} : d ∈ s.filter p ↔ d ∈ s ∧ p d = true :=
  List.mem_filter

theorem mem_of_first? {s : Set o} {d : D} (h : s.first? = some d) : d ∈ s :=
  List.mem_of_head? h

theorem mem_of_last? {s : Set o} {d : D} (h : s.last? = some d) : d ∈ s :=
  List.mem_of_getLast? h

/-- No item ranks above the last. -/
theorem le_last (s : Set o) {d l : D} (hl : s.last? = some l) (hd : d ∈ s) :
    o.rank d ≤ o.rank l := by
  obtain ⟨front, hfront⟩ : ∃ front, s.list = front ++ [l] := List.getLast?_eq_some_iff.mp hl
  have hsorted := s.sorted
  rw [hfront, List.pairwise_append] at hsorted
  rw [mem_def, hfront, List.mem_append, List.mem_singleton] at hd
  rcases hd with hd | rfl
  · exact le_of_lt (hsorted.2.2 d hd l (by simp))
  · exact le_refl _

/-- No item ranks below the first. -/
theorem first_le (s : Set o) {d f : D} (hf : s.first? = some f) (hd : d ∈ s) :
    o.rank f ≤ o.rank d := by
  obtain ⟨rest, hrest⟩ : ∃ rest, s.list = f :: rest := List.head?_eq_some_iff.mp hf
  have hsorted := s.sorted
  rw [hrest, List.pairwise_cons] at hsorted
  rw [mem_def, hrest, List.mem_cons] at hd
  rcases hd with rfl | hd
  · exact le_refl _
  · exact le_of_lt (hsorted.1 d hd)

theorem nodup_orderedInsert {s : Set o} {d : D} (h : ∀ e ∈ s, o.key e ≠ o.key d) :
    ((s.list.orderedInsert o.Upto d).map o.key).Nodup := by
  refine (List.Perm.nodup_iff ((List.perm_orderedInsert o.Upto d s.list).map o.key)).mpr ?_
  refine List.nodup_cons.mpr ⟨?_, s.nodup⟩
  intro hmem
  obtain ⟨e, he, heq⟩ := List.mem_map.mp hmem
  exact h e he heq

theorem sorted_orderedInsert {s : Set o} {d : D} (h : ∀ e ∈ s, o.key e ≠ o.key d) :
    (s.list.orderedInsert o.Upto d).Pairwise o.Before := by
  have hle : s.list.Pairwise o.Upto := s.sorted.imp fun hlt => le_of_lt hlt
  have hupto : (s.list.orderedInsert o.Upto d).Pairwise o.Upto := hle.orderedInsert d s.list
  have hkeys := List.pairwise_map.mp (nodup_orderedInsert h)
  refine hupto.imp₂ ?_ hkeys
  intro a b hab hne
  exact lt_of_le_of_ne hab fun heq => hne (o.key_eq heq)

/-! ### The first items -/

theorem mem_of_mem_take {s : Set o} {n : Nat} {d : D} (h : d ∈ s.take n) : d ∈ s :=
  List.mem_of_mem_take h

/-- What comes after the first items ranks above them. -/
theorem lt_of_notMem_take {s : Set o} {n : Nat} {d e : D} (hd : d ∈ s.take n) (he : e ∈ s)
    (hnot : e ∉ s.take n) : o.rank d < o.rank e := by
  have hsorted := s.sorted
  rw [← List.take_append_drop n s.list, List.pairwise_append] at hsorted
  have hdrop : e ∈ s.list.drop n := by
    rw [mem_def, ← List.take_append_drop n s.list, List.mem_append] at he
    exact he.resolve_left hnot
  exact hsorted.2.2 d hd e hdrop

/-- Items of a set below all its others are its first. -/
theorem eq_take {s t : Set o} (hsub : ∀ d ∈ t, d ∈ s)
    (hlt : ∀ d ∈ t, ∀ e ∈ s, e ∉ t → o.rank d < o.rank e) : t = s.take t.size := by
  classical
  have hlist : s.list = t.list ++ s.list.filter fun e => e ∉ t.list := by
    have hsorted : (t.list ++ s.list.filter fun e => e ∉ t.list).Pairwise o.Before := by
      rw [List.pairwise_append]
      refine ⟨t.sorted, s.sorted.filter _, ?_⟩
      intro d hd e he
      obtain ⟨hs, hnot⟩ := List.mem_filter.mp he
      exact hlt d hd e hs (by rw [mem_def]; simpa using hnot)
    refine s.sorted.eq_of_mem_iff hsorted fun d => ?_
    rw [List.mem_append, List.mem_filter, decide_eq_true_eq]
    refine ⟨fun hd => ?_, ?_⟩
    · by_cases ht : d ∈ t.list
      · exact Or.inl ht
      · exact Or.inr ⟨hd, ht⟩
    · rintro (hd | ⟨hd, -⟩)
      · exact hsub d hd
      · exact hd
  refine eq_of_list_eq ?_
  show t.list = s.list.take t.list.length
  rw [hlist, List.take_left]

/-- As many items as are taken rank no higher than `r`, so all that are taken do. -/
theorem le_of_mem_take {s : Set o} {n : Nat} {r : R} {d : D}
    (hn : n ≤ (s.list.filter fun e => o.rank e ≤ r).length) (hd : d ∈ s.take n) :
    o.rank d ≤ r := by
  have hsplit : s.list = (s.list.filter fun e => o.rank e ≤ r) ++
      s.list.filter fun e => r < o.rank e := by
    refine s.sorted.eq_of_mem_iff ?_ fun e => ?_
    · rw [List.pairwise_append]
      refine ⟨s.sorted.filter _, s.sorted.filter _, ?_⟩
      intro a ha b hb
      have hle : o.rank a ≤ r := by simpa using (List.mem_filter.mp ha).2
      have hlt : r < o.rank b := by simpa using (List.mem_filter.mp hb).2
      exact lt_of_le_of_lt hle hlt
    · rw [List.mem_append, List.mem_filter, List.mem_filter, decide_eq_true_eq, decide_eq_true_eq,
        ← and_or_left]
      exact ⟨fun he => ⟨he, le_or_gt _ _⟩, fun he => he.1⟩
  have hmem : d ∈ s.list.take n := hd
  rw [hsplit, List.take_append_of_le_length hn] at hmem
  simpa using (List.mem_filter.mp (List.mem_of_mem_take hmem)).2

/-- Every item of one set has one of its key in the other, ranked `r` or lower. -/
theorem size_le_of_upto {s t : Set o} {r : R}
    (h : ∀ d ∈ s, ∃ e ∈ t, o.key e = o.key d ∧ o.rank e ≤ r) :
    s.size ≤ (t.list.filter fun e => o.rank e ≤ r).length := by
  have hsubset : s.list.map o.key ⊆ (t.list.filter fun e => o.rank e ≤ r).map o.key := by
    intro k hk
    obtain ⟨d, hd, rfl⟩ := List.mem_map.mp hk
    obtain ⟨e, he, hkey, hle⟩ := h d hd
    exact List.mem_map.mpr ⟨e, List.mem_filter.mpr ⟨he, by simpa using hle⟩, hkey⟩
  have hlength := (List.subperm_of_subset s.nodup hsubset).length_le
  rw [List.length_map, List.length_map] at hlength
  exact hlength

/-! ### The order reversed -/

def dual (s : Set o) : Set o.dual where
  list := s.list.reverse
  sorted := by
    rw [List.pairwise_reverse]
    exact s.sorted.imp fun h => OrderDual.toDual_lt_toDual.mpr h
  nodup := by
    rw [List.map_reverse, List.nodup_reverse]
    exact s.nodup

theorem mem_dual {s : Set o} {d : D} : d ∈ s.dual ↔ d ∈ s := List.mem_reverse

theorem dual_inj {s t : Set o} (h : s.dual = t.dual) : s = t :=
  eq_of_list_eq (List.reverse_injective (congrArg list h))

theorem last?_dual (s : Set o) : s.dual.last? = s.first? := List.getLast?_reverse

theorem size_dual (s : Set o) : s.dual.size = s.size := List.length_reverse

/-- The first of the one are the last of the other. -/
theorem take_dual (s : Set o) (n : Nat) : s.dual.take n = (s.drop (s.size - n)).dual :=
  eq_of_list_eq List.take_reverse

/-! ### Items seen through a function -/

/-- A function on items that keeps their keys and ranks. -/
structure Proj (o : Order D K R) (p : Order E K R) where
  apply : D → E
  key (d : D) : p.key (apply d) = o.key d
  rank (d : D) : p.rank (apply d) = o.rank d

def map {p : Order E K R} (f : Proj o p) (s : Set o) : Set p where
  list := s.list.map f.apply
  sorted := by
    rw [List.pairwise_map]
    refine s.sorted.imp fun {a b} h => ?_
    show p.rank (f.apply a) < p.rank (f.apply b)
    rw [f.rank, f.rank]
    exact h
  nodup := by
    have hkey : p.key ∘ f.apply = o.key := funext f.key
    rw [List.map_map, hkey]
    exact s.nodup

theorem map_take {p : Order E K R} (f : Proj o p) (s : Set o) (n : Nat) :
    (s.take n).map f = (s.map f).take n := eq_of_list_eq List.map_take

/-! ### By key -/

variable [DecidableEq K]

def find? (s : Set o) (k : K) : Option D := s.list.find? fun d => o.key d = k

def contains (s : Set o) (k : K) : Bool := (s.find? k).isSome

def erase (s : Set o) (k : K) : Set o := s.filter fun d => o.key d ≠ k

theorem mem_erase {s : Set o} {k : K} {d : D} : d ∈ s.erase k ↔ d ∈ s ∧ o.key d ≠ k := by
  rw [erase, mem_filter, decide_eq_true_eq]

def insert (s : Set o) (d : D) : Set o where
  list := (s.erase (o.key d)).list.orderedInsert o.Upto d
  sorted := sorted_orderedInsert fun _ he => (mem_erase.mp he).2
  nodup := nodup_orderedInsert fun _ he => (mem_erase.mp he).2

theorem mem_insert {s : Set o} {d e : D} :
    e ∈ s.insert d ↔ e = d ∨ e ∈ s ∧ o.key e ≠ o.key d := by
  show e ∈ List.orderedInsert o.Upto d _ ↔ _
  rw [List.mem_orderedInsert, ← mem_def, mem_erase]

theorem find?_eq_some_iff {s : Set o} {k : K} {d : D} :
    s.find? k = some d ↔ d ∈ s ∧ o.key d = k := by
  refine ⟨?_, ?_⟩
  · intro h
    exact ⟨List.mem_of_find?_eq_some h, by simpa using List.find?_some h⟩
  · rintro ⟨hmem, hkey⟩
    have hsome : (s.find? k).isSome = true := by
      rw [find?, List.find?_isSome]
      exact ⟨d, hmem, by simpa using hkey⟩
    obtain ⟨e, he⟩ := Option.isSome_iff_exists.mp hsome
    have hkey' : o.key e = k := by simpa using List.find?_some he
    rw [he, s.eq_of_key_eq (List.mem_of_find?_eq_some he) hmem (hkey'.trans hkey.symm)]

theorem find?_key {s : Set o} {d : D} (h : d ∈ s) : s.find? (o.key d) = some d :=
  find?_eq_some_iff.mpr ⟨h, rfl⟩

theorem key_of_find? {s : Set o} {k : K} {d : D} (h : s.find? k = some d) : o.key d = k :=
  (find?_eq_some_iff.mp h).2

theorem mem_of_find? {s : Set o} {k : K} {d : D} (h : s.find? k = some d) : d ∈ s :=
  (find?_eq_some_iff.mp h).1

theorem contains_iff {s : Set o} {k : K} : s.contains k = true ↔ ∃ d ∈ s, o.key d = k := by
  rw [contains, Option.isSome_iff_exists]
  simp only [find?_eq_some_iff]

/-- A set is determined by what it holds for each key. -/
theorem ext_find? {s t : Set o} (h : ∀ k, s.find? k = t.find? k) : s = t := by
  refine ext fun d => ?_
  have hiff : ∀ u : Set o, d ∈ u ↔ u.find? (o.key d) = some d := by
    intro u
    rw [find?_eq_some_iff]
    exact ⟨fun hd => ⟨hd, rfl⟩, fun hd => hd.1⟩
  rw [hiff s, hiff t, h]

@[simp] theorem find?_empty (k : K) : (empty : Set o).find? k = none := rfl

theorem find?_erase (s : Set o) (k k' : K) :
    (s.erase k).find? k' = if k' = k then none else s.find? k' := by
  refine Option.ext fun d => ?_
  rw [find?_eq_some_iff, mem_erase]
  by_cases h : k' = k
  · rw [if_pos h]
    refine iff_of_false ?_ (by simp)
    rintro ⟨⟨-, hne⟩, rfl⟩
    exact hne h
  · rw [if_neg h, find?_eq_some_iff]
    refine ⟨fun ⟨⟨hd, _⟩, hk⟩ => ⟨hd, hk⟩, fun ⟨hd, hk⟩ => ⟨⟨hd, ?_⟩, hk⟩⟩
    rw [hk]
    exact h

theorem find?_insert (s : Set o) (d : D) (k : K) :
    (s.insert d).find? k = if k = o.key d then some d else s.find? k := by
  refine Option.ext fun e => ?_
  rw [find?_eq_some_iff, mem_insert]
  by_cases h : k = o.key d
  · rw [if_pos h, Option.some_inj]
    refine ⟨?_, ?_⟩
    · rintro ⟨rfl | ⟨-, hne⟩, hk⟩
      · rfl
      · exact absurd (hk.trans h) hne
    · rintro rfl
      exact ⟨Or.inl rfl, h.symm⟩
  · rw [if_neg h, find?_eq_some_iff]
    refine ⟨?_, ?_⟩
    · rintro ⟨rfl | ⟨he, -⟩, hk⟩
      · exact absurd hk.symm h
      · exact ⟨he, hk⟩
    · rintro ⟨he, hk⟩
      refine ⟨Or.inr ⟨he, ?_⟩, hk⟩
      rw [hk]
      exact h

/-- Many items inserted, at most one of a key. -/
theorem find?_foldl_insert (k : K) : ∀ (items : List D) (s : Set o), (items.map o.key).Nodup →
    (items.foldl insert s).find? k = (items.find? fun d => o.key d = k).or (s.find? k) := by
  intro items
  induction items with
  | nil => intro s _; rfl
  | cons d rest ih =>
      intro s hnodup
      obtain ⟨hnot, hrest⟩ := List.nodup_cons.mp hnodup
      rw [List.foldl_cons, ih _ hrest, find?_insert]
      by_cases hk : o.key d = k
      · have hnone : (rest.find? fun e => o.key e = k) = none := by
          rw [List.find?_eq_none]
          intro e he
          have hne : o.key e ≠ k := fun heq => hnot (List.mem_map.mpr ⟨e, he, heq.trans hk.symm⟩)
          simpa using hne
        rw [hnone, List.find?_cons_of_pos (by simpa using hk), if_pos hk.symm]
        rfl
      · rw [if_neg (Ne.symm hk), List.find?_cons_of_neg (by simpa using hk)]

/-- Which items are kept of a set with one more, if that is kept. -/
theorem filter_insert_of_pos (s : Set o) {d : D} {p : D → Bool} (h : p d = true) :
    (s.insert d).filter p = (s.filter p).insert d := by
  refine ext fun e => ?_
  rw [mem_filter, mem_insert, mem_insert, mem_filter]
  refine ⟨?_, ?_⟩
  · rintro ⟨rfl | ⟨he, hne⟩, hp⟩
    · exact Or.inl rfl
    · exact Or.inr ⟨⟨he, hp⟩, hne⟩
  · rintro (rfl | ⟨⟨he, hp⟩, hne⟩)
    · exact ⟨Or.inl rfl, h⟩
    · exact ⟨Or.inr ⟨he, hne⟩, hp⟩

/-- And if none with its key is. -/
theorem filter_insert_of_neg (s : Set o) {d : D} {p : D → Bool}
    (h : ∀ e, o.key e = o.key d → p e = false) : (s.insert d).filter p = s.filter p := by
  refine ext fun e => ?_
  rw [mem_filter, mem_insert, mem_filter]
  refine ⟨?_, ?_⟩
  · rintro ⟨rfl | ⟨he, -⟩, hp⟩
    · rw [h e rfl] at hp
      cases hp
    · exact ⟨he, hp⟩
  · rintro ⟨he, hp⟩
    refine ⟨Or.inr ⟨he, ?_⟩, hp⟩
    intro hkey
    rw [h e hkey] at hp
    cases hp

theorem filter_erase (s : Set o) (k : K) (p : D → Bool) :
    (s.erase k).filter p = (s.filter p).erase k := by
  refine ext fun e => ?_
  rw [mem_filter, mem_erase, mem_erase, mem_filter]
  exact and_right_comm

/-- An item that ranks after all others is the last one. -/
theorem list_insert_last {s : Set o} {d : D} (h : ∀ e ∈ s, o.rank e < o.rank d)
    (hkey : ∀ e ∈ s, o.key e ≠ o.key d) : (s.insert d).list = s.list ++ [d] := by
  have hsorted : (s.list ++ [d]).Pairwise o.Before := by
    rw [List.pairwise_append]
    refine ⟨s.sorted, List.pairwise_singleton _ _, ?_⟩
    intro e he f hf
    rw [List.mem_singleton.mp hf]
    exact h e he
  have hnodup : ((s.list ++ [d]).map o.key).Nodup := by
    rw [List.map_append, List.nodup_append]
    refine ⟨s.nodup, List.nodup_singleton _, ?_⟩
    intro a ha b hb
    obtain ⟨e, he, rfl⟩ := List.mem_map.mp ha
    rw [List.mem_singleton.mp hb]
    exact hkey e he
  have heq : s.insert d = ⟨s.list ++ [d], hsorted, hnodup⟩ := by
    refine ext fun e => ?_
    rw [mem_insert]
    show _ ↔ e ∈ s.list ++ [d]
    rw [List.mem_append, List.mem_singleton]
    refine ⟨?_, ?_⟩
    · rintro (rfl | ⟨he, -⟩)
      · exact Or.inr rfl
      · exact Or.inl he
    · rintro (he | rfl)
      · exact Or.inr ⟨he, hkey e he⟩
      · exact Or.inl rfl
  rw [heq]

theorem find?_filter (s : Set o) (p : D → Bool) (k : K) :
    (s.filter p).find? k = (s.find? k).filter p := by
  refine Option.ext fun d => ?_
  rw [find?_eq_some_iff, mem_filter, Option.filter_eq_some_iff, find?_eq_some_iff]
  exact ⟨fun h => ⟨⟨h.1.1, h.2⟩, h.1.2⟩, fun h => ⟨⟨h.1.1, h.2⟩, h.1.2⟩⟩

theorem find?_map {p : Order E K R} (f : Proj o p) (s : Set o) (k : K) :
    (s.map f).find? k = (s.find? k).map f.apply := by
  show (s.list.map f.apply).find? _ = (s.list.find? _).map f.apply
  rw [List.find?_map]
  simp only [Function.comp_def, f.key]

theorem map_erase {p : Order E K R} (f : Proj o p) (s : Set o) (k : K) :
    (s.erase k).map f = (s.map f).erase k := by
  refine ext_find? fun k' => ?_
  rw [find?_map, find?_erase, find?_erase, find?_map]
  by_cases h : k' = k
  · rw [if_pos h, if_pos h, Option.map_none]
  · rw [if_neg h, if_neg h]

theorem map_insert {p : Order E K R} (f : Proj o p) (s : Set o) (d : D) :
    (s.insert d).map f = (s.map f).insert (f.apply d) := by
  refine ext_find? fun k => ?_
  rw [find?_map, find?_insert, find?_insert, find?_map, f.key]
  by_cases h : k = o.key d
  · rw [if_pos h, if_pos h, Option.map_some]
  · rw [if_neg h, if_neg h]

/-- The first item goes. -/
theorem erase_first {s : Set o} {d : D} (h : s.first? = some d) : s.erase (o.key d) = s.drop 1 := by
  refine eq_of_list_eq ?_
  show s.list.filter _ = s.list.drop 1
  obtain ⟨rest, hrest⟩ : ∃ rest, s.list = d :: rest := List.head?_eq_some_iff.mp h
  have hnodup := s.nodup
  rw [hrest, List.map_cons, List.nodup_cons] at hnodup
  rw [hrest, List.filter_cons_of_neg (by simp), List.drop_succ_cons, List.drop_zero,
    List.filter_eq_self]
  intro e he
  have hne : o.key e ≠ o.key d := fun heq => hnodup.1 (heq ▸ List.mem_map_of_mem he)
  simpa using hne

/-- The last item goes. -/
theorem erase_last {s : Set o} {d : D} (h : s.last? = some d) :
    s.erase (o.key d) = s.take (s.size - 1) := by
  refine eq_of_list_eq ?_
  show s.list.filter _ = s.list.take (s.list.length - 1)
  obtain ⟨front, hfront⟩ : ∃ front, s.list = front ++ [d] := List.getLast?_eq_some_iff.mp h
  have hnodup := s.nodup
  rw [hfront, List.map_append, List.nodup_append] at hnodup
  rw [hfront, List.filter_append, List.length_append, List.length_singleton,
    Nat.add_sub_cancel, List.take_left, List.filter_cons_of_neg (by simp), List.filter_nil,
    List.append_nil, List.filter_eq_self]
  intro e he
  have hne : o.key e ≠ o.key d := hnodup.2.2 _ (List.mem_map_of_mem he) _ (by simp)
  simpa using hne

/-! ### By position -/

/-- Where the item of a key is. -/
def indexOf? (s : Set o) (k : K) : Option Nat := s.list.findIdx? fun d => o.key d = k

theorem isSome_indexOf? (s : Set o) (k : K) : (s.indexOf? k).isSome = s.contains k := by
  rw [indexOf?, List.findIdx?_isSome, contains, find?, List.isSome_find?]

theorem indexOf?_map {p : Order E K R} (f : Proj o p) (s : Set o) (k : K) :
    (s.map f).indexOf? k = s.indexOf? k := by
  show (s.list.map f.apply).findIdx? _ = s.list.findIdx? _
  rw [List.findIdx?_map]
  simp only [Function.comp_def, f.key]

/-- Erasing a key is erasing at its position. -/
theorem list_erase {s : Set o} {k : K} {i : Nat} (h : s.indexOf? k = some i) :
    (s.erase k).list = s.list.eraseIdx i := by
  obtain ⟨hlt, hkey, hbefore⟩ := List.findIdx?_eq_some_iff_getElem.mp h
  have hnodup := List.pairwise_map.mp s.nodup
  have hsplit : s.list = s.list.take i ++ s.list[i] :: s.list.drop (i + 1) := by
    rw [← List.drop_eq_getElem_cons hlt, List.take_append_drop]
  show s.list.filter _ = _
  rw [List.eraseIdx_eq_take_drop_succ]
  nth_rewrite 1 [hsplit]
  rw [hsplit, List.pairwise_append, List.pairwise_cons] at hnodup
  have hk : o.key s.list[i] = k := by simpa using hkey
  rw [List.filter_append, List.filter_cons_of_neg (by simpa using hk)]
  congr 1
  · rw [List.filter_eq_self]
    intro e he
    have hne : o.key e ≠ o.key s.list[i] := hnodup.2.2 e he _ List.mem_cons_self
    rw [hk] at hne
    simpa using hne
  · rw [List.filter_eq_self]
    intro e he
    have hne : o.key s.list[i] ≠ o.key e := hnodup.2.1.1 e he
    rw [hk] at hne
    simpa using hne.symm

/-- Inserting an item is inserting it at the position it then has. -/
theorem list_insert {s : Set o} {d : D} (hnew : s.find? (o.key d) = none) :
    ∃ i, (s.insert d).indexOf? (o.key d) = some i ∧ i ≤ s.size ∧
      (s.insert d).list = s.list.insertIdx i d := by
  obtain ⟨i, h⟩ : ∃ i, (s.insert d).indexOf? (o.key d) = some i := by
    rw [← Option.isSome_iff_exists, isSome_indexOf?, contains, find?_insert, if_pos rfl]
    rfl
  have hback : (s.insert d).erase (o.key d) = s := by
    refine ext_find? fun k => ?_
    rw [find?_erase]
    by_cases hk : k = o.key d
    · rw [if_pos hk, hk, hnew]
    · rw [if_neg hk, find?_insert, if_neg hk]
  have hlist := list_erase h
  rw [hback] at hlist
  obtain ⟨hlt, hkey, -⟩ := List.findIdx?_eq_some_iff_getElem.mp h
  have hd : (s.insert d).list[i] = d := by
    refine (s.insert d).eq_of_key_eq (List.getElem_mem hlt) (mem_insert.mpr (Or.inl rfl)) ?_
    simpa using hkey
  have hlen : s.list.length + 1 = (s.insert d).list.length := by
    rw [hlist, List.length_eraseIdx_of_lt hlt]
    omega
  refine ⟨i, h, ?_, ?_⟩
  · show i ≤ s.list.length
    omega
  · have hput := List.insertIdx_eraseIdx_getElem hlt
    rw [hd, ← hlist] at hput
    exact hput.symm

/-! ### The first items after changes -/

/--
The first `n` of `m` are known, and then items with keys in `C` change.  If they were `n`,
and none of them is gone or ranks above the last, then the first of `m` are among what has
become of them and what is new.
-/
theorem take_changed {m m' v w : Set o} {n : Nat} (C : K → Prop) (hv : v = m.take n)
    (hsame : ∀ k, ¬ C k → w.find? k = v.find? k ∧ m'.find? k = m.find? k)
    (hnew : ∀ k, C k → w.find? k = m'.find? k)
    (hfull : v.size = n → ∀ l, v.last? = some l → ∀ d ∈ v, C (o.key d) →
      ∃ e ∈ w, o.key e = o.key d ∧ o.rank e ≤ o.rank l) :
    w.take n = m'.take n := by
  by_cases hall : m.size ≤ n
  · -- Nothing was left out before.
    have hvm : v = m := by
      rw [hv]
      exact eq_of_list_eq (List.take_of_length_le hall)
    have hwm : w = m' := by
      refine ext_find? fun k => ?_
      by_cases hk : C k
      · exact hnew k hk
      · rw [(hsame k hk).1, (hsame k hk).2, hvm]
    rw [hwm]
  have hsize : v.size = n := by
    rw [hv]
    show (m.list.take n).length = n
    rw [List.length_take]
    exact min_eq_left (le_of_lt (not_le.mp hall))
  cases hlast : v.last? with
  | none =>
      have hzero : n = 0 := by
        rw [← hsize]
        show v.list.length = 0
        rw [List.getLast?_eq_none_iff.mp hlast]
        rfl
      rw [hzero]
      exact eq_of_list_eq rfl
  | some l =>
      have hl : l ∈ m.take n := hv ▸ mem_of_last? hlast
      have hmem : ∀ d ∈ v, d ∈ m := fun d hd => mem_of_mem_take (n := n) (hv ▸ hd)
      -- What the first items have become ranks no higher than the last of them did.
      have hupto : ∀ d ∈ v, ∃ e ∈ w, o.key e = o.key d ∧ o.rank e ≤ o.rank l := by
        intro d hd
        by_cases hk : C (o.key d)
        · exact hfull hsize l hlast d hd hk
        · refine ⟨d, mem_of_find? ((hsame _ hk).1.trans (find?_key hd)), rfl, ?_⟩
          exact le_last v hlast hd
      have hcount := size_le_of_upto hupto
      rw [hsize] at hcount
      have hwsize : (w.take n).size = n := by
        show (w.list.take n).length = n
        rw [List.length_take]
        exact min_eq_left (hcount.trans (List.length_filter_le _ _))
      have htake : w.take n = m'.take (w.take n).size := by
        refine eq_take ?_ ?_
        · intro d hd
          have hfind : w.find? (o.key d) = some d := find?_key (mem_of_mem_take hd)
          by_cases hk : C (o.key d)
          · rw [hnew _ hk] at hfind
            exact mem_of_find? hfind
          · rw [(hsame _ hk).1] at hfind
            refine mem_of_find? ((hsame _ hk).2.trans (find?_key (hmem d (mem_of_find? hfind))))
        · intro d hd e he hnot
          have hfind : m'.find? (o.key e) = some e := find?_key he
          by_cases hk : C (o.key e)
          · rw [← hnew _ hk] at hfind
            exact lt_of_notMem_take hd (mem_of_find? hfind) hnot
          · by_cases hev : e ∈ v
            · have hw : e ∈ w := mem_of_find? ((hsame _ hk).1.trans (find?_key hev))
              exact lt_of_notMem_take hd hw hnot
            · -- It was left out before, and still ranks above the last.
              rw [(hsame _ hk).2] at hfind
              have hlt : o.rank l < o.rank e :=
                lt_of_notMem_take hl (mem_of_find? hfind) (fun hmem => hev (hv ▸ hmem))
              exact lt_of_le_of_lt (le_of_mem_take hcount hd) hlt
      rw [hwsize] at htake
      exact htake

theorem find?_dual (s : Set o) (k : K) : s.dual.find? k = s.find? k := by
  refine Option.ext fun d => ?_
  rw [find?_eq_some_iff, find?_eq_some_iff, mem_dual]
  exact Iff.rfl

/-- The same for the last items. -/
theorem drop_changed {m m' v w : Set o} {n : Nat} (C : K → Prop) (hv : v = m.drop (m.size - n))
    (hsame : ∀ k, ¬ C k → w.find? k = v.find? k ∧ m'.find? k = m.find? k)
    (hnew : ∀ k, C k → w.find? k = m'.find? k)
    (hfull : v.size = n → ∀ l, v.first? = some l → ∀ d ∈ v, C (o.key d) →
      ∃ e ∈ w, o.key e = o.key d ∧ o.rank l ≤ o.rank e) :
    w.drop (w.size - n) = m'.drop (m'.size - n) := by
  refine dual_inj ?_
  rw [← take_dual, ← take_dual]
  refine take_changed (m := m.dual) (v := v.dual) C ?_ ?_ ?_ ?_
  · rw [take_dual, hv]
  · intro k hk
    rw [find?_dual, find?_dual, find?_dual, find?_dual]
    exact hsame k hk
  · intro k hk
    rw [find?_dual, find?_dual]
    exact hnew k hk
  · intro hsize l hl d hd hk
    rw [size_dual] at hsize
    rw [last?_dual] at hl
    obtain ⟨e, he, hkey, hle⟩ := hfull hsize l hl d (mem_dual.mp hd) hk
    exact ⟨e, mem_dual.mpr he, hkey, OrderDual.toDual_le_toDual.mpr hle⟩

end Set

end Keyed
