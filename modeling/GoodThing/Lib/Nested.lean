/-
Trees with named branches.

A tree is a leaf, or a node with its branches in the order of their names.  `get` follows a
path down, `set` puts a tree at the end of one and makes whatever is on the way a node.  What
`get` finds at every path determines a sorted tree, so writes can be compared by what they
leave to be found.

Writes at paths none of which leads through another do not disturb each other: a list of them
comes to the last one at each path, in whatever order they are made.
-/
import Mathlib.Data.List.Infix
import Mathlib.Data.List.Sort
import Mathlib.Data.Set.Defs
import Mathlib.Order.Defs.LinearOrder

namespace Nested

variable {K V : Type*}

/-! ### Named entries in order -/

/-- The names come in order, each once. -/
def Ordered [LinearOrder K] (es : List (K × V)) : Prop := es.Pairwise fun a b => a.1 < b.1

def find [DecidableEq K] (es : List (K × V)) (k : K) : Option V :=
  (es.find? fun e => e.1 = k).map Prod.snd

section Find

variable [DecidableEq K]

@[simp] theorem find_nil (k : K) : find ([] : List (K × V)) k = none := rfl

theorem find_cons (e : K × V) (es : List (K × V)) (k : K) :
    find (e :: es) k = if e.1 = k then some e.2 else find es k := by
  by_cases h : e.1 = k <;> simp [find, h]

theorem mem_of_find {es : List (K × V)} {k : K} {v : V} (h : find es k = some v) :
    (k, v) ∈ es := by
  obtain ⟨e, he, rfl⟩ := Option.map_eq_some_iff.mp h
  have hk : e.1 = k := by simpa using List.find?_some he
  rw [← hk]
  exact List.mem_of_find?_eq_some he

theorem find_eq_none {es : List (K × V)} {k : K} : find es k = none ↔ k ∉ es.map Prod.fst := by
  induction es with
  | nil => simp
  | cons e es ih =>
      rw [find_cons, List.map_cons, List.mem_cons, not_or, ← ih]
      by_cases h : e.1 = k
      · simp [h]
      · simp [h, Ne.symm h]

theorem find_filter (es : List (K × V)) (p : K → Bool) (k : K) :
    find (es.filter fun e => p e.1) k = if p k then find es k else none := by
  induction es with
  | nil => simp
  | cons e es ih =>
      rw [List.filter_cons, find_cons]
      by_cases hk : e.1 = k
      · by_cases hp : p k = true
        · simp [hk, hp, find_cons]
        · simp [hk, hp, ih]
      · by_cases hp : p e.1 = true
        · simp [hk, hp, find_cons, ih]
        · simp [hk, hp, ih]

theorem find_map {W : Type*} (es : List (K × V)) (f : V → W) (k : K) :
    find (es.map fun e => (e.1, f e.2)) k = (find es k).map f := by
  induction es with
  | nil => rfl
  | cons e es ih =>
      rw [List.map_cons, find_cons, find_cons, ih]
      split <;> rfl

/-- Entries that give each of some names its own value. -/
theorem find_filterMap (g : K → Option V) (ks : List K) (k : K) :
    find (ks.filterMap fun j => (g j).map fun v => (j, v)) k = if k ∈ ks then g k else none := by
  induction ks with
  | nil => rfl
  | cons j ks ih =>
      rw [List.filterMap_cons]
      cases hj : g j with
      | none =>
          simp only [Option.map_none, ih, List.mem_cons]
          by_cases hk : k = j
          · subst hk
            simp [hj]
          · simp [hk]
      | some v =>
          simp only [Option.map_some, find_cons, ih, List.mem_cons]
          by_cases hk : j = k
          · subst hk
            simp [hj]
          · simp [hk, Ne.symm hk]

end Find

section Order

variable [LinearOrder K]

theorem ordered_cons {e : K × V} {es : List (K × V)} :
    Ordered (e :: es) ↔ (∀ f ∈ es, e.1 < f.1) ∧ Ordered es := List.pairwise_cons

theorem Ordered.filter {es : List (K × V)} (h : Ordered es) (p : K × V → Bool) :
    Ordered (es.filter p) := List.Pairwise.filter p h

/-- A name below all others is not there. -/
theorem find_eq_none_of_lt {es : List (K × V)} {k : K} (h : ∀ e ∈ es, k < e.1) :
    find es k = none := by
  rw [find_eq_none]
  intro hmem
  obtain ⟨e, he, rfl⟩ := List.mem_map.mp hmem
  exact lt_irrefl _ (h e he)

theorem find_of_mem {es : List (K × V)} (ho : Ordered es) {e : K × V} (he : e ∈ es) :
    find es e.1 = some e.2 := by
  induction es with
  | nil => cases he
  | cons f es ih =>
      obtain ⟨hlt, ho⟩ := ordered_cons.mp ho
      rw [find_cons]
      rcases List.mem_cons.mp he with rfl | he
      · rw [if_pos rfl]
      · rw [if_neg (ne_of_lt (hlt e he)), ih ho he]

/-- What is found under each name determines the entries. -/
theorem ext_find {es fs : List (K × V)} (he : Ordered es) (hf : Ordered fs)
    (h : ∀ k, find es k = find fs k) : es = fs := by
  refine List.Pairwise.eq_of_mem_iff (r := fun a b : K × V => a.1 < b.1) he hf ?_
  rintro ⟨k, v⟩
  constructor
  · intro hmem
    refine mem_of_find ?_
    rw [← h k]
    exact find_of_mem he hmem
  · intro hmem
    refine mem_of_find ?_
    rw [h k]
    exact find_of_mem hf hmem

/-- The entries with one added, or replaced. -/
def upsert (k : K) (v : V) : List (K × V) → List (K × V)
  | [] => [(k, v)]
  | e :: es =>
      if k < e.1 then (k, v) :: e :: es
      else if e.1 < k then e :: upsert k v es
      else (k, v) :: es

theorem find_upsert (k : K) (v : V) (es : List (K × V)) (j : K) :
    find (upsert k v es) j = if k = j then some v else find es j := by
  induction es with
  | nil => rw [upsert, find_cons]
  | cons e es ih =>
      rw [upsert]
      split
      · rw [find_cons]
      · split
        · next hlt =>
          rw [find_cons, ih, find_cons]
          by_cases he : e.1 = j
          · have hne : k ≠ j := by
              rw [← he]
              exact (ne_of_lt hlt).symm
            rw [if_pos he, if_neg hne, if_pos he]
          · rw [if_neg he, if_neg he]
        · next hnlt hngt =>
          have hk : k = e.1 := le_antisymm (not_lt.mp hngt) (not_lt.mp hnlt)
          rw [find_cons, find_cons, ← hk]
          split <;> rfl

theorem mem_upsert {k : K} {v : V} {es : List (K × V)} {e : K × V} (h : e ∈ upsert k v es) :
    e = (k, v) ∨ e ∈ es := by
  induction es with
  | nil => exact .inl (List.mem_singleton.mp h)
  | cons f es ih =>
      rw [upsert] at h
      split at h
      · exact List.mem_cons.mp h
      · split at h
        · rcases List.mem_cons.mp h with rfl | h
          · exact .inr List.mem_cons_self
          · exact (ih h).imp_right (List.mem_cons_of_mem f)
        · exact (List.mem_cons.mp h).imp_right (List.mem_cons_of_mem f)

theorem Ordered.upsert {es : List (K × V)} (h : Ordered es) (k : K) (v : V) :
    Ordered (upsert k v es) := by
  induction es with
  | nil => exact List.pairwise_singleton _ _
  | cons e es ih =>
      obtain ⟨hlt, ho⟩ := ordered_cons.mp h
      rw [Nested.upsert]
      split
      · next hk =>
        refine ordered_cons.mpr ⟨?_, h⟩
        intro f hf
        rcases List.mem_cons.mp hf with rfl | hf
        · exact hk
        · exact lt_trans hk (hlt f hf)
      · split
        · next hk =>
          refine ordered_cons.mpr ⟨?_, ih ho⟩
          intro f hf
          rcases mem_upsert hf with rfl | hf
          · exact hk
          · exact hlt f hf
        · next hnlt hngt =>
          have hk : k = e.1 := le_antisymm (not_lt.mp hngt) (not_lt.mp hnlt)
          refine ordered_cons.mpr ⟨?_, ho⟩
          intro f hf
          rw [hk]
          exact hlt f hf

/-! ### Two lists of entries as one -/

/-- Both lists of entries in order; an entry of the second replaces its namesake. -/
def merge : List (K × V) → List (K × V) → List (K × V)
  | [], us => us
  | e :: es, [] => e :: es
  | e :: es, u :: us =>
      if e.1 < u.1 then e :: merge es (u :: us)
      else if u.1 < e.1 then u :: merge (e :: es) us
      else u :: merge es us
  termination_by es us => es.length + us.length

@[simp] theorem merge_nil (es : List (K × V)) : merge es [] = es := by
  cases es <;> simp [merge]

theorem mem_merge {es us : List (K × V)} {e : K × V} (h : e ∈ merge es us) : e ∈ es ∨ e ∈ us := by
  induction es, us using merge.induct with
  | case1 us => exact .inr (by simpa [merge] using h)
  | case2 f es => exact .inl (by simpa using h)
  | case3 f es u us hlt ih =>
      rw [merge, if_pos hlt] at h
      rcases List.mem_cons.mp h with rfl | h
      · exact .inl List.mem_cons_self
      · exact (ih h).imp_left (List.mem_cons_of_mem f)
  | case4 f es u us hnlt hgt ih =>
      rw [merge, if_neg hnlt, if_pos hgt] at h
      rcases List.mem_cons.mp h with rfl | h
      · exact .inr List.mem_cons_self
      · exact (ih h).imp_right (List.mem_cons_of_mem u)
  | case5 f es u us hnlt hngt ih =>
      rw [merge, if_neg hnlt, if_neg hngt] at h
      rcases List.mem_cons.mp h with rfl | h
      · exact .inr List.mem_cons_self
      · exact (ih h).imp (List.mem_cons_of_mem f) (List.mem_cons_of_mem u)

theorem Ordered.merge {es us : List (K × V)} (he : Ordered es) (hu : Ordered us) :
    Ordered (merge es us) := by
  induction es, us using merge.induct with
  | case1 us => simpa [Nested.merge] using hu
  | case2 f es => simpa using he
  | case3 f es u us hlt ih =>
      obtain ⟨hf, he⟩ := ordered_cons.mp he
      rw [Nested.merge, if_pos hlt]
      refine ordered_cons.mpr ⟨?_, ih he hu⟩
      intro g hg
      rcases mem_merge hg with hg | hg
      · exact hf g hg
      · rcases List.mem_cons.mp hg with rfl | hg
        · exact hlt
        · exact lt_trans hlt ((ordered_cons.mp hu).1 g hg)
  | case4 f es u us hnlt hgt ih =>
      obtain ⟨hfirst, hu⟩ := ordered_cons.mp hu
      rw [Nested.merge, if_neg hnlt, if_pos hgt]
      refine ordered_cons.mpr ⟨?_, ih he hu⟩
      intro g hg
      rcases mem_merge hg with hg | hg
      · rcases List.mem_cons.mp hg with rfl | hg
        · exact hgt
        · exact lt_trans hgt ((ordered_cons.mp he).1 g hg)
      · exact hfirst g hg
  | case5 f es u us hnlt hngt ih =>
      have heq : f.1 = u.1 := le_antisymm (not_lt.mp hngt) (not_lt.mp hnlt)
      obtain ⟨hf, he⟩ := ordered_cons.mp he
      obtain ⟨hfirst, hu⟩ := ordered_cons.mp hu
      rw [Nested.merge, if_neg hnlt, if_neg hngt]
      refine ordered_cons.mpr ⟨?_, ih he hu⟩
      intro g hg
      rcases mem_merge hg with hg | hg
      · rw [← heq]
        exact hf g hg
      · exact hfirst g hg

theorem find_merge {es us : List (K × V)} (he : Ordered es) (hu : Ordered us) (k : K) :
    find (merge es us) k = (find us k).or (find es k) := by
  induction es, us using merge.induct with
  | case1 us => simp [Nested.merge]
  | case2 f es => simp
  | case3 f es u us hlt ih =>
      rw [Nested.merge, if_pos hlt, find_cons, ih (ordered_cons.mp he).2 hu, find_cons f es]
      by_cases hk : f.1 = k
      · have hnone : find (u :: us) k = none := by
          refine find_eq_none_of_lt fun g hg => ?_
          rw [← hk]
          rcases List.mem_cons.mp hg with rfl | hg
          · exact hlt
          · exact lt_trans hlt ((ordered_cons.mp hu).1 g hg)
        simp [hk, hnone]
      · simp [hk]
  | case4 f es u us hnlt hgt ih =>
      rw [Nested.merge, if_neg hnlt, if_pos hgt, find_cons, ih he (ordered_cons.mp hu).2,
        find_cons u us]
      split <;> rfl
  | case5 f es u us hnlt hngt ih =>
      have heq : f.1 = u.1 := le_antisymm (not_lt.mp hngt) (not_lt.mp hnlt)
      rw [Nested.merge, if_neg hnlt, if_neg hngt, find_cons,
        ih (ordered_cons.mp he).2 (ordered_cons.mp hu).2, find_cons u us, find_cons f es, heq]
      split <;> rfl

theorem length_merge {es us : List (K × V)} (he : Ordered es) (hu : Ordered us) :
    (merge es us).length = us.length + es.countP fun e => decide (e.1 ∉ us.map Prod.fst) := by
  induction es, us using merge.induct with
  | case1 us => simp [Nested.merge]
  | case2 f es => simp
  | case3 f es u us hlt ih =>
      have hnew : f.1 ∉ (u :: us).map Prod.fst := by
        refine find_eq_none.mp (find_eq_none_of_lt fun g hg => ?_)
        rcases List.mem_cons.mp hg with rfl | hg
        · exact hlt
        · exact lt_trans hlt ((ordered_cons.mp hu).1 g hg)
      rw [Nested.merge, if_pos hlt, List.length_cons, ih (ordered_cons.mp he).2 hu,
        List.countP_cons, if_pos (decide_eq_true hnew)]
      omega
  | case4 f es u us hnlt hgt ih =>
      rw [Nested.merge, if_neg hnlt, if_pos hgt, List.length_cons, ih he (ordered_cons.mp hu).2,
        List.length_cons, Nat.add_right_comm]
      congr 1
      refine List.countP_congr fun g hg => ?_
      have hne : g.1 ≠ u.1 := by
        rcases List.mem_cons.mp hg with rfl | hg
        · exact ne_of_gt hgt
        · exact ne_of_gt (lt_trans hgt ((ordered_cons.mp he).1 g hg))
      simp [hne]
  | case5 f es u us hnlt hngt ih =>
      have heq : f.1 = u.1 := le_antisymm (not_lt.mp hngt) (not_lt.mp hnlt)
      obtain ⟨hf, he⟩ := ordered_cons.mp he
      rw [Nested.merge, if_neg hnlt, if_neg hngt, List.length_cons, ih he (ordered_cons.mp hu).2,
        List.length_cons, List.countP_cons_of_neg (by simp [heq]), Nat.add_right_comm]
      congr 1
      refine List.countP_congr fun g hg => ?_
      have hne : g.1 ≠ u.1 := by
        rw [← heq]
        exact ne_of_gt (hf g hg)
      simp [hne]

theorem merge_singleton {es : List (K × V)} (he : Ordered es) (k : K) (v : V) :
    merge es [(k, v)] = upsert k v es := by
  have hu : Ordered [(k, v)] := List.pairwise_singleton _ _
  refine ext_find (he.merge hu) (he.upsert k v) fun j => ?_
  rw [find_merge he hu, find_upsert, find_cons]
  split <;> rfl

/-- Cutting entries off at the number of those wanted leaves these if they come first. -/
theorem take_countP_eq_filter {es : List (K × V)} (ho : Ordered es) (p : K → Bool) :
    es.take (es.countP fun e => p e.1) = es.filter (fun e => p e.1) ↔
      ∀ a ∈ es, ∀ b ∈ es, p a.1 = false → p b.1 = true → b.1 < a.1 := by
  induction es with
  | nil => simp
  | cons e es ih =>
      obtain ⟨hlt, ho⟩ := ordered_cons.mp ho
      rw [List.countP_cons, List.filter_cons]
      rcases Bool.eq_false_or_eq_true (p e.1) with he | he
      · rw [if_pos he, if_pos he, List.take_succ_cons, List.cons_inj_right, ih ho]
        refine ⟨fun h => ?_, fun h a ha b hb => h a (List.mem_cons_of_mem e ha) b
          (List.mem_cons_of_mem e hb)⟩
        intro a ha b hb hpa hpb
        rcases List.mem_cons.mp ha with rfl | hmem
        · simp [he] at hpa
        · rcases List.mem_cons.mp hb with rfl | hmem'
          · exact hlt a hmem
          · exact h a hmem b hmem' hpa hpb
      · rw [if_neg (by simp [he]), if_neg (by simp [he]), Nat.add_zero]
        rcases Nat.eq_zero_or_pos (es.countP fun e => p e.1) with hzero | hpos
        · have hnone : ∀ b ∈ es, ¬ p b.1 = true := List.countP_eq_zero.mp hzero
          have hfilter : es.filter (fun e => p e.1) = [] := List.filter_eq_nil_iff.mpr hnone
          rw [hzero, hfilter, List.take_zero]
          refine iff_of_true rfl fun a ha b hb hpa hpb => ?_
          rcases List.mem_cons.mp hb with rfl | hb
          · simp [he] at hpb
          · exact absurd hpb (hnone b hb)
        · obtain ⟨b, hb, hpb⟩ := List.countP_pos_iff.mp hpos
          refine iff_of_false (fun h => ?_) fun h => ?_
          · have hmem : e ∈ es.filter fun e => p e.1 := by
              rw [← h, ← Nat.succ_pred_eq_of_pos hpos, Nat.succ_eq_add_one, List.take_succ_cons]
              exact List.mem_cons_self
            simp [he] at hmem
          · have hbe := h e List.mem_cons_self b (List.mem_cons_of_mem e hb) he hpb
            exact lt_asymm hbe (hlt b hb)

end Order

/-! ### Independent paths -/

/-- None of the paths is empty or leads through another. -/
structure Independent (paths : Set (List K)) : Prop where
  nonempty : ∀ p ∈ paths, p ≠ []
  prefix_eq : ∀ p ∈ paths, ∀ q ∈ paths, p <+: q → p = q

theorem Independent.subset {ps qs : Set (List K)} (h : Independent qs) (hsub : ps ⊆ qs) :
    Independent ps where
  nonempty p hp := h.nonempty p (hsub hp)
  prefix_eq p hp q hq := h.prefix_eq p (hsub hp) q (hsub hq)

/-- Of two different independent paths, what lies below one is apart from the other. -/
theorem Independent.apart {ps : Set (List K)} (h : Independent ps) {p q : List K}
    (hp : p ∈ ps) (hq : q ∈ ps) (hne : q ≠ p) (rest : List K) :
    ¬ q <+: p ++ rest ∧ ¬ p ++ rest <+: q := by
  constructor
  · intro hpre
    rcases List.prefix_or_prefix_of_prefix hpre (List.prefix_append p rest) with hqp | hpq
    · exact hne (h.prefix_eq q hq p hp hqp)
    · exact hne (h.prefix_eq p hp q hq hpq).symm
  · intro hpre
    exact hne (h.prefix_eq p hp q hq ((List.prefix_append p rest).trans hpre)).symm

/-! ### Trees -/

inductive Tree (K A : Type*) where
  | leaf (a : A)
  | node (entries : List (K × Tree K A))

/-- The branches are in order at every node. -/
inductive Sorted {K A : Type*} [LinearOrder K] : Tree K A → Prop where
  | leaf (a : A) : Sorted (.leaf a)
  | node {es : List (K × Tree K A)} (ordered : Ordered es) (below : ∀ e ∈ es, Sorted e.2) :
      Sorted (.node es)

variable {A : Type*} [LinearOrder K]

/-- The tree at the end of a path. -/
def get : Tree K A → List K → Option (Tree K A)
  | t, [] => some t
  | .leaf _, _ :: _ => none
  | .node es, k :: path => (find es k).bind fun t => get t path

/-- The branches under a name, none if there is no node. -/
def branches (es : List (K × Tree K A)) (k : K) : List (K × Tree K A) :=
  match find es k with
  | some (.node fs) => fs
  | _ => []

/-- The branches with a tree put at the end of a path. -/
def set : List K → Tree K A → List (K × Tree K A) → List (K × Tree K A)
  | [], _, es => es
  | [k], t, es => upsert k t es
  | k :: path, t, es => upsert k (.node (set path t (branches es k))) es

/-- What can be told from a tree without following it: its leaf, or that it is a node. -/
def kind : Tree K A → Option A
  | .leaf a => some a
  | .node _ => none

theorem sorted_node {es : List (K × Tree K A)} :
    Sorted (.node es) ↔ Ordered es ∧ ∀ e ∈ es, Sorted e.2 := by
  refine ⟨fun h => ?_, fun h => .node h.1 h.2⟩
  cases h with
  | node ordered below => exact ⟨ordered, below⟩

theorem sorted_of_find {es : List (K × Tree K A)} (h : Sorted (.node es)) {k : K} {t : Tree K A}
    (ht : find es k = some t) : Sorted t := (sorted_node.mp h).2 _ (mem_of_find ht)

theorem sorted_of_get {t u : Tree K A} {path : List K} (h : Sorted t)
    (hu : get t path = some u) : Sorted u := by
  induction path generalizing t with
  | nil =>
      rw [get, Option.some_inj] at hu
      rw [← hu]
      exact h
  | cons k path ih =>
      cases t with
      | leaf a => simp [get] at hu
      | node es =>
          rw [get] at hu
          obtain ⟨v, hv, hu⟩ := Option.bind_eq_some_iff.mp hu
          exact ih (sorted_of_find h hv) hu

theorem sorted_branches {es : List (K × Tree K A)} (h : Sorted (.node es)) (k : K) :
    Sorted (.node (branches es k)) := by
  rw [branches]
  split
  · next fs hfs => exact sorted_of_find h hfs
  · exact .node List.Pairwise.nil (by simp)

theorem sorted_upsert {es : List (K × Tree K A)} (h : Sorted (.node es)) (k : K) {t : Tree K A}
    (ht : Sorted t) : Sorted (.node (upsert k t es)) := by
  obtain ⟨ho, hbelow⟩ := sorted_node.mp h
  refine .node (ho.upsert k t) ?_
  intro e he
  rcases mem_upsert he with rfl | he
  · exact ht
  · exact hbelow e he

theorem set_cons {path : List K} (h : path ≠ []) (k : K) (t : Tree K A)
    (es : List (K × Tree K A)) :
    set (k :: path) t es = upsert k (.node (set path t (branches es k))) es := by
  cases path with
  | nil => exact absurd rfl h
  | cons j path => rfl

theorem sorted_set {es : List (K × Tree K A)} (h : Sorted (.node es)) (path : List K)
    {t : Tree K A} (ht : Sorted t) : Sorted (.node (set path t es)) := by
  induction path generalizing es with
  | nil => exact h
  | cons k path ih =>
      rcases eq_or_ne path [] with rfl | hpath
      · exact sorted_upsert h k ht
      · rw [set_cons hpath]
        exact sorted_upsert h k (ih (sorted_branches h k))

/-- What is found at every path determines a sorted tree. -/
theorem ext_get {t u : Tree K A} (ht : Sorted t) (hu : Sorted u)
    (h : ∀ path, (get t path).map kind = (get u path).map kind) : t = u := by
  induction ht generalizing u with
  | leaf a =>
      have hroot := h []
      cases hu with
      | leaf b => simpa [get, kind] using hroot
      | node ordered below => simp [get, kind] at hroot
  | @node es ordered below ih =>
      have hroot := h []
      cases hu with
      | leaf b => simp [get, kind] at hroot
      | @node fs ordered' below' =>
          congr 1
          refine ext_find ordered ordered' fun k => ?_
          have hk := h [k]
          simp only [get] at hk
          cases he : find es k with
          | none =>
              rw [he] at hk
              cases hf : find fs k with
              | none => rfl
              | some v => simp [hf] at hk
          | some v =>
              rw [he] at hk
              cases hf : find fs k with
              | none => simp [hf] at hk
              | some w =>
                  congr 1
                  refine ih _ (mem_of_find he) (below' _ (mem_of_find hf)) fun path => ?_
                  simpa [get, he, hf] using h (k :: path)

/-! ### What a write leaves to be found -/

theorem get_upsert (es : List (K × Tree K A)) (k : K) (t : Tree K A) (path : List K) :
    get (.node (upsert k t es)) (k :: path) = get t path := by
  simp [get, find_upsert]

theorem get_upsert_ne (es : List (K × Tree K A)) {j k : K} (h : j ≠ k) (t : Tree K A)
    (path : List K) :
    get (.node (upsert j t es)) (k :: path) = get (.node es) (k :: path) := by
  simp [get, find_upsert, h]

/-- Below a name there is what its branches have, and nothing if it has none. -/
theorem get_branches (es : List (K × Tree K A)) (k : K) {path : List K} (h : path ≠ []) :
    get (.node (branches es k)) path = get (.node es) (k :: path) := by
  cases path with
  | nil => exact absurd rfl h
  | cons j path =>
      show _ = (find es k).bind fun t => get t (j :: path)
      rw [branches]
      split
      · next fs hfs => rw [hfs, Option.bind_some]
      · next hleaf =>
        cases hf : find es k with
        | none => simp [get]
        | some t =>
            cases t with
            | leaf a => simp [get]
            | node fs => exact absurd hf (hleaf fs)

theorem get_set (es : List (K × Tree K A)) {path : List K} (h : path ≠ []) (t : Tree K A)
    (rest : List K) : get (.node (set path t es)) (path ++ rest) = get t rest := by
  induction path generalizing es with
  | nil => exact absurd rfl h
  | cons k path ih =>
      rw [List.cons_append]
      rcases eq_or_ne path [] with rfl | hpath
      · exact get_upsert es k t rest
      · rw [set_cons hpath, get_upsert]
        exact ih (branches es k) hpath

/-- On the way to what was put there is a node. -/
theorem get_set_above (es : List (K × Tree K A)) {path rest : List K} (h : rest ≠ [])
    (t : Tree K A) :
    ∃ fs, get (.node (set (path ++ rest) t es)) path = some (.node fs) := by
  induction path generalizing es with
  | nil => exact ⟨_, rfl⟩
  | cons k path ih =>
      have hpath : path ++ rest ≠ [] := by simp [h]
      rw [List.cons_append, set_cons hpath, get_upsert]
      exact ih (branches es k)

theorem get_set_apart (es : List (K × Tree K A)) {path other : List K} (h : ¬ path <+: other)
    (h' : ¬ other <+: path) (t : Tree K A) :
    get (.node (set path t es)) other = get (.node es) other := by
  induction path generalizing es other with
  | nil => exact absurd List.nil_prefix h
  | cons k path ih =>
      cases other with
      | nil => exact absurd List.nil_prefix h'
      | cons j other =>
          by_cases hk : k = j
          · subst hk
            rw [List.cons_prefix_cons, not_and] at h h'
            have hpath : path ≠ [] := by
              rintro rfl
              exact h rfl List.nil_prefix
            have hother : other ≠ [] := by
              rintro rfl
              exact h' rfl List.nil_prefix
            rw [set_cons hpath, get_upsert, ih (branches es k) (h rfl) (h' rfl),
              get_branches es k hother]
          · rcases eq_or_ne path [] with rfl | hpath
            · exact get_upsert_ne es hk t other
            · rw [set_cons hpath, get_upsert_ne es hk]

/-! ### Many writes -/

/-- The branches after a list of writes. -/
def setAll (es : List (K × Tree K A)) (writes : List (List K × Tree K A)) :
    List (K × Tree K A) := writes.foldl (fun es w => set w.1 w.2 es) es

/-- The last tree put at the end of a path. -/
def last (writes : List (List K × Tree K A)) (path : List K) : Option (Tree K A) :=
  find writes.reverse path

theorem last_append_singleton (writes : List (List K × Tree K A)) (w : List K × Tree K A)
    (path : List K) :
    last (writes ++ [w]) path = if w.1 = path then some w.2 else last writes path := by
  rw [last, List.reverse_append, List.reverse_singleton, List.singleton_append, find_cons]
  rfl

theorem setAll_append_singleton (es : List (K × Tree K A)) (writes : List (List K × Tree K A))
    (w : List K × Tree K A) : setAll es (writes ++ [w]) = set w.1 w.2 (setAll es writes) :=
  List.foldl_concat ..

theorem sorted_setAll {es : List (K × Tree K A)} (h : Sorted (.node es))
    {writes : List (List K × Tree K A)} (hw : ∀ w ∈ writes, Sorted w.2) :
    Sorted (.node (setAll es writes)) := by
  induction writes generalizing es with
  | nil => exact h
  | cons w writes ih =>
      obtain ⟨hfirst, hw⟩ := List.forall_mem_cons.mp hw
      exact ih (sorted_set h w.1 hfirst) hw

theorem last_eq_none {writes : List (List K × Tree K A)} {path : List K} :
    last writes path = none ↔ path ∉ writes.map Prod.fst := by
  rw [last, find_eq_none, List.map_reverse, List.mem_reverse]

section Writes

variable {writes : List (List K × Tree K A)} (es : List (K × Tree K A))

theorem get_setAll_below (h : Independent {p | p ∈ writes.map Prod.fst}) {path : List K}
    {t : Tree K A} (hlast : last writes path = some t) (rest : List K) :
    get (.node (setAll es writes)) (path ++ rest) = get t rest := by
  induction writes using List.reverseRecOn with
  | nil => simp [last] at hlast
  | append_singleton writes w ih =>
      have hsub : ∀ p ∈ writes.map Prod.fst, p ∈ (writes ++ [w]).map Prod.fst := by
        intro p hp
        rw [List.map_append]
        exact List.mem_append_left _ hp
      have hw : w.1 ∈ (writes ++ [w]).map Prod.fst := by simp
      rw [setAll_append_singleton]
      rw [last_append_singleton] at hlast
      split at hlast
      · next hpath =>
        obtain rfl : w.2 = t := Option.some_inj.mp hlast
        rw [← hpath]
        exact get_set _ (h.nonempty w.1 hw) w.2 rest
      · next hne =>
        have hpath : path ∈ writes.map Prod.fst := by
          by_contra hnot
          rw [last_eq_none.mpr hnot] at hlast
          cases hlast
        obtain ⟨hbelow, habove⟩ := h.apart (hsub path hpath) hw hne rest
        rw [get_set_apart _ hbelow habove, ih (h.subset hsub) hlast]

theorem get_setAll_above {path target : List K} (htarget : target ∈ writes.map Prod.fst)
    (habove : path <+: target) (hnone : ∀ p ∈ writes.map Prod.fst, ¬ p <+: path) :
    ∃ fs, get (.node (setAll es writes)) path = some (.node fs) := by
  induction writes using List.reverseRecOn with
  | nil => simp at htarget
  | append_singleton writes w ih =>
      have hw : ¬ w.1 <+: path := hnone w.1 (by simp)
      rw [setAll_append_singleton]
      by_cases hpre : path <+: w.1
      · obtain ⟨rest, hrest⟩ := hpre
        have hne : rest ≠ [] := by
          rintro rfl
          rw [List.append_nil] at hrest
          exact hw (by rw [hrest])
        rw [← hrest]
        exact get_set_above _ hne w.2
      · have hmem : target ∈ writes.map Prod.fst := by
          rw [List.map_append, List.mem_append] at htarget
          rcases htarget with hmem | hmem
          · exact hmem
          · rw [List.map_singleton, List.mem_singleton] at hmem
            exact absurd (hmem ▸ habove) hpre
        rw [get_set_apart _ hw hpre]
        refine ih hmem fun p hp => hnone p ?_
        rw [List.map_append]
        exact List.mem_append_left _ hp

theorem get_setAll_apart {path : List K}
    (h : ∀ p ∈ writes.map Prod.fst, ¬ p <+: path ∧ ¬ path <+: p) :
    get (.node (setAll es writes)) path = get (.node es) path := by
  induction writes generalizing es with
  | nil => rfl
  | cons w writes ih =>
      rw [List.map_cons] at h
      obtain ⟨⟨hbelow, habove⟩, h⟩ := List.forall_mem_cons.mp h
      show get (.node (setAll (set w.1 w.2 es) writes)) path = _
      rw [ih (set w.1 w.2 es) h, get_set_apart es hbelow habove]

/-- Independent writes come to the last one at each path. -/
theorem setAll_congr {writes' : List (List K × Tree K A)} (hes : Sorted (.node es))
    (hw : ∀ w ∈ writes, Sorted w.2) (hw' : ∀ w ∈ writes', Sorted w.2)
    (h : Independent {p | p ∈ writes.map Prod.fst})
    (hlast : ∀ path, last writes path = last writes' path) :
    setAll es writes = setAll es writes' := by
  have hmem : ∀ p, p ∈ writes.map Prod.fst ↔ p ∈ writes'.map Prod.fst := by
    intro p
    rw [← not_iff_not, ← last_eq_none, ← last_eq_none, hlast p]
  have h' : Independent {p | p ∈ writes'.map Prod.fst} := h.subset fun p hp => (hmem p).mpr hp
  refine Tree.node.inj (ext_get (sorted_setAll hes hw) (sorted_setAll hes hw') fun path => ?_)
  by_cases hbelow : ∃ p ∈ writes.map Prod.fst, p <+: path
  · obtain ⟨p, hp, rest, rfl⟩ := hbelow
    obtain ⟨t, ht⟩ : ∃ t, last writes p = some t := by
      cases hl : last writes p with
      | none => exact absurd hp (last_eq_none.mp hl)
      | some t => exact ⟨t, rfl⟩
    rw [get_setAll_below es h ht, get_setAll_below es h' (hlast p ▸ ht)]
  · have hnone : ∀ p ∈ writes.map Prod.fst, ¬ p <+: path := fun p hp hpre => hbelow ⟨p, hp, hpre⟩
    by_cases habove : ∃ p ∈ writes.map Prod.fst, path <+: p
    · obtain ⟨p, hp, hpre⟩ := habove
      obtain ⟨fs, hfs⟩ := get_setAll_above es hp hpre hnone
      obtain ⟨gs, hgs⟩ := get_setAll_above es ((hmem p).mp hp) hpre
        fun q hq => hnone q ((hmem q).mpr hq)
      rw [hfs, hgs]
      rfl
    · have hnone' : ∀ p ∈ writes.map Prod.fst, ¬ path <+: p :=
        fun p hp hpre => habove ⟨p, hp, hpre⟩
      rw [get_setAll_apart es fun p hp => ⟨hnone p hp, hnone' p hp⟩,
        get_setAll_apart es fun p hp =>
          ⟨hnone p ((hmem p).mpr hp), hnone' p ((hmem p).mpr hp)⟩]

end Writes

end Nested
