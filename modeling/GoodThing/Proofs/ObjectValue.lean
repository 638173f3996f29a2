/-
What changes to the fields of a document come to.

`applyChanges` is meant to put some entries into a map and take some names away.  It does not
always: a name to be taken away that is not there stops the pass from taking any later name
away, while the entries are still counted as if it had, so others are cut off at the end.
`applyChanges_exact` says when the result is the intended one all the same.

`setAll` is compared with setting and deleting the fields one at a time, which is what its
callers mean.  It is not quite `delete` that it agrees with: on the way to a field it deletes it
makes the maps that are not there.
-/
import GoodThing.Firebase.ObjectValue

namespace Firebase.Local

open Nested

variable {S A : Type} [LinearOrder S]

/-! ### One map -/

section Changes

variable {parent upserts : Fields S A} {deletes : Finset S}

/-- The entries that are meant to be left. -/
def intended (parent upserts : Fields S A) (deletes : Finset S) : Fields S A :=
  merge (parent.filter fun e => decide (e.1 ∉ deletes)) upserts

theorem ordered_intended (hp : Ordered parent) (hu : Ordered upserts) :
    Ordered (intended parent upserts deletes) := (hp.filter _).merge hu

theorem find_intended (hp : Ordered parent) (hu : Ordered upserts) (k : S) :
    find (intended parent upserts deletes) k =
      (find upserts k).or (if k ∈ deletes then none else find parent k) := by
  rw [intended, find_merge (hp.filter _) hu,
    find_filter parent (fun k => decide (k ∉ deletes))]
  by_cases hk : k ∈ deletes <;> simp [hk]

theorem ordered_remaining {fields : Fields S A} (h : Ordered fields) (names : List S) :
    Ordered (remaining fields names) := h.filter _

theorem find_remaining (fields : Fields S A) (names : List S) (k : S) :
    find (remaining fields names) k =
      if k ∈ matched fields names then none else find fields k := by
  rw [remaining, find_filter fields (fun k => decide (k ∉ matched fields names))]
  by_cases hk : k ∈ matched fields names <;> simp [hk]

/-- What the pass makes before it cuts off. -/
def full (parent upserts : Fields S A) (names : List S) : Fields S A :=
  merge (remaining parent names) upserts

theorem ordered_full (hp : Ordered parent) (hu : Ordered upserts) :
    Ordered (full parent upserts deletes.sort) := (ordered_remaining hp _).merge hu

theorem find_full (hp : Ordered parent) (hu : Ordered upserts) (k : S) :
    find (full parent upserts deletes.sort) k =
      (find upserts k).or
        (if k ∈ matched parent deletes.sort then none else find parent k) := by
  rw [full, find_merge (ordered_remaining hp _) hu]
  exact congrArg _ (find_remaining parent deletes.sort k)

theorem filter_full (hp : Ordered parent) (hu : Ordered upserts)
    (hdisjoint : ∀ d ∈ deletes, find upserts d = none) :
    (full parent upserts deletes.sort).filter (fun e => decide (e.1 ∉ deletes)) =
      intended parent upserts deletes := by
  refine ext_find ((ordered_full hp hu).filter _) (ordered_intended hp hu) fun k => ?_
  rw [find_filter _ (fun k => decide (k ∉ deletes)), find_full hp hu, find_intended hp hu]
  by_cases hk : k ∈ deletes
  · simp [hk, hdisjoint k hk]
  · have hmatched : k ∉ matched parent deletes.sort :=
      fun h => hk ((Finset.mem_sort _).mp (mem_of_mem_matched h).1)
    simp [hk, hmatched]

theorem calculateSizeOfUnion_eq (hp : Ordered parent) (hu : Ordered upserts)
    (hdisjoint : ∀ d ∈ deletes, find upserts d = none) :
    calculateSizeOfUnion parent upserts deletes =
      (full parent upserts deletes.sort).countP fun e => decide (e.1 ∉ deletes) := by
  rw [List.countP_eq_length_filter, filter_full hp hu hdisjoint, intended,
    length_merge (hp.filter _) hu, List.countP_filter, calculateSizeOfUnion]
  congr 1
  refine List.countP_congr fun e _ => ?_
  rw [Bool.and_comm]

theorem not_mem_takeWhile {l : List S} (hl : l.Pairwise (· < ·)) (p : S → Bool) {d : S}
    (hd : d ∈ l) : d ∉ l.takeWhile p ↔ ∃ x ∈ l, p x = false ∧ x ≤ d := by
  induction l with
  | nil => cases hd
  | cons x l ih =>
      obtain ⟨hlt, hl⟩ := List.pairwise_cons.mp hl
      rcases Bool.eq_false_or_eq_true (p x) with hx | hx
      · rw [List.takeWhile_cons_of_pos hx, List.mem_cons, not_or]
        rcases List.mem_cons.mp hd with rfl | hd
        · refine iff_of_false (fun h => h.1 rfl) ?_
          rintro ⟨y, hy, hpy, hle⟩
          rcases List.mem_cons.mp hy with rfl | hy
          · simp [hx] at hpy
          · exact absurd (hlt y hy) (not_lt.mpr hle)
        · rw [and_iff_right (ne_of_gt (hlt d hd)), ih hl hd]
          constructor
          · rintro ⟨y, hy, hrest⟩
            exact ⟨y, List.mem_cons_of_mem x hy, hrest⟩
          · rintro ⟨y, hy, hpy, hle⟩
            rcases List.mem_cons.mp hy with rfl | hy
            · simp [hx] at hpy
            · exact ⟨y, hy, hpy, hle⟩
      · rw [List.takeWhile_cons_of_neg (by simp [hx])]
        refine iff_of_true List.not_mem_nil ⟨x, List.mem_cons_self, hx, ?_⟩
        rcases List.mem_cons.mp hd with rfl | hd
        · exact le_refl d
        · exact le_of_lt (hlt d hd)

/-- A name is passed over when one before it is not there. -/
theorem not_mem_matched {d : S} (hd : d ∈ deletes) (hthere : (find parent d).isSome) :
    d ∉ matched parent deletes.sort ↔
      ∃ absent ∈ deletes, find parent absent = none ∧ absent < d := by
  rw [matched, not_mem_takeWhile deletes.sortedLT_sort.pairwise _ ((Finset.mem_sort _).mpr hd)]
  refine exists_congr fun x => ?_
  rw [Finset.mem_sort, decide_eq_false_iff_not, ← find_eq_none]
  refine and_congr_right fun _ => and_congr_right fun hx => ?_
  refine ⟨fun hle => lt_of_le_of_ne hle ?_, le_of_lt⟩
  rintro rfl
  rw [hx] at hthere
  cases hthere

theorem applyChanges_eq_take (hp : Ordered parent) (hu : Ordered upserts)
    (hdisjoint : ∀ d ∈ deletes, find upserts d = none) :
    applyChanges parent upserts deletes =
      (full parent upserts deletes.sort).take
        ((full parent upserts deletes.sort).countP fun e => decide (e.1 ∉ deletes)) := by
  rw [applyChanges_eq hp, calculateSizeOfUnion_eq hp hu hdisjoint]
  rfl

theorem applyChanges_eq_intended (hp : Ordered parent) (hu : Ordered upserts)
    (hdisjoint : ∀ d ∈ deletes, find upserts d = none) :
    applyChanges parent upserts deletes = intended parent upserts deletes ↔
    ∀ absent ∈ deletes, find parent absent = none →
      ∀ d ∈ deletes, (find parent d).isSome → absent < d →
        ∀ k ∉ deletes, ((find upserts k).or (find parent k)).isSome → k < d := by
  rw [applyChanges_eq_take hp hu hdisjoint, ← filter_full hp hu hdisjoint,
    take_countP_eq_filter (ordered_full hp hu) (fun k => decide (k ∉ deletes))]
  -- An entry is there to be cut off when its name was passed over.
  have hover : ∀ d ∈ deletes, (find (full parent upserts deletes.sort) d).isSome ↔
      (find parent d).isSome ∧ ∃ absent ∈ deletes, find parent absent = none ∧ absent < d := by
    intro d hd
    rw [find_full hp hu, hdisjoint d hd, Option.none_or]
    by_cases hthere : (find parent d).isSome
    · rw [← not_mem_matched hd hthere]
      by_cases hm : d ∈ matched parent deletes.sort <;> simp [hm, hthere]
    · have hnone : find parent d = none := by simpa using hthere
      simp [hnone]
  have hkept : ∀ k ∉ deletes, find (full parent upserts deletes.sort) k =
      (find upserts k).or (find parent k) := by
    intro k hk
    have hmatched : k ∉ matched parent deletes.sort :=
      fun h => hk ((Finset.mem_sort _).mp (mem_of_mem_matched h).1)
    rw [find_full hp hu, if_neg hmatched]
  constructor
  · intro h absent habsent hnone d hd hthere hlt k hk hkeep
    obtain ⟨v, hv⟩ := Option.isSome_iff_exists.mp
      ((hover d hd).mpr ⟨hthere, absent, habsent, hnone, hlt⟩)
    obtain ⟨w, hw⟩ := Option.isSome_iff_exists.mp hkeep
    rw [← hkept k hk] at hw
    exact h (d, v) (mem_of_find hv) (k, w) (mem_of_find hw) (by simpa using hd) (by simpa using hk)
  · intro h a ha b hb hpa hpb
    have hd : a.1 ∈ deletes := by simpa using hpa
    have hk : b.1 ∉ deletes := by simpa using hpb
    have hfa := find_of_mem (ordered_full hp hu) ha
    have hfb := find_of_mem (ordered_full hp hu) hb
    obtain ⟨hthere, absent, habsent, hnone, hlt⟩ := (hover a.1 hd).mp (by simp [hfa])
    refine h absent habsent hnone a.1 hd hthere hlt b.1 hk ?_
    rw [← hkept b.1 hk, hfb]
    rfl

/-- A name to take away that is not there must not come before one that is, unless nothing
that is meant to stay comes after the latter. -/
theorem applyChanges_exact (hp : Ordered parent) (hu : Ordered upserts)
    (hdisjoint : ∀ d ∈ deletes, find upserts d = none) :
    (∀ k, find (applyChanges parent upserts deletes) k =
      (find upserts k).or (if k ∈ deletes then none else find parent k)) ↔
    ∀ absent ∈ deletes, find parent absent = none →
      ∀ d ∈ deletes, (find parent d).isSome → absent < d →
        ∀ k ∉ deletes, ((find upserts k).or (find parent k)).isSome → k < d := by
  rw [← applyChanges_eq_intended hp hu hdisjoint]
  refine ⟨fun h => ?_, fun h k => by rw [h, find_intended hp hu]⟩
  refine ext_find ?_ (ordered_intended hp hu) fun k => by rw [h, find_intended hp hu]
  rw [applyChanges_eq_take hp hu hdisjoint]
  exact List.Pairwise.take (ordered_full hp hu)

/-- Of three entries the middle one is to go, and a name before it that is not there. -/
theorem applyChanges_exact_absentFirst :
    ¬ ∀ k, find (applyChanges [(2, Tree.leaf 'a'), (3, .leaf 'b'), (4, .leaf 'c')] [] {1, 3}) k =
      (find [] k).or (if k ∈ ({1, 3} : Finset Nat) then none
        else find [(2, Tree.leaf 'a'), (3, .leaf 'b'), (4, .leaf 'c')] k) := by
  have ho : Ordered [((2 : Nat), Tree.leaf (K := Nat) 'a'), (3, .leaf 'b'), (4, .leaf 'c')] := by
    simp [Ordered]
  intro h
  have h := (applyChanges_exact ho List.Pairwise.nil (by simp)).mp h
  have hlt := h 1 (by simp) (by simp [find]) 3 (by simp) (by simp [find]) (by simp) 4 (by simp)
    (by simp [find])
  omega

theorem applyChanges_of_unique (hp : Ordered parent) (hu : Ordered upserts)
    (hdisjoint : ∀ d ∈ deletes, find upserts d = none)
    (hone : ∀ d ∈ deletes, ∀ d' ∈ deletes, d = d') :
    applyChanges parent upserts deletes = intended parent upserts deletes := by
  rw [applyChanges_eq_intended hp hu hdisjoint]
  intro absent habsent _ d hd _ hlt
  exact absurd (hone absent habsent d hd) (ne_of_lt hlt)

end Changes

/-! ### Changes at a path -/

theorem upsert_upsert {fields : Fields S A} (h : Ordered fields) (k : S) (t u : Tree S A) :
    upsert k u (upsert k t fields) = upsert k u fields := by
  refine ext_find ((h.upsert k t).upsert k u) (h.upsert k u) fun j => ?_
  rw [find_upsert, find_upsert, find_upsert]
  split <;> rfl

theorem branches_upsert (fields : Fields S A) (k : S) (nested : Fields S A) :
    branches (upsert k (.node nested) fields) k = nested := by
  simp [branches, find_upsert]

theorem modifyParent_modifyParent {change change' : Fields S A → Fields S A} (path : List S)
    {fields : Fields S A} (h : Sorted (.node fields)) :
    modifyParent path change' (modifyParent path change fields) =
      modifyParent path (fun m => change' (change m)) fields := by
  induction path generalizing fields with
  | nil => rfl
  | cons segment path ih =>
      have ho := (sorted_node.mp h).1
      rw [modifyParent_cons ho, modifyParent_cons ho, modifyParent_cons (ho.upsert _ _),
        branches_upsert, upsert_upsert ho, ih (sorted_branches h segment)]

theorem modifyParent_congr {change change' : Fields S A → Fields S A}
    (hc : ∀ m, Sorted (.node m) → change m = change' m) (path : List S) {fields : Fields S A}
    (h : Sorted (.node fields)) :
    modifyParent path change fields = modifyParent path change' fields := by
  induction path generalizing fields with
  | nil => exact hc fields h
  | cons segment path ih =>
      have ho := (sorted_node.mp h).1
      rw [modifyParent_cons ho, modifyParent_cons ho, ih (sorted_branches h segment)]

theorem modifyParent_upsert (path : List S) (name : S) (value : Tree S A) {fields : Fields S A}
    (h : Sorted (.node fields)) :
    modifyParent path (upsert name value) fields = Nested.set (path ++ [name]) value fields := by
  induction path generalizing fields with
  | nil => rfl
  | cons segment path ih =>
      rw [modifyParent_cons (sorted_node.mp h).1, List.cons_append, set_cons (by simp),
        ih (sorted_branches h segment)]

theorem applyChanges_singleton {fields : Fields S A} (h : Ordered fields) (name : S)
    (value : Tree S A) : applyChanges fields [(name, value)] ∅ = upsert name value fields := by
  rw [applyChanges_empty h (List.pairwise_singleton _ _), merge_singleton h]

omit [LinearOrder S] in
theorem eq_append_of_ne_nil {path : List S} (h : path ≠ []) :
    ∃ parent name, path = parent ++ [name] :=
  ⟨path.dropLast, path.getLast h, (List.dropLast_append_getLast h).symm⟩

theorem setField_eq {fields : Fields S A} (h : Sorted (.node fields)) {path : List S}
    (hpath : path ≠ []) (value : Tree S A) :
    setField path value fields = Nested.set path value fields := by
  obtain ⟨front, name, rfl⟩ := eq_append_of_ne_nil hpath
  rw [setField, List.getLast?_concat, List.dropLast_concat, ← modifyParent_upsert front name value h]
  exact modifyParent_congr (fun m hm => applyChanges_singleton (sorted_node.mp hm).1 name value)
    front h

/-! ### Many fields at once -/

theorem isImmediateParentOf_iff {parent path : List S} :
    isImmediateParentOf parent path = true ↔ ∃ name, path = parent ++ [name] := by
  rw [isImmediateParentOf, Bool.and_eq_true, decide_eq_true_iff, List.isPrefixOf_iff_prefix]
  constructor
  · rintro ⟨hlength, rest, rfl⟩
    rw [List.length_append, Nat.add_left_cancel_iff] at hlength
    obtain ⟨name, rfl⟩ := List.length_eq_one_iff.mp hlength.symm
    exact ⟨name, rfl⟩
  · rintro ⟨name, rfl⟩
    exact ⟨by simp, List.prefix_append parent [name]⟩

/-- Changes that put and take away different names, and take away one at most. -/
structure Changes.Plain (c : Changes S A) : Prop where
  sorted : Sorted (.node c.upserts)
  disjoint : ∀ d ∈ c.deletes, find c.upserts d = none
  unique : ∀ d ∈ c.deletes, ∀ d' ∈ c.deletes, d = d'

namespace Changes

theorem plain_empty : (empty : Changes S A).Plain where
  sorted := sorted_nil
  disjoint := by simp [empty]
  unique := by simp [empty]

theorem Plain.find_apply {c : Changes S A} (hc : c.Plain) {fields : Fields S A}
    (h : Ordered fields) (k : S) :
    find (applyChanges fields c.upserts c.deletes) k =
      (find c.upserts k).or (if k ∈ c.deletes then none else find fields k) := by
  have ho := (sorted_node.mp hc.sorted).1
  rw [applyChanges_of_unique h ho hc.disjoint hc.unique, find_intended h ho]

/-- One more change can be made with the others or after them. -/
theorem Plain.apply_add {c : Changes S A} (hc : c.Plain) {path : List S} {name : S}
    {value : Option (Tree S A)} (hc' : (c.add (path ++ [name]) value).Plain)
    (hs : (empty.add (path ++ [name]) value).Plain) (hnew : find c.upserts name = none)
    {fields : Fields S A} (h : Sorted (.node fields)) :
    (c.add (path ++ [name]) value).apply path fields =
      (empty.add (path ++ [name]) value).apply path (c.apply path fields) := by
  rw [apply, apply, apply, modifyParent_modifyParent path h]
  refine modifyParent_congr (fun m hm => ?_) path h
  have ho := (sorted_node.mp hm).1
  have hmid : Sorted (.node (applyChanges m c.upserts c.deletes)) :=
    sorted_applyChanges hm hc.sorted c.deletes
  refine ext_find (sorted_node.mp (sorted_applyChanges hm hc'.sorted _)).1
    (sorted_node.mp (sorted_applyChanges hmid hs.sorted _)).1 fun k => ?_
  rw [hc'.find_apply ho, hs.find_apply (sorted_node.mp hmid).1, hc.find_apply ho]
  cases value with
  | none =>
      simp only [add, List.getLast?_concat, empty, find_nil, Option.none_or]
      by_cases hk : k = name
      · subst hk
        simp [hnew]
      · simp [hk]
  | some v =>
      simp only [add, List.getLast?_concat, empty, find_upsert, find_cons, upsert, find_nil]
      by_cases hk : name = k <;> simp [hk]

/-- A change that goes with the others. -/
structure Fresh (c : Changes S A) (name : S) (value : Option (Tree S A)) : Prop where
  upserts : find c.upserts name = none
  deletes : name ∉ c.deletes
  unique : value = none → c.deletes = ∅

theorem fresh_empty (name : S) (value : Option (Tree S A)) : empty.Fresh name value where
  upserts := rfl
  deletes := by simp [empty]
  unique _ := rfl

theorem Plain.add {c : Changes S A} (hc : c.Plain) {name : S} {value : Option (Tree S A)}
    (hf : c.Fresh name value) (hv : ∀ v ∈ value, Sorted v) (path : List S) :
    (c.add (path ++ [name]) value).Plain := by
  have hsorted := sorted_add hc.sorted (path ++ [name]) hv
  cases value with
  | none =>
      simp only [Changes.add, List.getLast?_concat, hf.unique rfl] at hsorted ⊢
      exact ⟨hc.sorted, by simp [hf.upserts], by simp⟩
  | some v =>
      simp only [Changes.add, List.getLast?_concat] at hsorted ⊢
      refine ⟨hsorted, fun d hd => ?_, hc.unique⟩
      have hne : name ≠ d := by
        rintro rfl
        exact hf.deletes hd
      rw [find_upsert, if_neg hne]
      exact hc.disjoint d hd

theorem Fresh.add {c : Changes S A} {name name' : S} {value value' : Option (Tree S A)}
    (hf : c.Fresh name' value') (hne : name ≠ name') (hone : value = none → value' ≠ none)
    (path : List S) : (c.add (path ++ [name]) value).Fresh name' value' := by
  cases value with
  | none =>
      simp only [Changes.add, List.getLast?_concat]
      refine ⟨hf.upserts, ?_, fun h => absurd h (hone rfl)⟩
      simp [hne.symm, hf.deletes]
  | some v =>
      simp only [Changes.add, List.getLast?_concat]
      refine ⟨?_, hf.deletes, hf.unique⟩
      rw [find_upsert, if_neg hne]
      exact hf.upserts

end Changes

/-- One field, as `setAll` sets it. -/
def putField (fields : Fields S A) (d : List S × Option (Tree S A)) : Fields S A :=
  (Changes.empty.add d.1 d.2).apply d.1.dropLast fields

/-- Different fields, no two of them to be deleted from one map. -/
def Apart {V : Type} (data : List (List S × Option V)) : Prop :=
  data.Pairwise fun a b =>
    a.1 ≠ b.1 ∧ (a.2 = none → b.2 = none → a.1.dropLast ≠ b.1.dropLast)

theorem setFields_eq_foldl {data : List (List S × Option (Tree S A))} (hne : ∀ d ∈ data, d.1 ≠ [])
    (hsorted : ∀ d ∈ data, ∀ v ∈ d.2, Sorted v) (hapart : Apart data) {parent : List S}
    {changes : Changes S A} (hc : changes.Plain)
    (hfresh : ∀ name value, (parent ++ [name], value) ∈ data → changes.Fresh name value)
    {fields : Fields S A} (h : Sorted (.node fields)) :
    setFields data parent changes fields = data.foldl putField (changes.apply parent fields) := by
  induction data generalizing parent changes fields with
  | nil => rfl
  | cons d data ih =>
      obtain ⟨path, value⟩ := d
      obtain ⟨hpath, hne'⟩ := List.forall_mem_cons.mp hne
      obtain ⟨hv, hsorted'⟩ := List.forall_mem_cons.mp hsorted
      obtain ⟨hfirst, hapart'⟩ := List.pairwise_cons.mp hapart
      obtain ⟨front, name, rfl⟩ := eq_append_of_ne_nil hpath
      -- The fields behind go with any changes of this map that they went with before.
      have hnext : ∀ c : Changes S A, (∀ name' value', (front ++ [name'], value') ∈ data →
          c.Fresh name' value') → ∀ name' value', (front ++ [name'], value') ∈ data →
          (c.add (front ++ [name]) value).Fresh name' value' := by
        intro c hf name' value' hmem
        obtain ⟨hpath', hdel⟩ := hfirst _ hmem
        refine (hf name' value' hmem).add (fun heq => hpath' (by rw [heq])) (fun hnone => ?_) front
        intro hnone'
        exact hdel hnone hnone' (by simp)
      have hsingle : (Changes.empty.add (front ++ [name]) value).Plain :=
        Changes.plain_empty.add (Changes.fresh_empty name value) hv front
      rw [setFields, List.foldl_cons, putField, List.dropLast_concat]
      split
      · next hchild =>
        obtain ⟨name', heq⟩ := isImmediateParentOf_iff.mp hchild
        obtain ⟨rfl, -⟩ := List.append_inj' heq rfl
        have hf := hfresh name value List.mem_cons_self
        rw [ih hne' hsorted' hapart' (hc.add hf hv front)
          (hnext changes fun n v hmem => hfresh n v (List.mem_cons_of_mem _ hmem)) h,
          hc.apply_add (hc.add hf hv front) hsingle hf.upserts h]
      · have hflushed : Sorted (.node (changes.apply parent fields)) :=
          sorted_modifyParent (fun hm => sorted_applyChanges hm hc.sorted _) parent h
        exact ih hne' hsorted' hapart' hsingle
          (hnext .empty fun n v _ => Changes.fresh_empty n v) hflushed

theorem setFields_root {data : List (List S × Option (Tree S A))} (hne : ∀ d ∈ data, d.1 ≠ [])
    (hsorted : ∀ d ∈ data, ∀ v ∈ d.2, Sorted v) (hapart : Apart data) {fields : Fields S A}
    (h : Sorted (.node fields)) :
    setFields data [] .empty fields = data.foldl putField fields := by
  have hnothing : Changes.empty.apply [] fields = fields := by
    show applyChanges fields [] ∅ = fields
    rw [applyChanges_empty (sorted_node.mp h).1 List.Pairwise.nil, merge_nil]
  rw [setFields_eq_foldl hne hsorted hapart Changes.plain_empty
    (fun name value _ => Changes.fresh_empty name value) h, hnothing]

theorem putField_some {fields : Fields S A} (h : Sorted (.node fields)) {path : List S}
    (hpath : path ≠ []) (value : Tree S A) :
    putField fields (path, some value) = Nested.set path value fields := by
  obtain ⟨parent, name, rfl⟩ := eq_append_of_ne_nil hpath
  rw [← setField_eq h hpath]
  simp [putField, Changes.add, Changes.apply, Changes.empty, setField, upsert]

/-- Whether there is a map at the end of a path. -/
def hasMap (fields : Fields S A) (path : List S) : Bool :=
  match Nested.get (.node fields) path with
  | some (.node _) => true
  | _ => false

theorem hasMap_branches (fields : Fields S A) (segment : S) {path : List S} (h : path ≠ []) :
    hasMap (branches fields segment) path = hasMap fields (segment :: path) := by
  rw [hasMap, get_branches fields segment h, hasMap]

theorem hasMap_cons {fields : Fields S A} {segment : S} {path : List S}
    (h : hasMap fields (segment :: path) = true) :
    find fields segment = some (.node (branches fields segment)) ∧
      hasMap (branches fields segment) path = true := by
  cases hfind : find fields segment with
  | none => simp [hasMap, Nested.get, hfind] at h
  | some t =>
      cases t with
      | leaf a => cases path <;> simp [hasMap, Nested.get, hfind] at h
      | node nested =>
          have hbranches : branches fields segment = nested := by simp [branches, hfind]
          rw [hbranches]
          refine ⟨rfl, ?_⟩
          simpa [hasMap, Nested.get, hfind] using h

theorem branches_of_not_hasMap {fields : Fields S A} {segment : S}
    (h : hasMap fields [segment] = false) : branches fields segment = [] := by
  rw [branches]
  split
  · next nested hnested => simp [hasMap, Nested.get, hnested] at h
  · rfl

/-- In a map that is there, the name is taken away and nothing else happens. -/
theorem deleteField_append {front : List S} (name : S) {fields : Fields S A}
    (h : Sorted (.node fields)) (hmap : hasMap fields front = true) :
    deleteField (front ++ [name]) fields =
      modifyParent front (applyChanges · [] {name}) fields := by
  induction front generalizing fields with
  | nil => rfl
  | cons segment front ih =>
      have ho := (sorted_node.mp h).1
      obtain ⟨hfind, hbelow⟩ := hasMap_cons hmap
      have hstep : deleteField (segment :: (front ++ [name])) fields =
          setEntry fields segment
            (.node (deleteField (front ++ [name]) (branches fields segment))) := by
        rw [deleteField, hfind]
        simp
      rw [List.cons_append, hstep, ih (sorted_branches h segment) hbelow, modifyParent_cons ho,
        setEntry_eq_upsert ho (by simp [hfind])]

/-- Where there is no map, an empty one is made. -/
theorem modifyParent_of_not_hasMap {change : Fields S A → Fields S A} (hc : change [] = [])
    {path : List S} {fields : Fields S A} (h : Sorted (.node fields))
    (hmap : hasMap fields path = false) :
    modifyParent path change fields = Nested.set path (.node []) fields := by
  induction path generalizing fields with
  | nil => simp [hasMap, Nested.get] at hmap
  | cons segment path ih =>
      rw [modifyParent_cons (sorted_node.mp h).1]
      rcases eq_or_ne path [] with rfl | hpath
      · rw [branches_of_not_hasMap hmap, modifyParent, hc]
        rfl
      · have hbelow : hasMap (branches fields segment) path = false := by
          rw [hasMap_branches fields segment hpath, hmap]
        rw [set_cons hpath, ih (sorted_branches h segment) hbelow]

theorem putField_none (fields : Fields S A) (front : List S) (name : S) :
    putField fields (front ++ [name], none) =
      modifyParent front (applyChanges · [] {name}) fields := by
  simp [putField, Changes.add, Changes.apply, Changes.empty]

namespace ObjectValue

theorem fields_setAll_eq_foldl (o : ObjectValue S A) {data : TransformMap S A}
    (hne : ∀ d ∈ data, d.1 ≠ []) (hapart : Apart data) :
    (o.setAll data).fields = (bare data).foldl putField o.fields := by
  refine setFields_root ?_ sorted_of_mem_bare ?_ o.sorted
  · intro d hd
    obtain ⟨e, he, rfl⟩ := List.mem_map.mp hd
    exact hne e he
  · refine List.pairwise_map.mpr (hapart.imp fun {a b} hab => ⟨hab.1, fun ha hb => ?_⟩)
    exact hab.2 (Option.map_eq_none_iff.mp ha) (Option.map_eq_none_iff.mp hb)

/-- A field is deleted from the map it is in; where there is none, the map is made. -/
def remove (o : ObjectValue S A) (path : List S) : ObjectValue S A :=
  if hasMap o.fields path.dropLast then o.delete path
  else o.set path.dropLast ⟨.node [], sorted_nil⟩

def setOrRemove (o : ObjectValue S A) (d : List S × Option (Value S A)) : ObjectValue S A :=
  match d.2 with
  | some value => o.set d.1 value
  | none => o.remove d.1

theorem fields_remove (o : ObjectValue S A) (front : List S) (name : S) :
    (o.remove (front ++ [name])).fields = putField o.fields (front ++ [name], none) := by
  rw [putField_none, remove, List.dropLast_concat]
  split
  · next hmap => exact deleteField_append name o.sorted hmap
  · next hmap =>
    have hmap : hasMap o.fields front = false := by simpa using hmap
    have hfront : front ≠ [] := by
      rintro rfl
      simp [hasMap, Nested.get] at hmap
    have hnothing : applyChanges ([] : Fields S A) [] {name} = [] := by
      simp [applyChanges, calculateSizeOfUnion, mergeChanges]
    rw [modifyParent_of_not_hasMap hnothing o.sorted hmap]
    exact setField_eq o.sorted hfront (.node [])

theorem fields_setOrRemove (o : ObjectValue S A) {d : List S × Option (Value S A)}
    (hd : d.1 ≠ []) :
    (o.setOrRemove d).fields = putField o.fields (d.1, d.2.map Subtype.val) := by
  obtain ⟨path, value⟩ := d
  cases value with
  | none =>
      obtain ⟨front, name, rfl⟩ := eq_append_of_ne_nil hd
      exact fields_remove o front name
  | some value =>
      rw [Option.map_some, putField_some o.sorted hd]
      exact setField_eq o.sorted hd value.1

/-- Setting many fields at once is setting and deleting one after the other. -/
theorem setAll_one_by_one (o : ObjectValue S A) {data : TransformMap S A}
    (hne : ∀ d ∈ data, d.1 ≠ []) (hapart : Apart data) :
    o.setAll data = data.foldl setOrRemove o := by
  refine eq_of_fields_eq ?_
  rw [fields_setAll_eq_foldl o hne hapart]
  clear hapart
  induction data generalizing o with
  | nil => rfl
  | cons d data ih =>
      obtain ⟨hd, hne⟩ := List.forall_mem_cons.mp hne
      rw [List.foldl_cons, ← ih (o.setOrRemove d) hne, fields_setOrRemove o hd]
      rfl

/-- A field is set, and one deleted and one set in a map that was not there. -/
theorem setAll_one_by_one_twoMaps :
    (empty : ObjectValue Nat Char).setAll [([1], some ⟨.leaf 'a', .leaf 'a'⟩), ([2, 1], none),
      ([2, 2], some ⟨.leaf 'b', .leaf 'b'⟩)] =
    ((empty.set [1] ⟨.leaf 'a', .leaf 'a'⟩).remove [2, 1]).set [2, 2] ⟨.leaf 'b', .leaf 'b'⟩ :=
  setAll_one_by_one empty (by simp) (by simp [Apart])

/-- Where no field is deleted, it is writing at each path. -/
theorem fields_setAll (o : ObjectValue S A) {writes : List (List S × Value S A)}
    (hne : ∀ w ∈ writes, w.1 ≠ []) (hnodup : (writes.map Prod.fst).Nodup) :
    (o.setAll (writes.map fun w => (w.1, some w.2))).fields =
      Nested.setAll o.fields (writes.map fun w => (w.1, w.2.1)) := by
  rw [fields_setAll_eq_foldl o]
  · have hfold : ∀ fields : Fields S A, Sorted (.node fields) →
        (bare (writes.map fun w => (w.1, some w.2))).foldl putField fields =
          Nested.setAll fields (writes.map fun w => (w.1, w.2.1)) := by
      clear hnodup
      induction writes with
      | nil => exact fun _ _ => rfl
      | cons w writes ih =>
          intro fields h
          obtain ⟨hw, hne⟩ := List.forall_mem_cons.mp hne
          have hput : putField fields (w.1, some w.2.1) = Nested.set w.1 w.2.1 fields :=
            putField_some h hw w.2.1
          have ih := ih hne _ (sorted_set h w.1 w.2.2)
          rw [← hput] at ih
          simp only [List.map_cons, Nested.setAll, List.foldl_cons, bare, Option.map_some]
          rw [← hput]
          exact ih
    exact hfold o.fields o.sorted
  · intro d hd
    obtain ⟨w, hw, rfl⟩ := List.mem_map.mp hd
    exact hne w hw
  · refine List.pairwise_map.mpr ((List.pairwise_map.mp hnodup).imp fun {a b} hab => ⟨hab, ?_⟩)
    intro ha
    cases ha

end ObjectValue

end Firebase.Local
