/-
The fields of a document.

An `ObjectValue` is a tree of maps, the entries of each in the order of their names.  All
changes end in `applyChanges`, which makes a new array of entries in one pass over three
ordered sequences: the entries there are, those to put and the names to take away.  `setAll`
puts many fields at once; it collects the changes of one map and makes them together when it
comes to a field of another.

A value that is not a map is an atom here.  Values are sorted when they are built, so sorting
one again is left out.
-/
import GoodThing.Lib.Nested
import Mathlib.Data.Finset.Sort
import Mathlib.Data.List.Lex
import Mathlib.Data.List.TakeWhile

namespace Firebase.Local

open Nested

variable {S A : Type} [LinearOrder S]

/-! ### The entries of a map -/

abbrev Fields (S A : Type) := List (S × Tree S A)

/-- How many entries there are after the changes. -/
def calculateSizeOfUnion (fields upserts : Fields S A) (deletes : Finset S) : Nat :=
  upserts.length +
    fields.countP fun e => decide (e.1 ∉ deletes) && decide (e.1 ∉ upserts.map Prod.fst)

/-- The entries of the target from here on, of which there are `n`. -/
def mergeChanges : Nat → Fields S A → Fields S A → List S → Fields S A
  | 0, _, _, _ => []
  | _ + 1, [], [], _ => []
  | n + 1, [], u :: upserts, deletes => u :: mergeChanges n [] upserts deletes
  | n + 1, e :: source, upserts, deletes =>
      -- A name that is not there is never passed by, and no name behind it is looked at.
      if deletes.head? = some e.1 then mergeChanges (n + 1) source upserts deletes.tail
      else
        match upserts with
        | [] => e :: mergeChanges n source [] deletes
        | u :: rest =>
            if u.1 = e.1 then (e.1, u.2) :: mergeChanges n source rest deletes
            else if e.1 < u.1 then e :: mergeChanges n source (u :: rest) deletes
            else u :: mergeChanges n (e :: source) rest deletes
  termination_by n source => (n, source.length)

def applyChanges (parent upserts : Fields S A) (deletes : Finset S) : Fields S A :=
  mergeChanges (calculateSizeOfUnion parent upserts deletes) parent upserts deletes.sort

/-! ### The pass

The names taken away are those before the first that is not there.  What is left and what is
put is merged, and cut off at the number of entries.
-/

/-- The names the pass gets to take away. -/
def matched (fields : Fields S A) (deletes : List S) : List S :=
  deletes.takeWhile fun d => decide (d ∈ fields.map Prod.fst)

/-- The entries the pass does not take away. -/
def remaining (fields : Fields S A) (deletes : List S) : Fields S A :=
  fields.filter fun e => decide (e.1 ∉ matched fields deletes)

theorem mem_of_mem_matched {fields : Fields S A} {deletes : List S} {d : S}
    (h : d ∈ matched fields deletes) : d ∈ deletes ∧ d ∈ fields.map Prod.fst :=
  ⟨(List.takeWhile_sublist _).subset h, by simpa using List.mem_takeWhile_imp h⟩

theorem matched_cons_of_lt {e : S × Tree S A} {fields : Fields S A} {deletes : List S}
    (h : ∀ d ∈ deletes, e.1 < d) : matched (e :: fields) deletes = matched fields deletes := by
  induction deletes with
  | nil => rfl
  | cons d deletes ih =>
      obtain ⟨hd, h⟩ := List.forall_mem_cons.mp h
      have hmem : d ∈ (e :: fields).map Prod.fst ↔ d ∈ fields.map Prod.fst := by
        rw [List.map_cons, List.mem_cons, or_iff_right (ne_of_gt hd)]
      have ih := ih h
      rw [matched, matched] at ih
      rw [matched, matched, List.takeWhile_cons, List.takeWhile_cons, ih, decide_eq_decide.mpr hmem]

theorem matched_cons_of_not_mem {fields : Fields S A} {d : S} (deletes : List S)
    (h : d ∉ fields.map Prod.fst) : matched fields (d :: deletes) = [] :=
  List.takeWhile_cons_of_neg (by simpa using h)

theorem remaining_cons_of_head {e : S × Tree S A} {fields : Fields S A} {deletes : List S}
    (ho : Ordered (e :: fields)) (hd : (e.1 :: deletes).Pairwise (· < ·)) :
    remaining (e :: fields) (e.1 :: deletes) = remaining fields deletes := by
  obtain ⟨hlt, -⟩ := ordered_cons.mp ho
  have hmatched : matched (e :: fields) (e.1 :: deletes) = e.1 :: matched fields deletes := by
    rw [← matched_cons_of_lt (List.pairwise_cons.mp hd).1]
    exact List.takeWhile_cons_of_pos (by simp)
  rw [remaining, hmatched, List.filter_cons_of_neg (by simp), remaining]
  refine List.filter_congr fun f hf => ?_
  rw [decide_eq_decide, List.mem_cons, or_iff_right (ne_of_gt (hlt f hf))]

theorem remaining_cons_of_ne {e : S × Tree S A} {fields : Fields S A} {deletes : List S}
    (ho : Ordered (e :: fields)) (hd : deletes.Pairwise (· < ·))
    (hne : deletes.head? ≠ some e.1) :
    remaining (e :: fields) deletes = e :: remaining fields deletes := by
  have hmatched : e.1 ∉ matched fields deletes ∧
      matched (e :: fields) deletes = matched fields deletes := by
    obtain ⟨hlt, -⟩ := ordered_cons.mp ho
    have hnot : ∀ f ∈ fields, f.1 ≠ e.1 := fun f hf => ne_of_gt (hlt f hf)
    refine ⟨fun h => ?_, ?_⟩
    · obtain ⟨f, hf, heq⟩ := List.mem_map.mp (mem_of_mem_matched h).2
      exact hnot f hf heq
    · cases deletes with
      | nil => rfl
      | cons d deletes =>
          rcases lt_trichotomy d e.1 with hde | hde | hde
          · -- The name is not there, here or behind.
            have hbelow : ∀ f ∈ e :: fields, d < f.1 := List.forall_mem_cons.mpr
              ⟨hde, fun f hf => lt_trans hde (hlt f hf)⟩
            have habsent := find_eq_none.mp (find_eq_none_of_lt hbelow)
            rw [matched_cons_of_not_mem deletes habsent, matched_cons_of_not_mem]
            exact fun h => habsent (List.mem_cons_of_mem _ h)
          · exact absurd (congrArg some hde) hne
          · refine matched_cons_of_lt (List.forall_mem_cons.mpr ⟨hde, ?_⟩)
            intro d' hd'
            exact lt_trans hde ((List.pairwise_cons.mp hd).1 d' hd')
  rw [remaining, hmatched.2, List.filter_cons_of_pos (by simpa using hmatched.1), remaining]

theorem mergeChanges_eq (n : Nat) {source upserts : Fields S A} {deletes : List S}
    (ho : Ordered source) (hd : deletes.Pairwise (· < ·)) :
    mergeChanges n source upserts deletes = (merge (remaining source deletes) upserts).take n := by
  induction n, source, upserts, deletes using mergeChanges.induct with
  | case1 source upserts deletes => simp [mergeChanges]
  | case2 deletes n => simp [mergeChanges, remaining]
  | case3 deletes n u upserts ih =>
      rw [mergeChanges, ih ho hd]
      simp [remaining, merge]
  | case4 n e source upserts deletes hhead ih =>
      obtain ⟨rest, rfl⟩ : ∃ rest, deletes = e.1 :: rest := List.head?_eq_some_iff.mp hhead
      have ih := ih (ordered_cons.mp ho).2 (List.pairwise_cons.mp hd).2
      rw [List.tail_cons] at ih
      rw [remaining_cons_of_head ho hd, Nat.succ_eq_add_one, ← ih]
      cases upserts <;> simp [mergeChanges]
  | case5 n e source deletes hhead ih =>
      rw [mergeChanges, if_neg hhead, remaining_cons_of_ne ho hd hhead]
      simp only [merge_nil, List.take_succ_cons, ih (ordered_cons.mp ho).2 hd]
  | case6 n e source deletes hhead u rest heq ih =>
      rw [mergeChanges, if_neg hhead, remaining_cons_of_ne ho hd hhead]
      simp only [heq, ↓reduceIte, merge, lt_self_iff_false, List.take_succ_cons,
        ih (ordered_cons.mp ho).2 hd]
      rw [← heq]
  | case7 n e source deletes hhead u rest hne hlt ih =>
      rw [mergeChanges, if_neg hhead, remaining_cons_of_ne ho hd hhead]
      simp only [hne, hlt, ↓reduceIte, merge, List.take_succ_cons, ih (ordered_cons.mp ho).2 hd]
  | case8 n e source deletes hhead u rest hne hnlt ih =>
      have hgt : u.1 < e.1 := lt_of_le_of_ne (not_lt.mp hnlt) hne
      rw [mergeChanges, if_neg hhead, ih ho hd, remaining_cons_of_ne ho hd hhead]
      simp only [hne, hnlt, hgt, ↓reduceIte, merge, List.take_succ_cons]

theorem applyChanges_eq {parent : Fields S A} (ho : Ordered parent) (upserts : Fields S A)
    (deletes : Finset S) :
    applyChanges parent upserts deletes =
      (merge (remaining parent deletes.sort) upserts).take
        (calculateSizeOfUnion parent upserts deletes) :=
  mergeChanges_eq _ ho deletes.sortedLT_sort.pairwise

theorem sorted_applyChanges {parent upserts : Fields S A} (hp : Sorted (.node parent))
    (hu : Sorted (.node upserts)) (deletes : Finset S) :
    Sorted (.node (applyChanges parent upserts deletes)) := by
  obtain ⟨ho, hbelow⟩ := sorted_node.mp hp
  obtain ⟨hou, hbelowu⟩ := sorted_node.mp hu
  rw [applyChanges_eq ho]
  refine .node (List.Pairwise.take ((ho.filter _).merge hou)) ?_
  intro e he
  rcases mem_merge (List.mem_of_mem_take he) with he | he
  · exact hbelow e (List.mem_of_mem_filter he)
  · exact hbelowu e he

/-- With nothing to take away, the pass is a merge. -/
theorem applyChanges_empty {parent upserts : Fields S A} (hp : Ordered parent)
    (hu : Ordered upserts) : applyChanges parent upserts ∅ = merge parent upserts := by
  have hremaining : remaining parent [] = parent := by simp [remaining, matched]
  rw [applyChanges_eq hp, Finset.sort_empty, hremaining]
  refine List.take_of_length_le (le_of_eq ?_)
  rw [length_merge hp hu]
  simp [calculateSizeOfUnion]

/-! ### Fields by their path -/

/-- The entry of a name with another value. -/
def setEntry (fields : Fields S A) (name : S) (value : Tree S A) : Fields S A :=
  fields.map fun e => if e.1 = name then (name, value) else e

/-- A change of the map `ParentMap` finds or makes at a path. -/
def modifyParent : List S → (Fields S A → Fields S A) → Fields S A → Fields S A
  | [], change, fields => change fields
  | segment :: path, change, fields =>
      let fields :=
        if (find fields segment).isSome then fields
        else applyChanges fields [(segment, .node [])] ∅
      -- What is there and is no map becomes an empty one.
      setEntry fields segment (.node (modifyParent path change (branches fields segment)))

theorem find_setEntry (fields : Fields S A) (name : S) (value : Tree S A) (k : S) :
    find (setEntry fields name value) k =
      if k = name then (find fields k).map fun _ => value else find fields k := by
  induction fields with
  | nil => simp [setEntry]
  | cons e fields ih =>
      have hcons : setEntry (e :: fields) name value =
          (if e.1 = name then (name, value) else e) :: setEntry fields name value := rfl
      rw [hcons, find_cons, ih, find_cons]
      by_cases he : e.1 = name <;> by_cases hk : k = name <;> grind

theorem map_setEntry (fields : Fields S A) (name : S) (value : Tree S A) :
    (setEntry fields name value).map Prod.fst = fields.map Prod.fst := by
  rw [setEntry, List.map_map]
  refine List.map_congr_left fun e _ => ?_
  simp only [Function.comp_apply]
  split
  · next h => exact h.symm
  · rfl

theorem ordered_setEntry {fields : Fields S A} (h : Ordered fields) (name : S)
    (value : Tree S A) : Ordered (setEntry fields name value) := by
  have hkeys : (fields.map Prod.fst).Pairwise (· < ·) := List.pairwise_map.mpr h
  rw [← map_setEntry fields name value] at hkeys
  exact List.pairwise_map.mp hkeys

theorem setEntry_eq_upsert {fields : Fields S A} (h : Ordered fields) {name : S}
    (hthere : (find fields name).isSome) (value : Tree S A) :
    setEntry fields name value = upsert name value fields := by
  refine ext_find (ordered_setEntry h name _) (h.upsert name _) fun k => ?_
  rw [find_setEntry, find_upsert]
  by_cases hk : k = name
  · subst hk
    obtain ⟨t, ht⟩ := Option.isSome_iff_exists.mp hthere
    simp [ht]
  · rw [if_neg hk, if_neg (Ne.symm hk)]

theorem modifyParent_cons {fields : Fields S A} (h : Ordered fields) (segment : S)
    (path : List S) (change : Fields S A → Fields S A) :
    modifyParent (segment :: path) change fields =
      upsert segment (.node (modifyParent path change (branches fields segment))) fields := by
  rw [modifyParent]
  split
  · next hthere => exact setEntry_eq_upsert h hthere _
  · next hnone =>
    have hmade : applyChanges fields [(segment, .node [])] ∅ =
        upsert segment (.node []) fields := by
      rw [applyChanges_empty h (List.pairwise_singleton _ _), merge_singleton h]
    have hempty : branches (upsert segment (.node []) fields) segment =
        branches fields segment := by
      have habsent : find fields segment = none := by simpa using hnone
      simp [branches, find_upsert, habsent]
    rw [hmade, hempty]
    refine ext_find (ordered_setEntry (h.upsert segment _) segment _) (h.upsert segment _)
      fun k => ?_
    rw [find_setEntry, find_upsert, find_upsert]
    by_cases hk : k = segment
    · simp [hk]
    · simp [hk, Ne.symm hk]

theorem sorted_modifyParent {change : Fields S A → Fields S A}
    (hc : ∀ {m}, Sorted (.node m) → Sorted (.node (change m))) (path : List S)
    {fields : Fields S A} (h : Sorted (.node fields)) :
    Sorted (.node (modifyParent path change fields)) := by
  induction path generalizing fields with
  | nil => exact hc h
  | cons segment path ih =>
      rw [modifyParent_cons (sorted_node.mp h).1]
      exact sorted_upsert h segment (ih (sorted_branches h segment))

def setField (path : List S) (value : Tree S A) (fields : Fields S A) : Fields S A :=
  match path.getLast? with
  | none => fields
  | some name => modifyParent path.dropLast (applyChanges · [(name, value)] ∅) fields

/-- Nothing is made on the way to a field that is deleted. -/
def deleteField : List S → Fields S A → Fields S A
  | [], fields => fields
  | [name], fields => applyChanges fields [] {name}
  | segment :: path, fields =>
      match find fields segment with
      | some (.node nested) => setEntry fields segment (.node (deleteField path nested))
      | _ => fields

def isImmediateParentOf (parent path : List S) : Bool :=
  parent.length + 1 = path.length && parent.isPrefixOf path

/-- What is to be put into one map and taken away from it. -/
structure Changes (S A : Type) [LinearOrder S] where
  upserts : Fields S A
  deletes : Finset S

namespace Changes

def empty : Changes S A := ⟨[], ∅⟩

def add (c : Changes S A) (path : List S) (value : Option (Tree S A)) : Changes S A :=
  match path.getLast?, value with
  | some name, some value => { c with upserts := upsert name value c.upserts }
  | some name, none => { c with deletes := insert name c.deletes }
  | none, _ => c

def apply (c : Changes S A) (parent : List S) (fields : Fields S A) : Fields S A :=
  modifyParent parent (applyChanges · c.upserts c.deletes) fields

end Changes

/-- The loop of `SetAll`, with the changes collected for the map at `parent`. -/
def setFields : List (List S × Option (Tree S A)) → List S → Changes S A → Fields S A →
    Fields S A
  | [], parent, changes, fields => changes.apply parent fields
  | (path, value) :: data, parent, changes, fields =>
      if isImmediateParentOf parent path then
        setFields data parent (changes.add path value) fields
      else
        setFields data path.dropLast (Changes.empty.add path value) (changes.apply parent fields)

theorem sorted_nil : Sorted (.node ([] : Fields S A)) := .node List.Pairwise.nil (by simp)

theorem sorted_setField {fields : Fields S A} (h : Sorted (.node fields)) (path : List S)
    {value : Tree S A} (hv : Sorted value) : Sorted (.node (setField path value fields)) := by
  rw [setField]
  split
  · exact h
  · next name _ =>
    have hu : Sorted (.node [(name, value)]) := .node (List.pairwise_singleton _ _) (by simpa)
    exact sorted_modifyParent (fun hm => sorted_applyChanges hm hu ∅) path.dropLast h

theorem sorted_setEntry {fields : Fields S A} (h : Sorted (.node fields)) (name : S)
    {value : Tree S A} (hv : Sorted value) : Sorted (.node (setEntry fields name value)) := by
  obtain ⟨ho, hbelow⟩ := sorted_node.mp h
  refine .node (ordered_setEntry ho name value) ?_
  intro e he
  obtain ⟨f, hf, rfl⟩ := List.mem_map.mp he
  split
  · exact hv
  · exact hbelow f hf

theorem sorted_deleteField {path : List S} {fields : Fields S A} (h : Sorted (.node fields)) :
    Sorted (.node (deleteField path fields)) := by
  induction path generalizing fields with
  | nil => exact h
  | cons segment path ih =>
      cases path with
      | nil => exact sorted_applyChanges h sorted_nil _
      | cons next path =>
          rw [deleteField]
          · split
            · next nested hnested => exact sorted_setEntry h segment (ih (sorted_of_find h hnested))
            · exact h
          · simp

theorem Changes.sorted_add {c : Changes S A} (h : Sorted (.node c.upserts)) (path : List S)
    {value : Option (Tree S A)} (hv : ∀ v ∈ value, Sorted v) :
    Sorted (.node (c.add path value).upserts) := by
  unfold Changes.add
  split
  · next name v _ => exact sorted_upsert h name (hv v rfl)
  · exact h
  · exact h

theorem sorted_setFields {data : List (List S × Option (Tree S A))} {parent : List S}
    {changes : Changes S A} {fields : Fields S A} (hd : ∀ d ∈ data, ∀ v ∈ d.2, Sorted v)
    (hc : Sorted (.node changes.upserts)) (h : Sorted (.node fields)) :
    Sorted (.node (setFields data parent changes fields)) := by
  have hflush : ∀ {c : Changes S A} {parent : List S} {fields : Fields S A},
      Sorted (.node c.upserts) → Sorted (.node fields) →
      Sorted (.node (c.apply parent fields)) := by
    intro c parent fields hc h
    exact sorted_modifyParent (fun hm => sorted_applyChanges hm hc c.deletes) parent h
  induction data generalizing parent changes fields with
  | nil => exact hflush hc h
  | cons d data ih =>
      obtain ⟨hfirst, hd⟩ := List.forall_mem_cons.mp hd
      rw [setFields]
      split
      · exact ih hd (Changes.sorted_add hc d.1 hfirst) h
      · exact ih hd (Changes.sorted_add sorted_nil d.1 hfirst) (hflush hc h)

/-! ### Object values -/

abbrev Value (S A : Type) [LinearOrder S] := { t : Tree S A // Sorted t }

structure ObjectValue (S A : Type) [LinearOrder S] where
  fields : Fields S A
  sorted : Sorted (.node fields)

/-- The fields to set and, without a value, to delete, in the order of their paths. -/
abbrev TransformMap (S A : Type) [LinearOrder S] := List (List S × Option (Value S A))

namespace ObjectValue

theorem eq_of_fields_eq {o o' : ObjectValue S A} (h : o.fields = o'.fields) : o = o' := by
  cases o
  cases o'
  cases h
  rfl

def empty : ObjectValue S A := ⟨[], sorted_nil⟩

def get (o : ObjectValue S A) (path : List S) : Option (Value S A) :=
  (Nested.get (.node o.fields) path).pmap (fun t h => ⟨t, h⟩) fun _ h => sorted_of_get o.sorted h

def set (o : ObjectValue S A) (path : List S) (value : Value S A) : ObjectValue S A :=
  ⟨setField path value.1 o.fields, sorted_setField o.sorted path value.2⟩

def delete (o : ObjectValue S A) (path : List S) : ObjectValue S A :=
  ⟨deleteField path o.fields, sorted_deleteField o.sorted⟩

/-- What `SetAll` is given, without the proofs. -/
def bare (data : TransformMap S A) : List (List S × Option (Tree S A)) :=
  data.map fun d => (d.1, d.2.map Subtype.val)

theorem sorted_of_mem_bare {data : TransformMap S A} :
    ∀ d ∈ bare data, ∀ v ∈ d.2, Sorted v := by
  intro d hd v hv
  obtain ⟨e, -, rfl⟩ := List.mem_map.mp hd
  obtain ⟨w, -, rfl⟩ := Option.map_eq_some_iff.mp hv
  exact w.2

def setAll (o : ObjectValue S A) (data : TransformMap S A) : ObjectValue S A :=
  ⟨setFields (bare data) [] .empty o.fields,
    sorted_setFields sorted_of_mem_bare sorted_nil o.sorted⟩

theorem map_get (o : ObjectValue S A) (path : List S) :
    (o.get path).map Subtype.val = Nested.get (.node o.fields) path := by
  rw [get, Option.map_pmap, Option.pmap_eq_map, Option.map_id']

end ObjectValue

end Firebase.Local
