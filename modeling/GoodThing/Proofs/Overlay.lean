/-
What the mutations of a document come to.

`Effect` is the sum of mutations without the document they are applied to: nothing, some
patches, or another document in its place.  All it has to know of the document is whether it
is there, because that decides which preconditions hold.

Applying mutations one by one is applying their effect (`foldl_applyToLocalView`).  The
overlay that is read off the result is a function of the effect alone (`overlay_view`), and
applying it gives the result back (`apply_overlay`).  Both need patches that set fields and do
not delete any, at paths none of which leads through another.
-/
import GoodThing.Firebase.Mutation
import GoodThing.Proofs.ObjectValue

namespace Firebase.Local

open Nested
open Versioned (Precondition)

variable {K S A : Type} [LinearOrder S]

inductive Effect (S A : Type) [LinearOrder S] where
  | untouched
  | patched (patches : List (TransformMap S A)) (mask : FieldMask S)
  | replaced (value : Option (ObjectValue S A))

/-- Whether a precondition holds, as far as existence decides it. -/
def holds (precondition : Precondition) (found : Bool) : Bool :=
  match precondition with
  | .none => true
  | .exists exists_ => found == exists_
  | .updateTime _ => false

namespace Effect

/-- Whether there is a document, if there was one before. -/
def found (before : Bool) : Effect S A → Bool
  | .untouched => before
  | .patched .. => true
  | .replaced value => value.isSome

def add (before : Bool) (e : Effect S A) (m : Mutation K S A) : Effect S A :=
  if holds m.precondition (e.found before) then
    match m with
    | .set _ _ value => .replaced (some value)
    | .patch _ _ value fieldMask =>
        match e with
        | .untouched => .patched [getPatch value fieldMask] fieldMask
        | .patched patches mask =>
            .patched (patches ++ [getPatch value fieldMask]) (mask ∪ fieldMask)
        | .replaced data => .replaced ((data.getD .empty).setAll (getPatch value fieldMask))
    | .delete .. => .replaced none
  else e

def of (before : Bool) (ms : List (Mutation K S A)) : Effect S A :=
  ms.foldl (add before) .untouched

/-- A document with the effect, and the mask that goes with it. -/
def view (e : Effect S A) (d : MutableDocument K S A) :
    MutableDocument K S A × Option (FieldMask S) :=
  match e with
  | .untouched => (d, some ∅)
  | .patched patches mask =>
      (⟨d.key, .foundDocument, 0, patches.foldl ObjectValue.setAll d.value, .hasLocalMutations⟩,
        some mask)
  | .replaced (some value) => (⟨d.key, .foundDocument, 0, value, .hasLocalMutations⟩, none)
  | .replaced none => (⟨d.key, .noDocument, 0, .empty, .hasLocalMutations⟩, none)

theorem isFoundDocument_view (e : Effect S A) (d : MutableDocument K S A) :
    (e.view d).1.isFoundDocument = e.found d.isFoundDocument := by
  cases e with
  | untouched => rfl
  | patched patches mask => rfl
  | replaced value => cases value <;> rfl

end Effect

/-- The version of a document is no concern of a write of the app. -/
def Mutation.Unversioned (m : Mutation K S A) : Prop := ∀ time, m.precondition ≠ .updateTime time

theorem unversioned_toMutation (key : K) (w : Write S A) : (w.toMutation key).Unversioned := by
  intro time
  cases w <;> simp [Write.toMutation, Mutation.precondition]

theorem isValidFor_cell {p : Precondition} (hp : ∀ time, p ≠ .updateTime time)
    (d : MutableDocument K S A) : p.isValidFor d.cell = holds p d.isFoundDocument := by
  cases p with
  | none => rfl
  | «exists» exists_ => cases h : d.isFoundDocument <;> simp [Precondition.isValidFor, holds,
      MutableDocument.cell, h]
  | updateTime time => exact absurd rfl (hp time)

/-- One mutation more. -/
theorem applyToLocalView_view (e : Effect S A) (d : MutableDocument K S A) {m : Mutation K S A}
    (hm : m.Unversioned) :
    m.applyToLocalView (e.view d).1 (e.view d).2 = (e.add d.isFoundDocument m).view d := by
  have hvalid := isValidFor_cell hm (e.view d).1
  rw [Effect.isFoundDocument_view] at hvalid
  unfold Mutation.applyToLocalView Effect.add
  rw [hvalid]
  split
  · cases m with
    | set key precondition value =>
        cases e with
        | untouched => rfl
        | patched patches mask => rfl
        | replaced data => cases data <;> rfl
    | patch key precondition value fieldMask =>
        cases e with
        | untouched =>
            simp [Effect.view, MutableDocument.convertToFoundDocument,
              MutableDocument.setHasLocalMutations]
        | patched patches mask =>
            simp [Effect.view, MutableDocument.convertToFoundDocument,
              MutableDocument.setHasLocalMutations]
        | replaced data => cases data <;> rfl
    | delete key precondition =>
        cases e with
        | untouched => rfl
        | patched patches mask => rfl
        | replaced data => cases data <;> rfl
  · rfl

theorem foldl_applyToLocalView (ms : List (Mutation K S A)) (hms : ∀ m ∈ ms, m.Unversioned)
    (d : MutableDocument K S A) (e : Effect S A) :
    ms.foldl (fun view m => m.applyToLocalView view.1 view.2) (e.view d) =
      (ms.foldl (Effect.add d.isFoundDocument) e).view d := by
  induction ms generalizing e with
  | nil => rfl
  | cons m ms ih =>
      obtain ⟨hm, hms⟩ := List.forall_mem_cons.mp hms
      rw [List.foldl_cons, List.foldl_cons, applyToLocalView_view e d hm, ih hms]

/-! ### Patches that only set fields -/

namespace FieldMask

theorem mem_paths {mask : FieldMask S} {path : List S} : path ∈ paths mask ↔ path ∈ mask :=
  Finset.mem_sort _

theorem nodup_paths (mask : FieldMask S) : (paths mask).Nodup := Finset.sort_nodup _ _

theorem toFinset_paths (mask : FieldMask S) : (paths mask).toFinset = mask :=
  Finset.sort_toFinset _ _

end FieldMask

/-- The fields that patches set, one after the other. -/
def writes (patches : List (TransformMap S A)) : List (List S × Value S A) :=
  patches.flatten.filterMap fun d => d.2.map fun value => (d.1, value)

/-- No field is deleted, and no path leads through another. -/
structure Plain (patches : List (TransformMap S A)) (mask : FieldMask S) : Prop where
  values : ∀ patch ∈ patches, ∀ d ∈ patch, d.2.isSome
  nodup : ∀ patch ∈ patches, (patch.map Prod.fst).Nodup
  mem_mask : ∀ path, path ∈ mask ↔ ∃ patch ∈ patches, path ∈ patch.map Prod.fst
  independent : Independent {path | path ∈ mask}

/-- The same without the proofs of the values. -/
def bareWrites (ws : List (List S × Value S A)) : List (List S × Tree S A) :=
  ws.map fun w => (w.1, w.2.1)

theorem sorted_of_mem_bareWrites {ws : List (List S × Value S A)} :
    ∀ w ∈ bareWrites ws, Sorted w.2 := by
  intro w hw
  obtain ⟨v, -, rfl⟩ := List.mem_map.mp hw
  exact v.2.2

theorem last_bareWrites (ws : List (List S × Value S A)) (path : List S) :
    last (bareWrites ws) path = (find ws.reverse path).map Subtype.val := by
  rw [last, bareWrites, ← List.map_reverse, find_map]

theorem map_fst_bareWrites (ws : List (List S × Value S A)) :
    (bareWrites ws).map Prod.fst = ws.map Prod.fst := by
  rw [bareWrites, List.map_map]
  rfl

theorem patch_eq {patch : TransformMap S A} (h : ∀ d ∈ patch, d.2.isSome) :
    patch = (writes [patch]).map fun w => (w.1, some w.2) := by
  rw [writes, List.flatten_singleton]
  induction patch with
  | nil => rfl
  | cons d patch ih =>
      obtain ⟨hd, hrest⟩ := List.forall_mem_cons.mp h
      obtain ⟨path, value⟩ := d
      obtain ⟨v, rfl⟩ := Option.isSome_iff_exists.mp hd
      simp only [List.filterMap_cons, Option.map_some, List.map_cons]
      exact congrArg _ (ih hrest)

theorem writes_cons (patch : TransformMap S A) (patches : List (TransformMap S A)) :
    writes (patch :: patches) = writes [patch] ++ writes patches := by
  simp [writes]

theorem mem_map_writes {patch : TransformMap S A} (h : ∀ d ∈ patch, d.2.isSome) :
    patch.map Prod.fst = (writes [patch]).map Prod.fst := by
  conv_lhs => rw [patch_eq h]
  rw [List.map_map]
  rfl

namespace Plain

variable {patches : List (TransformMap S A)} {mask : FieldMask S}

theorem mem_writes (h : Plain patches mask) (path : List S) :
    path ∈ (writes patches).map Prod.fst ↔ path ∈ mask := by
  rw [h.mem_mask]
  have hvalues := h.values
  clear h
  induction patches with
  | nil => simp [writes]
  | cons patch patches ih =>
      obtain ⟨hpatch, hvalues⟩ := List.forall_mem_cons.mp hvalues
      rw [writes_cons, List.map_append, List.mem_append, ← mem_map_writes hpatch]
      refine (or_congr Iff.rfl (ih hvalues)).trans ?_
      simp

/-- Patching is writing the fields one by one. -/
theorem fields_foldl (h : Plain patches mask) (o : ObjectValue S A) :
    (patches.foldl ObjectValue.setAll o).fields =
      Nested.setAll o.fields (bareWrites (writes patches)) := by
  have hvalues := h.values
  have hnodup := h.nodup
  have hne : ∀ patch ∈ patches, ∀ d ∈ patch, d.1 ≠ [] := fun patch hp d hd =>
    h.independent.nonempty d.1 ((h.mem_mask d.1).mpr ⟨patch, hp, List.mem_map_of_mem hd⟩)
  clear h
  induction patches generalizing o with
  | nil => rfl
  | cons patch patches ih =>
      obtain ⟨hv, hvalues⟩ := List.forall_mem_cons.mp hvalues
      obtain ⟨hn, hnodup⟩ := List.forall_mem_cons.mp hnodup
      obtain ⟨hp, hne⟩ := List.forall_mem_cons.mp hne
      have hfirst : (o.setAll patch).fields =
          Nested.setAll o.fields (bareWrites (writes [patch])) := by
        conv_lhs => rw [patch_eq hv]
        refine ObjectValue.fields_setAll o (fun w hw => ?_) ?_
        · have hmem : w.1 ∈ (writes [patch]).map Prod.fst := List.mem_map_of_mem hw
          rw [← mem_map_writes hv] at hmem
          obtain ⟨d, hd, heq⟩ := List.mem_map.mp hmem
          rw [← heq]
          exact hp d hd
        · rw [← mem_map_writes hv]
          exact hn
      rw [List.foldl_cons, ih _ hvalues hnodup hne, hfirst, writes_cons patch patches, bareWrites,
        bareWrites, bareWrites, List.map_append, Nested.setAll, Nested.setAll, Nested.setAll,
        List.foldl_append]

theorem independent_writes (h : Plain patches mask) :
    Independent {path | path ∈ (bareWrites (writes patches)).map Prod.fst} := by
  rw [map_fst_bareWrites]
  exact h.independent.subset fun path hpath => (h.mem_writes path).mp hpath

end Plain

theorem get_of_fields {o : ObjectValue S A} {fields : Fields S A}
    {ws : List (List S × Value S A)} (ho : o.fields = Nested.setAll fields (bareWrites ws))
    (hws : Independent {path | path ∈ (bareWrites ws).map Prod.fst}) {path : List S}
    {value : Value S A} (hvalue : find ws.reverse path = some value) :
    o.get path = some value := by
  have hlast : last (bareWrites ws) path = some value.1 := by
    rw [last_bareWrites, hvalue]
    rfl
  have hget := get_setAll_below fields hws hlast []
  rw [List.append_nil, ← ho, ← ObjectValue.map_get] at hget
  obtain ⟨w, hw, heq⟩ := Option.map_eq_some_iff.mp hget
  rw [hw, Subtype.ext heq]

theorem fields_foldl_set {ws : List (List S × Value S A)} (hne : ∀ w ∈ ws, w.1 ≠ [])
    (o : ObjectValue S A) :
    (ws.foldl (fun o w => o.set w.1 w.2) o).fields = Nested.setAll o.fields (bareWrites ws) := by
  induction ws generalizing o with
  | nil => rfl
  | cons w ws ih =>
      obtain ⟨hw, hne⟩ := List.forall_mem_cons.mp hne
      have hset : (o.set w.1 w.2).fields = Nested.set w.1 w.2.1 o.fields :=
        setField_eq o.sorted hw w.2.1
      rw [List.foldl_cons, ih hne, hset]
      rfl

/-- What the patches leave in a field. -/
def lastWrite (patches : List (TransformMap S A)) (path : List S) : Option (Value S A) :=
  find (writes patches).reverse path

/-- The fields of the overlay. -/
def overlayWrites (patches : List (TransformMap S A)) (paths : List (List S)) :
    List (List S × Value S A) :=
  paths.filterMap fun path => (lastWrite patches path).map fun value => (path, value)

def overlayValue (patches : List (TransformMap S A)) (paths : List (List S)) : ObjectValue S A :=
  (overlayWrites patches paths).foldl (fun o w => o.set w.1 w.2) .empty

namespace Plain

variable {patches : List (TransformMap S A)} {mask : FieldMask S}

theorem exists_lastWrite (h : Plain patches mask) {path : List S} (hpath : path ∈ mask) :
    ∃ value, lastWrite patches path = some value := by
  rw [← h.mem_writes, ← List.mem_reverse, ← List.map_reverse] at hpath
  cases hl : lastWrite patches path with
  | none => exact absurd hpath (find_eq_none.mp hl)
  | some value => exact ⟨value, rfl⟩

/-- A patched document has in each field what was written last. -/
theorem get_foldl (h : Plain patches mask) (o : ObjectValue S A) {path : List S}
    (hpath : path ∈ mask) :
    (patches.foldl ObjectValue.setAll o).get path = lastWrite patches path := by
  obtain ⟨value, hvalue⟩ := h.exists_lastWrite hpath
  rw [hvalue]
  exact get_of_fields (h.fields_foldl o) h.independent_writes hvalue

theorem map_fst_overlayWrites (h : Plain patches mask) :
    (overlayWrites patches (FieldMask.paths mask)).map Prod.fst = FieldMask.paths mask := by
  have hsome : ∀ path ∈ FieldMask.paths mask, ∃ value, lastWrite patches path = some value :=
    fun path hpath => h.exists_lastWrite (FieldMask.mem_paths.mp hpath)
  rw [overlayWrites]
  generalize FieldMask.paths mask = paths at hsome ⊢
  induction paths with
  | nil => rfl
  | cons path paths ih =>
      obtain ⟨⟨value, hvalue⟩, hsome⟩ := List.forall_mem_cons.mp hsome
      rw [List.filterMap_cons, hvalue, Option.map_some, List.map_cons, ih hsome]

theorem find_overlayWrites (h : Plain patches mask) (path : List S) :
    find (overlayWrites patches (FieldMask.paths mask)).reverse path = lastWrite patches path := by
  rw [overlayWrites, ← List.filterMap_reverse, find_filterMap]
  split
  · rfl
  · next hnot =>
    rw [List.mem_reverse, FieldMask.mem_paths, ← h.mem_writes, ← List.mem_reverse,
      ← List.map_reverse] at hnot
    exact (find_eq_none.mpr hnot).symm

theorem independent_overlayWrites (h : Plain patches mask) :
    Independent {path |
      path ∈ (bareWrites (overlayWrites patches (FieldMask.paths mask))).map Prod.fst} := by
  rw [map_fst_bareWrites, h.map_fst_overlayWrites]
  exact h.independent.subset fun path hpath => FieldMask.mem_paths.mp hpath

theorem fields_overlayValue (h : Plain patches mask) :
    (overlayValue patches (FieldMask.paths mask)).fields =
      Nested.setAll [] (bareWrites (overlayWrites patches (FieldMask.paths mask))) := by
  refine fields_foldl_set (fun w hw => ?_) .empty
  have hmem : w.1 ∈ (overlayWrites patches (FieldMask.paths mask)).map Prod.fst :=
    List.mem_map_of_mem hw
  rw [h.map_fst_overlayWrites, FieldMask.mem_paths] at hmem
  exact h.independent.nonempty w.1 hmem

theorem get_overlayValue (h : Plain patches mask) {path : List S} (hpath : path ∈ mask) :
    (overlayValue patches (FieldMask.paths mask)).get path = lastWrite patches path := by
  obtain ⟨value, hvalue⟩ := h.exists_lastWrite hpath
  rw [hvalue]
  refine get_of_fields h.fields_overlayValue h.independent_overlayWrites ?_
  rw [h.find_overlayWrites, hvalue]

theorem getPatch_overlayValue (h : Plain patches mask) :
    getPatch (overlayValue patches (FieldMask.paths mask)) mask =
      (overlayWrites patches (FieldMask.paths mask)).map fun w => (w.1, some w.2) := by
  have hne : ∀ path ∈ FieldMask.paths mask, decide (path ≠ []) = true := fun path hpath =>
    decide_eq_true (h.independent.nonempty path (FieldMask.mem_paths.mp hpath))
  have hget : ∀ path ∈ FieldMask.paths mask, ∃ value,
      (overlayValue patches (FieldMask.paths mask)).get path = some value ∧
        lastWrite patches path = some value := by
    intro path hpath
    have hpath := FieldMask.mem_paths.mp hpath
    obtain ⟨value, hvalue⟩ := h.exists_lastWrite hpath
    exact ⟨value, by rw [h.get_overlayValue hpath, hvalue], hvalue⟩
  rw [getPatch, List.filter_eq_self.mpr hne, overlayWrites]
  generalize overlayValue patches (FieldMask.paths mask) = o at hget ⊢
  generalize FieldMask.paths mask = paths at hget ⊢
  induction paths with
  | nil => rfl
  | cons path paths ih =>
      obtain ⟨⟨value, hvalue, hlast⟩, hget⟩ := List.forall_mem_cons.mp hget
      rw [List.map_cons, List.filterMap_cons, hlast, hvalue, Option.map_some, List.map_cons,
        ih hget]

/-- The overlay sets the same fields to the same values. -/
theorem setAll_overlayValue (h : Plain patches mask) (o : ObjectValue S A) :
    o.setAll (getPatch (overlayValue patches (FieldMask.paths mask)) mask) =
      patches.foldl ObjectValue.setAll o := by
  refine ObjectValue.eq_of_fields_eq ?_
  rw [h.getPatch_overlayValue, ObjectValue.fields_setAll, h.fields_foldl]
  · refine setAll_congr o.fields o.sorted sorted_of_mem_bareWrites sorted_of_mem_bareWrites
      h.independent_overlayWrites fun path => ?_
    show last (bareWrites (overlayWrites patches (FieldMask.paths mask))) path = _
    rw [last_bareWrites, last_bareWrites, h.find_overlayWrites]
    rfl
  · intro w hw
    have hmem : w.1 ∈ (overlayWrites patches (FieldMask.paths mask)).map Prod.fst :=
      List.mem_map_of_mem hw
    rw [h.map_fst_overlayWrites, FieldMask.mem_paths] at hmem
    exact h.independent.nonempty w.1 hmem
  · rw [h.map_fst_overlayWrites]
    exact FieldMask.nodup_paths mask

end Plain

/-! ### The overlay -/

theorem foldl_overlayField {docValue : ObjectValue S A} {g : List S → Option (Value S A)}
    {paths : List (List S)} (hnodup : paths.Nodup)
    (hget : ∀ path ∈ paths, ∃ value, docValue.get path = some value ∧ g path = some value)
    (o : ObjectValue S A) {mask : FieldMask S} (hnew : ∀ path ∈ paths, path ∉ mask) :
    paths.foldl (Mutation.overlayField docValue) (o, mask) =
      ((paths.filterMap fun path => (g path).map fun value => (path, value)).foldl
        (fun o w => o.set w.1 w.2) o, mask ∪ paths.toFinset) := by
  induction paths generalizing o mask with
  | nil => simp
  | cons path paths ih =>
      obtain ⟨hpath, hnodup⟩ := List.nodup_cons.mp hnodup
      obtain ⟨⟨value, hvalue, hg⟩, hget⟩ := List.forall_mem_cons.mp hget
      obtain ⟨hfirst, hnew⟩ := List.forall_mem_cons.mp hnew
      have hstep : Mutation.overlayField docValue (o, mask) path =
          (o.set path value, insert path mask) := by
        simp [Mutation.overlayField, hfirst, hvalue]
      have hnext : ∀ p ∈ paths, p ∉ insert path mask := by
        intro p hp hmem
        rcases Finset.mem_insert.mp hmem with rfl | hmem
        · exact hpath hp
        · exact hnew p hp hmem
      rw [List.foldl_cons, hstep, ih hnodup hget _ hnext, List.filterMap_cons, hg, Option.map_some,
        List.foldl_cons, List.toFinset_cons, Finset.insert_union, Finset.union_insert]

theorem Plain.foldl_overlayField {patches : List (TransformMap S A)} {mask : FieldMask S}
    (h : Plain patches mask) (o : ObjectValue S A) :
    (FieldMask.paths mask).foldl (Mutation.overlayField (patches.foldl ObjectValue.setAll o))
        (.empty, ∅) =
      (overlayValue patches (FieldMask.paths mask), mask) := by
  rw [Local.foldl_overlayField (g := lastWrite patches) (FieldMask.nodup_paths mask) ?_ .empty
    (by simp), FieldMask.toFinset_paths, Finset.empty_union]
  · rfl
  · intro path hpath
    have hpath := FieldMask.mem_paths.mp hpath
    obtain ⟨value, hvalue⟩ := h.exists_lastWrite hpath
    exact ⟨value, by rw [h.get_foldl o hpath, hvalue], hvalue⟩

namespace Effect

/-- The mutation that has the effect on its own. -/
def overlay (key : K) : Effect S A → Option (Mutation K S A)
  | .untouched => none
  | .patched patches mask =>
      some (.patch key .none (overlayValue patches (FieldMask.paths mask)) mask)
  | .replaced (some value) => some (.set key .none value)
  | .replaced none => some (.delete key .none)

/-- Patches that only set fields, at paths of a set. -/
def PlainIn (allowed : Set (List S)) : Effect S A → Prop
  | .patched patches mask => Plain patches mask ∧ ∀ path ∈ mask, path ∈ allowed
  | _ => True

variable {allowed : Set (List S)} {e : Effect S A} {d : MutableDocument K S A}

/-- The overlay that is read off a document is that of the effect. -/
theorem calculateOverlayMutation_view (he : e.PlainIn allowed) (hd : d.hasLocalMutations = false) :
    Mutation.calculateOverlayMutation (e.view d).1 (e.view d).2 = e.overlay d.key := by
  cases e with
  | untouched => simp [view, overlay, Mutation.calculateOverlayMutation, hd]
  | patched patches mask =>
      simp [view, overlay, Mutation.calculateOverlayMutation, MutableDocument.hasLocalMutations,
        he.1.foldl_overlayField d.value]
  | replaced value =>
      cases value <;> simp [view, overlay, Mutation.calculateOverlayMutation,
        MutableDocument.hasLocalMutations, MutableDocument.isNoDocument]

theorem overlay_eq_none {e : Effect S A} {key : K} : e.overlay key = none ↔ e = .untouched := by
  cases e with
  | untouched => simp [overlay]
  | patched patches mask => simp [overlay]
  | replaced value => cases value <;> simp [overlay]

/-- An effect is seen: what it leaves has local writes. -/
theorem eq_untouched_of_view (hd : d.hasLocalMutations = false) (h : (e.view d).1 = d) :
    e = .untouched := by
  cases e with
  | untouched => rfl
  | patched patches mask =>
      rw [← h] at hd
      cases hd
  | replaced value =>
      rw [← h] at hd
      cases value with
      | none => cases hd
      | some value => cases hd

/-- Applying the overlay has the effect. -/
theorem apply_overlay (he : e.PlainIn allowed) {m : Mutation K S A}
    (hm : e.overlay d.key = some m) (mask : Option (FieldMask S)) :
    (m.applyToLocalView d mask).1 = (e.view d).1 := by
  cases e with
  | untouched => cases hm
  | patched patches fields =>
      obtain rfl := Option.some_inj.mp hm
      simp [Mutation.applyToLocalView, Mutation.precondition, Precondition.isValidFor, view,
        MutableDocument.convertToFoundDocument, MutableDocument.setHasLocalMutations,
        he.1.setAll_overlayValue d.value]
  | replaced value =>
      cases value with
      | none =>
          obtain rfl := Option.some_inj.mp hm
          rfl
      | some value =>
          obtain rfl := Option.some_inj.mp hm
          rfl

end Effect

/-! ### Mutations that only set fields -/

/-- A patch only sets fields, at paths of a set. -/
def Mutation.PlainIn (allowed : Set (List S)) : Mutation K S A → Prop
  | .patch _ _ value fieldMask => ∀ path ∈ fieldMask, path ∈ allowed ∧ (value.get path).isSome
  | _ => True

section PlainIn

variable {allowed : Set (List S)} {value : ObjectValue S A} {fieldMask : FieldMask S}

theorem getPatch_eq (value : ObjectValue S A) (hallowed : Independent allowed)
    (h : ∀ path ∈ fieldMask, path ∈ allowed) :
    getPatch value fieldMask =
      (FieldMask.paths fieldMask).map fun path => (path, value.get path) := by
  rw [getPatch, List.filter_eq_self.mpr]
  intro path hpath
  exact decide_eq_true (hallowed.nonempty path (h path (FieldMask.mem_paths.mp hpath)))

/-- More patches of that kind are of that kind. -/
theorem Plain.append (hallowed : Independent allowed) {patches : List (TransformMap S A)}
    {mask : FieldMask S} (hp : Plain patches mask) (hmask : ∀ path ∈ mask, path ∈ allowed)
    (h : ∀ path ∈ fieldMask, path ∈ allowed ∧ (value.get path).isSome) :
    Plain (patches ++ [getPatch value fieldMask]) (mask ∪ fieldMask) := by
  have hpatch := getPatch_eq value hallowed fun path hpath => (h path hpath).1
  have hpaths : (getPatch value fieldMask).map Prod.fst = FieldMask.paths fieldMask := by
    rw [hpatch, List.map_map]
    exact List.map_id _
  refine ⟨fun patch hmem => ?_, fun patch hmem => ?_, fun path => ?_, ?_⟩
  · rcases List.mem_append.mp hmem with hmem | hmem
    · exact hp.values patch hmem
    · rw [List.mem_singleton.mp hmem, hpatch]
      intro d hd
      obtain ⟨path, hpath, rfl⟩ := List.mem_map.mp hd
      exact (h path (FieldMask.mem_paths.mp hpath)).2
  · rcases List.mem_append.mp hmem with hmem | hmem
    · exact hp.nodup patch hmem
    · rw [List.mem_singleton.mp hmem, hpaths]
      exact FieldMask.nodup_paths fieldMask
  · have hmem : path ∈ fieldMask ↔ path ∈ (getPatch value fieldMask).map Prod.fst := by
      rw [hpaths, FieldMask.mem_paths]
    rw [Finset.mem_union, hp.mem_mask, hmem]
    simp only [List.mem_append, List.mem_singleton, or_and_right, exists_or, exists_eq_left]
  · refine hallowed.subset fun path hpath => ?_
    rcases Finset.mem_union.mp hpath with hpath | hpath
    · exact hmask path hpath
    · exact (h path hpath).1

theorem plain_nil : Plain ([] : List (TransformMap S A)) ∅ where
  values := by simp
  nodup := by simp
  mem_mask := by simp
  independent := ⟨by simp, by simp⟩

theorem Effect.PlainIn.add (hallowed : Independent allowed) {e : Effect S A}
    (he : e.PlainIn allowed) {m : Mutation K S A} (hm : m.PlainIn allowed) (before : Bool) :
    (e.add before m).PlainIn allowed := by
  unfold Effect.add
  split
  · cases m with
    | set key precondition value => trivial
    | delete key precondition => trivial
    | patch key precondition value fieldMask =>
        cases e with
        | untouched =>
            have h := plain_nil.append hallowed (by simp) hm
            rw [List.nil_append, Finset.empty_union] at h
            exact ⟨h, fun path hpath => (hm path hpath).1⟩
        | patched patches mask =>
            refine ⟨he.1.append hallowed he.2 hm, fun path hpath => ?_⟩
            rcases Finset.mem_union.mp hpath with hpath | hpath
            · exact he.2 path hpath
            · exact (hm path hpath).1
        | replaced data => trivial
  · exact he

theorem Effect.plainIn_of (hallowed : Independent allowed) {ms : List (Mutation K S A)}
    (hms : ∀ m ∈ ms, m.PlainIn allowed) (before : Bool) :
    (Effect.of before ms).PlainIn allowed := by
  have hfold : ∀ e : Effect S A, e.PlainIn allowed →
      (ms.foldl (Effect.add before) e).PlainIn allowed := by
    induction ms with
    | nil => exact fun e he => he
    | cons m ms ih =>
        intro e he
        obtain ⟨hm, hms⟩ := List.forall_mem_cons.mp hms
        exact ih hms _ (he.add hallowed hm before)
  exact hfold .untouched trivial

end PlainIn

theorem applyAll_eq {ms : List (Mutation K S A)} (hms : ∀ m ∈ ms, m.Unversioned)
    (d : MutableDocument K S A) :
    Mutation.applyAll ms d = (Effect.of d.isFoundDocument ms).view d :=
  foldl_applyToLocalView ms hms d .untouched

/-- The overlay read off one document stands for the writes on every document of that key that
is there, or not there, like it.  There is none exactly if the writes leave the document as it
is. -/
theorem overlay_exact {allowed : Set (List S)} (hallowed : Independent allowed) {key : K}
    {writes : List (Write S A)} (hwrites : ∀ w ∈ writes, (w.toMutation key).PlainIn allowed)
    {d base : MutableDocument K S A} (hlocal : d.hasLocalMutations = false)
    (hkey : base.key = d.key) (hfound : base.isFoundDocument = d.isFoundDocument) :
    (Mutation.calculateOverlayMutation
        (Mutation.applyAll (writes.map (Write.toMutation key)) d).1
        (Mutation.applyAll (writes.map (Write.toMutation key)) d).2).elim base
      (fun overlay => (overlay.applyToLocalView base (some ∅)).1) =
    (Mutation.applyAll (writes.map (Write.toMutation key)) base).1 ∧
    (Mutation.calculateOverlayMutation
        (Mutation.applyAll (writes.map (Write.toMutation key)) d).1
        (Mutation.applyAll (writes.map (Write.toMutation key)) d).2 = none ↔
      (Mutation.applyAll (writes.map (Write.toMutation key)) d).1 = d) := by
  have hunversioned : ∀ m ∈ writes.map (Write.toMutation key), m.Unversioned := by
    intro m hm
    obtain ⟨w, -, rfl⟩ := List.mem_map.mp hm
    exact unversioned_toMutation key w
  have hplain : ∀ m ∈ writes.map (Write.toMutation key), m.PlainIn allowed := by
    intro m hm
    obtain ⟨w, hw, rfl⟩ := List.mem_map.mp hm
    exact hwrites w hw
  have he := Effect.plainIn_of hallowed hplain d.isFoundDocument
  rw [applyAll_eq hunversioned, applyAll_eq hunversioned, hfound,
    Effect.calculateOverlayMutation_view he hlocal, ← hkey]
  generalize Effect.of d.isFoundDocument (writes.map (Write.toMutation key)) = e at he
  refine ⟨?_, ?_⟩
  · cases ho : e.overlay base.key with
    | none =>
        rw [Effect.overlay_eq_none.mp ho]
        rfl
    | some m => exact Effect.apply_overlay he ho (some ∅)
  · rw [Effect.overlay_eq_none]
    refine ⟨?_, Effect.eq_untouched_of_view hlocal⟩
    rintro rfl
    rfl

/-- One field of the document is updated and another merged into it, while the cached document
becomes a later one. -/
theorem overlay_exact_laterVersion :
    ∃ field : Nat → Char → ObjectValue Nat Char,
      (Mutation.calculateOverlayMutation
          (Mutation.applyAll ([Write.updateData (field 1 'a') {[1]},
            .mergeData (field 2 'b') {[2]}].map (Write.toMutation ()))
            (.foundDocument () 3 (field 1 'c'))).1
          (Mutation.applyAll ([Write.updateData (field 1 'a') {[1]},
            .mergeData (field 2 'b') {[2]}].map (Write.toMutation ()))
            (.foundDocument () 3 (field 1 'c'))).2).elim (.foundDocument () 5 (field 2 'd'))
        (fun overlay => (overlay.applyToLocalView (.foundDocument () 5 (field 2 'd')) (some ∅)).1) =
      (Mutation.applyAll ([Write.updateData (field 1 'a') {[1]},
        .mergeData (field 2 'b') {[2]}].map (Write.toMutation ()))
        (.foundDocument () 5 (field 2 'd'))).1 := by
  let field : Nat → Char → ObjectValue Nat Char := fun k c =>
    ⟨[(k, .leaf c)], .node (List.pairwise_singleton _ _) (by simp [Sorted.leaf])⟩
  have hget : ∀ k c, ((field k c).get [k]).isSome := by
    intro k c
    simp [field, ObjectValue.get, Nested.get, find]
  have hallowed : Independent ({[1], [2]} : Set (List Nat)) :=
    ⟨by simp, by simp⟩
  refine ⟨field, And.left (overlay_exact hallowed ?_ rfl rfl rfl)⟩
  simp [Write.toMutation, Mutation.PlainIn, hget]

end Firebase.Local
