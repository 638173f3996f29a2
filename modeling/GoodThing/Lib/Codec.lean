/-
Records stored as documents.

A record type that can be stored and read back has a list of coding keys, an
encoder and a decoder.  The decoder looks at the keys only, and reads back what the
encoder wrote.  `Reads` is what a reader can hope for from a document somebody else
wrote: it decodes, and every key holds what the record says.

Documents are mostly changed by partial updates.  An update of other fields keeps
them readable; an update of the keys does if it is the update of some record.
-/
import GoodThing.Lib.Firestore

namespace Firestore

/-- The document with only these fields. -/
def Document.restrict (d : Document) (keys : List String) : Document :=
  fun f => if keys.contains f then d f else none

/-- A record type with its coding keys. -/
structure Codec (α : Type) where
  keys : List String
  encode : α → Document
  decode : Document → Option α
  decode_encode : ∀ x, decode (encode x) = some x
  /-- The decoder ignores other keys. -/
  decode_restrict : ∀ d, decode (d.restrict keys) = decode d

namespace Codec

variable {α : Type} (c : Codec α)

/-- The keys of the document hold this record. -/
def Stores (x : α) (d : Document) : Prop := ∀ k ∈ c.keys, d k = c.encode x k

/-- The document decodes, to what its keys hold. -/
def Reads (d : Document) : Prop := ∃ x, c.decode d = some x ∧ c.Stores x d

variable {c}

theorem decode_congr {d d' : Document} (h : ∀ k ∈ c.keys, d k = d' k) :
    c.decode d = c.decode d' := by
  have hrestrict : d.restrict c.keys = d'.restrict c.keys := by
    funext k
    unfold Document.restrict
    by_cases hk : c.keys.contains k = true
    · rw [if_pos hk, if_pos hk]
      exact h k (by simpa using hk)
    · rw [if_neg hk, if_neg hk]
  rw [← c.decode_restrict d, hrestrict, c.decode_restrict]

theorem Stores.decode {x : α} {d : Document} (h : c.Stores x d) : c.decode d = some x := by
  rw [decode_congr h, c.decode_encode]

theorem Stores.reads {x : α} {d : Document} (h : c.Stores x d) : c.Reads d := ⟨x, h.decode, h⟩

/-- What the encoder writes is read back. -/
theorem reads_encode (x : α) : c.Reads (c.encode x) := Stores.reads fun _ _ => rfl

/-- An update of the keys is one of the record. -/
theorem Stores.update {x x' : α} {d : Document} {fields : List (String × Value)}
    (h : c.Stores x d) (hx' : c.Stores x' ((c.encode x).update fields)) :
    c.Stores x' (d.update fields) := by
  intro k hk
  rw [← hx' k hk]
  unfold Document.update
  rw [h k hk]

/-- An update of other fields is none. -/
theorem Stores.update_of_notMem {x : α} {d : Document} {fields : List (String × Value)}
    (h : c.Stores x d) (hfields : ∀ k ∈ c.keys, k ∉ fields.map (·.1)) :
    c.Stores x (d.update fields) := by
  intro k hk
  rw [Document.update_of_notMem (hfields k hk)]
  exact h k hk

theorem Reads.update_of_notMem {d : Document} {fields : List (String × Value)}
    (hfields : ∀ k ∈ c.keys, k ∉ fields.map (·.1)) (h : c.Reads d) :
    c.Reads (d.update fields) := by
  obtain ⟨x, -, hx⟩ := h
  exact (hx.update_of_notMem hfields).reads

end Codec

/-! ### Stores in which every document is readable -/

/-- Every document of a collection has `P`. -/
def Store.All (s : Store) (path : String) (P : Document → Prop) : Prop :=
  ∀ id d, s.document path id = some d → P d

/-- A write that stores only documents with `P`, if it finds only such documents. -/
def Write.Keeps (path : String) (P : Document → Prop) : Write → Prop
  | .setData path' _ d => path' = path → P d
  | .updateData path' _ fields => path' = path → ∀ d, P d → P (d.update fields)

theorem Store.All.apply {s : Store} {path : String} {P : Document → Prop} (h : s.All path P)
    {w : Write} (hw : w.Keeps path P) : (s.apply w).All path P := by
  intro id d hd
  cases w with
  | setData path' id' d' =>
      change (s.setData path' id' d').document path id = some d at hd
      rw [Store.document_setData] at hd
      by_cases htarget : path = path' ∧ id = id'
      · rw [if_pos htarget] at hd
        rw [← Option.some.inj hd]
        exact hw htarget.1.symm
      · rw [if_neg htarget] at hd
        exact h id d hd
  | updateData path' id' fields =>
      change (s.updateData path' id' fields).document path id = some d at hd
      rw [Store.document_updateData] at hd
      by_cases htarget : path = path' ∧ id = id'
      · rw [if_pos htarget, ← htarget.1] at hd
        obtain ⟨d', hd', rfl⟩ := Option.map_eq_some_iff.mp hd
        exact hw htarget.1.symm d' (h id' d' hd')
      · rw [if_neg htarget] at hd
        exact h id d hd

/-- Whichever of them are accepted. -/
theorem Store.All.applyAll {path : String} {P : Document → Prop} (accepted : Write → Bool) :
    ∀ (ws : List Write) {s : Store}, (∀ w ∈ ws, w.Keeps path P) → s.All path P →
      (s.applyAll accepted ws).All path P := by
  intro ws
  induction ws with
  | nil => intro s _ h; exact h
  | cons w rest ih =>
      intro s hws h
      rw [Store.applyAll_cons]
      refine ih (fun w' hw' => hws w' (List.mem_cons_of_mem w hw')) ?_
      by_cases hacc : accepted w = true
      · rw [if_pos hacc]
        exact h.apply (hws w List.mem_cons_self)
      · rw [if_neg hacc]
        exact h

end Firestore
