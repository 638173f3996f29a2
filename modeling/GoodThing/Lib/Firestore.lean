/-
A document store: values, documents, collections, queries, and the requests a
client can make of it.

The semantics follows what the client library documents.  `setData` replaces a
whole document, `updateData` overwrites the named fields of a document that
exists and fails otherwise, a filter keeps exactly the documents that match it,
and ordering by a field keeps only the documents that have it.

A document is a function from field names to values, so two documents with the
same fields are equal.  A collection is Mathlib's `AList`, which has each id once;
that is what lets a query list its documents.
-/
import Mathlib.Algebra.Order.Ring.Unbundled.Rat
import Mathlib.Data.List.AList
import Mathlib.Data.List.Sort

namespace Firestore

/-! ### Values -/

/--
A field's value.  Readers only ever ask for strings, booleans, integers and arrays
of strings; a value of any other kind, mixed arrays included, is `other`.
-/
inductive Value where
  | null
  | boolean (b : Bool)
  | integer (n : Int64)
  | double (x : Rat)
  | string (s : String)
  | strings (xs : List String)
  | other (kind : String)
  deriving DecidableEq

namespace Value

def asString : Value → Option String
  | .string s => some s
  | _ => none

def asBool : Value → Option Bool
  | .boolean b => some b
  | _ => none

def asStrings : Value → Option (List String)
  | .strings xs => some xs
  | _ => none

/-- A double is accepted for an integer when it is one. -/
def asInt : Value → Option Int64
  | .integer n => some n
  | .double x =>
      if x.den = 1 ∧ Int64.minValue.toInt ≤ x.num ∧ x.num ≤ Int64.maxValue.toInt then
        some (Int64.ofInt x.num)
      else none
  | _ => none

/-- Integers and doubles are compared as numbers. -/
def number? : Value → Option Rat
  | .integer n => some n.toInt
  | .double x => some x
  | _ => none

/-- The order of the kinds among each other. -/
def rank : Value → Nat
  | .null => 0
  | .boolean _ => 1
  | .integer _ | .double _ => 2
  | .string _ => 3
  | .strings _ => 4
  | .other _ => 5

/-- Arrays are compared element by element, and a shorter one comes first. -/
def leStrings : List String → List String → Bool
  | [], _ => true
  | _ :: _, [] => false
  | a :: as, b :: bs => if a = b then leStrings as bs else decide (a ≤ b)

def le : Value → Value → Bool
  | .boolean a, .boolean b => !a || b
  | .string a, .string b => decide (a ≤ b)
  | .strings a, .strings b => leStrings a b
  | .other a, .other b => decide (a ≤ b)
  | v, w =>
      match v.number?, w.number? with
      | some x, some y => decide (x ≤ y)
      | _, _ => decide (v.rank ≤ w.rank)

end Value

/-! ### Documents -/

/-- The fields of a document. -/
abbrev Document := String → Option Value

namespace Document

/-- The document a dictionary literal stands for. -/
def ofFields (fields : List (String × Value)) : Document := fun f => fields.lookup f

/-- The document with the named fields overwritten. -/
def update (d : Document) (fields : List (String × Value)) : Document :=
  fun f => (fields.lookup f).or (d f)

/-- A field the decoder requires. -/
def string? (d : Document) (f : String) : Option String := d f >>= Value.asString
def bool? (d : Document) (f : String) : Option Bool := d f >>= Value.asBool
def int? (d : Document) (f : String) : Option Int64 := d f >>= Value.asInt
def strings? (d : Document) (f : String) : Option (List String) := d f >>= Value.asStrings

/-- A field the decoder treats as optional: absent or null is `nil`, a wrong type an error. -/
def optional {α : Type} (read : Value → Option α) (d : Document) (f : String) :
    Option (Option α) :=
  match d f with
  | none | some .null => some none
  | some v => (read v).map some

theorem eq_of_string? {d : Document} {f s : String} (h : d.string? f = some s) :
    d f = some (.string s) := by
  obtain ⟨v, hv, hs⟩ := Option.bind_eq_some_iff.mp h
  rw [hv]
  cases v <;> simp_all [Value.asString]

theorem update_of_notMem {d : Document} {fields : List (String × Value)} {f : String}
    (h : f ∉ fields.map (·.1)) : d.update fields f = d f := by
  have hnone : fields.lookup f = none := by
    rw [List.lookup_eq_none_iff]
    intro p hp
    simp only [bne_iff_ne, ne_eq]
    intro heq
    rw [heq] at h
    exact h (List.mem_map_of_mem hp)
  simp [update, hnone]

end Document

/-! ### Collections -/

/-- The documents of a collection by id. -/
abbrev Collection := AList (fun _ : String => Document)

/-- All documents with their ids. -/
def Collection.documents (c : Collection) : List (String × Document) :=
  c.entries.map fun e => (e.1, e.2)

theorem Collection.mem_documents {c : Collection} {id : String} {d : Document} :
    (id, d) ∈ c.documents ↔ c.lookup id = some d := by
  rw [← Option.mem_def, AList.mem_lookup_iff]
  unfold Collection.documents
  refine ⟨?_, fun h => List.mem_map.mpr ⟨⟨id, d⟩, h, rfl⟩⟩
  intro h
  obtain ⟨⟨id', d'⟩, he, heq⟩ := List.mem_map.mp h
  simp only [Prod.mk.injEq] at heq
  obtain ⟨rfl, rfl⟩ := heq
  exact he

/-! ### Queries -/

inductive Filter where
  | isEqualTo (field : String) (v : Value)
  | isGreaterThan (field : String) (v : Value)

/-- A document without the field matches no filter on it. -/
def Filter.admits (d : Document) : Filter → Bool
  | .isEqualTo f v =>
      match d f with
      | some w => w.le v && v.le w
      | none => false
  | .isGreaterThan f v =>
      match d f with
      | some w => w.rank == v.rank && !w.le v
      | none => false

/-- A query: filters, a field to order by (and whether descending), and a limit. -/
structure Query where
  filters : List Filter
  order : Option (String × Bool)
  limit : Option Nat

namespace Query

/-- Whether a document is in the result, the limit aside. -/
def admits (q : Query) (d : Document) : Bool :=
  q.filters.all (Filter.admits d) &&
    match q.order with
    | some (f, _) => (d f).isSome
    | none => true

/-- The result order: by the field, and by id among equals. -/
def before (q : Query) (x y : String × Document) : Bool :=
  match q.order with
  | none => decide (x.1 ≤ y.1)
  | some (f, descending) =>
      match x.2 f, y.2 f with
      | some a, some b =>
          if a.le b && b.le a then
            if descending then decide (y.1 ≤ x.1) else decide (x.1 ≤ y.1)
          else if descending then b.le a else a.le b
      | _, _ => decide (x.1 ≤ y.1)

/-- Everything the query finds, in order. -/
def found (q : Query) (c : Collection) : List (String × Document) :=
  (c.documents.filter fun x => q.admits x.2).insertionSort fun x y => q.before x y = true

/-- What `getDocuments` returns. -/
def getDocuments (q : Query) (c : Collection) : List (String × Document) :=
  match q.limit with
  | some n => (q.found c).take n
  | none => q.found c

theorem mem_found {q : Query} {c : Collection} {x : String × Document} :
    x ∈ q.found c ↔ c.lookup x.1 = some x.2 ∧ q.admits x.2 = true := by
  unfold found
  rw [List.mem_insertionSort, List.mem_filter, ← Collection.mem_documents]

theorem mem_getDocuments {q : Query} {c : Collection} {x : String × Document}
    (h : x ∈ q.getDocuments c) : c.lookup x.1 = some x.2 ∧ q.admits x.2 = true := by
  unfold getDocuments at h
  split at h
  · exact mem_found.mp (List.mem_of_mem_take h)
  · exact mem_found.mp h

/-- A query that finds something and may return something returns something. -/
theorem head?_getDocuments {q : Query} {c : Collection} {id : String} {d : Document}
    (hlimit : q.limit ≠ some 0) (hd : c.lookup id = some d) (hadmits : q.admits d = true) :
    ∃ x, (q.getDocuments c).head? = some x := by
  have hmem : (id, d) ∈ q.found c := mem_found.mpr ⟨hd, hadmits⟩
  obtain ⟨x, rest, hfound⟩ := List.exists_cons_of_ne_nil (List.ne_nil_of_mem hmem)
  unfold getDocuments
  rw [hfound]
  split
  · rename_i n hn
    cases n with
    | zero => exact absurd hn hlimit
    | succ n => exact ⟨x, rfl⟩
  · exact ⟨x, rfl⟩

end Query

/-- A string field passes an equality filter exactly when it is that string. -/
theorem Filter.admits_isEqualTo_string {d : Document} {f s : String} :
    Filter.admits d (.isEqualTo f (.string s)) = true ↔ d f = some (.string s) := by
  cases h : d f with
  | none => simp [Filter.admits, h]
  | some w =>
      cases w with
      | string t =>
          simp only [Filter.admits, h, Value.le, Bool.and_eq_true, decide_eq_true_eq,
            Option.some.injEq, Value.string.injEq]
          exact ⟨fun ⟨h1, h2⟩ => String.le_antisymm h1 h2,
            fun he => he ▸ ⟨String.le_refl _, String.le_refl _⟩⟩
      | _ => simp [Filter.admits, h, Value.le, Value.number?, Value.rank]

theorem Filter.admits_isEqualTo_boolean {d : Document} {f : String} {b : Bool} :
    Filter.admits d (.isEqualTo f (.boolean b)) = true ↔ d f = some (.boolean b) := by
  cases h : d f with
  | none => simp [Filter.admits, h]
  | some w =>
      cases w with
      | boolean b' => cases b <;> cases b' <;> simp [Filter.admits, h, Value.le]
      | _ => simp [Filter.admits, h, Value.le, Value.number?, Value.rank]

/-- A field exceeds a number exactly when it holds a greater one. -/
theorem Filter.admits_isGreaterThan_double {d : Document} {f : String} {r : Rat} :
    Filter.admits d (.isGreaterThan f (.double r)) = true ↔
      ∃ x, d f >>= Value.number? = some x ∧ r < x := by
  cases h : d f with
  | none => simp [Filter.admits, h]
  | some w =>
      cases w with
      | integer n => simp [Filter.admits, h, Value.le, Value.number?, Value.rank]
      | double x => simp [Filter.admits, h, Value.le, Value.number?, Value.rank]
      | _ => simp [Filter.admits, h, Value.number?, Value.rank]

/-! ### The store -/

/-- Collections by path. -/
abbrev Store := String → Collection

/-- What the callback of `getDocument` is given. -/
inductive Snapshot where
  /-- The read failed: no document, an error. -/
  | failed
  /-- The document does not exist. -/
  | missing
  | found (d : Document)

/-- There is a document, and it exists. -/
def Snapshot.isFound : Snapshot → Bool
  | .found _ => true
  | _ => false

/-- The reference methods throw on an empty document path. -/
inductive Exception where
  | emptyDocumentPath
  deriving DecidableEq

/-- `collection(path).document(id)`, for an id without a slash, as uids and generated ids are. -/
def documentRef (path id : String) : Except Exception (String × String) :=
  if id.isEmpty then .error .emptyDocumentPath else .ok (path, id)

theorem documentRef_of_ne {path id : String} (h : id ≠ "") :
    documentRef path id = .ok (path, id) := by
  simp [documentRef, h]

/-- A write a client asks for. -/
inductive Write where
  | setData (path id : String) (d : Document)
  | updateData (path id : String) (fields : List (String × Value))

/-- The document a write is for. -/
def Write.target : Write → String × String
  | .setData path id _ => (path, id)
  | .updateData path id _ => (path, id)

namespace Store

def document (s : Store) (path id : String) : Option Document := (s path).lookup id

def setData (s : Store) (path id : String) (d : Document) : Store :=
  Function.update s path ((s path).insert id d)

/-- An update of a document that does not exist fails and changes nothing. -/
def updateData (s : Store) (path id : String) (fields : List (String × Value)) : Store :=
  match s.document path id with
  | some d => s.setData path id (d.update fields)
  | none => s

def apply (s : Store) : Write → Store
  | .setData path id d => s.setData path id d
  | .updateData path id fields => s.updateData path id fields

/-- The writes in order, each applied if the server accepts it. -/
def applyAll (accepted : Write → Bool) (s : Store) (ws : List Write) : Store :=
  ws.foldl (fun s w => if accepted w then s.apply w else s) s

/-- A read that reaches the server, or one that does not. -/
def getDocument (s : Store) (path id : String) (reached : Bool) : Snapshot :=
  if reached then
    match s.document path id with
    | some d => .found d
    | none => .missing
  else .failed

theorem document_setData (s : Store) (path id : String) (d : Document) (path' id' : String) :
    (s.setData path id d).document path' id' =
      if path' = path ∧ id' = id then some d else s.document path' id' := by
  unfold document setData
  by_cases hp : path' = path
  · subst hp
    rw [Function.update_self]
    by_cases hi : id' = id
    · subst hi; simp
    · rw [AList.lookup_insert_ne hi, if_neg (fun h => hi h.2)]
  · rw [Function.update_of_ne hp, if_neg (fun h => hp h.1)]

theorem document_updateData (s : Store) (path id : String) (fields : List (String × Value))
    (path' id' : String) :
    (s.updateData path id fields).document path' id' =
      if path' = path ∧ id' = id then (s.document path id).map (·.update fields)
      else s.document path' id' := by
  unfold updateData
  split
  · rename_i d hd
    rw [document_setData, hd]
    rfl
  · rename_i hd
    by_cases h : path' = path ∧ id' = id
    · obtain ⟨rfl, rfl⟩ := h
      simp [hd]
    · rw [if_neg h]

/-- A write leaves every document but its own alone. -/
theorem document_apply_of_ne {s : Store} {w : Write} {path id : String}
    (h : w.target ≠ (path, id)) : (s.apply w).document path id = s.document path id := by
  cases w with
  | setData path' id' d =>
      show (s.setData path' id' d).document path id = _
      rw [document_setData, if_neg]
      intro heq
      exact h (by rw [heq.1, heq.2]; rfl)
  | updateData path' id' fields =>
      show (s.updateData path' id' fields).document path id = _
      rw [document_updateData, if_neg]
      intro heq
      exact h (by rw [heq.1, heq.2]; rfl)

@[simp] theorem applyAll_nil (accepted : Write → Bool) (s : Store) :
    s.applyAll accepted [] = s := rfl

theorem applyAll_cons (accepted : Write → Bool) (s : Store) (w : Write) (ws : List Write) :
    s.applyAll accepted (w :: ws) = (if accepted w then s.apply w else s).applyAll accepted ws :=
  rfl

end Store

end Firestore
