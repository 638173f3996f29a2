/-
Downloads that write into views.

A download is started for an image view and ends whenever it likes: with an image,
which the view is given, with an error, for which the view is emptied, or with data
that is no image, after which nothing is called.  The completion keeps the view and
not what it was for.

A view that is used for one thing after another, as the cells of a table are, can
therefore hold a picture of something else.  `Cells.own_step_iff` says which steps
leave no cell with one.
-/
import GoodThing.Lib.Run
import Mathlib.Logic.Function.Basic
import Mathlib.Tactic.Common

namespace Download

/-- How a download ends. -/
inductive Outcome where
  | image
  | failed
  | noImage
  deriving DecidableEq

/-- An image view, and the downloads whose completion writes it. -/
structure View (I : Type*) where
  image : Option I
  downloads : List I
  deriving DecidableEq

namespace View

variable {I : Type*}

/-- Nothing shown, and nothing on its way. -/
def empty : View I := ⟨none, []⟩

/-- A download is started, if there is an address to start it with. -/
def start (v : View I) (i : Option I) : View I := { v with downloads := i.toList ++ v.downloads }

variable [DecidableEq I]

/-- What the completion is given, if it is called. -/
def written (v : View I) (i : I) : Outcome → Option I
  | .image => some i
  | .failed => none
  | .noImage => v.image

def finish (v : View I) (i : I) (outcome : Outcome) : View I :=
  if i ∈ v.downloads then ⟨v.written i outcome, v.downloads.erase i⟩ else v

theorem finish_of_mem {v : View I} {i : I} (h : i ∈ v.downloads) (outcome : Outcome) :
    v.finish i outcome = ⟨v.written i outcome, v.downloads.erase i⟩ := if_pos h

theorem finish_of_notMem {v : View I} {i : I} (h : i ∉ v.downloads) (outcome : Outcome) :
    v.finish i outcome = v := if_neg h

/-- No download starts by ending. -/
theorem mem_of_mem_finish {v : View I} {i j : I} {outcome : Outcome}
    (h : j ∈ (v.finish i outcome).downloads) : j ∈ v.downloads := by
  by_cases hi : i ∈ v.downloads
  · rw [finish_of_mem hi] at h
    exact List.mem_of_mem_erase h
  · rw [finish_of_notMem hi] at h
    exact h

end View

/-! ### Cells that are used again

`K` are the cells, `M` what they can show.  `picture` is the picture a thing has, if it
has one.
-/

structure Cells (K M I : Type*) where
  shows : K → Option M
  view : K → View I

namespace Cells

variable {K M I : Type*}

/-- No cell has been used. -/
def unused : Cells K M I := { shows := fun _ => none, view := fun _ => .empty }

inductive Action (K M I : Type*) where
  /-- A cell is used for `m`, and this download started for it. -/
  | display (k : K) (m : M) (i : Option I)
  | finish (k : K) (i : I) (outcome : Outcome)

variable (picture : M → Option I)

/-- The picture is that of `m`, or there is none. -/
def Suits (image : Option I) (m : Option M) : Prop := image = none ∨ image = m.bind picture

/-- Every cell is empty or holds the picture of what it shows. -/
def Own (s : Cells K M I) : Prop := ∀ k, Suits picture (s.view k).image (s.shows k)

theorem own_unused : Own picture (unused : Cells K M I) := fun _ => .inl rfl

/--
A cell is used again only while it is empty or holds the right picture already, and an
image arrives only while its cell shows what it is a picture of.
-/
def InTime (s : Cells K M I) : Action K M I → Prop
  | .display k m _ => Suits picture (s.view k).image (some m)
  | .finish k i .image => i ∈ (s.view k).downloads → (s.shows k).bind picture = some i
  | .finish _ _ _ => True

/-- Whether the cells are all right is decided at the one cell that changes. -/
theorem own_update_iff {s : Cells K M I} (h : Own picture s) {s' : Cells K M I} (k : K)
    (hothers : ∀ k', k' ≠ k → s'.shows k' = s.shows k' ∧ s'.view k' = s.view k') :
    Own picture s' ↔ Suits picture (s'.view k).image (s'.shows k) := by
  refine ⟨fun h' => h' k, ?_⟩
  intro hk k'
  by_cases hk' : k' = k
  · rw [hk']
    exact hk
  · rw [(hothers k' hk').1, (hothers k' hk').2]
    exact h k'

variable [DecidableEq K] [DecidableEq I]

def step (s : Cells K M I) : Action K M I → Cells K M I
  | .display k m i =>
      { shows := Function.update s.shows k (some m)
        view := Function.update s.view k ((s.view k).start i) }
  | .finish k i outcome =>
      { s with view := Function.update s.view k ((s.view k).finish i outcome) }

theorem own_finish_iff {s : Cells K M I} (h : Own picture s) (k : K) (i : I) (outcome : Outcome) :
    Own picture (step s (.finish k i outcome)) ↔
      (i ∈ (s.view k).downloads → Suits picture ((s.view k).written i outcome) (s.shows k)) := by
  have hothers : ∀ k', k' ≠ k → (step s (.finish k i outcome)).shows k' = s.shows k' ∧
      (step s (.finish k i outcome)).view k' = s.view k' :=
    fun k' hk' => ⟨rfl, Function.update_of_ne hk' _ _⟩
  rw [own_update_iff picture h k hothers]
  simp only [step, Function.update_self]
  by_cases hi : i ∈ (s.view k).downloads
  · rw [View.finish_of_mem hi]
    exact ⟨fun hsuits _ => hsuits, fun hsuits => hsuits hi⟩
  · rw [View.finish_of_notMem hi]
    exact ⟨fun _ hi' => absurd hi' hi, fun _ => h k⟩

theorem own_step_iff (s : Cells K M I) (a : Action K M I) (h : Own picture s) :
    Own picture (step s a) ↔ InTime picture s a := by
  cases a with
  | display k m i =>
      have hothers : ∀ k', k' ≠ k → (step s (.display k m i)).shows k' = s.shows k' ∧
          (step s (.display k m i)).view k' = s.view k' :=
        fun k' hk' => ⟨Function.update_of_ne hk' _ _, Function.update_of_ne hk' _ _⟩
      rw [own_update_iff picture h k hothers]
      simp only [step, Function.update_self]
      rfl
  | finish k i outcome =>
      rw [own_finish_iff picture h]
      cases outcome with
      | image =>
          refine ⟨?_, fun htime hi => .inr (htime hi).symm⟩
          intro hsuits hi
          rcases hsuits hi with hnone | hpicture
          · cases hnone
          · exact hpicture.symm
      | failed => exact ⟨fun _ => trivial, fun _ _ => .inl rfl⟩
      | noImage => exact ⟨fun _ => trivial, fun _ _ => h k⟩

end Cells

end Download
