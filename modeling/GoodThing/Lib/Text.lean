/-
Texts put together from parts.

Ids, paths and dates are made by joining parts with a separator that none of them
contains.  `cut` takes such a text apart at the first separator; that it gets the parts
back (`cut_append`) is also what makes joining injective.
-/
import Mathlib.Data.List.Basic
import Mathlib.Tactic.Common

namespace Text

variable {α : Type*} [DecidableEq α]

/-- What stands before the first separator, and after it. -/
def cut (sep : α) : List α → Option (List α × List α)
  | [] => none
  | x :: xs =>
      if x = sep then some ([], xs)
      else (cut sep xs).map fun parts => (x :: parts.1, parts.2)

theorem cut_append {sep : α} :
    ∀ {as bs : List α}, sep ∉ as → cut sep (as ++ sep :: bs) = some (as, bs) := by
  intro as
  induction as with
  | nil => intro bs _; simp [cut]
  | cons a rest ih =>
      intro bs h
      have ha : a ≠ sep := fun heq => h (by rw [heq]; exact List.mem_cons_self)
      have hrest : sep ∉ rest := fun hmem => h (List.mem_cons_of_mem a hmem)
      rw [List.cons_append, cut, if_neg ha, ih hrest]
      rfl

/-- Joined texts have the same parts. -/
theorem append_sep_inj {sep : α} {as bs cs ds : List α} (has : sep ∉ as) (hbs : sep ∉ bs)
    (h : as ++ sep :: cs = bs ++ sep :: ds) : as = bs ∧ cs = ds := by
  have hcut : cut sep (as ++ sep :: cs) = some (as, cs) := cut_append has
  rw [h, cut_append hbs] at hcut
  obtain ⟨hbefore, hafter⟩ := Prod.mk.inj (Option.some.inj hcut)
  exact ⟨hbefore.symm, hafter.symm⟩

/-- Two strings with different characters at one place of their beginnings. -/
theorem append_ne_of_getElem? {a b : String} (n : Nat) {x y : Char} (ha : a.toList[n]? = some x)
    (hb : b.toList[n]? = some y) (hxy : x ≠ y) (s t : String) : a ++ s ≠ b ++ t := by
  intro heq
  have hlist := congrArg (fun s : String => s.toList[n]?) heq
  simp only [String.toList_append] at hlist
  obtain ⟨hna, -⟩ := List.getElem?_eq_some_iff.mp ha
  obtain ⟨hnb, -⟩ := List.getElem?_eq_some_iff.mp hb
  rw [List.getElem?_append_left hna, List.getElem?_append_left hnb, ha, hb] at hlist
  exact hxy (Option.some.inj hlist)

end Text
