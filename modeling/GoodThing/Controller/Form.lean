/-
What the forms' `guard`s share.

A text field hands over an optional string, and every form refuses to go on while
one it needs is missing or empty.
-/
import Mathlib.Tactic.Common

namespace GoodThing

/-- `guard let text = field.text, !text.isEmpty`. -/
def filled (text : Option String) : Option String :=
  text.filter fun s => !s.isEmpty

theorem filled_eq_some {text : Option String} {s : String} :
    filled text = some s ↔ text = some s ∧ s.isEmpty = false := by
  unfold filled
  rw [Option.filter_eq_some_iff]
  simp

theorem filled_of_ne {text : String} (h : text ≠ "") : filled (some text) = some text :=
  filled_eq_some.mpr ⟨rfl, by simpa using h⟩

end GoodThing
