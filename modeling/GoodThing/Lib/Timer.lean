/-
Scheduled timers, and the one property that refers to one of them.

A scheduled timer fires every second until it is invalidated.  Only the timer the
property refers to can be: once another is put in its place, nobody can stop the
first.  `sole_schedule_iff` says when that does not happen.
-/
import Mathlib.Data.List.Basic
import Mathlib.Tactic.Common

namespace Timer

/-- The timers that fire, the property, and the number of the next timer. -/
structure Host where
  live : List Nat
  timer : Option Nat
  next : Nat
  deriving DecidableEq

namespace Host

def empty : Host := { live := [], timer := none, next := 0 }

/-- A new timer is scheduled and put into the property, whatever was there. -/
def schedule (h : Host) : Host :=
  { live := h.next :: h.live, timer := some h.next, next := h.next + 1 }

/-- `timer?.invalidate()`. -/
def invalidate (h : Host) : Host :=
  { h with live := h.live.filter fun t => h.timer ≠ some t }

/-- At most one timer fires, it is the one in the property, and it fires just when it should. -/
structure Sole (h : Host) (wanted : Prop) : Prop where
  length_le : h.live.length ≤ 1
  referenced : ∀ t ∈ h.live, h.timer = some t
  fires_iff : h.live ≠ [] ↔ wanted

theorem Sole.live_eq_nil {h : Host} {wanted : Prop} (hs : h.Sole wanted) (hw : ¬ wanted) :
    h.live = [] := by
  by_contra hne
  exact hw (hs.fires_iff.mp hne)

theorem sole_of_nil {h : Host} {wanted : Prop} (hnil : h.live = []) (hw : ¬ wanted) :
    h.Sole wanted := by
  refine ⟨?_, ?_, ?_⟩
  · rw [hnil]
    exact Nat.zero_le 1
  · intro t ht
    rw [hnil] at ht
    cases ht
  · exact ⟨fun hne => absurd hnil hne, fun hw' => absurd hw' hw⟩

/-- A new timer is alone exactly when none fired before. -/
theorem sole_schedule_iff {h : Host} {wanted : Prop} (hw : wanted) :
    h.schedule.Sole wanted ↔ h.live = [] := by
  refine ⟨?_, ?_⟩
  · intro hs
    have hlen : (h.next :: h.live).length ≤ 1 := hs.length_le
    rw [List.length_cons] at hlen
    exact List.eq_nil_of_length_eq_zero (by omega)
  · intro hnil
    refine ⟨?_, ?_, ?_⟩
    · show (h.next :: h.live).length ≤ 1
      rw [hnil]
      exact Nat.le_refl 1
    · intro t ht
      have ht' : t ∈ h.next :: h.live := ht
      rw [hnil, List.mem_singleton] at ht'
      rw [ht']
      rfl
    · exact ⟨fun _ => hw, fun _ => List.cons_ne_nil _ _⟩

/-- Invalidating stops the only timer there is. -/
theorem Sole.live_invalidate {h : Host} {wanted : Prop} (hs : h.Sole wanted) :
    h.invalidate.live = [] := by
  show h.live.filter _ = []
  rw [List.filter_eq_nil_iff]
  intro t ht
  simp [hs.referenced t ht]

end Host

end Timer
