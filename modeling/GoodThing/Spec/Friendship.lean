/-
Friendship, as it is meant.

A friendship is a set of members and a set of unordered pairs of them, so that it
is mutual by construction and nobody is a friend of a stranger.  It changes in two
ways only: somebody joins, or two members become friends.  Neither takes anything
away.
-/
import Mathlib.Data.Sym.Sym2
import Mathlib.Logic.Relation

namespace GoodThing

/-- Members, and which of them are friends. -/
structure Friendship (α : Type*) where
  members : Set α
  pairs : Set (Sym2 α)
  known : ∀ p ∈ pairs, ∀ u ∈ p, u ∈ members

namespace Friendship

variable {α : Type*}

def AreFriends (F : Friendship α) (u v : α) : Prop := s(u, v) ∈ F.pairs

theorem AreFriends.symm {F : Friendship α} {u v : α} (h : F.AreFriends u v) :
    F.AreFriends v u := by
  unfold AreFriends at h ⊢
  rw [Sym2.eq_swap]
  exact h

theorem AreFriends.left_mem {F : Friendship α} {u v : α} (h : F.AreFriends u v) :
    u ∈ F.members := F.known _ h u (Sym2.mem_mk_left u v)

theorem AreFriends.right_mem {F : Friendship α} {u v : α} (h : F.AreFriends u v) :
    v ∈ F.members := h.symm.left_mem

/-- Nobody has joined. -/
def empty : Friendship α where
  members := ∅
  pairs := ∅
  known := by intro p hp; exact absurd hp (Set.notMem_empty p)

def join (F : Friendship α) (u : α) : Friendship α where
  members := insert u F.members
  pairs := F.pairs
  known := fun p hp v hv => Set.mem_insert_of_mem u (F.known p hp v hv)

def befriend (F : Friendship α) (u v : α) (hu : u ∈ F.members) (hv : v ∈ F.members) :
    Friendship α where
  members := F.members
  pairs := insert s(u, v) F.pairs
  known := by
    intro p hp w hw
    rcases hp with rfl | hp
    · rcases Sym2.mem_iff.mp hw with rfl | rfl
      · exact hu
      · exact hv
    · exact F.known p hp w hw

theorem areFriends_befriend {F : Friendship α} {u v : α} {hu : u ∈ F.members}
    {hv : v ∈ F.members} {x y : α} :
    (F.befriend u v hu hv).AreFriends x y ↔
      F.AreFriends x y ∨ (x = u ∧ y = v) ∨ (x = v ∧ y = u) := by
  show s(x, y) ∈ insert s(u, v) F.pairs ↔ _
  rw [Set.mem_insert_iff, Sym2.eq_iff]
  exact or_comm

/-- All that can happen to a friendship. -/
inductive Step : Friendship α → Friendship α → Prop where
  | stay (F : Friendship α) : Step F F
  | join (F : Friendship α) (u : α) : Step F (F.join u)
  | befriend (F : Friendship α) (u v : α) (hu : u ∈ F.members) (hv : v ∈ F.members) :
      Step F (F.befriend u v hu hv)

/-- Members stay, and so do friends. -/
def Extends (F G : Friendship α) : Prop := F.members ⊆ G.members ∧ F.pairs ⊆ G.pairs

theorem Step.extend {F G : Friendship α} (h : Step F G) : Extends F G := by
  cases h with
  | stay => exact ⟨subset_rfl, subset_rfl⟩
  | join u => exact ⟨Set.subset_insert u F.members, subset_rfl⟩
  | befriend u v hu hv => exact ⟨subset_rfl, Set.subset_insert s(u, v) F.pairs⟩

theorem extends_of_steps {F G : Friendship α} (h : Relation.ReflTransGen Step F G) :
    Extends F G := by
  induction h with
  | refl => exact ⟨subset_rfl, subset_rfl⟩
  | tail _ hstep ih => exact ⟨ih.1.trans hstep.extend.1, ih.2.trans hstep.extend.2⟩

end Friendship

end GoodThing
