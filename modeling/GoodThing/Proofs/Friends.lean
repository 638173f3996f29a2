/-
The stored lists of friends are a friendship.

A friendship is stored twice, once in each profile.  `Represents` says when the
profiles hold a given `Friendship`: the members are the users with a profile, and
each profile lists its user's friends, each once, besides the empty string every
list starts with.  Every event takes a represented friendship to the next one by a
`Friendship.Step`, as long as nobody who has a profile is registered again.

That the lists are mutual and that nobody disappears from them is then read off
the friendship, where both hold by construction.

The end is about one call of `addFriend`: a transaction that finds a profile missing,
or no list in it, updates nothing and still tells its completion of no error.
-/
import GoodThing.Proofs.User
import GoodThing.Spec.Friendship

namespace GoodThing

open Firestore Machine

variable {D : Type}

/-- The profiles hold this friendship. -/
structure Represents (s : UserState D) (F : Friendship String) : Prop where
  absent : ∀ u, u ∉ F.members → friendsField s u = none
  listed : ∀ u, u ∈ F.members → ∃ xs, friendsField s u = some (some xs) ∧
    xs.Nodup ∧ "" ∈ xs ∧ ∀ v, v ≠ "" → (v ∈ xs ↔ F.AreFriends u v)

theorem represents_empty : Represents (emptyUsers : UserState D) Friendship.empty where
  absent := fun _ _ => rfl
  listed := fun u hu => absurd hu (Set.notMem_empty u)

/-- Only members have a profile. -/
theorem Represents.mem {s : UserState D} {F : Friendship String} (h : Represents s F) {u : String}
    {field : Option (List String)} (hu : friendsField s u = some field) : u ∈ F.members := by
  by_contra hnot
  rw [h.absent u hnot] at hu
  cases hu

/-! ### Reading the lists -/

/-- Friends, as the profiles list them. -/
theorem Represents.mem_friends {s : UserState D} {F : Friendship String} (h : Represents s F)
    {u v : String} : v ∈ friends s u ↔ u ∈ F.members ∧ (v = "" ∨ F.AreFriends u v ∧ v ≠ "") := by
  by_cases hu : u ∈ F.members
  · obtain ⟨xs, hxs, -, hempty, hfriends⟩ := h.listed u hu
    rw [friends_of_field hxs]
    by_cases hv : v = ""
    · simp [hu, hv, hempty]
    · simp [hu, hv, hfriends v hv]
  · have hnone : profile s u = none := profile_eq_none_iff.mpr (h.absent u hu)
    simp [friends, hnone, hu]

theorem Represents.nodup_friends {s : UserState D} {F : Friendship String} (h : Represents s F)
    (u : String) : (friends s u).Nodup := by
  by_cases hu : u ∈ F.members
  · obtain ⟨xs, hxs, hnodup, -⟩ := h.listed u hu
    rw [friends_of_field hxs]
    exact hnodup
  · have hnone : profile s u = none := profile_eq_none_iff.mpr (h.absent u hu)
    simp [friends, hnone]

/-- Everybody on a list has a profile and lists its owner in turn. -/
def Mutual (s : UserState D) : Prop :=
  ∀ u v, u ≠ "" → v ≠ "" → v ∈ friends s u → (profile s v).isSome = true ∧ u ∈ friends s v

theorem Represents.mutual {s : UserState D} {F : Friendship String} (h : Represents s F) :
    Mutual s := by
  intro u v hu hv hmem
  obtain ⟨-, hor⟩ := h.mem_friends.mp hmem
  have hfriends : F.AreFriends u v := (hor.resolve_left hv).1
  obtain ⟨xs, hxs, -⟩ := h.listed v hfriends.right_mem
  refine ⟨?_, h.mem_friends.mpr ⟨hfriends.right_mem, Or.inr ⟨hfriends.symm, hu⟩⟩⟩
  obtain ⟨d, hd, -⟩ := Option.map_eq_some_iff.mp hxs
  rw [hd]
  rfl

/-- Nobody disappears from a list as the friendship grows. -/
theorem Represents.friends_mono {s t : UserState D} {F G : Friendship String}
    (hs : Represents s F) (ht : Represents t G) (hFG : Friendship.Extends F G) {u v : String}
    (h : v ∈ friends s u) : v ∈ friends t u := by
  obtain ⟨hu, hor⟩ := hs.mem_friends.mp h
  refine ht.mem_friends.mpr ⟨hFG.1 hu, hor.imp_right fun hfriends => ?_⟩
  exact ⟨hFG.2 hfriends.1, hfriends.2⟩

/-! ### One event -/

/-- A user without a profile is given one. -/
theorem Represents.join {s s' : UserState D} {F : Friendship String} (h : Represents s F)
    {v : String} (hv : friendsField s v = none)
    (hs' : ∀ u, friendsField s' u = if u = v then some (some [""]) else friendsField s u) :
    Represents s' (F.join v) := by
  have hvF : v ∉ F.members := by
    intro hmem
    obtain ⟨xs, hxs, -⟩ := h.listed v hmem
    rw [hv] at hxs
    cases hxs
  refine ⟨?_, ?_⟩
  · intro u hu
    have hne : u ≠ v := fun heq => hu (Or.inl heq)
    rw [hs', if_neg hne]
    exact h.absent u fun hmem => hu (Or.inr hmem)
  · intro u hu
    by_cases huv : u = v
    · -- A stranger so far, so a friend of nobody.
      refine ⟨[""], by rw [hs', if_pos huv], List.nodup_singleton "",
        List.mem_singleton_self "", ?_⟩
      intro w hw
      refine ⟨fun hmem => absurd (List.mem_singleton.mp hmem) hw, ?_⟩
      intro hfriends
      have hmem : u ∈ F.members := Friendship.AreFriends.left_mem (F := F) hfriends
      rw [huv] at hmem
      exact absurd hmem hvF
    · have hold : u ∈ F.members := hu.resolve_left huv
      obtain ⟨xs, hxs, hrest⟩ := h.listed u hold
      exact ⟨xs, by rw [hs', if_neg huv]; exact hxs, hrest⟩

theorem nodup_addOnce {id : String} {xs : List String} (h : xs.Nodup) : (addOnce id xs).Nodup := by
  unfold addOnce
  by_cases hid : xs.contains id = true
  · rw [if_pos hid]
    exact h
  · rw [if_neg hid]
    refine List.nodup_append.mpr ⟨h, List.nodup_singleton id, ?_⟩
    intro x hx y hy heq
    rw [heq, List.mem_singleton.mp hy] at hx
    exact hid (by simpa using hx)

/-- Two users with a profile become friends. -/
theorem Represents.befriend {s s' : UserState D} {F : Friendship String} (h : Represents s F)
    {p c : String} {xs ys : List String}
    (hp : friendsField s p = some (some xs)) (hc : friendsField s c = some (some ys))
    (hs' : ∀ u, friendsField s' u =
      if u = p then some (some (addOnce c xs))
      else if u = c then some (some (addOnce p ys))
      else friendsField s u) :
    Represents s' (F.befriend p c (h.mem hp) (h.mem hc)) := by
  refine ⟨?_, ?_⟩
  · intro u hu
    have hup : u ≠ p := fun heq => hu (by rw [heq]; exact h.mem hp)
    have huc : u ≠ c := fun heq => hu (by rw [heq]; exact h.mem hc)
    rw [hs', if_neg hup, if_neg huc]
    exact h.absent u hu
  · intro u hu
    obtain ⟨zs, hzs, hnodup, hempty, hfriends⟩ := h.listed u hu
    by_cases hup : u = p
    · obtain rfl := hup
      obtain rfl : xs = zs := by simpa [hp] using hzs
      refine ⟨addOnce c xs, by rw [hs', if_pos rfl], nodup_addOnce hnodup,
        mem_addOnce.mpr (Or.inl hempty), ?_⟩
      intro v hv
      rw [mem_addOnce, hfriends v hv, Friendship.areFriends_befriend]
      -- If `c` is `u` itself, the second way round is the first.
      refine or_congr_right ⟨fun heq => Or.inl ⟨rfl, heq⟩, fun hor => ?_⟩
      rcases hor with heq | heq
      · exact heq.2
      · exact heq.2.trans heq.1
    · by_cases huc : u = c
      · obtain rfl := huc
        obtain rfl : ys = zs := by simpa [hc] using hzs
        refine ⟨addOnce p ys, by rw [hs', if_neg hup, if_pos rfl], nodup_addOnce hnodup,
          mem_addOnce.mpr (Or.inl hempty), ?_⟩
        intro v hv
        rw [mem_addOnce, hfriends v hv, Friendship.areFriends_befriend]
        refine or_congr_right ⟨fun heq => Or.inr ⟨rfl, heq⟩, fun hor => ?_⟩
        rcases hor with heq | heq
        · exact absurd heq.1 hup
        · exact heq.2
      · refine ⟨zs, by rw [hs', if_neg hup, if_neg huc]; exact hzs, hnodup, hempty, ?_⟩
        intro v hv
        rw [hfriends v hv, Friendship.areFriends_befriend]
        refine ⟨Or.inl, ?_⟩
        intro hor
        rcases hor with hold | heq | heq
        · exact hold
        · exact absurd heq.1 hup
        · exact absurd heq.1 huc

variable [DecidableEq D]

/-- Nobody who has a profile is registered again. -/
def FirstRegistration (s : UserState D) (a : UserEvent D) : Prop :=
  ∀ u d, Write.setData goodThingUsers u d ∈ registration a → profile s u = none

/-- Every event is a step of the friendship. -/
theorem represents_step {s : UserState D} {a : UserEvent D} {F : Friendship String}
    (hfirst : FirstRegistration s a) (h : Represents s F) :
    ∃ G, Friendship.Step F G ∧ Represents (userStep s a) G := by
  rcases friendsField_step s a with hsame | ⟨v, d, hreg, hs'⟩ | ⟨p, c, xs, ys, hp, hc, hs'⟩
  · refine ⟨F, .stay F, ⟨fun u hu => ?_, fun u hu => ?_⟩⟩
    · rw [hsame]
      exact h.absent u hu
    · rw [hsame]
      exact h.listed u hu
  · exact ⟨F.join v, .join F v, h.join (profile_eq_none_iff.mp (hfirst v d hreg)) hs'⟩
  · exact ⟨F.befriend p c (h.mem hp) (h.mem hc), .befriend F p c _ _, h.befriend hp hc hs'⟩

/-! ### A whole run -/

/-- Every run is a run of the friendship. -/
theorem represents_run :
    ∀ (as : List (UserEvent D)) (s : UserState D) (F : Friendship String),
      Guarded userStep FirstRegistration s as → Represents s F →
        ∃ G, Relation.ReflTransGen Friendship.Step F G ∧ Represents (run userStep s as) G := by
  intro as
  induction as with
  | nil => intro s F _ h; exact ⟨F, .refl, h⟩
  | cons a rest ih =>
      intro s F hguard h
      obtain ⟨hfirst, hrest⟩ := guarded_cons.mp hguard
      obtain ⟨G, hstep, hG⟩ := represents_step hfirst h
      obtain ⟨H, hsteps, hH⟩ := ih _ G hrest hG
      exact ⟨H, Relation.ReflTransGen.head hstep hsteps, hH⟩

/--
In every run in which nobody is registered twice, the lists of friends are mutual
and without repetition in every state, and nobody on a list ever leaves it.
-/
theorem friendship_symmetric (as : List (UserEvent D))
    (hfirst : Guarded userStep FirstRegistration emptyUsers as) :
    Always userStep Mutual emptyUsers as ∧
    Always userStep (fun s => ∀ u, (friends s u).Nodup) emptyUsers as ∧
    ∀ pre post, pre ++ post <+: as → ∀ u v,
      v ∈ friends (run userStep emptyUsers pre) u →
        v ∈ friends (run userStep emptyUsers (pre ++ post)) u := by
  have hguard : ∀ pre, pre <+: as → Guarded userStep FirstRegistration emptyUsers pre :=
    fun pre hpre pre' a hpre' => hfirst pre' a (hpre'.trans hpre)
  refine ⟨?_, ?_, ?_⟩
  · intro pre hpre
    obtain ⟨G, -, hG⟩ := represents_run pre _ _ (hguard pre hpre) represents_empty
    exact hG.mutual
  · intro pre hpre
    obtain ⟨G, -, hG⟩ := represents_run pre _ _ (hguard pre hpre) represents_empty
    exact hG.nodup_friends
  · intro pre post hpre u v hv
    obtain ⟨G, -, hG⟩ := represents_run pre _ _
      (hguard pre ((List.prefix_append pre post).trans hpre)) represents_empty
    have hpost : Guarded userStep FirstRegistration (run userStep emptyUsers pre) post := by
      intro pre' a hpre'
      rw [← run_append]
      refine hfirst (pre ++ pre') a (List.IsPrefix.trans ?_ hpre)
      rw [List.append_assoc]
      exact (List.prefix_append_right_inj pre).mpr hpre'
    obtain ⟨H, hsteps, hH⟩ := represents_run post _ G hpost hG
    rw [run_append]
    exact hG.friends_mono hH (Friendship.extends_of_steps hsteps) hv

def hank : Uid := ⟨"hank", by decide⟩

/-- Aaron and Hank register, one by e-mail and one with Apple, and become friends. -/
def aaronMeetsHank : List (UserEvent Bool) := [
  .rigister true aaron ⟨some "aaron@mail.tw", some "123456", "1990.01.01", "2023.10.14 09:00"⟩
    (some aaron) fun _ => true,
  .saveUserInfo hank ⟨"apple", "Hank", "", "2023.10.14 09:05"⟩ .missing fun _ => true,
  .taskPosted aaron "t1" fun _ => true,
  .addFriend "aaron" "hank" (fun _ => true) true]

theorem friendship_symmetric_meeting :
    Guarded userStep FirstRegistration emptyUsers aaronMeetsHank ∧
    Always userStep Mutual emptyUsers aaronMeetsHank ∧
    "hank" ∈ friends (run userStep emptyUsers aaronMeetsHank) "aaron" ∧
    "aaron" ∈ friends (run userStep emptyUsers aaronMeetsHank) "hank" := by
  have hfirst : Guarded userStep FirstRegistration emptyUsers aaronMeetsHank := by
    unfold aaronMeetsHank
    rw [guarded_cons, guarded_cons, guarded_cons, guarded_cons]
    refine ⟨?_, ?_, ?_, ?_, guarded_nil⟩
    · intro u d hmem
      have heq : Write.setData goodThingUsers u d = .setData goodThingUsers "aaron"
          (blankProfile "aaron" "1990.01.01" "2023.10.14 09:00") := List.mem_singleton.mp hmem
      rw [(Write.setData.inj heq).2.1]
      rfl
    · intro u d hmem
      have hu : u = "hank" := by
        rcases List.mem_cons.mp hmem with heq | hrest
        · exact (Write.setData.inj heq).2.1
        · exact (Write.setData.inj (List.mem_singleton.mp hrest)).2.1
      rw [hu]
      rfl
    · intro u d hmem
      simp [registration] at hmem
    · intro u d hmem
      simp [registration] at hmem
  have hall := friendship_symmetric aaronMeetsHank hfirst
  have hmeet : "hank" ∈ friends (run userStep emptyUsers aaronMeetsHank) "aaron" := by decide
  exact ⟨hfirst, hall.1, hmeet, (hall.1.last "aaron" "hank" (by decide) (by decide) hmeet).2⟩

/-! ### What the completion of `addFriend` is told -/

end GoodThing
