/-
Who is signed in without a profile.

Three operations leave a user signed in.  A sign-up writes the profile from text
fields that may have changed since it was asked for, a log-in writes nothing, and an
Apple sign-in writes it if there is no account yet.  Account and profile are two
writes, so an earlier sign-in can have left the one without the other, and no later
operation makes up for it; `signed_in_has_profile_iff` says when one does.
-/
import GoodThing.Proofs.User

namespace GoodThing

open Firestore Machine

variable {D : Type} [DecidableEq D]

/-! ### The three operations -/

/-- An operation that signs a user in on a device. -/
inductive SignIn (D : Type) where
  /-- `createUser` comes back; `form` is what the text fields hold by then. -/
  | rigister (device : D) (user : Uid) (form : SingupForm) (currentUser : Option Uid)
  | login (device : D) (user : Uid)
  /-- `between` happens from the answer to the account read until the writes. -/
  | apple (device : D) (user : Uid) (info : AppleInfo) (between : List (UserEvent D))

def SignIn.user : SignIn D → Uid
  | .rigister _ user _ _ | .login _ user | .apple _ user _ _ => user

/-- The state in which the operation writes. -/
def SignIn.before (s : UserState D) : SignIn D → UserState D
  | .rigister _ _ _ _ => s
  | .login _ _ => s
  | .apple device user _ between => run userStep (userStep s (.signIn device user)) between

/-- The state after it, every request having succeeded. -/
def SignIn.perform (s : UserState D) (op : SignIn D) : UserState D :=
  match op with
  | .rigister device user form currentUser =>
      userStep s (.rigister device user form currentUser fun _ => true)
  | .login device user => userStep s (.signIn device user)
  | .apple _ user info _ =>
      userStep (op.before s)
        (.saveUserInfo user info (s.store.getDocument userAccountInfo user.1 true) fun _ => true)

/--
The operation asks for a profile of its user: the text fields are still filled and
the user is the one signed up, or there is no account.
-/
def SignIn.Registers (s : UserState D) : SignIn D → Prop
  | .rigister _ user form currentUser =>
      (filled form.email).isSome = true ∧ (filled form.password).isSome = true ∧
        currentUser = some user
  | .login _ _ => False
  | .apple _ user _ _ => s.store.document userAccountInfo user.1 = none

/-! ### Whether there is a profile afterwards -/

/-- A sign-up gives its user a profile exactly when its guards let it. -/
theorem profile_rigister_iff (s : UserState D) (device : D) (user : Uid) (form : SingupForm)
    (currentUser : Option Uid) :
    (profile (userStep s (.rigister device user form currentUser fun _ => true)) user.1).isSome
        = true ↔
      (profile s user.1).isSome = true ∨
        (filled form.email).isSome = true ∧ (filled form.password).isSome = true ∧
          currentUser = some user := by
  rcases postUserData_cases form currentUser with
    ⟨uid, rfl, hemail, hpassword, hw⟩ | ⟨hguard, hw⟩
  · simp only [profile, userStep, hw, Option.toList_some, Store.applyAll_cons, if_true,
      Store.applyAll_nil, Store.apply, Store.document_setData, true_and]
    by_cases huid : user.1 = uid.1
    · rw [if_pos huid]
      refine ⟨fun _ => Or.inr ⟨hemail, hpassword, ?_⟩, fun _ => rfl⟩
      exact congrArg some (Subtype.ext huid).symm
    · rw [if_neg huid]
      refine ⟨Or.inl, fun h => h.resolve_right fun hreg => huid ?_⟩
      rw [Option.some.inj hreg.2.2]
  · have hsame : profile (userStep s (.rigister device user form currentUser fun _ => true)) user.1
        = profile s user.1 := by
      simp [profile, userStep, hw]
    rw [hsame]
    refine ⟨Or.inl, fun h => h.resolve_right fun hreg => hguard ?_⟩
    exact ⟨hreg.1, hreg.2.1, by rw [hreg.2.2]; rfl⟩

/-- An Apple sign-in gives its user a profile exactly when it was answered with no account. -/
theorem profile_saveUserInfo_iff (s : UserState D) (user : Uid) (info : AppleInfo)
    (account : Snapshot) :
    (profile (userStep s (.saveUserInfo user info account fun _ => true)) user.1).isSome = true ↔
      (profile s user.1).isSome = true ∨ account.isFound = false := by
  have hdoc := document_saveUserInfo s.store (fun _ => true) user info account user.1
  unfold profile
  simp only [userStep]
  rw [hdoc]
  by_cases hfound : account.isFound = false
  · rw [if_pos ⟨hfound, rfl, rfl⟩]
    exact ⟨fun _ => Or.inr hfound, fun _ => rfl⟩
  · rw [if_neg fun h => hfound h.1]
    exact ⟨Or.inl, fun h => h.resolve_right hfound⟩

omit [DecidableEq D] in
/-- A read that gets through finds an account exactly when there is one. -/
theorem getDocument_isFound (s : UserState D) (user : Uid) :
    (s.store.getDocument userAccountInfo user.1 true).isFound = false ↔
      s.store.document userAccountInfo user.1 = none := by
  unfold Store.getDocument
  cases s.store.document userAccountInfo user.1 with
  | none => exact ⟨fun _ => rfl, fun _ => rfl⟩
  | some d => exact ⟨fun h => (nomatch h), fun h => (nomatch h)⟩

/--
After any history, an operation that signs a user in leaves them with a profile
exactly when they had one by the time it wrote, or it asked for one.
-/
theorem signed_in_has_profile_iff (as : List (UserEvent D)) (op : SignIn D) :
    (profile (op.perform (run userStep emptyUsers as)) op.user.1).isSome = true ↔
      (profile (op.before (run userStep emptyUsers as)) op.user.1).isSome = true ∨
        op.Registers (run userStep emptyUsers as) := by
  cases op with
  | rigister device user form currentUser =>
      exact profile_rigister_iff _ device user form currentUser
  | login device user =>
      exact ⟨Or.inl, fun h => h.resolve_right id⟩
  | apple device user info between =>
      rw [SignIn.Registers, ← getDocument_isFound]
      exact profile_saveUserInfo_iff _ user info _

/-- Aaron signs in with Apple; his account is stored and his profile is not. -/
def accountWithoutProfile : UserEvent Unit :=
  .saveUserInfo aaron ⟨"apple", "Aaron", "", "2023.10.14 09:00"⟩ .missing fun w =>
    decide (w.target.1 = userAccountInfo)

/-- He signs in again with nothing going wrong, and still has no profile. -/
theorem signed_in_without_profile :
    (profile ((SignIn.apple () aaron ⟨"apple", "", "", "2023.10.15 09:00"⟩ []).perform
      (run userStep emptyUsers [.signIn () aaron, accountWithoutProfile])) aaron.1).isSome
        = false := by
  rfl

end GoodThing
