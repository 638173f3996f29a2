/-
Sign in with Apple, in `UserLoginViewController`.

A tap makes a nonce, puts its hash into a request and keeps the nonce itself in
`currentNonce`, where the next tap overwrites it and nothing clears it.  When a request
comes back with an identity token, the credential for `Auth` is made from the token and
from `currentNonce` as it is by then.
-/
import GoodThing.Lib.Run
import Mathlib.Data.Vector.Basic

namespace GoodThing

/-! ### Nonces -/

/-- The characters of a nonce; there is no `W` among them. -/
def charset : List Char :=
  "0123456789ABCDEFGHIJKLMNOPQRSTUVXYZabcdefghijklmnopqrstuvwxyz-._".toList

theorem length_charset : charset.length = 64 := by decide

/-- What one random byte becomes. -/
def nonceCharacter (byte : UInt8) : Char :=
  charset.get ⟨byte.toNat % charset.length, Nat.mod_lt _ (by rw [length_charset]; decide)⟩

/-- `randomNonceString(length:)`, from the bytes `SecRandomCopyBytes` has filled in. -/
def randomNonceString {length : ℕ} (randomBytes : List.Vector UInt8 length) : String :=
  String.ofList (randomBytes.toList.map nonceCharacter)

/-! ### Requests and their callbacks -/

structure AppleIDRequest where
  nonce : String
  /-- What `nonce` is the hash of.  The request does not hold it. -/
  rawNonce : String
  deriving DecidableEq

/-- What a completed authorization holds for `Auth`. -/
structure AppleIDCredential where
  identityToken : Option ByteArray
  fullName : Option String

/-- How a request comes back. -/
inductive Authorization where
  | appleID (credential : AppleIDCredential)
  /-- With a credential of another kind. -/
  | other
  | error

/-- What `appleCredential(withIDToken:rawNonce:fullName:)` makes for `Auth`. -/
structure OAuthCredential where
  idToken : String
  rawNonce : String
  fullName : Option String
  /-- The request the token was made for, by its place among all requests. -/
  request : ℕ
  deriving DecidableEq

structure AppleSignInState where
  currentNonce : Option String
  /-- Every request, oldest first. -/
  requests : List AppleIDRequest
  /-- The requests that have come back; each does at most once. -/
  answered : List ℕ
  /-- What `signIn(with:)` has been called with, latest first. -/
  signIns : List OAuthCredential
  deriving DecidableEq

inductive AppleSignInAction where
  /-- The 32 bytes are those of the nonce. -/
  | startSignInWithAppleFlow (randomBytes : List.Vector UInt8 32)
  | authorizationController (request : ℕ) (authorization : Authorization)

def openLogin : AppleSignInState :=
  { currentNonce := none, requests := [], answered := [], signIns := [] }

/-- `sha256` is the hash in hexadecimal digits. -/
def startSignInWithAppleFlow (sha256 : String → String) (s : AppleSignInState)
    (randomBytes : List.Vector UInt8 32) : AppleSignInState :=
  let nonce := randomNonceString randomBytes
  { s with
    currentNonce := some nonce
    requests := s.requests ++ [{ nonce := sha256 nonce, rawNonce := nonce }] }

/-- The credential the callback of a request signs in with, if any. -/
def oauthCredential (s : AppleSignInState) (request : ℕ) : Authorization → Option OAuthCredential
  | .appleID credential => do
      -- Without a request `currentNonce` is `nil` and the app stops, but then nothing comes back.
      let nonce ← s.currentNonce
      let appleIDToken ← credential.identityToken
      let idTokenString ← String.fromUTF8? appleIDToken
      return {
        idToken := idTokenString, rawNonce := nonce
        fullName := credential.fullName, request := request }
  | .other => none
  | .error => none

/-- The two callbacks; only a request that is out comes back. -/
def authorizationController (s : AppleSignInState) (request : ℕ) (authorization : Authorization) :
    AppleSignInState :=
  if request < s.requests.length ∧ request ∉ s.answered then
    { s with
      answered := request :: s.answered
      signIns := (oauthCredential s request authorization).toList ++ s.signIns }
  else s

def appleSignInStep (sha256 : String → String) (s : AppleSignInState) :
    AppleSignInAction → AppleSignInState
  | .startSignInWithAppleFlow randomBytes => startSignInWithAppleFlow sha256 s randomBytes
  | .authorizationController request authorization =>
      authorizationController s request authorization

end GoodThing
