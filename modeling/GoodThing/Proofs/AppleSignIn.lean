/-
Nonces: whose they are, and how likely.

`currentNonce` is the nonce of the latest request, so a token is combined with the nonce
of its own request exactly when no other has been made since.  A request comes back at
most once, and that is all that keeps a nonce from being used again.

The nonces themselves are as random as the bytes: the 64 characters are distinct and 64
divides 256.
-/
import GoodThing.Controller.AppleSignIn
import GoodThing.Lib.Fibre

namespace GoodThing

open Machine
open scoped ENNReal

/-! ### What a step can do -/

variable {sha256 : String → String} {s : AppleSignInState}

/-- The identity token an authorization delivers, if it can be read. -/
def Authorization.idToken : Authorization → Option String
  | .appleID credential => credential.identityToken.bind String.fromUTF8?
  | .other => none
  | .error => none

/-- A token that can be read is combined with the nonce there is. -/
theorem oauthCredential_of_some {authorization : Authorization} {nonce idToken : String}
    (hnonce : s.currentNonce = some nonce) (htoken : authorization.idToken = some idToken)
    (request : ℕ) :
    ∃ credential, oauthCredential s request authorization = some credential ∧
      credential.rawNonce = nonce ∧ credential.request = request := by
  cases authorization with
  | appleID credential =>
      obtain ⟨data, hdata, hread⟩ := Option.bind_eq_some_iff.mp htoken
      refine ⟨⟨idToken, nonce, credential.fullName, request⟩, ?_, rfl, rfl⟩
      simp [oauthCredential, hnonce, hdata, hread]
  | other => cases htoken
  | error => cases htoken

theorem oauthCredential_of_none {authorization : Authorization}
    (htoken : authorization.idToken = none) (request : ℕ) :
    oauthCredential s request authorization = none := by
  cases authorization with
  | appleID credential =>
      have hread : credential.identityToken.bind String.fromUTF8? = none := htoken
      show s.currentNonce.bind (fun nonce => credential.identityToken.bind fun data =>
        (String.fromUTF8? data).bind fun idToken => some _) = none
      rw [Option.bind_eq_none_iff]
      intro nonce _
      rw [← Option.bind_assoc, hread, Option.bind_none]
  | other => rfl
  | error => rfl

/-! ### Requests -/

/-- How requests, callbacks and `currentNonce` belong together. -/
structure Issued (sha256 : String → String) (s : AppleSignInState) : Prop where
  /-- `currentNonce` is that of the latest request. -/
  current : s.currentNonce = (s.requests[s.requests.length - 1]?).map (·.rawNonce)
  hashed : ∀ r ∈ s.requests, r.nonce = sha256 r.rawNonce
  distinct : (s.requests.map (·.rawNonce)).Nodup
  /-- Only a request that has come back has been signed in with, and only once. -/
  answered : ∀ c ∈ s.signIns, c.request ∈ s.answered
  once : (s.signIns.map (·.request)).Nodup

/-- No nonce is made twice. -/
def FreshNonce (s : AppleSignInState) (a : AppleSignInAction) : Prop :=
  ∀ randomBytes, a = .startSignInWithAppleFlow randomBytes →
    randomNonceString randomBytes ∉ s.requests.map (·.rawNonce)

theorem issued_openLogin : Issued sha256 openLogin :=
  ⟨rfl, nofun, List.nodup_nil, nofun, List.nodup_nil⟩

/-- Requests with the same nonce are the same. -/
theorem Issued.index_eq (h : Issued sha256 s) {i j : ℕ} {r r' : AppleIDRequest}
    (hi : s.requests[i]? = some r) (hj : s.requests[j]? = some r')
    (heq : r.rawNonce = r'.rawNonce) : i = j := by
  obtain ⟨hlt, -⟩ := List.getElem?_eq_some_iff.mp hi
  refine (List.getElem?_inj (by rw [List.length_map]; exact hlt) h.distinct).mp ?_
  rw [List.getElem?_map, List.getElem?_map, hi, hj, Option.map_some, Option.map_some, heq]

/--
Everything a step can do: make a request, sign nobody in, or sign in with the nonce of the
latest request.
-/
theorem appleSignInStep_cases (a : AppleSignInAction) (h : Issued sha256 s) :
    (∃ randomBytes, a = .startSignInWithAppleFlow randomBytes ∧
      appleSignInStep sha256 s a = startSignInWithAppleFlow sha256 s randomBytes) ∨
    (∃ request authorization answered, a = .authorizationController request authorization ∧
      (request < s.requests.length → request ∉ s.answered → authorization.idToken = none) ∧
      (∀ k ∈ s.answered, k ∈ answered) ∧
      appleSignInStep sha256 s a = { s with answered := answered }) ∨
    (∃ request authorization latest credential,
      a = .authorizationController request authorization ∧
      request < s.requests.length ∧ request ∉ s.answered ∧ authorization.idToken ≠ none ∧
      s.requests[s.requests.length - 1]? = some latest ∧
      credential.rawNonce = latest.rawNonce ∧ credential.request = request ∧
      appleSignInStep sha256 s a = { s with
        answered := request :: s.answered, signIns := credential :: s.signIns }) := by
  cases a with
  | startSignInWithAppleFlow randomBytes => exact Or.inl ⟨randomBytes, rfl, rfl⟩
  | authorizationController request authorization =>
      refine Or.inr ?_
      by_cases hout : request < s.requests.length ∧ request ∉ s.answered
      · have heq : appleSignInStep sha256 s (.authorizationController request authorization) =
            { s with
              answered := request :: s.answered
              signIns := (oauthCredential s request authorization).toList ++ s.signIns } :=
          if_pos hout
        cases htoken : authorization.idToken with
        | none =>
            refine Or.inl ⟨request, authorization, request :: s.answered, rfl,
              fun _ _ => htoken, fun k hk => List.mem_cons_of_mem request hk, ?_⟩
            rw [heq, oauthCredential_of_none htoken]
            rfl
        | some idToken =>
            have hlast : s.requests.length - 1 < s.requests.length := by omega
            obtain ⟨latest, hlatest⟩ : ∃ r, s.requests[s.requests.length - 1]? = some r :=
              ⟨_, List.getElem?_eq_getElem hlast⟩
            have hnonce : s.currentNonce = some latest.rawNonce := by
              rw [h.current, hlatest]
              rfl
            obtain ⟨credential, hcred, hraw, hreq⟩ := oauthCredential_of_some hnonce htoken request
            refine Or.inr ⟨request, authorization, latest, credential, rfl, hout.1, hout.2, ?_,
              hlatest, hraw, hreq, ?_⟩
            · rw [htoken]
              nofun
            · rw [heq, hcred]
              rfl
      · refine Or.inl ⟨request, authorization, s.answered, rfl, ?_, fun _ hk => hk, ?_⟩
        · intro hlt hnot
          exact absurd ⟨hlt, hnot⟩ hout
        · exact if_neg hout

theorem issued_step (s : AppleSignInState) (a : AppleSignInAction) (h : Issued sha256 s)
    (hfresh : FreshNonce s a) : Issued sha256 (appleSignInStep sha256 s a) := by
  rcases appleSignInStep_cases a h with ⟨randomBytes, ha, heq⟩ |
    ⟨request, authorization, answered, -, -, hsub, heq⟩ |
    ⟨request, authorization, latest, credential, -, -, hnot, -, -, -, hreq, heq⟩
  · rw [heq]
    refine ⟨?_, ?_, ?_, h.answered, h.once⟩
    · simp [startSignInWithAppleFlow]
    · intro r hr
      rcases List.mem_append.mp hr with hold | hnew
      · exact h.hashed r hold
      · rw [List.mem_singleton.mp hnew]
    · show ((s.requests ++ [_]).map AppleIDRequest.rawNonce).Nodup
      rw [List.map_append, List.nodup_append_comm]
      exact List.nodup_cons.mpr ⟨hfresh randomBytes ha, h.distinct⟩
  · rw [heq]
    exact ⟨h.current, h.hashed, h.distinct, fun c hc => hsub _ (h.answered c hc), h.once⟩
  · rw [heq]
    refine ⟨h.current, h.hashed, h.distinct, ?_, ?_⟩
    · intro c hc
      rcases List.mem_cons.mp hc with hnew | hold
      · rw [hnew, hreq]
        exact List.mem_cons_self
      · exact List.mem_cons_of_mem request (h.answered c hold)
    · refine List.nodup_cons.mpr ⟨?_, h.once⟩
      intro hmem
      obtain ⟨c, hc, hsame⟩ := List.mem_map.mp hmem
      have hback := h.answered c hc
      have hsame' : c.request = request := hsame.trans hreq
      rw [hsame'] at hback
      exact hnot hback

/-! ### Whose nonce it is -/

/--
Every token has been combined with the nonce whose hash is in its own request, and no
nonce has been used twice.
-/
def NonceBound (sha256 : String → String) (s : AppleSignInState) : Prop :=
  (∀ c ∈ s.signIns, ∃ r, s.requests[c.request]? = some r ∧ r.rawNonce = c.rawNonce ∧
    r.nonce = sha256 c.rawNonce) ∧
  (s.signIns.map (·.rawNonce)).Nodup

/-- A request that comes back with a token is the latest one. -/
def AnswersLatest (s : AppleSignInState) (a : AppleSignInAction) : Prop :=
  ∀ request authorization, a = .authorizationController request authorization →
    request < s.requests.length → request ∉ s.answered → authorization.idToken ≠ none →
    request + 1 = s.requests.length

theorem nonceBound_step_iff (s : AppleSignInState) (a : AppleSignInAction)
    (h : Issued sha256 s) (hP : NonceBound sha256 s) :
    NonceBound sha256 (appleSignInStep sha256 s a) ↔ AnswersLatest s a := by
  rcases appleSignInStep_cases a h with ⟨randomBytes, ha, heq⟩ |
    ⟨request, authorization, answered, ha, hnone, -, heq⟩ |
    ⟨request, authorization, latest, credential, ha, hlt, hnot, htoken, hlatest, hraw, hreq, heq⟩
  · rw [heq, ha]
    refine iff_of_true ⟨?_, hP.2⟩ nofun
    intro c hc
    obtain ⟨r, hr, hown⟩ := hP.1 c hc
    obtain ⟨hlt, -⟩ := List.getElem?_eq_some_iff.mp hr
    refine ⟨r, ?_, hown⟩
    show (s.requests ++ [_])[c.request]? = some r
    rw [List.getElem?_append_left hlt]
    exact hr
  · rw [heq, ha]
    refine iff_of_true hP ?_
    intro request' authorization' hsame hlt hnot htoken
    obtain ⟨rfl, rfl⟩ := AppleSignInAction.authorizationController.inj hsame
    exact absurd (hnone hlt hnot) htoken
  · rw [heq, ha]
    refine ⟨?_, ?_⟩
    · intro hP' request' authorization' hsame _ _ _
      obtain ⟨rfl, rfl⟩ := AppleSignInAction.authorizationController.inj hsame
      obtain ⟨r, hr, hown, -⟩ := hP'.1 credential List.mem_cons_self
      rw [hreq] at hr
      have hindex := h.index_eq hr hlatest (hown.trans hraw)
      omega
    · intro hguard
      have hlast := hguard request authorization rfl hlt hnot htoken
      have hown : s.requests[request]? = some latest := by
        rw [← hlatest, ← hlast, Nat.add_sub_cancel]
      refine ⟨?_, List.nodup_cons.mpr ⟨?_, hP.2⟩⟩
      · intro c hc
        rcases List.mem_cons.mp hc with rfl | hold
        · refine ⟨latest, by rw [hreq]; exact hown, hraw.symm, ?_⟩
          rw [hraw]
          exact h.hashed latest (List.mem_of_getElem? hown)
        · exact hP.1 c hold
      · -- Whoever has used this nonce came back as the request that comes back now.
        intro hmem
        obtain ⟨c, hc, hsame⟩ := List.mem_map.mp hmem
        obtain ⟨r, hr, hr', -⟩ := hP.1 c hc
        have hindex := h.index_eq hr hown (hr'.trans (hsame.trans hraw))
        have hback := h.answered c hc
        rw [hindex] at hback
        exact hnot hback

/--
As long as no nonce is made twice, every token is combined with its own nonce, and no
nonce used twice, exactly when each token comes back before the next request is made.
-/
theorem nonce_bound_iff (sha256 : String → String) (as : List AppleSignInAction)
    (hfresh : Guarded (appleSignInStep sha256) FreshNonce openLogin as) :
    Always (appleSignInStep sha256) (NonceBound sha256) openLogin as ↔
      Guarded (appleSignInStep sha256) AnswersLatest openLogin as :=
  always_iff_guarded_of (fun s a h _ _ hf => issued_step s a h hf)
    (fun s a h hP _ => nonceBound_step_iff s a h hP) as hfresh issued_openLogin
    ⟨nofun, List.nodup_nil⟩

/-- The nonces of 32 bytes 0 and of 32 bytes 1, and their hashes. -/
def hashOfZerosAndOnes (input : String) : String :=
  if input = "00000000000000000000000000000000" then
    "84e0c0eafaa95a34c293f278ac52e45ce537bab5e752a00e6959a13ae103b65a"
  else if input = "11111111111111111111111111111111" then
    "8a83665f3798727f14f92ad0e6c99fdab08ee731d6cd644c131223fd2f4fed2a"
  else ""

/-- An authorization with an identity token. -/
def completed : Authorization :=
  .appleID { identityToken := some "token".toUTF8, fullName := none }

/-- One request that comes back; the step before each is fresh and the answer the latest. -/
def oneRequest : List AppleSignInAction :=
  [.startSignInWithAppleFlow (.replicate 32 0), .authorizationController 0 completed]

theorem one_request_bound :
    Always (appleSignInStep hashOfZerosAndOnes) (NonceBound hashOfZerosAndOnes) openLogin
      oneRequest := by
  refine (nonce_bound_iff hashOfZerosAndOnes oneRequest ?_).mpr ?_
  · exact guarded_cons.mpr ⟨fun _ _ => List.not_mem_nil, guarded_cons.mpr ⟨nofun, guarded_nil⟩⟩
  · refine guarded_cons.mpr ⟨nofun, guarded_cons.mpr ⟨?_, guarded_nil⟩⟩
    intro request authorization hsame _ _ _
    rw [← (AppleSignInAction.authorizationController.inj hsame).1]
    decide

/-- Two taps, and then the first request comes back. -/
def twoRequests : List AppleSignInAction :=
  [.startSignInWithAppleFlow (.replicate 32 0), .startSignInWithAppleFlow (.replicate 32 1),
    .authorizationController 0 completed]

theorem older_token_with_newer_nonce :
    Guarded (appleSignInStep hashOfZerosAndOnes) FreshNonce openLogin twoRequests ∧
      ¬ Always (appleSignInStep hashOfZerosAndOnes) (NonceBound hashOfZerosAndOnes) openLogin
        twoRequests := by
  refine ⟨?_, ?_⟩
  · refine guarded_cons.mpr ⟨fun _ _ => List.not_mem_nil, guarded_cons.mpr ⟨?_, ?_⟩⟩
    · intro randomBytes hsame
      rw [← AppleSignInAction.startSignInWithAppleFlow.inj hsame]
      decide
    · exact guarded_cons.mpr ⟨nofun, guarded_nil⟩
  · intro h
    have hsignIns : (run (appleSignInStep hashOfZerosAndOnes) openLogin twoRequests).signIns =
        [⟨"token", "11111111111111111111111111111111", none, 0⟩] := by decide
    obtain ⟨r, hr, hown, -⟩ := h.last.1 _ (by rw [hsignIns]; exact List.mem_singleton.mpr rfl)
    have hfirst : r = ⟨hashOfZerosAndOnes "00000000000000000000000000000000",
        "00000000000000000000000000000000"⟩ := by
      refine Option.some.inj (hr.symm.trans ?_)
      decide
    rw [hfirst] at hown
    exact absurd hown (by decide)

/-! ### How likely it is -/

theorem charset_nodup : charset.Nodup := by decide +kernel

/-- A string of `n` characters of `charset`. -/
def IsNonce (n : ℕ) (nonce : String) : Prop :=
  nonce.length = n ∧ ∀ c ∈ nonce.toList, c ∈ charset

/-- A byte is one of 4 * 64 numbers. -/
def byteEquiv : UInt8 ≃ Fin (4 * charset.length) where
  toFun byte := ⟨byte.toNat, byte.toNat_lt⟩
  invFun i := UInt8.ofNat i
  left_inv byte := UInt8.ofNat_toNat
  right_inv i := by
    ext
    exact UInt8.toNat_ofNat_of_lt' i.2

noncomputable instance fintypeUInt8 : Fintype UInt8 := Fintype.ofEquiv _ byteEquiv.symm

/-- Four bytes become a given character. -/
theorem card_nonceCharacter {c : Char} (hc : c ∈ charset) :
    Nat.card { byte : UInt8 // nonceCharacter byte = c } = 4 := by
  have hbytes : { byte : UInt8 // nonceCharacter byte = c } ≃
      { i : Fin (4 * charset.length) // charset.get i.modNat = c } :=
    byteEquiv.subtypeEquiv fun _ => Iff.rfl
  rw [Nat.card_congr hbytes, Fibre.card_get_modNat 4 charset_nodup hc]

theorem isNonce_randomNonceString {n : ℕ} (randomBytes : List.Vector UInt8 n) :
    IsNonce n (randomNonceString randomBytes) := by
  refine ⟨?_, ?_⟩
  · rw [randomNonceString, String.length_ofList, List.length_map, List.Vector.toList_length]
  · intro c hc
    rw [randomNonceString, String.toList_ofList] at hc
    obtain ⟨byte, -, rfl⟩ := List.mem_map.mp hc
    exact List.get_mem charset _

theorem card_randomNonceString {n : ℕ} {nonce : String} (h : IsNonce n nonce) :
    Nat.card { randomBytes : List.Vector UInt8 n // randomNonceString randomBytes = nonce } =
      4 ^ n := by
  have hlists : { randomBytes : List.Vector UInt8 n // randomNonceString randomBytes = nonce } ≃
      { randomBytes : List.Vector UInt8 n //
        randomBytes.toList.map nonceCharacter = nonce.toList } := by
    refine Equiv.subtypeEquivRight fun randomBytes => ?_
    rw [randomNonceString, ← String.toList_inj, String.toList_ofList]
  have hlength : nonce.toList.length = n := by rw [String.length_toList, h.1]
  rw [Nat.card_congr hlists, Fibre.card_map_vector (B := { c | c ∈ charset }) nonceCharacter
    (fun _ hc => card_nonceCharacter hc) nonce.toList h.2 hlength]

theorem card_bytes (n : ℕ) : Fintype.card (List.Vector UInt8 n) = 4 ^ n * 64 ^ n := by
  have hbyte : Fintype.card UInt8 = 4 * 64 := by
    rw [Fintype.card_congr byteEquiv, Fintype.card_fin, length_charset]
  rw [card_vector, hbyte, mul_pow]

/--
Every nonce of length `n` is made from `4 ^ n` of the arrays of `n` bytes, and nothing
else is made; uniform bytes make each with the same probability.
-/
theorem nonces_unbiased (n : ℕ) :
    (∀ randomBytes : List.Vector UInt8 n, IsNonce n (randomNonceString randomBytes)) ∧
    ∀ nonce, IsNonce n nonce →
      Nat.card { randomBytes : List.Vector UInt8 n // randomNonceString randomBytes = nonce } =
          4 ^ n ∧
      (PMF.uniformOfFintype (List.Vector UInt8 n)).map randomNonceString nonce =
        1 / (charset.length : ℝ≥0∞) ^ n := by
  refine ⟨isNonce_randomNonceString, ?_⟩
  intro nonce h
  refine ⟨card_randomNonceString h, ?_⟩
  have hfour : ((4 : ℝ≥0∞) ^ n) ≠ 0 := by simp
  have hfinite : ((4 : ℝ≥0∞) ^ n) ≠ ⊤ := by simp
  rw [Fibre.uniform_map_apply, card_randomNonceString h, card_bytes, length_charset]
  push_cast
  rw [← ENNReal.mul_div_mul_left 1 _ hfour hfinite, mul_one]

/-- Sixteen pairs of bytes become one nonce of two characters. -/
theorem card_two_bytes :
    Nat.card { randomBytes : List.Vector UInt8 2 // randomNonceString randomBytes = "A_" } =
      16 := by
  refine ((nonces_unbiased 2).2 "A_" ⟨by decide, ?_⟩).1
  intro c hc
  have hchars : c ∈ ['A', '_'] := hc
  rcases List.mem_pair.mp hchars with rfl | rfl
  · decide
  · decide

end GoodThing
