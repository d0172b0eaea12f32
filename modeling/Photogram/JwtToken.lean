import Photogram.CxxString

/-!
# Tokens of the authentication server

JwtToken.cpp over a token library that signs claims and reads verified
tokens back. The clock counts ticks of 100 ns; a token stores whole seconds,
so its expiry is the last full second of its lifetime. Both creators write
the same kinds of claims and both checkers ask the library the same question.
-/

namespace Photogram.JwtToken

open CxxString

/-- Clock ticks of one second. -/
def ticksPerSecond : ℕ := 10000000

/-- Ticks of a number of minutes. -/
def minutes (count : ℕ) : ℕ := count*60*ticksPerSecond

/-- Ticks of a number of hours. -/
def hours (count : ℕ) : ℕ := count*3600*ticksPerSecond

/-- Whole seconds of a clock reading, as a token stores it. -/
def numericDate (ticks : ℕ) : ℕ := ticks/ticksPerSecond

/-- What a token says. -/
structure JwtClaims where
  /-- Type in the token's header. -/
  type : Bytes
  /-- Issuer claim. -/
  issuer : Bytes
  /-- Subject claim, a user id. -/
  subject : Bytes
  /-- Second of issue. -/
  issuedAt : ℕ
  /-- Last second of validity. -/
  expiresAt : ℕ
  deriving DecidableEq

/-- The token library. -/
structure JwtLibrary where
  /-- Token text of the claims, signed with a secret. -/
  sign : JwtClaims → Bytes → Except CxxException Bytes
  /-- Claims of a token text that decodes and verifies under an issuer and a
  secret at a clock reading. -/
  decodeVerified : Bytes → Bytes → ℕ → Bytes → Except CxxException JwtClaims

/-- The library accepts a signed token exactly under its issuer and until its
expiry has passed, and reads its claims back. -/
def JwtLibrary.Verifies (jwt : JwtLibrary) : Prop :=
  ∀ claims key token issuer now decoded,jwt.sign claims key=.ok token →
    (jwt.decodeVerified issuer key now token=.ok decoded ↔
      decoded=claims ∧ claims.issuer=issuer ∧ now ≤ claims.expiresAt*ticksPerSecond)

/-- Type of every token. -/
def tokenType : Bytes := ascii "JWS"

/-- Issuer of every token. -/
def tokenIssuer : Bytes := ascii "PhotogramAuth"

/-- Claims of a token for a user issued at a clock reading with a lifetime. -/
def claimsFor (id : Bytes) (now lifetime : ℕ) : JwtClaims :=
  ⟨tokenType,tokenIssuer,id,numericDate now,numericDate (now+lifetime)⟩

/-- Lifetime of a refresh token. -/
def refreshLifetime : ℕ := hours (7*24)

/-- Lifetime of an access token. -/
def accessLifetime : ℕ := minutes 15

/-- Refresh token of a user. -/
def createRefreshToken (jwt : JwtLibrary) (id secret : Bytes) (now : ℕ) :
    Except CxxException Bytes := jwt.sign (claimsFor id now refreshLifetime) secret

/-- Access token of a user. -/
def createAccessToken (jwt : JwtLibrary) (id secret : Bytes) (now : ℕ) :
    Except CxxException Bytes := jwt.sign (claimsFor id now accessLifetime) secret

/-- Subject of a token accepted as access token; every rejection is raised
with one text. -/
def checkAccessToken (jwt : JwtLibrary) (accessToken secret : Bytes) (now : ℕ) :
    Except CxxException Bytes :=
  match jwt.decodeVerified tokenIssuer secret now accessToken with
  | .ok decoded => .ok decoded.subject
  | .error _ => .error (.runtimeError "invalid access token")

/-- Subject of a token accepted as refresh token; the library's rejection passes. -/
def checkRefreshToken (jwt : JwtLibrary) (refreshToken secret : Bytes) (now : ℕ) :
    Except CxxException Bytes :=
  match jwt.decodeVerified tokenIssuer secret now refreshToken with
  | .ok decoded => .ok decoded.subject
  | .error e => .error e

/-- The two checkers accept the same tokens with the same subject. -/
theorem checkRefreshToken_ok_iff (jwt : JwtLibrary) (token secret id : Bytes) (now : ℕ) :
    checkRefreshToken jwt token secret now=.ok id ↔ checkAccessToken jwt token secret now=.ok id := by
  unfold checkRefreshToken checkAccessToken
  cases jwt.decodeVerified tokenIssuer secret now token <;> simp

/-- A second of issue later than a lifetime of whole minutes is the expiry. -/
theorem numericDate_add_accessLifetime (now : ℕ) :
    numericDate (now+accessLifetime)*ticksPerSecond=numericDate now*ticksPerSecond+accessLifetime := by
  unfold numericDate accessLifetime minutes ticksPerSecond
  omega

/-- The stored second begins no later than the clock reading. -/
theorem numericDate_mul_le (now : ℕ) : numericDate now*ticksPerSecond ≤ now := Nat.div_mul_le_self _ _

/-- A signed token of a lifetime is accepted exactly until its stored expiry. -/
theorem checkAccessToken_signed {jwt : JwtLibrary} (hjwt : jwt.Verifies)
    {id accepted key token : Bytes} {issued lifetime now : ℕ}
    (hsign : jwt.sign (claimsFor id issued lifetime) key=.ok token) :
    checkAccessToken jwt token key now=.ok accepted ↔
      accepted=id ∧ now ≤ numericDate (issued+lifetime)*ticksPerSecond := by
  have hlaw := fun decoded => hjwt _ _ _ tokenIssuer now decoded hsign
  unfold checkAccessToken
  cases hverified : jwt.decodeVerified tokenIssuer key now token with
  | error e =>
    rw [hverified] at hlaw
    have hrejected := (hlaw (claimsFor id issued lifetime)).mpr
    constructor
    · exact fun h => nomatch h
    · exact fun h => nomatch hrejected ⟨rfl,rfl,h.2⟩
  | ok decoded =>
    rw [hverified] at hlaw
    obtain ⟨hdecoded,_,hnow⟩ := (hlaw decoded).mp rfl
    rw [hdecoded]
    constructor
    · intro h
      cases h
      exact ⟨rfl,hnow⟩
    · intro h
      rw [h.1]
      rfl

section letters

/-- A number in a fixed count of letters, the lowest digit first. -/
def letters : ℕ → ℕ → Bytes
  | 0,_ => []
  | count+1,number => (65+number%16).toUInt8::letters count (number/16)

/-- Number of its letters. -/
def lettersValue (text : Bytes) : ℕ := text.foldr (fun letter value => letter.toNat-65+16*value) 0

/-- A library that spells claims of decimal subjects out and appends the key. -/
def lettersJwt : JwtLibrary where
  sign claims key :=
    if claims.type=tokenType ∧ claims.issuer=tokenIssuer ∧ claims.subject.all isDigit ∧
        claims.issuedAt < 16^8 ∧ claims.expiresAt < 16^8 then
      .ok (letters 8 claims.issuedAt++letters 8 claims.expiresAt++claims.subject++46::key)
    else .error (.runtimeError "not spelled")
  decodeVerified issuer key now token :=
    let claims : JwtClaims :=
      ⟨tokenType,tokenIssuer,(token.drop 16).takeWhile isDigit,lettersValue (token.take 8),
        lettersValue ((token.drop 8).take 8)⟩
    if (token.drop 16).dropWhile isDigit=46::key ∧ issuer=tokenIssuer ∧
        now ≤ claims.expiresAt*ticksPerSecond then .ok claims
    else .error (.runtimeError "not verified")

/-- The count of letters is kept. -/
theorem letters_length (count number : ℕ) : (letters count number).length=count := by
  induction count generalizing number with
  | zero => rfl
  | succ count ih => rw [letters,List.length_cons,ih]

/-- A number with few enough digits is read back from its letters. -/
theorem lettersValue_letters (count : ℕ) {number : ℕ} (h : number < 16^count) :
    lettersValue (letters count number)=number := by
  induction count generalizing number with
  | zero =>
    rw [Nat.pow_zero] at h
    change 0=number
    omega
  | succ count ih =>
    have hsmall : number/16 < 16^count := by
      rw [Nat.pow_succ] at h
      omega
    have hrest := ih hsmall
    change (65+number%16).toUInt8.toNat-65+16*lettersValue (letters count (number/16))=number
    rw [hrest,Nat.toUInt8_eq,UInt8.toNat_ofNat']
    omega

/-- The claims of a spelled token are read back. -/
theorem lettersJwt_decodeVerified {issuedAt expiresAt now : ℕ} {subject key issuer : Bytes}
    (hissued : issuedAt < 16^8) (hexpires : expiresAt < 16^8)
    (hsubject : ∀ digit ∈ subject,isDigit digit) :
    lettersJwt.decodeVerified issuer key now
        (letters 8 issuedAt++letters 8 expiresAt++subject++46::key)=
      if issuer=tokenIssuer ∧ now ≤ expiresAt*ticksPerSecond then
        .ok ⟨tokenType,tokenIssuer,subject,issuedAt,expiresAt⟩
      else .error (.runtimeError "not verified") := by
  have hdates : (letters 8 issuedAt++letters 8 expiresAt).length=16 := by
    rw [List.length_append,letters_length,letters_length]
  have hpoint : ¬isDigit 46=true := by decide
  rw [List.append_assoc]
  unfold lettersJwt
  dsimp only
  rw [List.drop_left' hdates,List.append_assoc (letters 8 issuedAt),
    List.take_left' (letters_length 8 issuedAt),List.drop_left' (letters_length 8 issuedAt),
    List.take_left' (letters_length 8 expiresAt),lettersValue_letters 8 hissued,
    lettersValue_letters 8 hexpires,List.takeWhile_append_of_pos hsubject,
    List.dropWhile_append_of_pos hsubject,List.dropWhile_cons_of_neg hpoint,
    List.takeWhile_cons_of_neg hpoint,List.append_nil]
  simp only [true_and]

/-- The spelled tokens obey the law of the library. -/
theorem verifies_lettersJwt : lettersJwt.Verifies := by
  intro claims key token issuer now decoded hsign
  obtain ⟨type,signer,subject,issuedAt,expiresAt⟩ := claims
  change (if _ then _ else _)=_ at hsign
  split at hsign
  · next hclaims =>
    obtain ⟨htype,hissuer,hsubject,hissued,hexpires⟩ := hclaims
    dsimp only at htype hissuer hsubject hissued hexpires hsign ⊢
    cases hsign
    rw [lettersJwt_decodeVerified hissued hexpires (List.all_eq_true.mp hsubject),htype,hissuer]
    constructor
    · intro h
      split at h
      · next haccepted =>
        cases h
        exact ⟨rfl,haccepted.1.symm,haccepted.2⟩
      · cases h
    · intro h
      rw [if_pos ⟨h.2.1.symm,h.2.2⟩,h.1]
  · cases hsign

end letters

end Photogram.JwtToken
