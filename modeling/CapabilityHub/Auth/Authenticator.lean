import CapabilityHub.Auth.Identity
import CapabilityHub.References

/-! # One-time request tokens

`LoopbackAuthenticator`. `issue_one_time` looks at the session under the lock and signs after it
has left it, and `authenticate` checks the signature before it takes the lock for the nonce; each
of them is two functions here. What a token that was signed reads as is
`CapabilityHub.Auth.checkSigned_oneTimeToken`.
-/

namespace CapabilityHub

namespace Auth

/-- `_auth_error`. -/
def authError (code : String) : Raised :=
  .hub {
    code := code
    category := .policy
    safeMessage := "The HTTP control credential was rejected." }

/-- `_unauthorized`. -/
def unauthorized : Raised := authError "invalid_bearer_token"

/-- The key of the authenticator, the session and the nonces that it has seen. -/
structure Authenticator where
  key : Bytes
  sessionDigest : Option Bytes := none
  consumedNonces : List String := []

/-- `_encode`. -/
def encode (value : Bytes) : String := String.ofList (encodeBase64Chars value)

/-- `_decode`; `none` where it raises `ValueError`. -/
def decode (value : String) : Option Bytes :=
  urlsafeB64Decode (String.ofList (padBase64 value.toList))

/-- `_now`, with what the clock gives. -/
def checkClock (now : ℚ) : Except Raised Unit := raiseIf (now < 0) .valueError

namespace Authenticator

variable (authenticator : Authenticator)

/-- `start_session`, with the digest of the token that is drawn; `none` where it raises
`RuntimeError`. -/
def startSession (digest : Bytes) : Option Authenticator :=
  match authenticator.sessionDigest with
  | some _ => none
  | none => some { authenticator with sessionDigest := some digest, consumedNonces := [] }

/-- `close`, with the key that is drawn: nothing of the authenticator is left. -/
def close (key : Bytes) : Authenticator := { key := key }

/-- The lock of `issue_one_time`: whether the session is active. -/
def Active : Prop := authenticator.sessionDigest ≠ none

instance : Decidable authenticator.Active := inferInstanceAs (Decidable (_ ≠ _))

end Authenticator

/-- The payload of a token of the identity. -/
def payload (identity : AuthIdentity) (expiry : Int) (nonce : String) : Json :=
  .obj [("exp", .int expiry), ("nonce", .str nonce), ("principal", .str identity.principalId),
    ("session", .str identity.sessionId), ("source", .str identity.source),
    ("tenant", .str identity.tenantId)]

/-- The signed part of a token. -/
def encodedPayload (identity : AuthIdentity) (expiry : Int) (nonce : String) : String :=
  encode (encodeUtf8 (String.ofList ((payload identity expiry nonce).render escapeChar)))

section

-- HMAC-SHA256 of a key and a message
variable (mac : Bytes → Bytes → Bytes)

/-- `_encode(hmac.digest(key, encoded.encode(), "sha256"))`. -/
def signature (key : Bytes) (encoded : String) : String := encode (mac key (encodeUtf8 encoded))

/-- The text that `issue_one_time` returns. -/
def oneTimeToken (identity : AuthIdentity) (key : Bytes) (expiry : Int) (nonce : String) : String :=
  let encoded := encodedPayload identity expiry nonce
  "chs1." ++ encoded ++ "." ++ signature mac key encoded

/-- `hmac.compare_digest(supplied, expected)`: an error of either kind refuses the token. -/
def SameSignature (supplied expected : String) : Prop := compareDigest supplied expected = .ok true

instance {supplied expected : String} : Decidable (SameSignature supplied expected) :=
  decidable_of_iff (isAscii supplied ∧ isAscii expected ∧ supplied = expected) <| by
    rw [SameSignature, compareDigest]
    split
    next both => simp [both]
    next other =>
      simp only [reduceCtorEq, iff_false]
      exact fun all => other ⟨all.1, all.2.1⟩

/-- The expiry and the nonce of a payload of the identity. -/
def readPayload (identity : AuthIdentity) (encoded : String) : Option (Int × String) := do
  let bytes ← decode encoded
  let text ← decodeUtf8 bytes
  match ← loads text.toList with
  | .obj fields =>
      match mappingGet fields "tenant", mappingGet fields "principal", mappingGet fields "source",
          mappingGet fields "session", mappingGet fields "exp", mappingGet fields "nonce" with
      | some (.str tenant), some (.str principal), some (.str source), some (.str session),
          some (.int expiry), some (.str nonce) =>
          if (tenant = identity.tenantId ∧ principal = identity.principalId ∧
              source = identity.source ∧ session = identity.sessionId) ∧ nonce ≠ "" then
            some (expiry, nonce)
          else none
      | _, _, _, _, _, _ => none
  | _ => none

/-- `_authenticate_signed` up to its lock: the nonce of the token. -/
def checkSigned (identity : AuthIdentity) (key : Bytes) (token : String) (now : ℚ) :
    Except Raised String :=
  match (token.toList.splitOn '.').map String.ofList with
  | [start, encoded, supplied] => do
      raiseIf (start ≠ "chs1") unauthorized
      raiseIf (¬SameSignature supplied (signature mac key encoded)) unauthorized
      match readPayload identity encoded with
      | none => throw unauthorized
      | some (expiry, nonce) => do
          checkClock now
          raiseIf ((expiry : ℚ) ≤ now) (authError "authentication_expired")
          pure nonce
  | _ => throw unauthorized

/-- `authenticate` of a header with a signed token, up to the lock. -/
def checkAuthorization (identity : AuthIdentity) (key : Bytes) (authorization : String) (now : ℚ) :
    Except Raised String := do
  raiseIf (startsWith authorization "Bearer " = false) unauthorized
  checkSigned mac identity key (String.ofList (authorization.toList.drop 7)) now

end

/-- The locked end of `_authenticate_signed`. -/
def Authenticator.consumeNonce (nonce : String) (authenticator : Authenticator) :
    Except Raised Authenticator := do
  raiseIf (authenticator.sessionDigest = none) unauthorized
  raiseIf (nonce ∈ authenticator.consumedNonces) (authError "authentication_replayed")
  pure { authenticator with consumedNonces := nonce :: authenticator.consumedNonces }

/-! ## What a signed token reads as -/

variable {mac : Bytes → Bytes → Bytes} {identity : AuthIdentity} {key key' : Bytes} {expiry : Int}
  {nonce read : String} {now : ℚ}

theorem decode_encode (data : Bytes) : decode (encode data) = some data := by
  rw [decode, encode, String.toList_ofList, urlsafeB64Decode_encode]

theorem readPayload_encodedPayload (named : nonce ≠ "") :
    readPayload identity (encodedPayload identity expiry nonce) = some (expiry, nonce) := by
  have distinct : (payload identity expiry nonce).Distinct := by
    simp [payload, Json.Distinct, DistinctFields]
  rw [readPayload, encodedPayload, decode_encode, Option.bind_eq_bind, Option.bind_some,
    References.decodeUtf8_encodeUtf8, Option.bind_eq_bind, Option.bind_some, String.toList_ofList,
    loads_render legible_escapeChar _ distinct]
  simp [payload, mappingGet, List.lookup_cons, named]

theorem splitOn_oneTimeToken : ((oneTimeToken mac identity key expiry nonce).toList.splitOn '.').map
    String.ofList = ["chs1", encodedPayload identity expiry nonce,
      signature mac key (encodedPayload identity expiry nonce)] := by
  have plain (data : Bytes) : '.' ∉ (encode data).toList := by
    rw [encode, String.toList_ofList]
    exact fun member => (ascii_encodeBase64 data '.' member).2 rfl
  have plainPayload : '.' ∉ (encodedPayload identity expiry nonce).toList := plain _
  have plainSignature :
      '.' ∉ (signature mac key (encodedPayload identity expiry nonce)).toList := plain _
  have text : (oneTimeToken mac identity key expiry nonce).toList =
      "chs1".toList ++ '.' :: ((encodedPayload identity expiry nonce).toList ++ '.' ::
        (signature mac key (encodedPayload identity expiry nonce)).toList) := by
    simp [oneTimeToken, String.toList_append]
  rw [text, List.splitOn_append_cons_self_of_not_mem (by decide),
    List.splitOn_append_cons_self_of_not_mem plainPayload,
    List.splitOn_eq_singleton plainSignature]
  simp

/-- A token that was signed passes with its own nonce, before its expiry, where the signature is
the one under the key. -/
theorem checkSigned_oneTimeToken (named : nonce ≠ "") :
    checkSigned mac identity key (oneTimeToken mac identity key' expiry nonce) now = .ok read ↔
      mac key' (encodeUtf8 (encodedPayload identity expiry nonce)) =
        mac key (encodeUtf8 (encodedPayload identity expiry nonce)) ∧
      0 ≤ now ∧ now < expiry ∧ nonce = read := by
  have same : SameSignature (signature mac key' (encodedPayload identity expiry nonce))
      (signature mac key (encodedPayload identity expiry nonce)) ↔
        mac key' (encodeUtf8 (encodedPayload identity expiry nonce)) =
          mac key (encodeUtf8 (encodedPayload identity expiry nonce)) := by
    have ascii (data : Bytes) : isAscii (encode data) = true := References.isAscii_encode data
    rw [SameSignature, compareDigest, signature, signature, if_pos ⟨ascii _, ascii _⟩,
      Except.ok.injEq, beq_iff_eq]
    exact ⟨fun texts => Option.some.inj (by rw [← decode_encode, texts, decode_encode]),
      fun signed => by rw [signed]⟩
  rw [checkSigned, splitOn_oneTimeToken]
  simp only [bind_eq_ok, exists_unit, raiseIf_eq_ok, not_not, readPayload_encodedPayload named,
    checkClock, pure_eq_ok, not_lt, not_le, same, true_and]

end Auth

end CapabilityHub
