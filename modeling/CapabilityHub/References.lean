import CapabilityHub.Data.Base64
import CapabilityHub.Data.Checks
import CapabilityHub.Data.JsonText
import CapabilityHub.Errors
import Mathlib.Data.Rat.Floor

/-! # Capability references

A reference is a payload with a MAC over its text. What is issued verifies again exactly when
the two truncated clocks say so and every comparison that is made is one of ASCII texts
(`CapabilityHub.References.verify_issue_iff`).
-/

namespace CapabilityHub

/-- `data.decode("utf-8")`; `none` where it raises. -/
def decodeUtf8 (bytes : Bytes) : Option String := String.fromUTF8? ⟨bytes.toArray⟩

/-- `text.isascii()`. -/
def isAscii (text : String) : Bool := text.toList.all fun character => character.toNat < 128

/-- `hmac.compare_digest` of two texts. -/
def compareDigest (first second : String) : Except Raised Bool :=
  if isAscii first ∧ isAscii second then .ok (first == second) else .error .typeError

/-- `int` of a time in seconds. -/
def truncate (time : ℚ) : Int := if 0 ≤ time then ⌊time⌋ else ⌈time⌉

namespace References

/-- `InvalidReference`. -/
def invalidReference (code : String) : Raised :=
  .hub {
    code := code
    category := .reference
    safeMessage := "The capability reference is invalid." }

/-- `ExpiredReference`. -/
def expiredReference : Raised :=
  .hub {
    code := "reference_expired"
    category := .reference
    safeMessage := "The capability reference has expired; load the capability again." }

structure ReferenceClaims where
  revision : String
  scope : String
  purpose : String
  issuedAt : Int
  expiresAt : Int
  deriving DecidableEq

/-- The payload of a reference, its keys in order. -/
def payload (claims : ReferenceClaims) : Json :=
  .obj [("exp", .int claims.expiresAt), ("iat", .int claims.issuedAt),
    ("purpose", .str claims.purpose), ("revision", .str claims.revision),
    ("scope", .str claims.scope), ("v", .int 1)]

/-- `_encode`. -/
def encode (data : Bytes) : String := String.ofList (encodeBase64Chars data)

/-- `_decode`. -/
def decode (value : String) : Except Raised Bytes :=
  match decodeStrict (padBase64 value.toList) with
  | some data => .ok data
  | none => .error (invalidReference "invalid_reference")

/-- `_parse_claims`. The bytes are read as UTF-8. -/
def parseClaims (serialized : Bytes) : Except Raised ReferenceClaims := do
  let invalid := invalidReference "invalid_reference"
  match (decodeUtf8 serialized).bind fun text => loads text.toList with
  | some (.obj fields) =>
      let keys := ["exp", "iat", "purpose", "revision", "scope", "v"]
      raiseIf (¬(fields.map Prod.fst ⊆ keys ∧ keys ⊆ fields.map Prod.fst)) invalid
      raiseIf ((mappingGet fields "v").bind Json.number? ≠ some 1) invalid
      match mappingGet fields "iat", mappingGet fields "exp", mappingGet fields "purpose",
          mappingGet fields "revision", mappingGet fields "scope" with
      | some (.int issuedAt), some (.int expiresAt), some (.str purpose), some (.str revision),
          some (.str scope) =>
          raiseIf (expiresAt ≤ issuedAt) invalid
          raiseIf (purpose = "" ∨ revision = "" ∨ scope = "") invalid
          pure ⟨revision, scope, purpose, issuedAt, expiresAt⟩
      | _, _, _, _, _ => throw invalid
  | _ => throw invalid

section Signer

-- HMAC-SHA256 with the key of the signer
variable (mac : Bytes → Bytes)

/-- `_DOMAIN`. -/
def domain : Bytes := encodeUtf8 "capabilityhub-reference-v1\x00"

/-- `_signature`. -/
def signature (encodedPayload : String) : Except Raised Bytes :=
  if isAscii encodedPayload then .ok (mac (domain ++ encodeUtf8 encodedPayload))
  else .error .unicodeError

/-- `issue`. -/
def issue (revision scope : String) (ttlSeconds : Int) (purpose : String) (now : ℚ) :
    Except Raised String := do
  raiseIf (revision = "" ∨ scope = "" ∨ purpose = "") .valueError
  raiseIf (ttlSeconds ≤ 0) .valueError
  let issuedAt := truncate now
  let claims : ReferenceClaims := ⟨revision, scope, purpose, issuedAt, issuedAt + ttlSeconds⟩
  let serialized := encodeUtf8 (String.ofList ((payload claims).render escapeRaw))
  let encoded := encode serialized
  let signed ← signature mac encoded
  pure ("chref1." ++ encoded ++ "." ++ encode signed)

/-- The checks of `verify` on authentic claims. -/
def checkClaims (claims : ReferenceClaims) (expectedScope : String)
    (expectedRevision : Option String) (expectedPurpose : String) (timestamp : Int) :
    Except Raised ReferenceClaims := do
  raiseIf (claims.expiresAt ≤ timestamp) expiredReference
  raiseIf (timestamp + 60 < claims.issuedAt) (invalidReference "reference_not_yet_valid")
  let sameScope ← compareDigest claims.scope expectedScope
  raiseIf (¬sameScope) (invalidReference "reference_scope_mismatch")
  let samePurpose ← compareDigest claims.purpose expectedPurpose
  raiseIf (¬samePurpose) (invalidReference "reference_purpose_mismatch")
  match expectedRevision with
  | none => pure claims
  | some expectedRevision => do
      let sameRevision ← compareDigest claims.revision expectedRevision
      raiseIf (¬sameRevision) (invalidReference "reference_revision_mismatch")
      pure claims

/-- `verify`. -/
def verify (reference expectedScope : String) (expectedRevision : Option String)
    (expectedPurpose : String) (now : ℚ) : Except Raised ReferenceClaims := do
  raiseIf (expectedScope = "") .valueError
  raiseIf (expectedPurpose = "") .valueError
  match (reference.toList.splitOn '.').map String.ofList with
  | [start, encoded, encodedSignature] =>
      raiseIf (start ≠ "chref1") (invalidReference "invalid_reference")
      let supplied ← decode encodedSignature
      let expected ← signature mac encoded
      raiseIf (supplied ≠ expected) (invalidReference "reference_tampered")
      let serialized ← decode encoded
      let claims ← parseClaims serialized
      checkClaims claims expectedScope expectedRevision expectedPurpose (truncate now)
  | _ => throw (invalidReference "invalid_reference")

end Signer

/-! ## What is issued reads back -/

variable {mac : Bytes → Bytes} {claims : ReferenceClaims} {revision scope purpose : String}
  {ttlSeconds : Int} {now : ℚ}

theorem decode_encode (data : Bytes) : decode (encode data) = .ok data := by
  rw [decode, encode, String.toList_ofList, decodeStrict_encode]

theorem isAscii_encode (data : Bytes) : isAscii (encode data) = true := by
  rw [isAscii, encode, String.toList_ofList, List.all_eq_true]
  exact fun char member => decide_eq_true (ascii_encodeBase64 data char member).1

theorem dot_notMem_encode (data : Bytes) : '.' ∉ (encode data).toList := by
  rw [encode, String.toList_ofList]
  exact fun member => (ascii_encodeBase64 data '.' member).2 rfl

theorem decodeUtf8_encodeUtf8 (text : String) : decodeUtf8 (encodeUtf8 text) = some text := by
  have valid : text.toUTF8.IsValidUTF8 := text.isValidUTF8
  have whole : (⟨(encodeUtf8 text).toArray⟩ : ByteArray) = text.toUTF8 := rfl
  rw [decodeUtf8, whole, String.fromUTF8?, dif_pos valid]
  rfl

theorem encodeUtf8_injective : Function.Injective encodeUtf8 := by
  intro first second same
  apply Option.some.inj
  rw [← decodeUtf8_encodeUtf8 first, same, decodeUtf8_encodeUtf8]

/-- The claims a reference can carry. -/
structure ReferenceClaims.Valid (claims : ReferenceClaims) : Prop where
  revision : claims.revision ≠ ""
  scope : claims.scope ≠ ""
  purpose : claims.purpose ≠ ""
  later : claims.issuedAt < claims.expiresAt

theorem parseClaims_payload (valid : claims.Valid) :
    parseClaims (encodeUtf8 (String.ofList ((payload claims).render escapeRaw))) = .ok claims := by
  have distinct : (payload claims).Distinct := by
    simp [payload, Json.Distinct, DistinctFields]
  rw [parseClaims, decodeUtf8_encodeUtf8, Option.bind_some, String.toList_ofList,
    loads_render legible_escapeRaw _ distinct]
  have later : ¬claims.expiresAt ≤ claims.issuedAt := Int.not_le.mpr valid.later
  simp [payload, mappingGet, List.lookup_cons, Json.number?, valid.revision, valid.scope,
    valid.purpose, later, Bind.bind, Except.bind, raiseIf, pure, Except.pure]

variable (mac) in
/-- The text of a reference with these claims. -/
def referenceOf (claims : ReferenceClaims) : String :=
  let encoded := encode (encodeUtf8 (String.ofList ((payload claims).render escapeRaw)))
  "chref1." ++ encoded ++ "." ++ encode (mac (domain ++ encodeUtf8 encoded))

theorem issue_eq_ok {reference : String} :
    issue mac revision scope ttlSeconds purpose now = .ok reference ↔
      (revision ≠ "" ∧ scope ≠ "" ∧ purpose ≠ "") ∧ 0 < ttlSeconds ∧
        referenceOf mac ⟨revision, scope, purpose, truncate now, truncate now + ttlSeconds⟩ =
          reference := by
  simp only [issue, signature, isAscii_encode, ↓reduceIte, bind_eq_ok, exists_unit, raiseIf_eq_ok,
    pure_eq_ok, Except.ok.injEq, exists_eq_left', not_or, Int.not_le, referenceOf]

theorem splitOn_reference (data signed : Bytes) :
    (("chref1." ++ encode data ++ "." ++ encode signed).toList.splitOn '.').map String.ofList =
      ["chref1", encode data, encode signed] := by
  have text : ("chref1." ++ encode data ++ "." ++ encode signed).toList =
      "chref1".toList ++ '.' :: ((encode data).toList ++ '.' :: (encode signed).toList) := by
    simp [String.toList_append]
  rw [text, List.splitOn_append_cons_self_of_not_mem (by decide),
    List.splitOn_append_cons_self_of_not_mem (dot_notMem_encode data),
    List.splitOn_eq_singleton (dot_notMem_encode signed)]
  simp

/-- **An authentic reference.** Only the claims remain to be checked. -/
theorem verify_referenceOf (valid : claims.Valid) {expectedScope expectedPurpose : String}
    (scopeGiven : expectedScope ≠ "") (purposeGiven : expectedPurpose ≠ "")
    (expectedRevision : Option String) :
    verify mac (referenceOf mac claims) expectedScope expectedRevision expectedPurpose now =
      checkClaims claims expectedScope expectedRevision expectedPurpose (truncate now) := by
  rw [verify, referenceOf, splitOn_reference]
  simp [raiseIf, scopeGiven, purposeGiven, decode_encode, signature, isAscii_encode,
    parseClaims_payload valid, Bind.bind, Except.bind]

theorem issue_of_given (revisionGiven : revision ≠ "") (scopeGiven : scope ≠ "")
    (purposeGiven : purpose ≠ "") (lasting : 0 < ttlSeconds) :
    issue mac revision scope ttlSeconds purpose now =
      .ok (referenceOf mac ⟨revision, scope, purpose, truncate now, truncate now + ttlSeconds⟩) :=
  issue_eq_ok.mpr ⟨⟨revisionGiven, scopeGiven, purposeGiven⟩, lasting, rfl⟩

/-- A reference verifies with its own bindings while it lasts. -/
theorem verify_same (valid : claims.Valid) (current : truncate now < claims.expiresAt)
    (begun : claims.issuedAt ≤ truncate now + 60) (scopeAscii : isAscii claims.scope = true)
    (purposeAscii : isAscii claims.purpose = true) (revisionAscii : isAscii claims.revision = true)
    {expectedRevision : Option String}
    (expected : expectedRevision = none ∨ expectedRevision = some claims.revision) :
    verify mac (referenceOf mac claims) claims.scope expectedRevision claims.purpose now =
      .ok claims := by
  have before : ¬claims.expiresAt ≤ truncate now := Int.not_le.mpr current
  have after : ¬truncate now + 60 < claims.issuedAt := Int.not_lt.mpr begun
  rw [verify_referenceOf valid valid.scope valid.purpose]
  rcases expected with rfl | rfl <;>
    simp [checkClaims, raiseIf, compareDigest, before, after, scopeAscii, purposeAscii,
      revisionAscii, Bind.bind, Except.bind, pure, Except.pure]

/-! ## What a verified reference carries -/

/-- The signed part of a reference with these claims. -/
def encodedPayload (claims : ReferenceClaims) : String :=
  encode (encodeUtf8 (String.ofList ((payload claims).render escapeRaw)))

variable (mac) in
/-- The MAC of the reference is that of the encoded payload. -/
def Carries (reference encoded : String) : Prop :=
  ∃ start signed, (reference.toList.splitOn '.').map String.ofList = [start, encoded, signed] ∧
    decode signed = .ok (mac (domain ++ encodeUtf8 encoded))

theorem carries_referenceOf {encoded : String} :
    Carries mac (referenceOf mac claims) encoded ↔ encoded = encodedPayload claims := by
  constructor
  · intro carries
    obtain ⟨start, signed, split, _⟩ := carries
    rw [referenceOf, splitOn_reference] at split
    injection split with _ rest
    injection rest with same _
    exact same.symm
  · intro same
    subst same
    exact ⟨_, _, splitOn_reference _ _, decode_encode _⟩

theorem decode_encodedPayload (valid : claims.Valid) :
    (decode (encodedPayload claims) >>= parseClaims) = .ok claims := by
  rw [encodedPayload, decode_encode]
  exact parseClaims_payload valid

theorem valid_of_issue {reference : String}
    (issued : issue mac revision scope ttlSeconds purpose now = .ok reference) :
    (⟨revision, scope, purpose, truncate now, truncate now + ttlSeconds⟩ : ReferenceClaims).Valid := by
  rcases issue_eq_ok.mp issued with ⟨⟨revisionGiven, scopeGiven, purposeGiven⟩, lasting, _⟩
  exact ⟨revisionGiven, scopeGiven, purposeGiven, by simp only; omega⟩

section

variable {result : ReferenceClaims} {expectedScope expectedPurpose : String}
  {expectedRevision : Option String} {timestamp : Int}

theorem compareDigest_eq_ok {first second : String} (same : compareDigest first second = .ok true) :
    first = second := by
  rw [compareDigest] at same
  split at same
  · simpa using same
  · cases same

theorem checkClaims_eq_ok
    (checked : checkClaims claims expectedScope expectedRevision expectedPurpose timestamp =
      .ok result) :
    result = claims ∧ timestamp < claims.expiresAt ∧ claims.scope = expectedScope ∧
      claims.purpose = expectedPurpose ∧
      ∀ revision, expectedRevision = some revision → claims.revision = revision := by
  simp only [checkClaims, bind_eq_ok, exists_unit, raiseIf_eq_ok] at checked
  obtain ⟨current, _, sameScope, bound, isScope, samePurpose, meant, isPurpose, rest⟩ := checked
  simp only [not_not] at isScope isPurpose
  subst isScope
  subst isPurpose
  refine ⟨?_, Int.not_le.mp current, compareDigest_eq_ok bound, compareDigest_eq_ok meant, ?_⟩
  · cases expectedRevision with
    | none => simpa [pure, Except.pure] using rest.symm
    | some revision =>
        simp only [bind_eq_ok, exists_unit, raiseIf_eq_ok, pure_eq_ok] at rest
        exact rest.choose_spec.2.2.symm
  · intro revision expected
    subst expected
    simp only [bind_eq_ok, exists_unit, raiseIf_eq_ok, pure_eq_ok, not_not] at rest
    rcases rest with ⟨sameRevision, revised, isRevision, _⟩
    subst isRevision
    exact compareDigest_eq_ok revised

/-- A reference that verifies carries claims that pass every check. -/
theorem verify_eq_ok {reference : String}
    (verified : verify mac reference expectedScope expectedRevision expectedPurpose now =
      .ok claims) :
    (∃ encoded, Carries mac reference encoded ∧ (decode encoded >>= parseClaims) = .ok claims) ∧
      truncate now < claims.expiresAt ∧ claims.scope = expectedScope ∧
      claims.purpose = expectedPurpose ∧
      ∀ revision, expectedRevision = some revision → claims.revision = revision := by
  simp only [verify, bind_eq_ok, exists_unit, raiseIf_eq_ok] at verified
  rcases verified with ⟨_, _, rest⟩
  split at rest
  next start encoded encodedSignature split =>
    simp only [bind_eq_ok, exists_unit, raiseIf_eq_ok, not_not] at rest
    obtain ⟨_, supplied, given, expected, signed, same, serialized, decoded, read, parsed,
      checked⟩ := rest
    rcases checkClaims_eq_ok checked with ⟨rfl, facts⟩
    refine ⟨⟨encoded, ⟨start, encodedSignature, split, ?_⟩, ?_⟩, facts⟩
    · rw [signature] at signed
      split at signed
      · cases signed
        rw [given, same]
      · cases signed
    · rw [decoded]
      exact parsed
  next => cases rest

end

/-! ## Verifying what was issued -/

/-- The exception is an `InvalidReference`, which an `ExpiredReference` is too. -/
def IsInvalidReference (error : Raised) : Prop :=
  error = expiredReference ∨ ∃ code, error = invalidReference code

theorem truncate_mono {first second : ℚ} (before : first ≤ second) :
    truncate first ≤ truncate second := by
  rw [truncate, truncate]
  split
  next positive =>
    rw [if_pos (positive.trans before)]
    exact Int.floor_mono before
  next negative =>
    split
    next positive =>
      exact (Int.ceil_le.mpr (by simpa using (not_le.mp negative).le)).trans
        (Int.floor_nonneg.mpr positive)
    · exact Int.ceil_mono before

variable {expectedScope expectedRevision expectedPurpose : String} {timestamp : Int}

theorem checkClaims_expired (expired : claims.expiresAt ≤ timestamp)
    (expectedRevision : Option String) :
    checkClaims claims expectedScope expectedRevision expectedPurpose timestamp =
      .error expiredReference := by
  simp [checkClaims, raiseIf, expired, Bind.bind, Except.bind]

theorem checkClaims_early (current : ¬claims.expiresAt ≤ timestamp)
    (early : timestamp + 60 < claims.issuedAt) (expectedRevision : Option String) :
    checkClaims claims expectedScope expectedRevision expectedPurpose timestamp =
      .error (invalidReference "reference_not_yet_valid") := by
  simp [checkClaims, raiseIf, current, early, Bind.bind, Except.bind]

/-- The claims are given back when all comparisons can be made and succeed. -/
theorem checkClaims_same (current : ¬claims.expiresAt ≤ timestamp)
    (begun : ¬timestamp + 60 < claims.issuedAt) :
    checkClaims claims claims.scope (some claims.revision) claims.purpose timestamp =
      if isAscii claims.scope ∧ isAscii claims.purpose ∧ isAscii claims.revision then .ok claims
      else .error .typeError := by
  cases hasScope : isAscii claims.scope <;> cases hasPurpose : isAscii claims.purpose <;>
    cases hasRevision : isAscii claims.revision <;>
    simp [checkClaims, raiseIf, compareDigest, current, begun, hasScope, hasPurpose, hasRevision,
      Bind.bind, Except.bind, pure, Except.pure]

/-- Every comparison up to the first that fails is one of ASCII texts. -/
def Refusable (claims : ReferenceClaims) (expectedScope expectedRevision expectedPurpose : String) :
    Prop :=
  (isAscii claims.scope ∧ isAscii expectedScope) ∧ (claims.scope ≠ expectedScope ∨
    (isAscii claims.purpose ∧ isAscii expectedPurpose) ∧ (claims.purpose ≠ expectedPurpose ∨
      isAscii claims.revision ∧ isAscii expectedRevision))

theorem compareDigest_eq {first second : String} :
    compareDigest first second = .error .typeError ∧ ¬(isAscii first ∧ isAscii second) ∨
      compareDigest first second = .ok (first == second) ∧ isAscii first ∧ isAscii second := by
  rw [compareDigest]
  split
  next comparable => exact .inr ⟨rfl, comparable⟩
  next apart => exact .inl ⟨rfl, apart⟩

theorem checkClaims_other (current : ¬claims.expiresAt ≤ timestamp)
    (begun : ¬timestamp + 60 < claims.issuedAt)
    (other : ¬(expectedScope = claims.scope ∧ expectedRevision = claims.revision ∧
      expectedPurpose = claims.purpose)) :
    (∃ error, checkClaims claims expectedScope (some expectedRevision) expectedPurpose timestamp =
        .error error ∧ IsInvalidReference error) ↔
      Refusable claims expectedScope expectedRevision expectedPurpose := by
  have typed : ¬IsInvalidReference .typeError := by
    rintro (expired | ⟨code, invalid⟩)
    · cases expired
    · cases invalid
  have checked : checkClaims claims expectedScope (some expectedRevision) expectedPurpose timestamp =
      (do
        let sameScope ← compareDigest claims.scope expectedScope
        raiseIf (¬sameScope) (invalidReference "reference_scope_mismatch")
        let samePurpose ← compareDigest claims.purpose expectedPurpose
        raiseIf (¬samePurpose) (invalidReference "reference_purpose_mismatch")
        let sameRevision ← compareDigest claims.revision expectedRevision
        raiseIf (¬sameRevision) (invalidReference "reference_revision_mismatch")
        pure claims) := by
    simp [checkClaims, raiseIf, current, begun, Bind.bind, Except.bind]
  rw [checked, Refusable]
  have invalid (code : String) : IsInvalidReference (invalidReference code) := .inr ⟨code, rfl⟩
  rcases @compareDigest_eq claims.scope expectedScope with ⟨raised, apart⟩ | ⟨compared, ascii⟩
  · simp [raised, apart, typed, Bind.bind, Except.bind]
  by_cases sameScope : claims.scope = expectedScope
  swap
  · simp [compared, ascii, sameScope, raiseIf, Bind.bind, Except.bind, invalid]
  subst sameScope
  rcases @compareDigest_eq claims.purpose expectedPurpose with ⟨raised, apart⟩ | ⟨compared', ascii'⟩
  · simp [compared, ascii, raised, apart, typed, raiseIf, Bind.bind, Except.bind]
  by_cases samePurpose : claims.purpose = expectedPurpose
  swap
  · simp [compared, compared', ascii, ascii', samePurpose, raiseIf, Bind.bind, Except.bind, invalid]
  subst samePurpose
  have sameRevision : claims.revision ≠ expectedRevision := fun same =>
    other ⟨rfl, same.symm, rfl⟩
  rcases @compareDigest_eq claims.revision expectedRevision with
    ⟨raised, apart⟩ | ⟨compared'', ascii''⟩
  · simp [compared, compared', ascii, ascii', raised, apart, typed, raiseIf, Bind.bind, Except.bind]
  · simp [compared, compared', compared'', ascii, ascii', ascii'', sameRevision, raiseIf, Bind.bind,
      Except.bind, invalid]

section RoundTrip

variable (mac : Bytes → Bytes) (revision scope purpose : String) (ttlSeconds : Int) (issuedAt : ℚ)
  (expectedRevision expectedScope expectedPurpose : String) (now : ℚ)

/-- The claims that are issued. -/
def issuedClaims : ReferenceClaims :=
  ⟨revision, scope, purpose, truncate issuedAt, truncate issuedAt + ttlSeconds⟩

/-- The reference issued at one time verifies at another: with the bindings it was issued for it
gives back its claims until its lifetime is over, with others it is refused. -/
def RoundTrips : Prop :=
  ∃ reference, issue mac revision scope ttlSeconds purpose issuedAt = .ok reference ∧
    if expectedScope = scope ∧ expectedRevision = revision ∧ expectedPurpose = purpose then
      (issuedAt ≤ now → now < issuedAt + ttlSeconds →
        verify mac reference expectedScope (some expectedRevision) expectedPurpose now =
          .ok (issuedClaims revision scope purpose ttlSeconds issuedAt)) ∧
      (issuedAt + ttlSeconds ≤ now →
        verify mac reference expectedScope (some expectedRevision) expectedPurpose now =
          .error expiredReference)
    else ∃ error,
      verify mac reference expectedScope (some expectedRevision) expectedPurpose now = .error error ∧
        IsInvalidReference error

/-- The truncated clocks agree with the clocks, and the comparisons made are of ASCII texts. -/
def Verifiable : Prop :=
  if expectedScope = scope ∧ expectedRevision = revision ∧ expectedPurpose = purpose then
    (issuedAt ≤ now → now < issuedAt + ttlSeconds →
      truncate now < truncate issuedAt + ttlSeconds ∧
        isAscii scope ∧ isAscii purpose ∧ isAscii revision) ∧
    (issuedAt + ttlSeconds ≤ now → truncate issuedAt + ttlSeconds ≤ truncate now)
  else
    truncate issuedAt + ttlSeconds ≤ truncate now ∨ truncate now + 60 < truncate issuedAt ∨
      Refusable (issuedClaims revision scope purpose ttlSeconds issuedAt) expectedScope
        expectedRevision expectedPurpose

/-- **Reference round trip.** What is issued verifies as it should exactly when the truncated
clocks agree with the clocks and the comparisons made are of ASCII texts. -/
theorem verify_issue_iff (revisionGiven : revision ≠ "") (scopeGiven : scope ≠ "")
    (purposeGiven : purpose ≠ "") (lasting : 1 ≤ ttlSeconds) (scopeExpected : expectedScope ≠ "")
    (purposeExpected : expectedPurpose ≠ "") :
    RoundTrips mac revision scope purpose ttlSeconds issuedAt expectedRevision expectedScope
        expectedPurpose now ↔
      Verifiable revision scope purpose ttlSeconds issuedAt expectedRevision expectedScope
        expectedPurpose now := by
  have valid : (issuedClaims revision scope purpose ttlSeconds issuedAt).Valid :=
    ⟨revisionGiven, scopeGiven, purposeGiven, by simp only [issuedClaims]; omega⟩
  have issued : issue mac revision scope ttlSeconds purpose issuedAt =
      .ok (referenceOf mac (issuedClaims revision scope purpose ttlSeconds issuedAt)) :=
    issue_eq_ok.mpr ⟨⟨revisionGiven, scopeGiven, purposeGiven⟩, by omega, rfl⟩
  simp only [RoundTrips, Verifiable, issued, Except.ok.injEq, exists_eq_left',
    verify_referenceOf valid scopeExpected purposeExpected]
  by_cases expired : truncate issuedAt + ttlSeconds ≤ truncate now
  · have checked (expectedScope expectedPurpose : String) (expectedRevision : Option String) :
        checkClaims (issuedClaims revision scope purpose ttlSeconds issuedAt) expectedScope
          expectedRevision expectedPurpose (truncate now) = .error expiredReference :=
      checkClaims_expired expired expectedRevision
    simp [checked, expired, Int.not_lt.mpr expired, IsInvalidReference, expiredReference]
  by_cases early : truncate now + 60 < truncate issuedAt
  · have before : now < issuedAt := by
      by_contra later
      have mono := truncate_mono (not_lt.mp later)
      omega
    have checked (expectedScope expectedPurpose : String) (expectedRevision : Option String) :
        checkClaims (issuedClaims revision scope purpose ttlSeconds issuedAt) expectedScope
          expectedRevision expectedPurpose (truncate now) =
            .error (invalidReference "reference_not_yet_valid") :=
      checkClaims_early expired early expectedRevision
    have positive : (0 : ℚ) < ttlSeconds := by exact_mod_cast lasting
    have current : ¬issuedAt + ttlSeconds ≤ now := by linarith
    simp [checked, early, not_le.mpr before, current, IsInvalidReference, invalidReference]
  split
  next same =>
    obtain ⟨rfl, rfl, rfl⟩ := same
    have checked : checkClaims (issuedClaims expectedRevision expectedScope expectedPurpose ttlSeconds
        issuedAt) expectedScope (some expectedRevision) expectedPurpose (truncate now) =
        if isAscii expectedScope ∧ isAscii expectedPurpose ∧ isAscii expectedRevision then
          .ok (issuedClaims expectedRevision expectedScope expectedPurpose ttlSeconds issuedAt)
        else .error .typeError :=
      checkClaims_same expired early
    rw [checked]
    split
    next ascii => simp [ascii, expired, Int.not_le.mp expired, expiredReference]
    next wide => simp [wide, expired, expiredReference]
  next other =>
    have checked := @checkClaims_other (issuedClaims revision scope purpose ttlSeconds issuedAt)
      expectedScope expectedRevision expectedPurpose (truncate now) expired early other
    simp only [expired, early, false_or]
    exact checked

end RoundTrip

theorem verify_issue_iff_ascii :
    RoundTrips id "r" "scope" "execution" 30 1000 "r" "scope" "execution" 1000 ↔
      Verifiable "r" "scope" "execution" 30 1000 "r" "scope" "execution" 1000 :=
  verify_issue_iff id "r" "scope" "execution" 30 1000 "r" "scope" "execution" 1000 (by decide)
    (by decide) (by decide) (by decide) (by decide) (by decide)

theorem verify_raises_on_wide_scope :
    ¬RoundTrips id "r" "é" "execution" 30 1000 "r" "é" "execution" 1000 := by
  rintro ⟨reference, issued, trips⟩
  obtain ⟨_, _, rfl⟩ := issue_eq_ok.mp issued
  have whole : truncate 1000 = 1000 := by norm_num [truncate]
  rw [if_pos ⟨rfl, rfl, rfl⟩, verify_referenceOf ⟨by decide, by decide, by decide, by simp⟩
    (by decide) (by decide), whole] at trips
  exact absurd (trips.1 le_rfl (by norm_num)) (by decide)

end References

end CapabilityHub
