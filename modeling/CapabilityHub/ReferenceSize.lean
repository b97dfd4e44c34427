import CapabilityHub.Data.Agree
import CapabilityHub.Data.JsonSize
import CapabilityHub.References

/-! # Sizes of references

How long a reference is depends on what it binds and on the digits of its times, not on the key of its
signer (`CapabilityHub.References.agree_issue`).
-/

namespace CapabilityHub

/-- A character that stands for itself in one byte. -/
def Plain (char : Char) : Prop := escapeRaw char = [char] ∧ char.toNat < 128

instance : DecidablePred Plain := fun char => by
  unfold Plain
  infer_instance

theorem plain_of_all {chars : List Char} (plain : chars.all (decide <| Plain ·) = true) :
    ∀ char ∈ chars, Plain char :=
  fun char member => of_decide_eq_true (List.all_eq_true.mp plain char member)

theorem flatMap_plain {chars : List Char} (plain : ∀ char ∈ chars, Plain char) :
    chars.flatMap escapeRaw = chars := by
  induction chars with
  | nil => rfl
  | cons char chars ih =>
      rw [List.flatMap_cons, (plain char List.mem_cons_self).1,
        ih fun other member => plain other (List.mem_cons_of_mem _ member), List.singleton_append]

theorem quotedSize_plain {text : String} (plain : ∀ char ∈ text.toList, Plain char) :
    quotedSize text = text.toList.length + 2 := by
  rw [quotedSize, flatMap_plain plain, charsSize_ascii fun char member => (plain char member).2]

theorem mem_encodeBase64 (bytes : Bytes) :
    ∀ char ∈ encodeBase64Chars bytes, ∃ value < 64, base64Digit value = char := by
  have digit {value : Nat} (small : value < 64) : ∃ other < 64, base64Digit other = base64Digit value :=
    ⟨value, small, rfl⟩
  induction bytes using encodeBase64Chars.induct with
  | case1 =>
      intro char member
      cases member
  | case2 first =>
      have bounded := first.toNat_lt
      simp only [encodeBase64Chars, List.forall_mem_cons]
      exact ⟨digit (by omega), digit (by omega), fun _ none => by cases none⟩
  | case3 first second =>
      have bounded := first.toNat_lt
      have bounded' := second.toNat_lt
      simp only [encodeBase64Chars, List.forall_mem_cons]
      exact ⟨digit (by omega), digit (by omega), digit (by omega), fun _ none => by cases none⟩
  | case4 first second third rest ih =>
      have bounded := first.toNat_lt
      have bounded' := second.toNat_lt
      have bounded'' := third.toNat_lt
      simp only [encodeBase64Chars, List.forall_mem_cons]
      exact ⟨digit (by omega), digit (by omega), digit (by omega), digit (by omega), ih⟩

theorem length_encodeBase64 (bytes : Bytes) :
    (encodeBase64Chars bytes).length = (4 * bytes.length + 2) / 3 := by
  induction bytes using encodeBase64Chars.induct with
  | case1 => rfl
  | case2 first => simp only [encodeBase64Chars, List.length_cons, List.length_nil]
  | case3 first second => simp only [encodeBase64Chars, List.length_cons, List.length_nil]
  | case4 first second third rest ih =>
      simp only [encodeBase64Chars, List.length_cons, ih]
      omega

namespace References

variable {mac mac' : Bytes → Bytes} {claims claims' : ReferenceClaims} {revision scope purpose : String}
  {ttlSeconds : Int} {now now' : ℚ}

theorem plain_encode (data : Bytes) : ∀ char ∈ (encode data).toList, Plain char := by
  have every : ∀ value < 64, Plain (base64Digit value) := by decide
  intro char member
  rw [encode, String.toList_ofList] at member
  obtain ⟨value, small, rfl⟩ := mem_encodeBase64 data char member
  exact every value small

theorem length_encode (data : Bytes) : (encode data).toList.length = (4 * data.length + 2) / 3 := by
  rw [encode, String.toList_ofList, length_encodeBase64]

/-- The size of a reference in quotation marks. -/
theorem quotedSize_referenceOf : quotedSize (referenceOf mac claims) =
    (4 * (payload claims).size + 2) / 3 +
      (4 * (mac (domain ++ encodeUtf8 (encodedPayload claims))).length + 2) / 3 + 10 := by
  have plain : ∀ char ∈ (referenceOf mac claims).toList, Plain char := by
    intro char member
    simp only [referenceOf, String.toList_append, List.mem_append] at member
    rcases member with ((start | encoded) | dot) | signed
    · exact plain_of_all (by decide) char start
    · exact plain_encode _ char encoded
    · exact plain_of_all (by decide) char dot
    · exact plain_encode _ char signed
  have written : (encodeUtf8 (String.ofList ((payload claims).render escapeRaw))).length =
      (payload claims).size := by
    rw [length_encodeUtf8, utf8ByteSize_ofList, charsSize_render]
  rw [quotedSize_plain plain]
  simp only [referenceOf, String.toList_append, List.length_append, length_encode, written]
  rw [← encodedPayload]
  have start : "chref1.".toList.length = 7 := rfl
  have dot : ".".toList.length = 1 := rfl
  omega

/-- Two clocks show times with as many digits, now and when a reference expires. -/
def SameWidth (ttlSeconds : Int) (now now' : ℚ) : Prop :=
  (Json.int (truncate now)).size = (Json.int (truncate now')).size ∧
    (Json.int (truncate now + ttlSeconds)).size = (Json.int (truncate now' + ttlSeconds)).size

/-- References of one size that bind the same, of two signers and two clocks. -/
def SameBindings (mac mac' : Bytes → Bytes) (first second : String) : Prop :=
  ∃ claims issuedAt expiresAt, first = referenceOf mac claims ∧
    second = referenceOf mac' { claims with issuedAt := issuedAt, expiresAt := expiresAt } ∧
    quotedSize first = quotedSize second

/-- **References of one size.** Issuing fails alike, or gives references of one size that bind the same. -/
theorem agree_issue (macs : ∀ message message', (mac message).length = (mac' message').length)
    (width : SameWidth ttlSeconds now now') :
    Agree (SameBindings mac mac') (issue mac revision scope ttlSeconds purpose now)
      (issue mac' revision scope ttlSeconds purpose now') := by
  rw [issue, issue]
  refine Agree.after fun _ => Agree.after fun _ => ?_
  simp only [signature, isAscii_encode, ↓reduceIte]
  have sizes : (payload ⟨revision, scope, purpose, truncate now, truncate now + ttlSeconds⟩).size =
      (payload ⟨revision, scope, purpose, truncate now', truncate now' + ttlSeconds⟩).size := by
    simp only [payload, size_obj, fieldsSize, width.1, width.2]
  have same := @quotedSize_referenceOf mac
    ⟨revision, scope, purpose, truncate now, truncate now + ttlSeconds⟩
  rw [sizes, macs _ (domain ++ encodeUtf8 (encodedPayload
    ⟨revision, scope, purpose, truncate now', truncate now' + ttlSeconds⟩)),
    ← quotedSize_referenceOf] at same
  exact .ok ⟨⟨revision, scope, purpose, truncate now, truncate now + ttlSeconds⟩, _, _, rfl, rfl, same⟩

end References

end CapabilityHub
