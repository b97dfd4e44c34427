import CapabilityHub.Metering
import CapabilityHub.Models
import CapabilityHub.References

/-! # Scopes and digests of a request

The texts that bind a reference to its actor and an approval to its intent, and the digest that
stands for an idempotency slot. Where the hash is injective, each of them tells apart all it is
made of.
-/

namespace CapabilityHub.Service

structure AuthorizationDecision where
  allowed : Bool
  reasonCodes : List String

/-- `ParameterAuthorizer.authorize`, of a manifest, its dependencies and the arguments. -/
abbrev ParameterAuthorizer : Type :=
  CapabilityManifest → List CapabilityManifest → List (String × Json) →
    Except Raised AuthorizationDecision

structure ServiceContext where
  tenantId : String
  principalId : String
  sessionId : String
  grantedPermissions : List String := []
  parameterAuthorizer : Option ParameterAuthorizer := none
  allowIrreversible : Bool := false
  deadlineMs : Int := 30000
  maxOutputTokens : Int := 2000
  named : tenantId ≠ "" ∧ principalId ≠ "" ∧ sessionId ≠ ""
  positive : 0 < deadlineMs ∧ 0 < maxOutputTokens

/-- `reference_scope`. -/
def ServiceContext.referenceScope (context : ServiceContext) : String :=
  canonicalJson (.obj [("principal", .str context.principalId), ("session", .str context.sessionId),
    ("tenant", .str context.tenantId)])

/-- The tenant, the principal and the session are the same. -/
def SameActor (first second : ServiceContext) : Prop :=
  first.tenantId = second.tenantId ∧ first.principalId = second.principalId ∧
    first.sessionId = second.sessionId

/-- The scope, the task, the revision, the operation and the key of a request. -/
structure IdempotencySlot where
  scope : String
  taskId : String
  revision : String
  operation : String
  key : String
  deriving DecidableEq

section

variable (sha256 : Bytes → Bytes)

/-- `_json_digest`. -/
def jsonDigest (value : Json) : String := hex (sha256 (encodeUtf8 (canonicalJson value)))

/-- `_approval_scope`. -/
def approvalScope (context : ServiceContext) (operation : String)
    (arguments : List (String × Json)) : String :=
  canonicalJson (.obj [
    ("actor_sha256", .str (hex (sha256 (encodeUtf8 context.referenceScope)))),
    ("arguments_sha256", .str (jsonDigest sha256 (.obj arguments))),
    ("operation", .str operation)])

/-- `_slot_digest`, with SHA-256 or with an HMAC under the scope key. -/
def slotDigest (slotHash : Bytes → Bytes) (slot : IdempotencySlot) : String :=
  hex (slotHash (encodeUtf8 (canonicalJson (.arr [.str slot.scope, .str slot.taskId,
    .str slot.revision, .str slot.operation, .str slot.key]))))

end

theorem all_flatMap_escapeRaw {text : String} (ascii : isAscii text = true) :
    (text.toList.flatMap escapeRaw).all (fun char => char.toNat < 128) = true := by
  rw [isAscii, List.all_eq_true] at ascii
  rw [List.all_flatMap, List.all_eq_true]
  intro char member
  rw [List.all_eq_true]
  intro written made
  exact decide_eq_true (ascii_escapeRaw (of_decide_eq_true (ascii char member)) written made)

theorem isAscii_hex (bytes : Bytes) : isAscii (hex bytes) = true := by
  rw [isAscii, List.all_eq_true]
  exact fun char member => decide_eq_true (hex_ascii bytes char member)

/-- The canonical text of an object with ASCII texts is ASCII. -/
theorem isAscii_canonicalJson {key key' key'' text text' text'' : String} (first : key ≤ key')
    (second : key' ≤ key'') (third : key ≤ key'')
    (ascii : ∀ entry ∈ [key, key', key'', text, text', text''], isAscii entry = true) :
    isAscii (canonicalJson (.obj [(key, .str text), (key', .str text'), (key'', .str text'')])) =
      true := by
  simp only [List.mem_cons, List.not_mem_nil, or_false, forall_eq_or_imp, forall_eq] at ascii
  rcases ascii with ⟨asciiKey, asciiKey', asciiKey'', asciiText, asciiText', asciiText''⟩
  rw [isAscii, canonicalJson, String.toList_ofList]
  simp only [Json.sorted, sortedFields, List.insertionSort_cons, List.insertionSort_nil,
    List.orderedInsert, first, second, third, if_true, Json.render, renderFields, List.intercalate,
    List.intersperse, List.flatten_cons, List.flatten_nil, List.all_cons, List.all_append,
    all_flatMap_escapeRaw asciiKey, all_flatMap_escapeRaw asciiKey',
    all_flatMap_escapeRaw asciiKey'', all_flatMap_escapeRaw asciiText,
    all_flatMap_escapeRaw asciiText', all_flatMap_escapeRaw asciiText'']
  decide

/-- The scope of an approval of an operation with an ASCII name is ASCII. -/
theorem isAscii_approvalScope (sha256 : Bytes → Bytes) (context : ServiceContext)
    {operation : String} (ascii : isAscii operation = true) (arguments : List (String × Json)) :
    isAscii (approvalScope sha256 context operation arguments) = true := by
  apply isAscii_canonicalJson (by decide) (by decide) (by decide)
  simp [isAscii_hex, jsonDigest, ascii]
  decide

theorem isAscii_referenceScope {context : ServiceContext}
    (ascii : ∀ name ∈ [context.principalId, context.sessionId, context.tenantId],
      isAscii name = true) : isAscii context.referenceScope = true := by
  apply isAscii_canonicalJson (by decide) (by decide) (by decide)
  simp only [List.mem_cons, List.not_mem_nil, or_false, forall_eq_or_imp, forall_eq] at ascii ⊢
  exact ⟨by decide, by decide, by decide, ascii⟩

/-! ## What the texts tell apart -/

variable {sha256 : Bytes → Bytes} {first second : ServiceContext} {operation operation' : String}
  {arguments arguments' : List (String × Json)}

theorem hexDigest_injective (injective : Function.Injective sha256) :
    Function.Injective fun text => hex (sha256 (encodeUtf8 text)) :=
  hex_injective.comp (injective.comp References.encodeUtf8_injective)

theorem sameActor_of_referenceScope (same : first.referenceScope = second.referenceScope) :
    SameActor first second := by
  have equal := sorted_of_canonicalJson (by simp [Json.Distinct, DistinctFields])
    (by simp [Json.Distinct, DistinctFields]) same
  simp [Json.sorted, sortedFields] at equal
  exact ⟨equal.2.2, equal.1, equal.2.1⟩

/-- The scope of an approval tells apart all it binds. -/
theorem approvalScope_injective (injective : Function.Injective sha256)
    (same : approvalScope sha256 first operation arguments =
      approvalScope sha256 second operation' arguments') :
    SameActor first second ∧ operation = operation' ∧
      canonicalJson (.obj arguments) = canonicalJson (.obj arguments') := by
  have equal := sorted_of_canonicalJson (by simp [Json.Distinct, DistinctFields])
    (by simp [Json.Distinct, DistinctFields]) same
  simp [Json.sorted, sortedFields] at equal
  exact ⟨sameActor_of_referenceScope (hexDigest_injective injective equal.1), equal.2.2,
    hexDigest_injective injective equal.2.1⟩

theorem slotDigest_injective {slotHash : Bytes → Bytes} (injective : Function.Injective slotHash) :
    Function.Injective (slotDigest slotHash) := by
  intro slot slot' same
  have equal := sorted_of_canonicalJson (by simp [Json.Distinct, DistinctItems])
    (by simp [Json.Distinct, DistinctItems]) (hexDigest_injective injective same)
  cases slot
  cases slot'
  simpa [Json.sorted, sortedItems] using equal

end CapabilityHub.Service
