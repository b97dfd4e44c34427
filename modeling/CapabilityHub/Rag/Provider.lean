import CapabilityHub.Models
import CapabilityHub.Rag.Files
import CapabilityHub.Rag.Handles

/-! # The local retrieval provider

`LocalRagProvider.execute`: a search of files or of an index, and the three cuts to its response, by the
bytes of the texts, by those of the response and by its tokens.
-/

namespace CapabilityHub.Rag

open Tenancy (TenantScope)

/-- How a call ends that does not return. -/
inductive Halt where
  | raised (raised : Raised)
  | assertionError

def ragError (code : String) (category : ErrorCategory) (message : String) : Halt :=
  .raised (.hub { code, category, safeMessage := message })

structure RagIndex where
  mac : Bytes → Bytes
  fullText : FullText
  /-- `int` of a text; `none` where it raises `ValueError`. -/
  intOf : String → Option Int
  tables : Tables

structure LocalRagFixture where
  manifest : CapabilityManifest
  tree : FileTree
  operation : String := "retrieve"
  bounds : ScanBounds
  index : Option RagIndex := none

structure LocalRagProvider where
  name : String := "local-rag"
  fixtures : List LocalRagFixture
  unique : (fixtures.map fun fixture => fixture.manifest.identity.revision).Nodup

structure ProviderContext where
  tenantId : String
  principalId : String
  sessionId : String
  deadlineMs : Int
  maxOutputTokens : Int

/-- What a call takes from outside: the functions on texts, the clocks and a digest. -/
structure Surroundings where
  fileText : FileText
  /-- `unicodedata.normalize("NFKC", text)` -/
  nfkc : String → String
  /-- Whether the category of a character starts with `C`. -/
  control : Char → Bool
  /-- `repr` of a finite float -/
  floatText : ℚ → List Char
  sha256 : Bytes → Bytes
  /-- The readings of `monotonic()` -/
  monotonic : Nat → ℚ
  /-- `time()` -/
  now : ℚ

/-! ## Arguments -/

/-- The arguments of a call once they are checked. -/
structure RagArguments where
  /-- `none` where the query is no text. -/
  query : Option String
  expansionHandle : Option String
  topK : Nat
  maxBytes : Nat
  filters : Dict String String

def textOf : Json → Option String
  | .str text => some text
  | _ => none

def integerOf : Json → Option Int
  | .int value => some value
  | _ => none

/-- `expansion_handle` -/
def readHandle : Option Json → Except Halt (Option String)
  | none => .ok none
  | some .null => .ok none
  | some (.str handle) => .ok (some handle)
  | some _ =>
      .error (ragError "rag_expansion_handle_invalid" .input "RAG expansion handle must be a string.")

/-- `top_k` -/
def readTopK (value : Json) : Except Halt Nat :=
  match integerOf value with
  | some topK =>
      if 1 ≤ topK ∧ topK ≤ 20 then .ok topK.toNat
      else .error (ragError "rag_top_k_invalid" .input "RAG top_k must be an integer from 1 to 20.")
  | none => .error (ragError "rag_top_k_invalid" .input "RAG top_k must be an integer from 1 to 20.")

/-- `max_bytes` -/
def readMaxBytes (value : Json) : Except Halt Nat :=
  match integerOf value with
  | some maxBytes =>
      if 1 ≤ maxBytes then .ok maxBytes.toNat
      else .error (ragError "rag_max_bytes_invalid" .input "RAG max_bytes must be positive.")
  | none => .error (ragError "rag_max_bytes_invalid" .input "RAG max_bytes must be positive.")

/-- `filters` -/
def readFilters (value : Json) : Except Halt (Dict String String) :=
  match value with
  | .obj fields =>
      match fields.mapM fun field => (textOf field.2).map fun text => (field.1, text) with
      | some entries => .ok (Dict.ofEntries entries)
      | none => .error (ragError "rag_filters_invalid" .input "RAG filters are invalid.")
  | _ => .error (ragError "rag_filters_invalid" .input "RAG filters are invalid.")

/-- The checks of the arguments, in their order. -/
def readArguments (arguments : List (String × Json)) : Except Halt RagArguments := do
  let query := (mappingGet arguments "query").bind textOf
  let handle ← readHandle (mappingGet arguments "expansion_handle")
  raiseIf (handle = none ∧ strip (query.getD "") = "")
    (ragError "rag_query_invalid" .input "RAG query must be non-empty.")
  let topK ← readTopK ((mappingGet arguments "top_k").getD (.int 5))
  let maxBytes ← readMaxBytes ((mappingGet arguments "max_bytes").getD (.int 64000))
  let filters ← readFilters ((mappingGet arguments "filters").getD (.obj []))
  pure ⟨query, handle, topK, maxBytes, filters⟩

section

variable (surroundings : Surroundings)

/-- `_normalize_identifier` -/
def normalizeIdentifier (value : String) : Except Halt String :=
  let normalized := strip (surroundings.nfkc value)
  if normalized = "" ∨ 256 < normalized.length ∨ 1024 < textSize normalized ∨
      normalized.toList.any surroundings.control = true then .error (.raised .valueError)
  else .ok normalized

/-- `TenantScope` of a context and a task. -/
def tenantScope (context : ProviderContext) (taskId : String) : Except Halt TenantScope := do
  let tenant ← normalizeIdentifier surroundings context.tenantId
  let principal ← normalizeIdentifier surroundings context.principalId
  let session ← normalizeIdentifier surroundings context.sessionId
  let task ← normalizeIdentifier surroundings taskId
  pure ⟨tenant, principal, session, task⟩

end

/-! ## Responses -/

/-- A result is a passage of a file or a hit of the index. -/
inductive RagResult where
  | passage (candidate : Candidate)
  | hit (hit : RagHit)

structure RagOutput where
  results : List RagResult
  truncated : Bool

/-- `start_line + text.count("\n")` -/
def endLine (candidate : Candidate) : Nat := candidate.startLine + candidate.text.toList.count '\n'

/-- An object as `canonical_json` writes it, for members in the order of their keys. -/
def objectText (members : List (String × List Char)) : List Char :=
  '\x7b' :: [','].intercalate (members.map fun member =>
    (Json.str member.1).render escapeRaw ++ ':' :: member.2) ++ ['\x7d']

def quotedText (text : String) : List Char := (Json.str text).render escapeRaw

def numberText (value : Int) : List Char := (Json.int value).render escapeRaw

def flagText (value : Bool) : List Char := (Json.bool value).render escapeRaw

def chunkIdText : ChunkId → List Char
  | .number value => numberText value
  | .name value => quotedText value

section

variable (floatText : ℚ → List Char)

def optionalFloatText : Option ℚ → List Char
  | none => "null".toList
  | some value => floatText value

/-- A result as `canonical_json` writes it. -/
def resultText : RagResult → List Char
  | .passage candidate => objectText [
      ("citation", objectText [
        ("end_line", numberText (endLine candidate)),
        ("path", quotedText candidate.relative),
        ("start_line", numberText candidate.startLine)]),
      ("score", numberText candidate.score),
      ("text", quotedText candidate.text)]
  | .hit hit => objectText [
      ("citation", quotedText hit.citation),
      ("created_at", floatText hit.createdAt),
      ("expansion_handle", quotedText hit.expansionHandle),
      ("fresh", flagText hit.fresh),
      ("fresh_until", optionalFloatText floatText hit.freshUntil),
      ("passage_id", chunkIdText hit.chunkId),
      ("retain_until", optionalFloatText floatText hit.retainUntil),
      ("score", floatText hit.score),
      ("text", quotedText hit.text)]

/-- `canonical_json(output)` -/
def outputText (output : RagOutput) : List Char := objectText [
  ("results", '[' :: [','].intercalate (output.results.map (resultText floatText)) ++ [']']),
  ("truncated", flagText output.truncated)]

/-- `len(canonical_json(output).encode("utf-8"))` -/
def outputSize (output : RagOutput) : Nat := textSize (String.ofList (outputText floatText output))

def outputTokens (output : RagOutput) : Nat :=
  (measureText (String.ofList (outputText floatText output))).portableTokens

/-- The loop that drops the last result as long as the response exceeds a bound. -/
def trim (exceeds : RagOutput → Bool) (output : RagOutput) : RagOutput :=
  if output.results.isEmpty = false ∧ exceeds output = true then
    trim exceeds ⟨output.results.dropLast, true⟩
  else output
termination_by output.results.length
decreasing_by
  rename_i full
  rw [List.length_dropLast]
  have positive : 0 < output.results.length := List.length_pos_iff.mpr (by simpa using full.1)
  omega

/-- The response within its bounds. -/
def fitOutput (maxBytes : Nat) (maxTokens : Int) (output : RagOutput) : Except Halt RagOutput := do
  let short := trim (fun output => decide (maxBytes < outputSize floatText output)) output
  raiseIf (maxBytes < outputSize floatText short)
    (ragError "rag_response_bytes_exceeded" .budget "The RAG response cannot fit the hard byte budget.")
  let final := trim (fun output => decide (maxTokens < outputTokens floatText output)) short
  raiseIf (maxTokens < outputTokens floatText final)
    (ragError "rag_output_budget_exceeded" .budget "The RAG response cannot fit the hard output budget.")
  pure final

end

/-! ## Retrieval -/

/-- The loop over the first candidates, and whether it ended for lack of room. -/
def fill (maxBytes : Nat) : Nat → List Candidate → List Candidate × Bool
  | _, [] => ([], false)
  | used, candidate :: rest =>
      if maxBytes < used + textSize candidate.text then ([], true)
      else
        let filled := fill maxBytes (used + textSize candidate.text) rest
        (candidate :: filled.1, filled.2)

/-- `dict.fromkeys`: each word where it is first. -/
def firstOccurrences : List String → List String
  | [] => []
  | word :: rest => word :: (firstOccurrences rest).filter (· ≠ word)

section

variable (surroundings : Surroundings) (fixture : LocalRagFixture)

/-- `terms` -/
def termsOf (query : String) : List String :=
  firstOccurrences ((surroundings.fileText.words query).map surroundings.fileText.casefold)

/-- Whether the readings of the clock after the first are past the deadline. -/
def overdueAt (deadlineMs : Int) (reading : Nat) : Bool :=
  decide (surroundings.monotonic 0 + (deadlineMs : ℚ) / 1000 < surroundings.monotonic (reading + 1))

/-- `_candidates` for a query. -/
def rankedCandidates (query : String) (deadlineMs : Int) : Except Raised (List Candidate) :=
  candidates surroundings.fileText fixture.bounds (overdueAt surroundings deadlineMs)
    (termsOf surroundings query) fixture.tree

/-- The response before it is cut to its bounds. -/
def retrieveOutput (asked : RagArguments) (scope : TenantScope) (deadlineMs : Int) :
    Except Halt RagOutput :=
  match fixture.index with
  | some index =>
      match asked.expansionHandle with
      | some handle => do
          let hit ← (expand index.mac index.intOf index.tables handle scope asked.maxBytes
            surroundings.now).mapError .raised
          pure ⟨[.hit hit], false⟩
      | none =>
          match asked.query with
          | none => .error .assertionError
          | some query => do
              let hits ← (search index.mac index.fullText index.intOf index.tables query scope asked.topK
                (some asked.filters) asked.maxBytes surroundings.now).mapError .raised
              pure ⟨hits.map .hit, false⟩
  | none =>
      match asked.query with
      | none => .error .assertionError
      | some query => do
          let found ← (rankedCandidates surroundings fixture query deadlineMs).mapError .raised
          let filled := fill asked.maxBytes 0 (found.take asked.topK)
          pure ⟨filled.1.map .passage, filled.2 || decide (filled.1.length < found.length)⟩

structure RagExecution where
  capabilityRevision : String
  operation : String
  output : RagOutput
  provider : String
  portableTokens : Nat
  auditId : String

/-- `audit_id` -/
def auditIdOf (identity : CapabilityIdentity) (request : ExecutionRequest) (asked : RagArguments)
    (resultCount : Nat) : String :=
  let material := canonicalJson (.obj [
    ("operation", .str request.operation),
    ("query_digest", .str (hex (surroundings.sha256 (encodeUtf8 (asked.query.getD "expansion"))))),
    ("result_count", .int resultCount),
    ("revision", .str identity.revision),
    ("task_id", .str request.taskId)])
  "rag-" ++ String.ofList ((hex (surroundings.sha256 (encodeUtf8 material))).toList.take 16)

/-- `execute` for the fixture of the revision. -/
def executeFixture (name : String) (identity : CapabilityIdentity) (request : ExecutionRequest)
    (context : ProviderContext) : Except Halt RagExecution := do
  raiseIf (request.operation ≠ fixture.operation)
    (ragError "rag_operation_not_found" .reference "The requested RAG operation is not allowlisted.")
  let asked ← readArguments request.arguments
  let scope ← tenantScope surroundings context request.taskId
  let found ← retrieveOutput surroundings fixture asked scope context.deadlineMs
  let output ← fitOutput surroundings.floatText asked.maxBytes context.maxOutputTokens found
  pure {
    capabilityRevision := identity.revision
    operation := request.operation
    output
    provider := name
    portableTokens := outputTokens surroundings.floatText output
    auditId := auditIdOf surroundings identity request asked output.results.length }

end

/-- `self._by_revision.get(identity.revision)` -/
def LocalRagProvider.fixtureOf (provider : LocalRagProvider) (identity : CapabilityIdentity) :
    Option LocalRagFixture :=
  provider.fixtures.find? fun fixture => fixture.manifest.identity.revision = identity.revision

/-- `LocalRagProvider.execute`. -/
def LocalRagProvider.execute (surroundings : Surroundings) (provider : LocalRagProvider)
    (identity : CapabilityIdentity) (request : ExecutionRequest) (context : ProviderContext) :
    Except Halt RagExecution :=
  match provider.fixtureOf identity with
  | none =>
      .error (ragError "rag_capability_not_found" .reference "The requested RAG source is not configured.")
  | some fixture => executeFixture surroundings fixture provider.name identity request context

/-! ## What the cuts leave -/

variable {surroundings : Surroundings} {fixture : LocalRagFixture} {provider : LocalRagProvider}
  {identity : CapabilityIdentity} {request : ExecutionRequest} {context : ProviderContext}
  {execution : RagExecution} {asked : RagArguments} {scope : TenantScope} {exceeds : RagOutput → Bool}
  {output final : RagOutput} {floatText : ℚ → List Char} {maxBytes : Nat} {maxTokens deadlineMs : Int}

theorem trim_of_fits (fits : exceeds output = false) : trim exceeds output = output := by
  rw [trim, if_neg]
  rw [fits]
  exact fun both => Bool.false_ne_true both.2

theorem trim_of_exceeds (given : output.results ≠ []) (large : exceeds output = true) :
    trim exceeds output = trim exceeds ⟨output.results.dropLast, true⟩ := by
  rw [trim, if_pos ⟨List.isEmpty_eq_false_iff.mpr given, large⟩]

/-- What a loop leaves is in front, and fits or is nothing. -/
structure Trimmed (exceeds : RagOutput → Bool) (output final : RagOutput) : Prop where
  front : final.results <+: output.results
  fits : final.results = [] ∨ exceeds final = false
  cut : final = output ∨ final.truncated = true ∧ final.results.length < output.results.length

theorem trimmed_trim (exceeds : RagOutput → Bool) (output : RagOutput) :
    Trimmed exceeds output (trim exceeds output) := by
  induction output using trim.induct exceeds with
  | case1 output full ih =>
      have given : output.results ≠ [] := List.isEmpty_eq_false_iff.mp full.1
      have shorter : output.results.dropLast.length < output.results.length := by
        have positive := List.length_pos_iff.mpr given
        rw [List.length_dropLast]
        omega
      rw [trim_of_exceeds given full.2]
      refine ⟨ih.front.trans (List.dropLast_prefix _), ih.fits, .inr ?_⟩
      rcases ih.cut with same | ⟨cut, fewer⟩
      · rw [same]
        exact ⟨rfl, shorter⟩
      · exact ⟨cut, fewer.trans shorter⟩
  | case2 output enough =>
      rw [trim, if_neg enough]
      refine ⟨List.prefix_refl _, ?_, .inl rfl⟩
      by_cases empty : output.results = []
      · exact .inl empty
      · right
        rw [not_and, Bool.not_eq_true] at enough
        exact enough (List.isEmpty_eq_false_iff.mpr empty)

/-- The two loops of `fitOutput`. -/
theorem fitOutput_eq_ok (done : fitOutput floatText maxBytes maxTokens output = .ok final) :
    ∃ short, Trimmed (fun output => decide (maxBytes < outputSize floatText output)) output short ∧
      outputSize floatText short ≤ maxBytes ∧
      Trimmed (fun output => decide (maxTokens < outputTokens floatText output)) short final ∧
      (outputTokens floatText final : Int) ≤ maxTokens := by
  obtain ⟨_, bytes, done⟩ := bind_eq_ok.mp done
  obtain ⟨_, tokens, done⟩ := bind_eq_ok.mp done
  rw [raiseIf_eq_ok] at bytes tokens
  rw [pure_eq_ok] at done
  subst done
  exact ⟨_, trimmed_trim _ _, Nat.not_lt.mp bytes, trimmed_trim _ _, Int.not_lt.mp tokens⟩

theorem fitOutput_of_fits (bytes : outputSize floatText output ≤ maxBytes)
    (tokens : (outputTokens floatText output : Int) ≤ maxTokens) :
    fitOutput floatText maxBytes maxTokens output = .ok output := by
  have first : trim (fun output => decide (maxBytes < outputSize floatText output)) output = output :=
    trim_of_fits (decide_eq_false bytes.not_gt)
  have second : trim (fun output => decide (maxTokens < outputTokens floatText output)) output = output :=
    trim_of_fits (decide_eq_false tokens.not_gt)
  unfold fitOutput
  rw [first]
  dsimp only
  rw [second, raiseIf, if_neg bytes.not_gt, raiseIf, if_neg tokens.not_gt]
  rfl

theorem executeFixture_eq_ok {name : String}
    (done : executeFixture surroundings fixture name identity request context = .ok execution) :
    ∃ asked scope found, readArguments request.arguments = .ok asked ∧
      tenantScope surroundings context request.taskId = .ok scope ∧
      retrieveOutput surroundings fixture asked scope context.deadlineMs = .ok found ∧
      fitOutput surroundings.floatText asked.maxBytes context.maxOutputTokens found =
        .ok execution.output := by
  obtain ⟨-, -, done⟩ := bind_eq_ok.mp done
  obtain ⟨asked, read, done⟩ := bind_eq_ok.mp done
  obtain ⟨scope, held, done⟩ := bind_eq_ok.mp done
  obtain ⟨found, retrieved, done⟩ := bind_eq_ok.mp done
  obtain ⟨output, fitted, done⟩ := bind_eq_ok.mp done
  rw [pure_eq_ok] at done
  subst done
  exact ⟨asked, scope, found, read, held, retrieved, fitted⟩

theorem execute_eq_ok (done : provider.execute surroundings identity request context = .ok execution) :
    ∃ fixture, provider.fixtureOf identity = some fixture ∧
      executeFixture surroundings fixture provider.name identity request context = .ok execution := by
  rw [LocalRagProvider.execute] at done
  cases served : provider.fixtureOf identity with
  | none =>
      rw [served] at done
      cases done
  | some fixture =>
      rw [served] at done
      exact ⟨fixture, rfl, done⟩

theorem fill_front (used : Nat) (found : List Candidate) : (fill maxBytes used found).1 <+: found := by
  induction found generalizing used with
  | nil => exact List.nil_prefix
  | cons candidate rest ih =>
      rw [fill]
      split
      · exact List.nil_prefix
      · exact List.cons_prefix_cons.mpr ⟨rfl, ih _⟩

/-- Without an index the results are candidates. -/
theorem retrieveOutput_files (unindexed : fixture.index = none)
    (done : retrieveOutput surroundings fixture asked scope deadlineMs = .ok output) :
    ∃ query found, asked.query = some query ∧
      rankedCandidates surroundings fixture query deadlineMs = .ok found ∧
      output.results = (fill asked.maxBytes 0 (found.take asked.topK)).1.map .passage ∧
      output.truncated = ((fill asked.maxBytes 0 (found.take asked.topK)).2 ||
        decide ((fill asked.maxBytes 0 (found.take asked.topK)).1.length < found.length)) := by
  rw [retrieveOutput, unindexed] at done
  cases queried : asked.query with
  | none =>
      rw [queried] at done
      cases done
  | some query =>
      rw [queried] at done
      obtain ⟨found, ranked, done⟩ := bind_eq_ok.mp done
      rw [mapError_eq_ok] at ranked
      rw [pure_eq_ok] at done
      subst done
      exact ⟨query, found, rfl, ranked, rfl, rfl⟩

theorem execute_of_fits (served : provider.fixtureOf identity = some fixture)
    (offered : request.operation = fixture.operation)
    (read : readArguments request.arguments = .ok asked)
    (held : tenantScope surroundings context request.taskId = .ok scope)
    (retrieved : retrieveOutput surroundings fixture asked scope context.deadlineMs = .ok output)
    (bytes : outputSize surroundings.floatText output ≤ asked.maxBytes)
    (tokens : (outputTokens surroundings.floatText output : Int) ≤ context.maxOutputTokens) :
    ∃ execution, provider.execute surroundings identity request context = .ok execution ∧
      execution.output = output := by
  rw [LocalRagProvider.execute, served]
  dsimp only
  rw [executeFixture, raiseIf, if_neg (not_not.mpr offered), ok_bind, read, ok_bind, held, ok_bind,
    retrieved, ok_bind, fitOutput_of_fits bytes tokens, ok_bind]
  exact ⟨_, rfl, rfl⟩

end CapabilityHub.Rag
