import CapabilityHub.Rag.Citations

/-! # The contract of a retrieval

What `LocalRagProvider.execute` promises of its response: bounds, order, and a flag that says whether a
passage was left out. It keeps the promise except for an expansion without an index, for a handle or a
caller that it cannot take, and where the index has left out what is not cut again
(`CapabilityHub.Rag.execute_contract_iff`).
-/

namespace CapabilityHub.Rag

open Tenancy (TenantScope)

section

variable (surroundings : Surroundings) (fixture : LocalRagFixture)

/-- All passages that a call finds, in the order of their rank. -/
def rankedResults (asked : RagArguments) (scope : TenantScope) (deadlineMs : Int) : List RagResult :=
  match fixture.index with
  | some index =>
      match asked.expansionHandle with
      | some handle =>
          match expand index.mac index.intOf index.tables handle scope asked.maxBytes surroundings.now with
          | .ok hit => [.hit hit]
          | .error _ => []
      | none =>
          (matchingHits index.mac index.fullText index.intOf index.tables (asked.query.getD "") scope
            asked.filters surroundings.now).map .hit
  | none =>
      match rankedCandidates surroundings fixture (asked.query.getD "") deadlineMs with
      | .ok found => found.map .passage
      | .error _ => []

end

/-- **Answers**: a response within its bounds, with the first of the passages, and a flag that says
whether there are more. -/
structure Answers (floatText : ℚ → List Char) (maxBytes : Nat) (maxTokens : Int) (ranked : List RagResult)
    (output : RagOutput) : Prop where
  bytes : outputSize floatText output ≤ maxBytes
  tokens : (outputTokens floatText output : Int) ≤ maxTokens
  front : output.results <+: ranked
  flag : output.truncated = true ↔ output.results.length < ranked.length

/-- **Contract**: a call raises a `CapabilityHubError` or answers. -/
def Contract (surroundings : Surroundings) (provider : LocalRagProvider) (identity : CapabilityIdentity)
    (request : ExecutionRequest) (context : ProviderContext) : Prop :=
  (∃ error, provider.execute surroundings identity request context = .error (.raised (.hub error))) ∨
  ∃ execution fixture asked scope,
    provider.execute surroundings identity request context = .ok execution ∧
    provider.fixtureOf identity = some fixture ∧ readArguments request.arguments = .ok asked ∧
    tenantScope surroundings context request.taskId = .ok scope ∧
    Answers surroundings.floatText asked.maxBytes context.maxOutputTokens
      (rankedResults surroundings fixture asked scope context.deadlineMs) execution.output

/-- A response does not fit its bounds as it is. -/
def Overflows (floatText : ℚ → List Char) (maxBytes : Nat) (maxTokens : Int)
    (output : RagOutput) : Prop :=
  maxBytes < outputSize floatText output ∨ maxTokens < outputTokens floatText output

/-- A search of an index leaves nothing out: all that matches is among the rows it looks at, at most
`topK` passages, with texts of at most `maxBytes`. -/
def LeavesNothing (index : RagIndex) (query : String) (scope : TenantScope) (asked : RagArguments)
    (now : ℚ) : Prop :=
  hitsBehind index.mac index.fullText index.intOf index.tables query scope asked.topK asked.filters now =
      [] ∧
  HasRoom (textSize ∘ RagHit.text) asked.topK asked.maxBytes
    (matchingHits index.mac index.fullText index.intOf index.tables query scope asked.filters now)

/-- The response with the hits of a search of an index. -/
def searchOutput (index : RagIndex) (query : String) (scope : TenantScope) (asked : RagArguments)
    (now : ℚ) : RagOutput :=
  ⟨(retrieve index.mac index.fullText index.intOf index.tables query scope asked.topK asked.filters
    asked.maxBytes now).map .hit, false⟩

/-- Where the contract is kept, of a call whose arguments are accepted. -/
def Kept (surroundings : Surroundings) (fixture : LocalRagFixture) (asked : RagArguments)
    (scope : TenantScope) (maxTokens : Int) : Prop :=
  match fixture.index with
  | none => asked.query ≠ none
  | some index =>
      match asked.expansionHandle with
      | some handle => ¬Incomparable handle
      | none =>
          LeavesNothing index (asked.query.getD "") scope asked surroundings.now ∨
            Overflows surroundings.floatText asked.maxBytes maxTokens
              (searchOutput index (asked.query.getD "") scope asked surroundings.now)

variable {surroundings : Surroundings} {fixture : LocalRagFixture} {provider : LocalRagProvider}
  {identity : CapabilityIdentity} {request : ExecutionRequest} {context : ProviderContext}
  {execution : RagExecution} {asked : RagArguments} {scope : TenantScope} {halt : Halt}
  {output final found : RagOutput} {floatText : ℚ → List Char} {maxBytes : Nat} {maxTokens : Int}
  {ranked : List RagResult} {index : RagIndex} {query : String} {results results' : List RagResult}
  {arguments : List (String × Json)}

/-! ## Arguments -/

/-- An error that the provider has made. -/
def Halt.Hub (halt : Halt) : Prop := ∃ error, halt = .raised (.hub error)

theorem hub_ragError (code : String) (category : ErrorCategory) (message : String) :
    (ragError code category message).Hub := ⟨_, rfl⟩

theorem readHandle_error {value : Option Json} (failed : readHandle value = .error halt) : halt.Hub := by
  unfold readHandle at failed
  split at failed
  · cases failed
  · cases failed
  · cases failed
  · cases failed
    exact hub_ragError _ _ _

theorem readTopK_error {value : Json} (failed : readTopK value = .error halt) : halt.Hub := by
  unfold readTopK at failed
  split at failed
  · split at failed
    · cases failed
    · cases failed
      exact hub_ragError _ _ _
  · cases failed
    exact hub_ragError _ _ _

theorem readMaxBytes_error {value : Json} (failed : readMaxBytes value = .error halt) : halt.Hub := by
  unfold readMaxBytes at failed
  split at failed
  · split at failed
    · cases failed
    · cases failed
      exact hub_ragError _ _ _
  · cases failed
    exact hub_ragError _ _ _

theorem readFilters_error {value : Json} (failed : readFilters value = .error halt) : halt.Hub := by
  unfold readFilters at failed
  split at failed
  · split at failed
    · cases failed
    · cases failed
      exact hub_ragError _ _ _
  · cases failed
    exact hub_ragError _ _ _

/-- Arguments that are not accepted are reported. -/
theorem readArguments_error (failed : readArguments arguments = .error halt) : halt.Hub := by
  rcases bind_eq_error.mp failed with failed | ⟨handle, -, failed⟩
  · exact readHandle_error failed
  rcases bind_eq_error.mp failed with failed | ⟨-, -, failed⟩
  · rw [raiseIf] at failed
    split at failed
    · cases failed
      exact hub_ragError _ _ _
    · cases failed
  rcases bind_eq_error.mp failed with failed | ⟨topK, -, failed⟩
  · exact readTopK_error failed
  rcases bind_eq_error.mp failed with failed | ⟨maxBytes, -, failed⟩
  · exact readMaxBytes_error failed
  rcases bind_eq_error.mp failed with failed | ⟨filters, -, failed⟩
  · exact readFilters_error failed
  · cases failed

/-- What is known of arguments that are accepted. -/
structure Checked (asked : RagArguments) : Prop where
  asks : asked.expansionHandle = none → strip (asked.query.getD "") ≠ ""
  count : 1 ≤ asked.topK ∧ asked.topK ≤ 20
  room : 1 ≤ asked.maxBytes

theorem readTopK_eq_ok {value : Json} {topK : Nat} (read : readTopK value = .ok topK) :
    1 ≤ topK ∧ topK ≤ 20 := by
  unfold readTopK at read
  split at read
  · split at read
    · cases read
      omega
    · cases read
  · cases read

theorem readMaxBytes_eq_ok {value : Json} (read : readMaxBytes value = .ok maxBytes) : 1 ≤ maxBytes := by
  unfold readMaxBytes at read
  split at read
  · split at read
    · cases read
      omega
    · cases read
  · cases read

theorem readArguments_checked (read : readArguments arguments = .ok asked) : Checked asked := by
  obtain ⟨handle, -, read⟩ := bind_eq_ok.mp read
  obtain ⟨_, asks, read⟩ := bind_eq_ok.mp read
  obtain ⟨topK, counted, read⟩ := bind_eq_ok.mp read
  obtain ⟨maxBytes, roomy, read⟩ := bind_eq_ok.mp read
  obtain ⟨filters, -, read⟩ := bind_eq_ok.mp read
  rw [raiseIf_eq_ok] at asks
  rw [pure_eq_ok] at read
  subst read
  exact ⟨fun none empty => asks ⟨none, empty⟩, readTopK_eq_ok counted, readMaxBytes_eq_ok roomy⟩

theorem normalizeIdentifier_error {value : String}
    (failed : normalizeIdentifier surroundings value = .error halt) : halt = .raised .valueError := by
  unfold normalizeIdentifier at failed
  dsimp only at failed
  split at failed
  · cases failed
    rfl
  · cases failed

/-- A scope that is not accepted is a `ValueError`. -/
theorem tenantScope_error {taskId : String} (failed : tenantScope surroundings context taskId = .error halt) :
    halt = .raised .valueError := by
  rcases bind_eq_error.mp failed with failed | ⟨tenant, -, failed⟩
  · exact normalizeIdentifier_error failed
  rcases bind_eq_error.mp failed with failed | ⟨principal, -, failed⟩
  · exact normalizeIdentifier_error failed
  rcases bind_eq_error.mp failed with failed | ⟨session, -, failed⟩
  · exact normalizeIdentifier_error failed
  rcases bind_eq_error.mp failed with failed | ⟨task, -, failed⟩
  · exact normalizeIdentifier_error failed
  · cases failed

/-! ## Sizes -/

theorem textSize_ofList (chars : List Char) : textSize (String.ofList chars) = charsSize chars := by
  rw [textSize, length_encodeUtf8, utf8ByteSize_ofList]

theorem partsSize_map_le (front : results <+: results') :
    partsSize (results.map (resultText floatText)) ≤ partsSize (results'.map (resultText floatText)) := by
  obtain ⟨more, rfl⟩ := front
  induction results with
  | nil => exact Nat.zero_le _
  | cons result results ih =>
      rw [List.cons_append, List.map_cons, List.map_cons, partsSize, partsSize]
      omega

theorem objectText_pair {first second : String} {value value' : List Char} :
    charsSize (objectText [(first, value), (second, value')]) =
      charsSize (objectText [(first, []), (second, [])]) + charsSize value + charsSize value' := by
  simp only [objectText, List.map_cons, List.map_nil, List.intercalate_cons_cons,
    List.intercalate_singleton, List.cons_append, charsSize, charsSize_append]
  omega

theorem outputSize_eq (results : List RagResult) (flag : Bool) : outputSize floatText ⟨results, flag⟩ =
    charsSize (objectText [("results", []), ("truncated", [])]) +
      (partsSize (results.map (resultText floatText)) - 1 + 2) + charsSize (flagText flag) := by
  have listed : charsSize ('[' :: [','].intercalate (results.map (resultText floatText)) ++ [']']) =
      partsSize (results.map (resultText floatText)) - 1 + 2 := by
    rw [List.cons_append, charsSize_cons (by decide), charsSize_append, charsSize_intercalate]
    rfl
  rw [outputSize, textSize_ofList, outputText, objectText_pair, listed]

/-- The size of a response grows with its results, and is smaller if it is marked as truncated. -/
theorem outputSize_le {flag : Bool} (front : results <+: results') :
    outputSize floatText ⟨results, true⟩ ≤ outputSize floatText ⟨results', flag⟩ := by
  have listed := @partsSize_map_le floatText _ _ front
  have marked : charsSize (flagText true) ≤ charsSize (flagText flag) := by cases flag <;> decide
  rw [outputSize_eq, outputSize_eq]
  omega

/-! ## The cuts -/

/-- A response that is not made to fit has exceeded its bounds, and is reported. -/
theorem fitOutput_error (failed : fitOutput floatText maxBytes maxTokens output = .error halt) :
    halt.Hub ∧ Overflows floatText maxBytes maxTokens output := by
  constructor
  · rcases bind_eq_error.mp failed with failed | ⟨-, -, failed⟩
    · rw [raiseIf] at failed
      split at failed
      · cases failed
        exact hub_ragError _ _ _
      · cases failed
    rcases bind_eq_error.mp failed with failed | ⟨-, -, failed⟩
    · rw [raiseIf] at failed
      split at failed
      · cases failed
        exact hub_ragError _ _ _
      · cases failed
    · cases failed
  · by_contra fits
    rw [Overflows, not_or, Nat.not_lt, Int.not_lt] at fits
    rw [fitOutput_of_fits fits.1 fits.2] at failed
    cases failed

/-- What a response is once it is made to fit. -/
structure Fitted (floatText : ℚ → List Char) (maxBytes : Nat) (maxTokens : Int)
    (output final : RagOutput) : Prop where
  bytes : outputSize floatText final ≤ maxBytes
  tokens : (outputTokens floatText final : Int) ≤ maxTokens
  front : final.results <+: output.results
  unchanged : ¬Overflows floatText maxBytes maxTokens output → final = output
  cut : Overflows floatText maxBytes maxTokens output →
    final.truncated = true ∧ final.results.length < output.results.length

theorem Trimmed.size_le {exceeds : RagOutput → Bool} (trimmed : Trimmed exceeds output final) :
    outputSize floatText final ≤ outputSize floatText output := by
  rcases trimmed.cut with rfl | ⟨cut, -⟩
  · exact Nat.le_refl _
  · obtain ⟨results, flag⟩ := final
    obtain rfl : flag = true := cut
    exact outputSize_le trimmed.front

theorem fitted_of_ok (done : fitOutput floatText maxBytes maxTokens output = .ok final) :
    Fitted floatText maxBytes maxTokens output final := by
  obtain ⟨short, first, bytes, second, tokens⟩ := fitOutput_eq_ok done
  refine ⟨(second.size_le).trans bytes, tokens, second.front.trans first.front, ?_, ?_⟩
  · intro fits
    rw [Overflows, not_or, Nat.not_lt, Int.not_lt] at fits
    rw [fitOutput_of_fits fits.1 fits.2] at done
    exact (Except.ok.inj done).symm
  · intro overflows
    rcases first.cut with same | ⟨cut, fewer⟩
    · subst same
      rcases second.cut with same | cut
      · subst same
        rcases overflows with large | large
        · exact absurd bytes large.not_ge
        · exact absurd tokens large.not_ge
      · exact cut
    · rcases second.cut with same | ⟨cut', fewer'⟩
      · rw [same]
        exact ⟨cut, fewer⟩
      · exact ⟨cut', fewer'.trans fewer⟩

/-- The response that is made to fit answers if it was right before or is cut. -/
theorem answers_iff (done : fitOutput floatText maxBytes maxTokens output = .ok final)
    (front : output.results <+: ranked) :
    Answers floatText maxBytes maxTokens ranked final ↔
      (output.truncated = true ↔ output.results.length < ranked.length) ∨
        Overflows floatText maxBytes maxTokens output := by
  have fitted := fitted_of_ok done
  by_cases overflows : Overflows floatText maxBytes maxTokens output
  · obtain ⟨cut, fewer⟩ := fitted.cut overflows
    refine iff_of_true ⟨fitted.bytes, fitted.tokens, fitted.front.trans front, ?_⟩ (.inr overflows)
    exact iff_of_true cut (fewer.trans_le front.length_le)
  · have same := fitted.unchanged overflows
    rw [or_iff_left overflows]
    constructor
    · intro answers
      have flag := answers.flag
      rwa [same] at flag
    · intro flag
      refine ⟨fitted.bytes, fitted.tokens, fitted.front.trans front, ?_⟩
      rwa [same]

/-! ## A call -/

section

variable (served : provider.fixtureOf identity = some fixture)
  (offered : request.operation = fixture.operation)
  (read : readArguments request.arguments = .ok asked)
  (held : tenantScope surroundings context request.taskId = .ok scope)

include served offered read

theorem execute_of_scope_error (failed : tenantScope surroundings context request.taskId = .error halt) :
    provider.execute surroundings identity request context = .error halt := by
  rw [LocalRagProvider.execute, served]
  dsimp only
  rw [executeFixture, raiseIf, if_neg (not_not.mpr offered), ok_bind, read, ok_bind, failed]
  rfl

include held

theorem execute_of_error
    (failed : retrieveOutput surroundings fixture asked scope context.deadlineMs = .error halt) :
    provider.execute surroundings identity request context = .error halt := by
  rw [LocalRagProvider.execute, served]
  dsimp only
  rw [executeFixture, raiseIf, if_neg (not_not.mpr offered), ok_bind, read, ok_bind, held, ok_bind, failed]
  rfl

theorem execute_of_found
    (retrieved : retrieveOutput surroundings fixture asked scope context.deadlineMs = .ok found) :
    (∃ execution, provider.execute surroundings identity request context = .ok execution ∧
      fitOutput surroundings.floatText asked.maxBytes context.maxOutputTokens found =
        .ok execution.output) ∨
    ∃ halt, provider.execute surroundings identity request context = .error halt ∧
      fitOutput surroundings.floatText asked.maxBytes context.maxOutputTokens found = .error halt := by
  rw [LocalRagProvider.execute, served]
  dsimp only
  rw [executeFixture, raiseIf, if_neg (not_not.mpr offered), ok_bind, read, ok_bind, held, ok_bind,
    retrieved, ok_bind]
  cases fitted : fitOutput surroundings.floatText asked.maxBytes context.maxOutputTokens found with
  | ok output => exact .inl ⟨_, rfl, rfl⟩
  | error halt => exact .inr ⟨halt, rfl, rfl⟩

/-- A call that ends without a response keeps the contract if it is the provider's error. -/
theorem contract_of_error
    (failed : retrieveOutput surroundings fixture asked scope context.deadlineMs = .error halt) :
    Contract surroundings provider identity request context ↔ halt.Hub := by
  have ends := execute_of_error served offered read held failed
  constructor
  · rintro (⟨error, same⟩ | ⟨execution, -, -, -, done, -⟩)
    · rw [ends] at same
      exact ⟨error, Except.error.inj same⟩
    · rw [ends] at done
      cases done
  · rintro ⟨error, rfl⟩
    exact .inl ⟨error, ends⟩

/-- A call that finds the first of the passages keeps the contract if its flag is right or it is cut. -/
theorem contract_of_found
    (retrieved : retrieveOutput surroundings fixture asked scope context.deadlineMs = .ok found)
    (front : found.results <+: rankedResults surroundings fixture asked scope context.deadlineMs) :
    Contract surroundings provider identity request context ↔
      (found.truncated = true ↔ found.results.length <
        (rankedResults surroundings fixture asked scope context.deadlineMs).length) ∨
      Overflows surroundings.floatText asked.maxBytes context.maxOutputTokens found := by
  rcases execute_of_found served offered read held retrieved with
    ⟨execution, done, fitted⟩ | ⟨halt, failed, unfit⟩
  · rw [← answers_iff fitted front]
    constructor
    · rintro (⟨error, same⟩ |
        ⟨execution', fixture', asked', scope', done', served', read', held', answers⟩)
      · rw [done] at same
        cases same
      · rw [done] at done'
        rw [served] at served'
        rw [read] at read'
        rw [held] at held'
        cases done'
        cases served'
        cases read'
        cases held'
        exact answers
    · intro answers
      exact .inr ⟨execution, fixture, asked, scope, done, served, read, held, answers⟩
  · obtain ⟨⟨error, rfl⟩, overflows⟩ := fitOutput_error unfit
    exact iff_of_true (.inl ⟨error, failed⟩) (.inr overflows)

end

/-! ## The sources of passages -/

theorem fill_cut (used : Nat) (candidates : List Candidate) (cut : (fill maxBytes used candidates).2 = true) :
    (fill maxBytes used candidates).1.length < candidates.length := by
  induction candidates generalizing used with
  | nil => cases cut
  | cons candidate rest ih =>
      rw [fill] at cut ⊢
      split at cut
      next large =>
        rw [if_pos large]
        exact Nat.zero_lt_succ _
      next small =>
        rw [if_neg small]
        exact Nat.succ_lt_succ (ih _ cut)

/-- Of files the first candidates are given, and the flag says whether there are more. -/
theorem retrieveOutput_files_flag {deadlineMs : Int} (unindexed : fixture.index = none)
    (done : retrieveOutput surroundings fixture asked scope deadlineMs = .ok found) :
    found.results <+: rankedResults surroundings fixture asked scope deadlineMs ∧
      (found.truncated = true ↔
        found.results.length < (rankedResults surroundings fixture asked scope deadlineMs).length) := by
  obtain ⟨query, candidates, queried, ranked, results, flag⟩ := retrieveOutput_files unindexed done
  have all : rankedResults surroundings fixture asked scope deadlineMs = candidates.map .passage := by
    rw [rankedResults, unindexed, queried]
    dsimp only
    rw [Option.getD_some, ranked]
  have front := @fill_front asked.maxBytes 0 (candidates.take asked.topK)
  rw [all, results, flag]
  refine ⟨(front.trans (List.take_prefix _ _)).map _, ?_⟩
  rw [List.length_map, List.length_map, Bool.or_eq_true, decide_eq_true_eq]
  constructor
  · rintro (cut | fewer)
    · exact (fill_cut 0 _ cut).trans_le (List.take_prefix asked.topK candidates).length_le
    · exact fewer
  · exact .inr

theorem retrieveOutput_files_error {deadlineMs : Int} (unindexed : fixture.index = none)
    (queried : asked.query = some query)
    (failed : retrieveOutput surroundings fixture asked scope deadlineMs = .error halt) : halt.Hub := by
  rw [retrieveOutput, unindexed, queried] at failed
  dsimp only at failed
  cases ranked : rankedCandidates surroundings fixture query deadlineMs with
  | error raised =>
      rw [ranked] at failed
      cases failed
      rw [candidates_error ranked]
      exact ⟨_, rfl⟩
  | ok candidates =>
      rw [ranked] at failed
      cases failed

/-- Without an index the contract is kept if there is a query. -/
theorem contract_files (unindexed : fixture.index = none)
    (served : provider.fixtureOf identity = some fixture)
    (offered : request.operation = fixture.operation)
    (read : readArguments request.arguments = .ok asked)
    (held : tenantScope surroundings context request.taskId = .ok scope) :
    Contract surroundings provider identity request context ↔ asked.query ≠ none := by
  cases retrieved : retrieveOutput surroundings fixture asked scope context.deadlineMs with
  | ok found =>
      obtain ⟨front, flag⟩ := retrieveOutput_files_flag unindexed retrieved
      obtain ⟨query, -, queried, -⟩ := retrieveOutput_files unindexed retrieved
      rw [contract_of_found served offered read held retrieved front, queried]
      exact iff_of_true (.inl flag) (Option.some_ne_none query)
  | error halt =>
      rw [contract_of_error served offered read held retrieved]
      cases queried : asked.query with
      | none =>
          rw [retrieveOutput, unindexed, queried] at retrieved
          cases retrieved
          apply iff_of_false
          · rintro ⟨error, absurd⟩
            cases absurd
          · exact fun given => given rfl
      | some query =>
          exact iff_of_true (retrieveOutput_files_error unindexed queried retrieved)
            (Option.some_ne_none query)

/-- An expansion is refused unless its handle cannot be compared. -/
theorem expand_error {mac : Bytes → Bytes} {intOf : String → Option Int} {tables : Tables}
    {handle : String} {now : ℚ} {raised : Raised} (positive : 1 ≤ maxBytes)
    (comparable : ¬Incomparable handle)
    (failed : expand mac intOf tables handle scope maxBytes now = .error raised) : raised = unavailable := by
  by_cases accepted : ∃ passageId, verifyHandle mac handle (tenantOf mac scope) = .ok passageId
  · obtain ⟨passageId, verified⟩ := accepted
    rw [expand_of_ok positive verified] at failed
    split at failed
    · cases failed
      rfl
    · split at failed
      · cases failed
        rfl
      · cases failed
  · have refused :=
      verifyHandle_of_comparable comparable fun passageId same => accepted ⟨passageId, same⟩
    rw [expand_of_error positive refused] at failed
    exact (Except.error.inj failed).symm

/-- An expansion keeps the contract if the handle can be compared. -/
theorem contract_expansion {handle : String} (indexed : fixture.index = some index)
    (expands : asked.expansionHandle = some handle)
    (served : provider.fixtureOf identity = some fixture)
    (offered : request.operation = fixture.operation)
    (read : readArguments request.arguments = .ok asked)
    (held : tenantScope surroundings context request.taskId = .ok scope) :
    Contract surroundings provider identity request context ↔ ¬Incomparable handle := by
  have positive := (readArguments_checked read).room
  have retrieves : retrieveOutput surroundings fixture asked scope context.deadlineMs =
      (expand index.mac index.intOf index.tables handle scope asked.maxBytes surroundings.now).mapError
        .raised >>= fun hit => pure ⟨[.hit hit], false⟩ := by
    rw [retrieveOutput, indexed]
    dsimp only
    rw [expands]
  by_cases incomparable : Incomparable handle
  · have raises := @expand_of_error _ index.intOf index.tables _ _ _ surroundings.now _ positive
      (@verifyHandle_of_incomparable index.mac (tenantOf index.mac scope) _ incomparable)
    rw [raises] at retrieves
    rw [contract_of_error served offered read held retrieves]
    apply iff_of_false
    · rintro ⟨error, absurd⟩
      cases absurd
    · exact not_not.mpr incomparable
  · cases expanded :
        expand index.mac index.intOf index.tables handle scope asked.maxBytes surroundings.now with
    | ok hit =>
        rw [expanded] at retrieves
        have all : rankedResults surroundings fixture asked scope context.deadlineMs = [.hit hit] := by
          rw [rankedResults, indexed]
          dsimp only
          rw [expands]
          dsimp only
          rw [expanded]
        have front : ([.hit hit] : List RagResult) <+:
            rankedResults surroundings fixture asked scope context.deadlineMs := by rw [all]
        rw [contract_of_found served offered read held retrieves front, all]
        refine iff_of_true (.inl (iff_of_false Bool.false_ne_true ?_)) incomparable
        exact Nat.lt_irrefl 1
    | error raised =>
        rw [expanded] at retrieves
        rw [contract_of_error served offered read held retrieves]
        refine iff_of_true ?_ incomparable
        rw [expand_error positive incomparable expanded]
        exact ⟨_, rfl⟩

/-- The hits of a search are all that match if nothing is left out. -/
theorem retrieve_length_iff {sha256 : Bytes → Bytes} (reached : Reached index.mac sha256 index.tables)
    (query : String) (scope : TenantScope) (positive : 1 ≤ asked.topK) (now : ℚ) :
    (searchOutput index query scope asked now).results <+: ((matchingHits index.mac index.fullText
        index.intOf index.tables query scope asked.filters now).map RagResult.hit) ∧
    ((searchOutput index query scope asked now).results.length < ((matchingHits index.mac index.fullText
        index.intOf index.tables query scope asked.filters now).map RagResult.hit).length ↔
      ¬LeavesNothing index query scope asked now) := by
  have taken := @longestPrefix_retrieve index.mac index.fullText index.intOf index.tables query scope
    asked.topK asked.maxBytes asked.filters now positive
  have whole := @matchingHits_eq index.mac index.fullText index.intOf index.tables query scope asked.topK
    asked.filters now reached.consistent
  have front : retrieve index.mac index.fullText index.intOf index.tables query scope asked.topK
      asked.filters asked.maxBytes now <+: matchingHits index.mac index.fullText index.intOf index.tables
        query scope asked.filters now := by
    rw [whole]
    exact taken.front.trans (List.prefix_append _ _)
  refine ⟨front.map _, ?_⟩
  rw [searchOutput, List.length_map, List.length_map]
  constructor
  · rintro fewer ⟨behind, room⟩
    rw [whole, behind, List.append_nil] at room fewer
    exact fewer.not_ge (taken.longest _ (List.prefix_refl _) room).length_le
  · intro leaves
    by_contra enough
    have same := front.eq_of_length_le (Nat.le_of_not_lt enough)
    refine leaves ⟨?_, ?_⟩
    · have short := taken.front.length_le
      rw [same, whole, List.length_append] at short
      exact List.length_eq_zero_iff.mp (by omega)
    · rw [← same]
      exact taken.fits

/-- A search of an index keeps the contract if it leaves nothing out or its response is cut. -/
theorem contract_search (reached : Reached index.mac surroundings.sha256 index.tables)
    (indexed : fixture.index = some index) (searches : asked.expansionHandle = none)
    (served : provider.fixtureOf identity = some fixture)
    (offered : request.operation = fixture.operation)
    (read : readArguments request.arguments = .ok asked)
    (held : tenantScope surroundings context request.taskId = .ok scope) :
    Contract surroundings provider identity request context ↔
      LeavesNothing index (asked.query.getD "") scope asked surroundings.now ∨
        Overflows surroundings.floatText asked.maxBytes context.maxOutputTokens
          (searchOutput index (asked.query.getD "") scope asked surroundings.now) := by
  have checked := readArguments_checked read
  obtain ⟨query, queried⟩ : ∃ query, asked.query = some query := by
    cases queried : asked.query with
    | none =>
        have asks := checked.asks searches
        rw [queried] at asks
        exact absurd rfl asks
    | some query => exact ⟨query, rfl⟩
  have accepted : Accepted query asked.topK asked.maxBytes := by
    have asks := checked.asks searches
    rw [queried] at asks
    exact ⟨asks, checked.count, checked.room⟩
  have retrieves : retrieveOutput surroundings fixture asked scope context.deadlineMs =
      .ok (searchOutput index query scope asked surroundings.now) := by
    rw [retrieveOutput, indexed]
    dsimp only
    rw [searches, queried]
    dsimp only
    rw [search_eq accepted]
    rfl
  have all : rankedResults surroundings fixture asked scope context.deadlineMs =
      (matchingHits index.mac index.fullText index.intOf index.tables query scope asked.filters
        surroundings.now).map .hit := by
    rw [rankedResults, indexed]
    dsimp only
    rw [searches, queried]
    rfl
  obtain ⟨front, fewer_iff⟩ := retrieve_length_iff reached query scope checked.count.1 surroundings.now
  rw [← all] at front fewer_iff
  rw [contract_of_found served offered read held retrieves front, fewer_iff, queried]
  have flag : (searchOutput index query scope asked surroundings.now).truncated = true ↔ False :=
    iff_false_intro Bool.false_ne_true
  rw [flag, false_iff, not_not]
  rfl

/-- The contract is kept exactly if the caller is accepted and the call is no expansion without an index, no
expansion of a handle that cannot be compared, and no search of an index that leaves something out of a
response that is not cut. -/
theorem execute_contract_iff (surroundings : Surroundings) (provider : LocalRagProvider)
    (identity : CapabilityIdentity) (request : ExecutionRequest) (context : ProviderContext)
    (reached : ∀ fixture ∈ provider.fixtures, ∀ index, fixture.index = some index →
      Reached index.mac surroundings.sha256 index.tables) :
    Contract surroundings provider identity request context ↔
      ∀ fixture asked, provider.fixtureOf identity = some fixture →
        request.operation = fixture.operation → readArguments request.arguments = .ok asked →
        ∃ scope, tenantScope surroundings context request.taskId = .ok scope ∧
          Kept surroundings fixture asked scope context.maxOutputTokens := by
  cases served : provider.fixtureOf identity with
  | none =>
      have ends : provider.execute surroundings identity request context =
          .error (ragError "rag_capability_not_found" .reference
            "The requested RAG source is not configured.") := by
        rw [LocalRagProvider.execute, served]
      refine iff_of_true (.inl ⟨_, ends⟩) fun fixture asked absurd => ?_
      cases absurd
  | some fixture =>
      have among : fixture ∈ provider.fixtures := List.mem_of_find?_eq_some served
      by_cases offered : request.operation = fixture.operation
      · cases read : readArguments request.arguments with
        | error halt =>
            obtain ⟨error, rfl⟩ := readArguments_error read
            have ends : provider.execute surroundings identity request context =
                .error (.raised (.hub error)) := by
              rw [LocalRagProvider.execute, served]
              dsimp only
              rw [executeFixture, raiseIf, if_neg (not_not.mpr offered), ok_bind, read]
              rfl
            refine iff_of_true (.inl ⟨error, ends⟩) fun _ asked _ _ absurd => ?_
            cases absurd
        | ok asked =>
            have only : (∀ fixture' asked', some fixture = some fixture' →
                request.operation = fixture'.operation → (.ok asked : Except Halt _) = .ok asked' →
                ∃ scope, tenantScope surroundings context request.taskId = .ok scope ∧
                  Kept surroundings fixture' asked' scope context.maxOutputTokens) ↔
                ∃ scope, tenantScope surroundings context request.taskId = .ok scope ∧
                  Kept surroundings fixture asked scope context.maxOutputTokens := by
              constructor
              · exact fun always => always fixture asked rfl offered rfl
              · rintro kept fixture' asked' ⟨⟩ - ⟨⟩
                exact kept
            rw [only]
            cases held : tenantScope surroundings context request.taskId with
            | error halt =>
                have ends := execute_of_scope_error served offered read held
                rw [tenantScope_error held] at ends
                apply iff_of_false
                · rintro (⟨error, same⟩ | ⟨execution, -, -, -, done, -⟩)
                  · rw [ends] at same
                    cases same
                  · rw [ends] at done
                    cases done
                · rintro ⟨scope, absurd, -⟩
                  cases absurd
            | ok scope =>
                have one : (∃ scope', (.ok scope : Except Halt _) = .ok scope' ∧
                    Kept surroundings fixture asked scope' context.maxOutputTokens) ↔
                    Kept surroundings fixture asked scope context.maxOutputTokens := by
                  simp only [Except.ok.injEq, exists_eq_left']
                rw [one, Kept]
                cases indexed : fixture.index with
                | none => exact contract_files indexed served offered read held
                | some index =>
                    cases expands : asked.expansionHandle with
                    | some handle => exact contract_expansion indexed expands served offered read held
                    | none =>
                        exact contract_search (reached fixture among index indexed) indexed expands served
                          offered read held
      · have ends : provider.execute surroundings identity request context =
            .error (ragError "rag_operation_not_found" .reference
              "The requested RAG operation is not allowlisted.") := by
          rw [LocalRagProvider.execute, served]
          dsimp only
          rw [executeFixture, raiseIf, if_pos offered]
          rfl
        refine iff_of_true (.inl ⟨_, ends⟩) fun fixture' _ same offered' => ?_
        cases same
        exact absurd offered' offered

def letterIndex : RagIndex :=
  ⟨id, findsAll, fun _ => none, perform id id {} (.replace taskScope letterPassages)⟩

theorem reached_letterIndex : Reached letterIndex.mac id letterIndex.tables :=
  ⟨[.replace taskScope letterPassages], rfl⟩

/-- A provider with an index of letters. -/
def letterProvider : LocalRagProvider where
  fixtures := [{ fishFixture with index := some letterIndex }]
  unique := List.nodup_singleton _

theorem reached_letterProvider : ∀ fixture ∈ letterProvider.fixtures, ∀ index,
    fixture.index = some index → Reached index.mac asciiSurroundings.sha256 index.tables := by
  intro fixture member index indexed
  have only : fixture = { fishFixture with index := some letterIndex } := List.mem_singleton.mp member
  subst only
  have same : some letterIndex = some index := indexed
  cases same
  exact reached_letterIndex

theorem letters_contract :
    (∀ fixture ∈ letterProvider.fixtures, ∀ index, fixture.index = some index →
      Reached index.mac asciiSurroundings.sha256 index.tables) ∧
    (Contract asciiSurroundings letterProvider fishManifest.identity fishRequest fishContext ↔
      ∀ fixture asked, letterProvider.fixtureOf fishManifest.identity = some fixture →
        fishRequest.operation = fixture.operation → readArguments fishRequest.arguments = .ok asked →
        ∃ scope, tenantScope asciiSurroundings fishContext fishRequest.taskId = .ok scope ∧
          Kept asciiSurroundings fixture asked scope fishContext.maxOutputTokens) :=
  ⟨reached_letterProvider, execute_contract_iff asciiSurroundings letterProvider fishManifest.identity
    fishRequest fishContext reached_letterProvider⟩

/-- A request with a handle alone. -/
def expansionRequest : ExecutionRequest where
  executionRef := "e"
  operation := "retrieve"
  arguments := [("expansion_handle", .str "handle")]
  taskId := "task"

/-- An expansion without an index ends in an assertion. -/
theorem expansion_without_index :
    ¬∀ (surroundings : Surroundings) (provider : LocalRagProvider) (identity : CapabilityIdentity)
      (request : ExecutionRequest) (context : ProviderContext),
      (∀ fixture ∈ provider.fixtures, ∀ index, fixture.index = some index →
        Reached index.mac surroundings.sha256 index.tables) →
      Contract surroundings provider identity request context := by
  intro always
  have reached : ∀ fixture ∈ fishProvider.fixtures, ∀ index, fixture.index = some index →
      Reached index.mac asciiSurroundings.sha256 index.tables := by
    intro fixture member index indexed
    rw [List.mem_singleton.mp member] at indexed
    cases indexed
  have contract :=
    always asciiSurroundings fishProvider fishManifest.identity expansionRequest fishContext reached
  have read : readArguments expansionRequest.arguments = .ok ⟨none, some "handle", 5, 64000, ∅⟩ := rfl
  have held : tenantScope asciiSurroundings fishContext expansionRequest.taskId =
      .ok ⟨"tenant", "principal", "session", "task"⟩ := rfl
  have unindexed : fishFixture.index = none := rfl
  have served : fishProvider.fixtureOf fishManifest.identity = some fishFixture := rfl
  have offered : expansionRequest.operation = fishFixture.operation := rfl
  have kept := contract_files unindexed served offered read held
  exact kept.mp contract rfl

end CapabilityHub.Rag
