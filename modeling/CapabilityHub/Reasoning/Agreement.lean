import CapabilityHub.Data.Runs
import CapabilityHub.Reasoning.Simulation
import CapabilityHub.Residency.Agreement

/-! # The stores of reasoning agree

Both stores are lawful, so an orchestrator with one of them does what an orchestrator without a store
does (`CapabilityHub.Reasoning.recommendations_agree`), until a counter of the database is full.
-/

namespace CapabilityHub.Reasoning

open Budget Residency Tenancy

/-! ## What is stored of a recommendation -/

theorem sortedItems_texts (texts : List String) : sortedItems (texts.map .str) = texts.map .str := by
  induction texts with
  | nil => rfl
  | cons text texts ih => rw [List.map_cons, sortedItems, ih, Json.sorted]

theorem distinctItems_texts (texts : List String) : DistinctItems (texts.map .str) := by
  induction texts with
  | nil => rw [List.map_nil, DistinctItems]; trivial
  | cons text texts ih =>
      rw [List.map_cons, DistinctItems]
      exact ⟨by simp [Json.Distinct], ih⟩

theorem distinct_payload (recommendation : ReasoningRecommendation) :
    recommendation.payload.Distinct := by
  rw [ReasoningRecommendation.payload, Json.Distinct]
  refine ⟨?_, ?_⟩
  · change (["budget_headroom", "budget_remaining", "estimated_tokens", "reason_codes", "should_stop",
      "tier"] : List String).Nodup
    decide
  have codes := distinctItems_texts recommendation.reasonCodes
  cases recommendation.budgetHeadroom <;> cases recommendation.budgetRemaining <;>
    simp [DistinctFields, Json.Distinct, codes]

/-- The members of a payload are in the order of their keys. -/
theorem sorted_payload (recommendation : ReasoningRecommendation) :
    recommendation.payload.sorted = recommendation.payload := by
  obtain ⟨taskId, tier, codes, tokens, remaining, headroom, escalations, revision, stop⟩ :=
    recommendation
  rw [ReasoningRecommendation.payload, Json.sorted]
  have fields (headroom remaining : Json) (plain : headroom.sorted = headroom)
      (plain' : remaining.sorted = remaining) : sortedFields [("budget_headroom", headroom),
        ("budget_remaining", remaining), ("estimated_tokens", .int tokens),
        ("reason_codes", .arr (codes.map .str)), ("should_stop", .bool stop),
        ("tier", .str tier.value)] = [("budget_headroom", headroom),
        ("budget_remaining", remaining), ("estimated_tokens", .int tokens),
        ("reason_codes", .arr (codes.map .str)), ("should_stop", .bool stop),
        ("tier", .str tier.value)] := by
    simp [sortedFields, Json.sorted, plain, plain', sortedItems_texts]
  rw [fields]
  · congr 1
    apply List.Pairwise.insertionSort_eq
    rw [← List.pairwise_map (f := Prod.fst) (R := (· ≤ ·))]
    change (["budget_headroom", "budget_remaining", "estimated_tokens", "reason_codes", "should_stop",
      "tier"] : List String).Pairwise (· ≤ ·)
    decide
  · cases headroom <;> rfl
  · cases remaining <;> rfl

theorem loads_payload (recommendation : ReasoningRecommendation) :
    loads (canonicalJson recommendation.payload).toList = some recommendation.payload := by
  rw [loads_canonicalJson (distinct_payload recommendation), sorted_payload]

theorem printableItems_eq_true {items : List Json} (each : ∀ item ∈ items, item.printable = true) :
    printableItems items = true := by
  induction items with
  | nil => rw [printableItems]
  | cons item items ih =>
      rw [printableItems, each item List.mem_cons_self,
        ih fun other member => each other (List.mem_cons_of_mem _ member)]
      rfl

/-! ## The store of its own database -/

namespace SQLiteReasoningStore

variable {integer : SqlInteger} {tables written : ReasoningTables} {stored : StoredReasoningState}
  {taskId other : String}

/-- The rows that a call wrote can be read. -/
def Sound (tables : ReasoningTables) : Prop :=
  ∀ taskId row, tables.tasks.get? taskId = some row →
    ∃ last tier, decodeLast row.lastRecommendation = .ok last ∧ decodeTier row.tier = .ok tier

theorem decodeTier_value (tier : Option ReasoningTier) :
    decodeTier (tier.map (·.value)) = .ok tier := by
  cases tier with
  | none => rfl
  | some tier => cases tier <;> rfl

theorem decodeLast_payload (recommendation : ReasoningRecommendation) :
    decodeLast (some (canonicalJson recommendation.payload)) = .ok (some recommendation.payload) := by
  rw [decodeLast, loads_payload]

/-- A state whose counters fit is written. -/
theorem writeRow_eq_ok (storable : Storable integer.Fits stored) :
    writeRow integer tables stored = .ok
      { tasks := tables.tasks.set stored.taskId
          { tier := stored.tier.map (·.value)
            escalationsUsed := stored.escalationsUsed
            recommendationCount := stored.recommendationCount
            lastRecommendation := stored.lastRecommendation.map canonicalJson }
        attempts := (stored.attemptCounts.entries.map fun entry =>
            ((stored.taskId, entry.1), entry.2)).foldl
          (fun written entry => written.set entry.1 entry.2)
          (tables.attempts.filterKeys (·.1 ≠ stored.taskId)) } := by
  obtain ⟨recommendation, last, printable⟩ := storable.last
  refine bind_eq_ok.mpr ⟨stored.lastRecommendation.map canonicalJson, ?_, ?_⟩
  · rw [last]
    exact bind_eq_ok.mpr ⟨(), raiseIf_eq_ok.mpr (by simp [printable]), rfl⟩
  refine bind_eq_ok.mpr ⟨(), integer.bind_eq_ok.mpr storable.escalations, ?_⟩
  refine bind_eq_ok.mpr ⟨(), integer.bind_eq_ok.mpr storable.recommendations, ?_⟩
  refine bind_eq_ok.mpr ⟨(), forM_eq_ok.mpr fun entry member => ?_, rfl⟩
  exact integer.bind_eq_ok.mpr (storable.attempts entry.1 entry.2 (Dict.mem_entries_iff.mp member))

theorem get?_attempts (pair : String × String) :
    ((stored.attemptCounts.entries.map fun entry => ((stored.taskId, entry.1), entry.2)).foldl
        (fun written entry => written.set entry.1 entry.2)
        (tables.attempts.filterKeys (·.1 ≠ stored.taskId))).get? (other, pair) =
      if other = stored.taskId then stored.attemptCounts.get? pair
      else tables.attempts.get? (other, pair) := by
  have nodup : ((stored.attemptCounts.entries.map fun entry =>
      ((stored.taskId, entry.1), entry.2)).map Prod.fst).Nodup := by
    rw [List.map_map]
    have keys := stored.attemptCounts.nodup.map
      (f := fun pair => (stored.taskId, pair)) fun _ _ same => (Prod.mk.inj same).2
    rwa [List.map_map] at keys
  rw [Dict.get?_foldl_set _ nodup, Dict.get?_filterKeys]
  by_cases same : other = stored.taskId
  · rw [if_pos same, if_neg (by simpa using same), Option.or_none, same]
    exact lookup_map_key (Prod.mk_right_injective stored.taskId) pair _
  · rw [if_neg same, if_pos (by simpa using same)]
    have absent : (other, pair) ∉ (stored.attemptCounts.entries.map fun entry =>
        ((stored.taskId, entry.1), entry.2)).map Prod.fst := by
      simpa using fun _ _ same' => same same'.symm
    exact congrArg (·.or (tables.attempts.get? (other, pair)))
      (lookup_eq_none_iff_notMem.mpr absent)

theorem read_eq (named : taskId ≠ "") : read tables taskId = readRow tables taskId := by
  rw [read, validateTaskId, raiseIf, if_neg named]
  rfl

theorem transact_eq {update : StoredReasoningState → StoredReasoningState × ReasoningRecommendation}
    (named : taskId ≠ "") (found : readRow tables taskId = .ok stored)
    (same : (update stored).1.taskId = taskId)
    (wrote : writeRow integer tables (update stored).1 = .ok written) :
    transact integer tables taskId update = .ok ((update stored).2, written) := by
  refine bind_eq_ok.mpr ⟨(), raiseIf_eq_ok.mpr named, bind_eq_ok.mpr ⟨stored, found, ?_⟩⟩
  refine bind_eq_ok.mpr ⟨(), raiseIf_eq_ok.mpr (not_not.mpr same), ?_⟩
  exact bind_eq_ok.mpr ⟨written, wrote, rfl⟩

/-- The other tasks read as before, but for the order of their attempts. -/
theorem readRow_congr {next : ReasoningTables}
    (tasks : next.tasks.get? other = tables.tasks.get? other)
    (attempts : ∀ pair, next.attempts.get? (other, pair) = tables.attempts.get? (other, pair))
    (found : readRow tables other = .ok stored) :
    ∃ left, readRow next other = .ok left ∧ left.Alike stored := by
  rw [readRow] at found ⊢
  rw [tasks]
  cases row : tables.tasks.get? other with
  | none =>
      rw [row] at found
      exact ⟨stored, found, rfl, rfl, rfl, TaskState.Alike.refl _⟩
  | some row' =>
      rw [row] at found
      obtain ⟨last, decoded, found⟩ := bind_eq_ok.mp found
      obtain ⟨tier, decoded', found⟩ := bind_eq_ok.mp found
      cases found
      refine ⟨_, bind_eq_ok.mpr ⟨last, decoded, bind_eq_ok.mpr ⟨tier, decoded', rfl⟩⟩, rfl, rfl, rfl,
        rfl, rfl, fun pair => ?_⟩
      exact (Dict.get?_row _ _).trans ((attempts pair).trans (Dict.get?_row _ _).symm)

/-- What is written is read back. -/
theorem readRow_written (storable : Storable integer.Fits stored)
    (wrote : writeRow integer tables stored = .ok written) :
    ∃ replaced, readRow written stored.taskId = .ok replaced ∧ replaced.Alike stored := by
  rw [writeRow_eq_ok storable] at wrote
  cases wrote
  obtain ⟨recommendation, last, _⟩ := storable.last
  have decoded : decodeLast (stored.lastRecommendation.map canonicalJson) =
      .ok stored.lastRecommendation := by
    rw [last]
    exact decodeLast_payload recommendation
  rw [readRow, Dict.get?_set, if_pos rfl]
  refine ⟨_, bind_eq_ok.mpr ⟨_, decoded, bind_eq_ok.mpr ⟨_, decodeTier_value stored.tier, rfl⟩⟩,
    rfl, rfl, rfl, rfl, rfl, fun pair => ?_⟩
  exact (Dict.get?_row _ _).trans ((get?_attempts pair).trans (if_pos rfl))

/-- A write leaves the other tasks as they are. -/
theorem readRow_others {held : StoredReasoningState} (storable : Storable integer.Fits stored)
    (wrote : writeRow integer tables stored = .ok written) (different : other ≠ stored.taskId)
    (found : readRow tables other = .ok held) :
    ∃ left, readRow written other = .ok left ∧ left.Alike held := by
  rw [writeRow_eq_ok storable] at wrote
  cases wrote
  exact readRow_congr (Dict.get?_set_of_ne different)
    (fun pair => (get?_attempts pair).trans (if_neg different)) found

theorem Sound.write (sound : Sound tables) (storable : Storable integer.Fits stored)
    (wrote : writeRow integer tables stored = .ok written) : Sound written := by
  intro taskId row found
  rw [writeRow_eq_ok storable] at wrote
  cases wrote
  rw [Dict.get?_set] at found
  split at found
  · obtain ⟨recommendation, last, _⟩ := storable.last
    cases found
    refine ⟨stored.lastRecommendation, stored.tier, ?_, decodeTier_value stored.tier⟩
    rw [last]
    exact decodeLast_payload recommendation
  · exact sound taskId row found

theorem Sound.reset (sound : Sound tables) : Sound
    { tasks := tables.tasks.erase taskId
      attempts := tables.attempts.filterKeys (·.1 ≠ taskId) } := by
  intro other row found
  rw [Dict.get?_erase] at found
  split at found
  · cases found
  · exact sound other row found

theorem lawful (integer : SqlInteger) {named : String → Prop}
    (nonempty : ∀ taskId, named taskId → taskId ≠ "") :
    Lawful integer.Fits named (fun _ => store integer) Sound where
  reads kept taskId sound known := by
    change ∃ stored, _ ∧ ∀ now : ℚ≥0, read kept taskId = _
    rw [read_eq (nonempty taskId known), readRow]
    cases found : kept.tasks.get? taskId with
    | none => exact ⟨_, rfl, fun _ => rfl⟩
    | some row =>
        obtain ⟨last, tier, decoded, decoded'⟩ := sound taskId row found
        refine ⟨_, ?_, fun _ => bind_eq_ok.mpr ⟨last, decoded, bind_eq_ok.mpr ⟨tier, decoded', rfl⟩⟩⟩
        rfl
  writes kept taskId now stored update sound known found same storable := by
    have given := nonempty taskId known
    change read kept taskId = _ at found
    rw [read_eq given] at found
    obtain ⟨next, wrote⟩ : ∃ next, writeRow integer kept (update stored).1 = .ok next :=
      ⟨_, writeRow_eq_ok storable⟩
    obtain ⟨replaced, reads, alike⟩ := readRow_written storable wrote
    refine ⟨next, transact_eq given found same wrote, Sound.write sound storable wrote,
      ⟨replaced, fun _ => (read_eq given).trans (same ▸ reads), alike⟩,
      fun other held different known' read => ?_⟩
    have given' := nonempty other known'
    obtain ⟨left, reads', alike'⟩ := readRow_others storable wrote (same ▸ different)
      ((read_eq given').symm.trans (read now))
    exact ⟨left, fun _ => (read_eq given').trans reads', alike'⟩
  resets kept taskId now sound known := by
    have given := nonempty taskId known
    refine ⟨_, bind_eq_ok.mpr ⟨(), raiseIf_eq_ok.mpr given, rfl⟩, Sound.reset sound, fun _ => ?_,
      fun other held different known' read => ?_⟩
    · change SQLiteReasoningStore.read _ taskId = _
      rw [read_eq given, readRow, Dict.get?_erase, if_pos rfl]
    · have given' := nonempty other known'
      obtain ⟨left, reads, alike⟩ := @readRow_congr kept held other
        { tasks := kept.tasks.erase taskId
          attempts := kept.attempts.filterKeys (·.1 ≠ taskId) }
        (Dict.get?_erase.trans (if_neg different))
        (fun pair => (Dict.get?_filterKeys _).trans (if_pos (decide_eq_true different)))
        ((read_eq given').symm.trans (read now))
      exact ⟨left, fun _ => (read_eq given').trans reads, alike⟩

end SQLiteReasoningStore

/-! ## The store of the shared state -/

namespace ScopedReasoningStore

variable {keying : LetteredKeying} {scope : String → TenantScope} {now : ℚ≥0}
  {state : ScopedState Json} {stored : StoredReasoningState} {taskId other : String}

/-- Where the shared state keeps a task. -/
def place (keying : Keying) (scope : String → TenantScope) (taskId : String) :
    String × String × String :=
  (keying.scope (scope taskId), "reasoning", keying.key (keying.scope (scope taskId)) "reasoning" "state")

/-- The entries of the named tasks can be decoded at any time. -/
def Sound (keying : Keying) (scope : String → TenantScope) (named : String → Prop)
    (state : ScopedState Json) : Prop :=
  ∀ taskId, named taskId → ∃ raw stored, (∀ now, state.entry (place keying scope taskId) now = raw) ∧
    decode taskId raw = .ok stored

theorem checkName_reasoning (keying : LetteredKeying) :
    checkName keying.toKeying "reasoning" = .ok () :=
  ScopedContextState.checkName_plain (by decide +kernel) (by decide +kernel)

theorem identifier_state (keying : LetteredKeying) : identifier keying.toKeying "state" = .ok () :=
  ScopedContextState.identifier_plain (by decide +kernel) (by decide +kernel)

theorem checkTimestamp_natural (now : ℚ≥0) : checkTimestamp now = .ok () :=
  raiseIf_eq_ok.mpr (not_lt.mpr now.2)

theorem read_eq (given : taskId ≠ "") : read keying.toKeying scope now state taskId =
    (decode taskId (state.entry (place keying.toKeying scope taskId) now)).mapError .raised := by
  unfold read ScopedState.getEntry
  rw [checkName_reasoning, identifier_state, checkTimestamp_natural, validateTaskId, raiseIf,
    if_neg given]
  rfl

theorem transact_eq {update : StoredReasoningState → StoredReasoningState × ReasoningRecommendation}
    (given : taskId ≠ "")
    (found : decode taskId (state.entry (place keying.toKeying scope taskId) now) = .ok stored)
    (same : (update stored).1.taskId = taskId)
    (printable : (encode (update stored).1).printable = true) :
    transact keying.toKeying scope now state taskId update = .ok ((update stored).2,
      { state with
        entries := state.entries.set (place keying.toKeying scope taskId)
          ⟨encode (update stored).1, now, none⟩ }) := by
  unfold transact ScopedState.transactEntry
  rw [checkName_reasoning, identifier_state, checkTimestamp_natural, validateTaskId, raiseIf,
    if_neg given]
  change ((Except.mapError ScopedState.transactError ((decode taskId
    (state.entry (place keying.toKeying scope taskId) now)).bind _)).bind _).mapError _ = _
  rw [found]
  dsimp only [Except.bind]
  rw [raiseIf, if_neg (not_not.mpr same)]
  dsimp only [bind, Except.bind]
  rw [raiseIf, if_neg (by simp [printable])]
  rfl

theorem reset_eq (given : taskId ≠ "") : reset keying.toKeying scope state taskId =
    .ok { state with entries := state.entries.erase (place keying.toKeying scope taskId) } := by
  unfold reset ScopedState.deleteEntry
  rw [checkName_reasoning, identifier_state, validateTaskId, raiseIf, if_neg given]
  rfl

theorem decodeAttempt_eq (entry : (String × String) × Nat) :
    decodeAttempt (.arr [.str entry.1.1, .str entry.1.2, .int entry.2]) = .ok entry := by
  rw [decodeAttempt, raiseIf, if_neg (not_lt.mpr (Int.natCast_nonneg _))]
  rfl

theorem decodeTier_value (tier : Option ReasoningTier) :
    decodeTier (some ((tier.map fun tier => .str tier.value).getD .null)) = .ok tier := by
  cases tier with
  | none => rfl
  | some tier => cases tier <;> rfl

theorem get?_sortedAttempts (counts : Dict (String × String) Nat) (pair : String × String) :
    (Dict.ofEntries (sortedAttempts counts)).get? pair = counts.get? pair := by
  have perm : (sortedAttempts counts).Perm counts.entries := perm_sortedBy _ _
  have nodup : ((sortedAttempts counts).map Prod.fst).Nodup :=
    (perm.map Prod.fst).nodup_iff.mpr counts.nodup
  rw [Dict.get?_ofEntries _ nodup]
  change (⟨sortedAttempts counts, nodup⟩ : Dict (String × String) Nat).get? pair = _
  apply Option.ext
  intro count
  rw [← Dict.mem_entries_iff, ← Dict.mem_entries_iff]
  exact perm.mem_iff

/-- What is written is read back. -/
theorem decode_encode {fits : Nat → Prop} (storable : Storable fits stored) :
    ∃ replaced, decode stored.taskId (some (encode stored)) = .ok replaced ∧
      replaced.Alike stored := by
  obtain ⟨recommendation, last, _⟩ := storable.last
  have attempts : ((sortedAttempts stored.attemptCounts).map fun entry =>
      Json.arr [.str entry.1.1, .str entry.1.2, .int entry.2]).mapM decodeAttempt =
        .ok (sortedAttempts stored.attemptCounts) :=
    mapM_encoded fun entry _ => decodeAttempt_eq entry
  have last' : decodeLast (some (stored.lastRecommendation.getD .null)) =
      .ok stored.lastRecommendation := by
    rw [last]
    rfl
  refine ⟨{ stored with attemptCounts := Dict.ofEntries (sortedAttempts stored.attemptCounts) },
    mapError_eq_ok.mpr ?_, rfl, rfl, rfl, rfl, rfl, get?_sortedAttempts stored.attemptCounts⟩
  refine bind_eq_ok.mpr ⟨_, (listField_eq_ok rfl).mpr rfl, bind_eq_ok.mpr ⟨_, attempts, ?_⟩⟩
  refine bind_eq_ok.mpr ⟨_, last', ?_⟩
  refine bind_eq_ok.mpr ⟨_, (naturalField_eq_ok rfl).mpr ⟨Int.natCast_nonneg _, rfl⟩, ?_⟩
  refine bind_eq_ok.mpr ⟨_, (naturalField_eq_ok rfl).mpr ⟨Int.natCast_nonneg _, rfl⟩, ?_⟩
  exact bind_eq_ok.mpr ⟨_, decodeTier_value stored.tier, rfl⟩

theorem printable_encode (storable : Storable (· < 10 ^ maxStrDigits) stored) :
    (encode stored).printable = true := by
  obtain ⟨recommendation, last, printable⟩ := storable.last
  have attempts : printableItems ((sortedAttempts stored.attemptCounts).map fun entry =>
      Json.arr [.str entry.1.1, .str entry.1.2, .int entry.2]) = true := by
    refine printableItems_eq_true fun item member => ?_
    obtain ⟨entry, inside, rfl⟩ := List.mem_map.mp member
    have counted := storable.attempts entry.1 entry.2
      (Dict.mem_entries_iff.mp ((perm_sortedBy _ _).mem_iff.mp inside))
    simpa [Json.printable, printableItems] using counted
  have tier : ((stored.tier.map fun tier => Json.str tier.value).getD .null).printable = true := by
    cases stored.tier <;> rfl
  have escalations := storable.escalations
  have recommendations := storable.recommendations
  simp [encode, Json.printable, printableFields, attempts, last, printable, tier, escalations,
    recommendations]

theorem taskId_decode {raw : Option Json} (decoded : decode taskId raw = .ok stored) :
    stored.taskId = taskId := by
  cases raw with
  | none => cases decoded; rfl
  | some value =>
      cases value with
      | obj fields =>
          have decoded := mapError_eq_ok.mp decoded
          obtain ⟨_, _, decoded⟩ := bind_eq_ok.mp decoded
          obtain ⟨_, _, decoded⟩ := bind_eq_ok.mp decoded
          obtain ⟨_, _, decoded⟩ := bind_eq_ok.mp decoded
          obtain ⟨_, _, decoded⟩ := bind_eq_ok.mp decoded
          obtain ⟨_, _, decoded⟩ := bind_eq_ok.mp decoded
          obtain ⟨_, _, decoded⟩ := bind_eq_ok.mp decoded
          cases decoded
          rfl
      | _ => cases decoded

/-- The tasks have their own entries. -/
theorem place_ne {named : String → Prop}
    (distinct : Set.InjOn (fun taskId => keying.scope (scope taskId)) {taskId | named taskId})
    (known : named taskId) (known' : named other) (different : other ≠ taskId) :
    place keying.toKeying scope other ≠ place keying.toKeying scope taskId :=
  fun same => different (distinct known' known (Prod.mk.inj same).1)

theorem lawful {named : String → Prop} (nonempty : ∀ taskId, named taskId → taskId ≠ "")
    (distinct : Set.InjOn (fun taskId => keying.scope (scope taskId)) {taskId | named taskId}) :
    Lawful (· < 10 ^ maxStrDigits) named (fun now => store keying.toKeying scope now)
      (Sound keying.toKeying scope named) where
  reads kept taskId sound known := by
    obtain ⟨raw, stored, holds, decoded⟩ := sound taskId known
    refine ⟨stored, taskId_decode decoded, fun now => ?_⟩
    refine (read_eq (nonempty taskId known)).trans ?_
    rw [holds, decoded]
    rfl
  writes kept taskId now stored update sound known found same storable := by
    have given := nonempty taskId known
    have decoded := mapError_eq_ok.mp ((read_eq given).symm.trans found)
    obtain ⟨replaced, decoded', alike⟩ := decode_encode storable
    rw [same] at decoded'
    have others {other : String} (different : other ≠ taskId) (known' : named other) (later : ℚ) :=
      (@ScopedState.entry_set _ kept (encode (update stored).1) (place keying.toKeying scope taskId)
        (place keying.toKeying scope other) now later).trans
          (if_neg (place_ne distinct known known' different))
    refine ⟨_, transact_eq given decoded same (printable_encode storable), fun other known' => ?_,
      ⟨replaced, fun later => ?_, alike⟩, fun other held different known' read => ?_⟩
    · by_cases different : other = taskId
      · subst different
        exact ⟨_, _, fun later => (ScopedState.entry_set _ _ _ _ later).trans (if_pos rfl), decoded'⟩
      · obtain ⟨raw, left, holds, decoded⟩ := sound other known'
        exact ⟨raw, left, fun later => (others different known' later).trans (holds later), decoded⟩
    · refine (read_eq given).trans ?_
      rw [ScopedState.entry_set, if_pos rfl, decoded']
      rfl
    · refine ⟨held, fun later => ?_, rfl, rfl, rfl, TaskState.Alike.refl _⟩
      refine (read_eq (nonempty other known')).trans ?_
      rw [others different known' later]
      exact (read_eq (nonempty other known')).symm.trans (read later)
  resets kept taskId now sound known := by
    have given := nonempty taskId known
    have others {other : String} (different : other ≠ taskId) (known' : named other) (later : ℚ) :=
      (@ScopedState.entry_erase _ kept (place keying.toKeying scope taskId)
        (place keying.toKeying scope other) later).trans
          (if_neg (place_ne distinct known known' different))
    refine ⟨_, reset_eq given, fun other known' => ?_, fun later => ?_,
      fun other held different known' read => ?_⟩
    · by_cases different : other = taskId
      · subst different
        exact ⟨none, _, fun later => (ScopedState.entry_erase _ _ later).trans (if_pos rfl), rfl⟩
      · obtain ⟨raw, left, holds, decoded⟩ := sound other known'
        exact ⟨raw, left, fun later => (others different known' later).trans (holds later), decoded⟩
    · refine (read_eq given).trans ?_
      rw [ScopedState.entry_erase, if_pos rfl]
      rfl
    · refine ⟨held, fun later => ?_, rfl, rfl, rfl, TaskState.Alike.refl _⟩
      refine (read_eq (nonempty other known')).trans ?_
      rw [others different known' later]
      exact (read_eq (nonempty other known')).symm.trans (read later)

end ScopedReasoningStore

/-! ## The three orchestrators -/

/-- A call, with what the ledger says at its time. -/
inductive ReasoningCall where
  | recommend (budget : BudgetSnapshot) (request : RecommendRequest)
  | reset (taskId : String)

namespace ReasoningCall

def taskId : ReasoningCall → String
  | recommend _ request => request.taskId
  | reset taskId => taskId

/-- The amounts of the call have few enough digits to be written. -/
def Writable (orchestrator : ReasoningOrchestrator) : ReasoningCall → Prop
  | recommend budget _ => (∀ tier, orchestrator.estimates.tokens tier < 10 ^ maxStrDigits) ∧
      ∀ left ∈ budget.remaining.get? orchestrator.budgetCounter, left < 10 ^ maxStrDigits
  | reset _ => True

end ReasoningCall

/-- A call and the time of the shared state at it. -/
structure ServedCall where
  call : ReasoningCall
  now : ℚ≥0

/-- An identifier of a scope, which NFKC and `strip` leave as it is. -/
def Normal (keying : Keying) (normalize : String → String) (taskId : String) : Prop :=
  normalize taskId = taskId ∧ identifier keying taskId = .ok ()

/-- What the orchestrators without a store, with a database and with the shared state keep. -/
structure Kept where
  memory : ProcessMemory := {}
  tables : ReasoningTables := {}
  shared : ScopedState Json := {}

section

variable (orchestrator : ReasoningOrchestrator) (sha256 : Bytes → Bytes) {σ ε ρ : Type}

/-- A call without a store. -/
def ProcessMemory.call (memory : ProcessMemory) :
    ReasoningCall → Except Raised (Option ReasoningRecommendation × ProcessMemory)
  | .recommend budget request =>
      (orchestrator.recommend sha256 memory budget request).map fun done => (some done.1, done.2)
  | .reset taskId => .ok (none, memory.reset taskId)

/-- A call with a store, in a process of its own. -/
def ReasoningStateStore.call (store : ReasoningStateStore σ) (kept : σ) :
    ReasoningCall → Except StoreError (Option ReasoningRecommendation × σ)
  | .recommend budget request =>
      (orchestrator.recommendPersisted sha256 store kept budget request).map
        fun done => (some done.1, done.2)
  | .reset taskId => (store.reset kept taskId).map (none, ·)

/-- What is kept after a call: a call that raises leaves it. -/
def keptAfter (kept : σ) : Except ε (ρ × σ) → σ
  | .ok (_, next) => next
  | .error _ => kept

variable (integer : SqlInteger) (keying : LetteredKeying) (scope : String → TenantScope)
  (normalize : String → String)

/-- The same call to each of the three. -/
def serve (kept : Kept) (served : ServedCall) : Kept where
  memory := keptAfter kept.memory (kept.memory.call orchestrator sha256 served.call)
  tables := keptAfter kept.tables
    ((SQLiteReasoningStore.store integer).call orchestrator sha256 kept.tables served.call)
  shared := keptAfter kept.shared ((ScopedReasoningStore.store keying.toKeying scope served.now).call
    orchestrator sha256 kept.shared served.call)

/-- The three return and raise the same, and then report the same of every task. -/
structure Agrees (kept : Kept) (served : ServedCall) : Prop where
  database : ((SQLiteReasoningStore.store integer).call orchestrator sha256 kept.tables
      served.call).map Prod.fst =
    ((kept.memory.call orchestrator sha256 served.call).map Prod.fst).mapError .raised
  shared : ((ScopedReasoningStore.store keying.toKeying scope served.now).call orchestrator sha256
      kept.shared served.call).map Prod.fst =
    ((kept.memory.call orchestrator sha256 served.call).map Prod.fst).mapError .raised
  databaseReports : ∀ budget taskId, Normal keying.toKeying normalize taskId →
    orchestrator.statePersisted (SQLiteReasoningStore.store integer)
        (serve orchestrator sha256 integer keying scope kept served).tables budget taskId =
      (orchestrator.state (serve orchestrator sha256 integer keying scope kept served).memory budget
        taskId).mapError .raised
  sharedReports : ∀ budget taskId (now : ℚ≥0), Normal keying.toKeying normalize taskId →
    orchestrator.statePersisted (ScopedReasoningStore.store keying.toKeying scope now)
        (serve orchestrator sha256 integer keying scope kept served).shared budget taskId =
      (orchestrator.state (serve orchestrator sha256 integer keying scope kept served).memory budget
        taskId).mapError .raised

/-- Both stores hold what the process remembers of a number of calls. -/
structure Together (calls : Nat) (kept : Kept) : Prop where
  database : Simulates (Normal keying.toKeying normalize)
    (fun _ => SQLiteReasoningStore.store integer) SQLiteReasoningStore.Sound kept.memory kept.tables
  shared : Simulates (Normal keying.toKeying normalize)
    (fun now => ScopedReasoningStore.store keying.toKeying scope now)
    (ScopedReasoningStore.Sound keying.toKeying scope (Normal keying.toKeying normalize)) kept.memory
    kept.shared
  bounded : Bounded calls kept.memory

end

section

variable {orchestrator : ReasoningOrchestrator} {sha256 : Bytes → Bytes} {integer : SqlInteger}
  {keying : LetteredKeying} {scope : String → TenantScope} {normalize : String → String} {kept : Kept}
  {served : ServedCall} {taskId : String} {calls : Nat}

theorem Normal.nonempty (normal : Normal keying.toKeying normalize taskId) : taskId ≠ "" :=
  fun empty => raiseIf_eq_ok.mp normal.2 (.inl empty)

theorem printable_payload {taskId : String} {remaining : Option Nat} {decision : ReasoningDecision}
    (estimates : ∀ tier, orchestrator.estimates.tokens tier < 10 ^ maxStrDigits)
    (amounts : ∀ left ∈ remaining, left < 10 ^ maxStrDigits) :
    (orchestrator.recommendation taskId remaining decision).payload.printable = true := by
  have estimate := estimates decision.tier
  have codes : printableItems (decision.reasonCodes.map .str) = true :=
    printableItems_eq_true fun item member => by
      obtain ⟨code, _, rfl⟩ := List.mem_map.mp member
      rfl
  cases remaining with
  | none =>
      simp [ReasoningOrchestrator.recommendation, ReasoningRecommendation.payload, Json.printable,
        printableFields, codes, estimate]
  | some left =>
      have amount := amounts left rfl
      have headroom : ((left : Int) - orchestrator.estimates.tokens decision.tier).natAbs <
          10 ^ maxStrDigits := by
        omega
      simp [ReasoningOrchestrator.recommendation, ReasoningRecommendation.payload, Json.printable,
        printableFields, codes, estimate, amount, headroom]

variable (sha256) in
/-- One call, with a store that is lawful. -/
theorem Simulates.call {σ : Type} {fits : Nat → Prop} {named : String → Prop}
    {store : ℚ≥0 → ReasoningStateStore σ} {sound : σ → Prop} {memory : ProcessMemory} {held : σ}
    {call : ReasoningCall} (lawful : Lawful fits named store sound)
    (simulates : Simulates named store sound memory held) (known : named call.taskId)
    (bounded : Bounded calls memory) (room : ∀ count ≤ calls + 1, fits count)
    (writable : call.Writable orchestrator) (now : ℚ≥0) :
    ((store now).call orchestrator sha256 held call).map Prod.fst =
        ((memory.call orchestrator sha256 call).map Prod.fst).mapError .raised ∧
      Simulates named store sound (keptAfter memory (memory.call orchestrator sha256 call))
        (keptAfter held ((store now).call orchestrator sha256 held call)) := by
  cases call with
  | recommend budget request =>
      rcases simulates.recommend orchestrator sha256 lawful known bounded room
        (fun decision => printable_payload writable.1 writable.2) now with failed | done
      · obtain ⟨raised, failed, failed'⟩ := failed
        rw [ReasoningStateStore.call, ProcessMemory.call, failed, failed']
        exact ⟨rfl, simulates⟩
      · obtain ⟨recommendation, after, next, done, done', simulates'⟩ := done
        rw [ReasoningStateStore.call, ProcessMemory.call, done, done']
        exact ⟨rfl, simulates'⟩
  | reset taskId =>
      have known : named taskId := known
      obtain ⟨next, done, simulates'⟩ := simulates.reset lawful known now
      rw [ReasoningStateStore.call, ProcessMemory.call, done]
      exact ⟨rfl, simulates'⟩

theorem Bounded.call {memory : ProcessMemory} {call : ReasoningCall} (bounded : Bounded calls memory) :
    Bounded (calls + 1) (keptAfter memory (memory.call orchestrator sha256 call)) := by
  have later : Bounded (calls + 1) memory :=
    ⟨fun taskId => Nat.le_succ_of_le (bounded.escalations taskId),
      fun taskId => Nat.le_succ_of_le (bounded.recommendations taskId),
      fun taskId pair count found => Nat.le_succ_of_le (bounded.attempts taskId pair count found)⟩
  cases call with
  | recommend budget request =>
      rw [ProcessMemory.call]
      cases done : orchestrator.recommend sha256 memory budget request with
      | error => exact later
      | ok result => exact bounded.recommend done
  | reset taskId => exact bounded.reset taskId

theorem together_initial : Together integer keying scope normalize 0 {} := by
  refine ⟨⟨fun _ _ found => ?_, fun taskId normal => ⟨{ taskId := taskId }, fun _ => ?_, ?_⟩⟩,
    ⟨fun _ _ => ⟨none, _, fun _ => rfl, rfl⟩, fun taskId normal => ⟨{ taskId := taskId }, fun _ => ?_, ?_⟩⟩, ?_⟩
  · cases found
  · exact SQLiteReasoningStore.read_eq normal.nonempty
  · exact ⟨rfl, rfl, rfl, TaskState.Alike.refl _⟩
  · exact ScopedReasoningStore.read_eq normal.nonempty
  · exact ⟨rfl, rfl, rfl, TaskState.Alike.refl _⟩
  · exact ⟨fun _ => Nat.le_refl 0, fun _ => Nat.le_refl 0, fun _ _ _ found => by cases found⟩

variable (sha256) in
/-- A call to the three keeps them together. -/
theorem Together.agrees
    (distinct : Set.InjOn (fun taskId => keying.scope (scope taskId))
      {taskId | Normal keying.toKeying normalize taskId})
    (together : Together integer keying scope normalize calls kept)
    (normal : Normal keying.toKeying normalize served.call.taskId)
    (writable : served.call.Writable orchestrator)
    (room : ∀ count ≤ calls + 1, integer.Fits count ∧ count < 10 ^ maxStrDigits) :
    Agrees orchestrator sha256 integer keying scope normalize kept served ∧
      Together integer keying scope normalize (calls + 1)
        (serve orchestrator sha256 integer keying scope kept served) := by
  obtain ⟨same, database⟩ := together.database.call sha256
    (SQLiteReasoningStore.lawful integer fun _ => Normal.nonempty) normal together.bounded
    (fun count small => (room count small).1) writable served.now
  obtain ⟨same', shared⟩ := together.shared.call sha256
    (ScopedReasoningStore.lawful (fun _ => Normal.nonempty) distinct) normal together.bounded
    (fun count small => (room count small).2) writable served.now
  refine ⟨⟨same, same', fun budget taskId known => ?_, fun budget taskId now known => ?_⟩,
    database, shared, together.bounded.call⟩
  · exact database.state served.now budget taskId (.inr known)
  · exact shared.state now budget taskId (.inr known)

theorem Together.along {served : List ServedCall}
    (distinct : Set.InjOn (fun taskId => keying.scope (scope taskId))
      {taskId | Normal keying.toKeying normalize taskId})
    (together : Together integer keying scope normalize calls kept)
    (normal : ∀ one ∈ served, Normal keying.toKeying normalize one.call.taskId)
    (writable : ∀ one ∈ served, one.call.Writable orchestrator)
    (room : ∀ count ≤ calls + served.length, integer.Fits count ∧ count < 10 ^ maxStrDigits) :
    Along (serve orchestrator sha256 integer keying scope)
      (Agrees orchestrator sha256 integer keying scope normalize) kept served := by
  induction served generalizing calls kept with
  | nil => trivial
  | cons one rest ih =>
      rw [List.length_cons] at room
      obtain ⟨agrees, together'⟩ := together.agrees sha256 distinct
        (normal one List.mem_cons_self) (writable one List.mem_cons_self)
        fun count small => room count (small.trans (by omega))
      refine ⟨agrees, ih together' (fun other member => normal other (List.mem_cons_of_mem _ member))
        (fun other member => writable other (List.mem_cons_of_mem _ member)) fun count small => ?_⟩
      exact room count (by omega)

end

/-- The three orchestrators agree at every call, for fewer calls than the database can count and
amounts that can be written. -/
theorem recommendations_agree (orchestrator : ReasoningOrchestrator) (sha256 : Bytes → Bytes)
    (real : Nat → Nat) (keying : LetteredKeying) (scope : String → TenantScope)
    (normalize : String → String)
    (distinct : Set.InjOn (fun taskId => keying.scope (scope taskId))
      {taskId | Normal keying.toKeying normalize taskId})
    (served : List ServedCall)
    (normal : ∀ one ∈ served, Normal keying.toKeying normalize one.call.taskId)
    (writable : ∀ one ∈ served, one.call.Writable orchestrator)
    (room : served.length < 9223372036854775808) :
    Along (serve orchestrator sha256 (.signed64 real) keying scope)
      (Agrees orchestrator sha256 (.signed64 real) keying scope normalize) {} served := by
  refine together_initial.along distinct normal writable fun count small => ?_
  have fits : count < 9223372036854775808 := by omega
  have digits : 10 ^ 19 ≤ 10 ^ maxStrDigits := Nat.pow_le_pow_right (by decide) (by decide)
  exact ⟨fits, lt_of_lt_of_le (fits.trans (by decide)) digits⟩

section Operator

/-- The tasks of one operator, whose digests are their names. -/
def operatorKeying : LetteredKeying where
  scope := TenantScope.task
  key := fun _ _ key => key
  alnum := fun _ => true
  control := fun _ => false
  letter := fun _ _ _ => ⟨rfl, rfl⟩
  dash := rfl

def operatorScope (taskId : String) : TenantScope := ⟨"local", "operator", "cli", taskId⟩

def unlimited : BudgetSnapshot := ⟨"project", ∅, ∅, ∅, ∅⟩

theorem operatorScope_distinct (tasks : Set String) :
    Set.InjOn (fun taskId => operatorKeying.scope (operatorScope taskId)) tasks :=
  fun _ _ _ _ same => same

def operatorOrchestrator : ReasoningOrchestrator where
  router := {}

theorem recommendations_agree_operator :
    Along (serve operatorOrchestrator id (.signed64 id) operatorKeying operatorScope)
      (Agrees operatorOrchestrator id (.signed64 id) operatorKeying operatorScope id) {}
      [⟨.recommend unlimited { taskId := "first" }, 0⟩,
        ⟨.recommend unlimited { taskId := "first", escalationReason := some "hard" }, 1⟩,
        ⟨.recommend unlimited { taskId := "second", risk := "cosmic" }, 2⟩, ⟨.reset "first", 3⟩] := by
  refine recommendations_agree operatorOrchestrator id id operatorKeying operatorScope id
    (operatorScope_distinct _) _ ?_ ?_ (by decide)
  · intro one member
    fin_cases member
    all_goals exact ⟨rfl, by decide⟩
  · have writable (budget : BudgetSnapshot) (request : RecommendRequest)
        (none : budget.remaining.get? "reasoning_tokens" = none) :
        (ReasoningCall.recommend budget request).Writable operatorOrchestrator := by
      refine ⟨fun tier => ?_, fun left found => ?_⟩
      · cases tier <;> decide +kernel
      · cases none.symm.trans found
    intro one member
    fin_cases member
    · exact writable _ _ rfl
    · exact writable _ _ rfl
    · exact writable _ _ rfl
    · trivial

/-- Estimates that cannot be written. -/
def vastOrchestrator : ReasoningOrchestrator where
  router := {}
  estimates := ⟨10 ^ maxStrDigits, 10 ^ maxStrDigits, 10 ^ maxStrDigits, Nat.pow_pos (by decide),
    Nat.le_refl _, Nat.le_refl _⟩

theorem not_recommendations_agree : ¬∀ (orchestrator : ReasoningOrchestrator) (sha256 : Bytes → Bytes)
    (real : Nat → Nat) (keying : LetteredKeying) (scope : String → TenantScope)
    (normalize : String → String), Set.InjOn (fun taskId => keying.scope (scope taskId))
      {taskId | Normal keying.toKeying normalize taskId} → ∀ served : List ServedCall,
    (∀ one ∈ served, Normal keying.toKeying normalize one.call.taskId) →
      Along (serve orchestrator sha256 (.signed64 real) keying scope)
        (Agrees orchestrator sha256 (.signed64 real) keying scope normalize) {} served := by
  intro claimed
  have along := claimed vastOrchestrator id id operatorKeying operatorScope id
    (operatorScope_distinct _) [⟨.recommend unlimited { taskId := "first" }, 0⟩]
    (List.forall_mem_singleton.mpr ⟨rfl, by decide⟩)
  have refused : (((SQLiteReasoningStore.store (.signed64 id)).call vastOrchestrator id {}
      (.recommend unlimited { taskId := "first" })).map Prod.fst).isOk = false := by
    decide +kernel
  have recommended : (((({} : ProcessMemory).call vastOrchestrator id
      (.recommend unlimited { taskId := "first" })).map Prod.fst).mapError StoreError.raised).isOk =
        true := by
    decide +kernel
  rw [along.1.database, recommended] at refused
  cases refused

end Operator

end CapabilityHub.Reasoning
