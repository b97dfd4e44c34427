import CapabilityHub.Budget.HierarchyConservation

/-! # Every scope can be read

In each store that is reached, the chain of a scope is the line of its ancestors and its snapshot is
read.
-/

namespace CapabilityHub.Budget

open HierarchicalStore Transaction

namespace HierarchicalStore

variable {integer : SqlInteger} {hmac : Bytes → String} {store final : HierarchicalStore}
  {operation : Operation} {scopeId name : String} {limits amounts : Amounts}

/-- No scope has more limits or more counters than are read. -/
structure Bounded (store : HierarchicalStore) : Prop where
  limits : ∀ scopeId, (store.limits.row scopeId).size ≤ maxCounters
  counters : ∀ scopeId, (store.counters.row scopeId).size ≤ maxCounters

theorem size_le_of_keys {ν : Type} {row : Dict String ν} {names : Finset String} (few : names.card ≤ maxCounters)
    (inside : ∀ name ∈ row.keys, name ∈ names) : row.size ≤ maxCounters := by
  rw [← Dict.length_keys, ← List.toFinset_card_of_nodup (Dict.keys_nodup _)]
  exact (Finset.card_le_card fun name member => inside name (List.mem_toFinset.mp member)).trans few

/-- Counters are written where the new ones fit beside the old ones. -/
theorem Bounded.rewrite (bounded : Bounded store) {path names : List String} {f : String → Option Charge → Charge}
    (acyclic : path.Nodup) (distinct : names.Nodup) (few : ∀ node ∈ path, ∃ more : Finset String,
      (store.names node ∪ more).card ≤ maxCounters ∧ ∀ name ∈ names, name ∈ store.names node ∪ more) :
    Bounded (store.rewrite path names f) where
  limits := bounded.limits
  counters node := by
    by_cases member : node ∈ path
    · obtain ⟨more, enough, inside⟩ := few node member
      apply size_le_of_keys enough
      intro name known
      obtain ⟨charge, found⟩ := Dict.get?_isSome_iff.mpr known
      rw [Dict.get?_row, get?_rewrite acyclic distinct] at found
      split at found
      next both => exact inside name both.2
      next => exact Finset.mem_union_left _ (mem_names.mpr (.inr ⟨charge, found⟩))
    · have few : ((store.counters.row node).keys.toFinset).card ≤ maxCounters := by
        rw [List.toFinset_card_of_nodup (Dict.keys_nodup _), Dict.length_keys]
        exact bounded.counters node
      apply size_le_of_keys few
      intro name known
      obtain ⟨charge, found⟩ := Dict.get?_isSome_iff.mpr known
      rw [Dict.get?_row, get?_rewrite acyclic distinct, if_neg fun both => member both.1] at found
      rw [List.mem_toFinset, ← Dict.get?_isSome_iff]
      exact ⟨charge, by rw [Dict.get?_row, found]⟩

/-- Limits are written where they fit with the old ones. -/
theorem Bounded.limiting (bounded : Bounded store) {whole : Dict String Nat} (few : whole.size ≤ maxCounters)
    (inside : ∀ name limit, (limits.get? name).or (store.limits.get? (scopeId, name)) = some limit →
      name ∈ whole.keys) : Bounded (store.limiting scopeId limits) where
  limits node := by
    by_cases same : node = scopeId
    · have card : whole.keys.toFinset.card ≤ maxCounters := by
        rw [List.toFinset_card_of_nodup (Dict.keys_nodup _), Dict.length_keys]
        exact few
      apply size_le_of_keys card
      intro name known
      obtain ⟨limit, found⟩ := Dict.get?_isSome_iff.mpr known
      rw [Dict.get?_row, get?_limiting, if_pos same, same] at found
      exact List.mem_toFinset.mpr (inside name limit found)
    · have card : ((store.limits.row node).keys.toFinset).card ≤ maxCounters := by
        rw [List.toFinset_card_of_nodup (Dict.keys_nodup _), Dict.length_keys]
        exact bounded.limits node
      apply size_le_of_keys card
      intro name known
      obtain ⟨limit, found⟩ := Dict.get?_isSome_iff.mpr known
      rw [Dict.get?_row, get?_limiting, if_neg same] at found
      rw [List.mem_toFinset, ← Dict.get?_isSome_iff]
      exact ⟨limit, by rw [Dict.get?_row, found]⟩
  counters := bounded.counters

theorem bounded_empty : Bounded empty where
  limits _ := Nat.zero_le _
  counters _ := Nat.zero_le _

theorem Bounded.effect (bounded : Bounded store) (formed : Formed store)
    (effect : Effect integer store operation final) : Bounded final := by
  cases effect with
  | kept => exact bounded
  | @inserted _ roots scopeId row limits creates fresh placed few =>
      refine Bounded.limiting ?_ few fun name limit found => ?_
      · exact ⟨bounded.limits, bounded.counters⟩
      change (limits.get? name).or (store.limits.get? (_, name)) = some limit at found
      rw [formed.limits_of_unknown fresh, Option.or_none] at found
      exact Dict.mem_keys_of_get? found
  | @configured scope raw rawExpected changes expected current valid expects known read same few =>
      refine bounded.limiting few fun name limit found => ?_
      rw [← get?_readLimits read, ← Dict.get?_merge] at found
      exact Dict.mem_keys_of_get? found
  | @reserved scope raw reservationId requested path valid climbed within' capable fresh =>
      refine Bounded.rewrite ?_ (chain_nodup climbed) requested.keys_nodup fun node member =>
        ⟨requested.keys.toFinset, ensureCounterBounds_eq_ok.mp within' node member, fun name asked => ?_⟩
      · exact ⟨bounded.limits, bounded.counters⟩
      exact Finset.mem_union_right _ (List.mem_toFinset.mpr asked)
  | @finished scope reservationId actual charged row reserved path valid active decoded climbed within' capable
      admitted =>
      obtain ⟨found, _⟩ := activeRow_eq_ok.mp active
      have positive := formed.positive_amounts found
      rw [amounts_of_decodeStored decoded] at positive
      refine Bounded.rewrite ?_ (chain_nodup climbed) (unionKeys_nodup _ _) fun node member =>
        ⟨(charged.getD ∅).keys.toFinset, ensureCounterBounds_eq_ok.mp within' node member, fun name asked => ?_⟩
      · exact ⟨bounded.limits, bounded.counters⟩
      rcases mem_unionKeys.mp asked with before | after
      · -- What the reservation holds was counted at the scope when it was made.
        have enough : reserved.getD name 0 ≤ (store.counter node name).reserved := (admitted node member name asked).1
        have some' : 0 < reserved.getD name 0 := by
          obtain ⟨amount, at'⟩ := Dict.get?_isSome_iff.mpr before
          rw [Dict.getD, at']
          exact (positive name amount at').2
        exact Finset.mem_union_left _ (mem_names_of_pos (some'.trans_le enough))
      · exact Finset.mem_union_right _ (List.mem_toFinset.mpr after)

theorem bounded_stateAfter (bounded : Bounded store) (formed : Formed store) (operation : Operation) :
    Bounded (stateAfter (perform integer hmac operation) store) := by
  rcases effect_or_eq integer hmac store operation with effect | same
  · exact bounded.effect formed effect
  · rw [same]
    exact bounded

theorem bounded_runFrom (operations : List Operation) (bounded : Bounded store) (formed : Formed store) :
    Bounded (runFrom integer hmac store operations) := by
  induction operations generalizing store with
  | nil => exact bounded
  | cons operation rest ih =>
      exact ih (bounded_stateAfter bounded formed operation) (formed_stateAfter formed operation)

/-- The line of a scope is one longer than its depth. -/
theorem Formed.length_of_lineage (formed : Formed store) {path : List String}
    (line : Lineage store.parentOf scopeId path) {row : ScopeRow}
    (found : store.scopes.get? scopeId = some row) : path.length = row.depth + 1 := by
  induction line generalizing row with
  | top highest =>
      rw [parentOf, found, Option.bind_some] at highest
      rw [(formed.top found highest).2]
      rfl
  | step up _ ih =>
      rw [parentOf, found, Option.bind_some] at up
      obtain ⟨upper, foundUpper, _, deep, _⟩ := formed.above found up
      rw [List.length_append, ih foundUpper, deep]
      rfl

/-- The snapshot of a scope is read. -/
theorem Bounded.exists_snapshot (bounded : Bounded store) (scopeId : String) :
    ∃ limits, store.readLimits scopeId = .ok limits ∧
      store.snapshot scopeId = .ok (snapshotOf scopeId limits
        (limits.keys ++ (store.counters.row scopeId).keys) (store.counter scopeId)) := by
  have read := readLimits_eq_ok.mpr ⟨bounded.limits scopeId, rfl⟩
  refine ⟨_, read, CapabilityHub.bind_eq_ok.mpr ⟨_, read, CapabilityHub.bind_eq_ok.mpr ⟨(), ?_, rfl⟩⟩⟩
  exact raiseIf_eq_ok.mpr (Nat.not_lt.mpr (bounded.counters scopeId))

/-- **The scopes of a store form a forest that can be read.** After any run the chain of every scope is
found: it is the line of its ancestors from the root down, as long as its row says and at most 65 scopes.
Its snapshot is read too, so no number of limits or counters is ever taken for a corrupt database. -/
theorem readable_runFrom (integer : SqlInteger) (hmac : Bytes → String) (operations : List Operation)
    {row : ScopeRow} (found : (runFrom integer hmac .empty operations).scopes.get? scopeId = some row) :
    (∃ path, (runFrom integer hmac .empty operations).chain row.rootId scopeId = .ok path ∧
      Lineage (runFrom integer hmac .empty operations).parentOf scopeId path ∧
      path.head? = some row.rootId ∧ path.length = row.depth + 1 ∧ row.depth ≤ maxDepth) ∧
    ∃ shown, (runFrom integer hmac .empty operations).snapshot scopeId = .ok shown := by
  have formed : Formed (runFrom integer hmac .empty operations) := formed_runFrom operations formed_empty
  have bounded : Bounded (runFrom integer hmac .empty operations) :=
    bounded_runFrom operations bounded_empty formed_empty
  obtain ⟨path, climbed, _⟩ := formed.exists_chain found
  have first : path.head? = some row.rootId := by
    obtain ⟨_, _, checked⟩ := CapabilityHub.bind_eq_ok.mp climbed
    obtain ⟨_, raised, ended⟩ := CapabilityHub.bind_eq_ok.mp checked
    obtain rfl := CapabilityHub.pure_eq_ok.mp ended
    exact not_not.mp (raiseIf_eq_ok.mp raised)
  obtain ⟨limits, _, shows⟩ := bounded.exists_snapshot scopeId
  exact ⟨⟨path, climbed, lineage_of_chain climbed, first,
    formed.length_of_lineage (lineage_of_chain climbed) found, formed.depth_le found⟩, _, shows⟩

theorem readable_root :
    ∃ shown, (runFrom .unbounded constantDigest .empty [.root "t" [(.str "c", .int 5)]]).snapshot "r" = .ok shown := by
  have found : (runFrom .unbounded constantDigest .empty [.root "t" [(.str "c", .int 5)]]).scopes.get? "r" =
      some ⟨"r", none, 0⟩ := by decide +kernel
  exact (readable_runFrom .unbounded constantDigest [.root "t" [(.str "c", .int 5)]] found).2

end HierarchicalStore

end CapabilityHub.Budget
