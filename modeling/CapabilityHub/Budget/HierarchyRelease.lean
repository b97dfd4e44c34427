import CapabilityHub.Budget.HierarchyConservation

/-! # Releasing what is reserved

Whether an active reservation can always be cancelled, and reconciled with no more than it
holds. It can while no change of limits brings a scope that an active reservation holds
above the bound on its counters, and no sum of what is used and held leaves the integers of
the columns (`releasable_of_sparingRun`). A change of limits that only keeps the bound on the
limits themselves can strand a reservation (`stranded_reservation`).
-/

namespace CapabilityHub.Budget

open HierarchicalStore Transaction

variable {integer : SqlInteger} {hmac : Bytes → String} {state : Journaled} {final : HierarchicalStore}
  {operation : Operation}

/-- What a step must not do: bring a scope that an active reservation holds above the bound on its
counters, or what is used and held at one out of the integers. -/
def Sparing (integer : SqlInteger) (store : HierarchicalStore) : Operation → Prop
  | .configure scope limits _ => ∀ changes, checkedLimits limits = .ok changes →
      (∃ reservationId row, store.reservations.get? reservationId = some row ∧ row.status = .active ∧
        Descends store.parentOf row.scopeId scope.scopeId) →
      (store.names scope.scopeId ∪ changes.keys.toFinset).card ≤ maxCounters
  | .reserve scope amounts _ => ∀ requested path, checkedAmounts amounts "amounts" = .ok requested →
      store.chain scope.opaqueRoot scope.scopeId = .ok path → ∀ node ∈ path, ∀ name ∈ requested.keys,
        integer.Fits ((store.counter node name).used + (store.counter node name).reserved +
          requested.getD name 0)
  | .finish scope reservationId actual => ∀ charged row path, checkedActual actual = .ok (some charged) →
      store.activeRow scope reservationId = .ok row →
      store.chain scope.opaqueRoot scope.scopeId = .ok path → ∀ node ∈ path, ∀ name ∈ charged.keys,
        integer.Fits ((store.counter node name).used + charged.getD name 0 +
          ((store.counter node name).reserved - row.amounts.getD name 0))
  | _ => True

/-- A run whose steps are sparing where they return. -/
inductive SparingRun (integer : SqlInteger) (hmac : Bytes → String) : Journaled → Prop
  | start : SparingRun integer hmac .empty
  | step {state : Journaled} (run : SparingRun integer hmac state) (operation : Operation)
      (sparing : ∀ final, perform integer hmac operation state.store = .ok () final →
        Sparing integer state.store operation) :
      SparingRun integer hmac (state.step integer hmac operation)

/-- The scopes that active reservations hold have few counters, and no sum is out of range. -/
structure Roomy (integer : SqlInteger) (store : HierarchicalStore) : Prop where
  few : ∀ reservationId row, store.reservations.get? reservationId = some row → row.status = .active →
    ∀ node, Descends store.parentOf row.scopeId node → (store.names node).card ≤ maxCounters
  fits : ∀ node name, integer.Fits ((store.counter node name).used + (store.counter node name).reserved)

theorem roomy_empty : Roomy integer HierarchicalStore.empty where
  few _ _ found := by cases found
  fits _ _ := integer.fits_zero

theorem Sparing.exact (sparing : Sparing integer state.store operation) :
    Journaled.Exact integer state.store operation := by
  cases operation with
  | reserve scope amounts reservationId =>
      intro requested path valid climbed node member name asked
      apply integer.fits_of_le _ _ _ (sparing requested path valid climbed node member name asked)
      omega
  | _ => trivial

namespace Roomy

variable (roomy : Roomy integer state.store)

include roomy

/-- Rows along a chain are written for one reservation. -/
theorem few_of_rewrite {reservationId : String} {row : ReservationRow} {path counters : List String}
    {f : String → Option Charge → Charge} (nodup : path.Nodup) (distinct : counters.Nodup)
    (inside : ∀ node, node ∈ path ↔ Descends state.store.parentOf row.scopeId node)
    (bounded : ∀ node ∈ path, (state.store.names node ∪ counters.toFinset).card ≤ maxCounters)
    (after : final = { state.store with reservations := state.store.reservations.set reservationId row }.rewrite
      path counters f) :
    ∀ other found, final.reservations.get? other = some found → found.status = .active →
      ∀ node, Descends final.parentOf found.scopeId node → (final.names node).card ≤ maxCounters := by
  intro other found at' active node below
  have named (name : String) : name ∈ final.names node ↔
      name ∈ state.store.names node ∨ node ∈ path ∧ name ∈ counters := by
    rw [after]
    exact mem_names_rewrite nodup distinct
  by_cases member : node ∈ path
  · refine (Finset.card_le_card fun name known => ?_).trans (bounded node member)
    rw [Finset.mem_union, List.mem_toFinset]
    exact ((named name).mp known).imp_right And.right
  · have parents : final.parentOf = state.store.parentOf := by
      rw [after]
      rfl
    have rows : final.reservations = state.store.reservations.set reservationId row := by
      rw [after]
      rfl
    rw [parents] at below
    rw [rows, Dict.get?_set] at at'
    split at at'
    next =>
      obtain rfl := Option.some.inj at'
      exact absurd ((inside node).mpr below) member
    next =>
      refine (Finset.card_le_card fun name known => ?_).trans (roomy.few other found at' active node below)
      exact ((named name).mp known).resolve_right fun both => member both.1

theorem effect (accounted : state.Accounted) (sparing : Sparing integer state.store operation)
    (effect : Effect integer state.store operation final) : Roomy integer final := by
  cases effect with
  | kept creates => exact roomy
  | @inserted _ roots scopeId row limits creates fresh placed few allocated =>
      refine ⟨fun id held found active node below => ?_, roomy.fits⟩
      change state.store.reservations.get? id = some held at found
      obtain ⟨⟨scopeRow, known, _⟩, _⟩ := accounted.formed.held id held found
      have descends : Descends state.store.parentOf held.scopeId node := by
        refine (Descends.congr_parent fun other descends => ?_).mp below
        have inside := accounted.formed.mem_of_descends descends (Dict.mem_keys_of_get? known)
        obtain ⟨otherRow, foundRow⟩ := Dict.get?_isSome_iff.mpr inside
        rw [parentOf, parentOf, scopes_inserting fresh foundRow, foundRow]
      have inside := accounted.formed.mem_of_descends descends (Dict.mem_keys_of_get? known)
      refine (Finset.card_le_card fun name member => ?_).trans (roomy.few id held found active node descends)
      refine (mem_names_limiting.mp member).resolve_right fun both => ?_
      exact Dict.get?_eq_none_iff.mp fresh (both.1 ▸ inside)
  | @configured scope raw rawExpected changes expected current valid =>
      refine ⟨fun id held found active node below => ?_, roomy.fits⟩
      change state.store.reservations.get? id = some held at found
      change Descends state.store.parentOf held.scopeId node at below
      by_cases here : node = scope.scopeId
      · subst here
        refine (Finset.card_le_card fun name member => ?_).trans
          (sparing changes valid ⟨id, held, found, active, below⟩)
        rw [Finset.mem_union, List.mem_toFinset]
        exact (mem_names_limiting.mp member).imp_right And.right
      · refine (Finset.card_le_card fun name member => ?_).trans (roomy.few id held found active node below)
        exact (mem_names_limiting.mp member).resolve_right fun both => here both.1
  | @reserved scope raw reservationId requested path valid climbed bounded capable fresh =>
      refine ⟨roomy.few_of_rewrite (chain_nodup climbed) requested.keys_nodup
        (fun node => accounted.formed.mem_chain climbed) (ensureCounterBounds_eq_ok.mp bounded) rfl, ?_⟩
      intro node name
      have exact' : ∀ node ∈ path, ∀ name ∈ requested.keys,
          integer.Fits ((state.store.counter node name).reserved + requested.getD name 0) :=
        sparing.exact requested path valid climbed
      rw [counter_holding (chain_nodup climbed) exact']
      dsimp only
      by_cases member : node ∈ path
      · rw [if_pos member, ← Nat.add_assoc]
        by_cases asked : name ∈ requested.keys
        · exact sparing requested path valid climbed node member name asked
        · rw [getD_of_notMem asked]
          exact roomy.fits node name
      · rw [if_neg member]
        exact roomy.fits node name
  | @finished scope reservationId actual charged row reserved path valid found decoded climbed bounded =>
      obtain ⟨at', _, placed, active⟩ := activeRow_eq_ok.mp found
      have amounts : row.amounts = reserved := amounts_of_decodeStored decoded
      have inside (node : String) : node ∈ path ↔ Descends state.store.parentOf row.scopeId node := by
        rw [placed]
        exact accounted.formed.mem_chain climbed
      have inside' (node : String) : node ∈ path ↔
          Descends state.store.parentOf { row with status := finishedStatus charged }.scopeId node := inside node
      refine ⟨roomy.few_of_rewrite (chain_nodup climbed) (unionKeys_nodup _ _) inside' ?_ rfl, ?_⟩
      · intro node member
        refine (Finset.card_le_card fun name known => ?_).trans
          (ensureCounterBounds_eq_ok.mp bounded node member)
        rw [Finset.mem_union, List.mem_toFinset] at known ⊢
        refine known.elim .inl fun either => (mem_unionKeys.mp either).elim (fun held => .inl ?_) .inr
        obtain ⟨value, atName⟩ := Dict.get?_isSome_iff.mpr held
        have positive := (accounted.formed.positive_amounts at' name value (amounts ▸ atName)).2
        have least := accounted.amounts_le name at' active ((inside node).mp member)
        rw [amounts, Dict.getD, atName, Option.getD_some] at least
        exact mem_names_of_pos (positive.trans_le least)
      · intro node name
        rw [counter_settling (chain_nodup climbed)]
        dsimp only
        by_cases member : node ∈ path
        · rw [if_pos member, if_pos member]
          by_cases asked : name ∈ (charged.getD ∅).keys
          · cases charged with
            | none => cases asked
            | some charge =>
                rw [← amounts]
                exact sparing charge row path valid found climbed node member name asked
          · rw [getD_of_notMem asked, Nat.add_zero]
            exact integer.fits_of_le _ _ (Nat.add_le_add_left (Nat.sub_le _ _) _) (roomy.fits node name)
        · rw [if_neg member, if_neg member]
          exact roomy.fits node name

end Roomy

theorem SparingRun.accounted_roomy (run : SparingRun integer hmac state) :
    state.Accounted ∧ Roomy integer state.store := by
  induction run with
  | start => exact ⟨Journaled.accounted_empty, roomy_empty⟩
  | @step state run operation sparing ih =>
      obtain ⟨accounted, roomy⟩ := ih
      rw [Journaled.step]
      cases done : perform integer hmac operation state.store with
      | ok value final =>
          have effect := effect_of_perform done
          have spared := sparing final done
          exact ⟨accounted.effect effect spared.exact, roomy.effect accounted spared effect⟩
      | error error final =>
          rw [perform_atomic operation state.store error final done]
          exact ⟨accounted, roomy⟩

/-- **Every active reservation can be released.** -/
structure Releasable (integer : SqlInteger) (store : HierarchicalStore) : Prop where
  /-- A cancel returns, and takes exactly the amounts of the reservation from what every ancestor holds. -/
  cancels : ∀ scope reservationId row, store.activeRow scope reservationId = .ok row → ∃ final,
    finishReservation integer scope reservationId none store = .ok () final ∧
    final.reservations.get? reservationId = some { row with status := .cancelled } ∧
    ∀ node name, (final.counter node name).used = (store.counter node name).used ∧
      (Descends store.parentOf row.scopeId node →
        (final.counter node name).reserved + row.amounts.getD name 0 = (store.counter node name).reserved) ∧
      (¬Descends store.parentOf row.scopeId node →
        (final.counter node name).reserved = (store.counter node name).reserved)
  /-- A reconcile with no more than is reserved returns. -/
  reconciles : ∀ scope reservationId row raw actual, store.activeRow scope reservationId = .ok row →
    checkedAmounts raw "actual" = .ok actual → (∀ name, actual.getD name 0 ≤ row.amounts.getD name 0) →
    ∃ final, finishReservation integer scope reservationId (some raw) store = .ok () final

theorem releasable_of_roomy (accounted : state.Accounted) (roomy : Roomy integer state.store) :
    Releasable integer state.store where
  cancels scope reservationId row found := by
    obtain ⟨at', _, placed, active⟩ := activeRow_eq_ok.mp found
    have few := roomy.few reservationId row at' active
    have fits (node : String) (_ : Descends state.store.parentOf row.scopeId node) := roomy.fits node
    have cancelled : checkedActual none = .ok none := rfl
    obtain ⟨path, climbed, done⟩ := accounted.exists_finish found cancelled (fun _ => Nat.zero_le _) few fits
    refine ⟨_, done, Dict.get?_set_self, fun node name => ?_⟩
    have inside : node ∈ path ↔ Descends state.store.parentOf row.scopeId node := by
      rw [placed]
      exact accounted.formed.mem_chain climbed
    have nothing : ((none : Option Amounts).getD ∅).getD name 0 = 0 := rfl
    rw [counter_settling (chain_nodup climbed), nothing, ite_self, ← inside]
    refine ⟨rfl, fun member => ?_, fun outside => ?_⟩
    · have held := accounted.amounts_le name at' active (inside.mp member)
      rw [if_pos member]
      exact Nat.sub_add_cancel held
    · rw [if_neg outside]
      rfl
  reconciles scope reservationId row raw actual found checked within' := by
    obtain ⟨at', _, placed, active⟩ := activeRow_eq_ok.mp found
    have few := roomy.few reservationId row at' active
    have fits (node : String) (_ : Descends state.store.parentOf row.scopeId node) := roomy.fits node
    have valid : checkedActual (some raw) = .ok (some actual) := by
      rw [checkedActual, checked]
      rfl
    obtain ⟨path, climbed, done⟩ := accounted.exists_finish found valid within' few fits
    exact ⟨_, done⟩

/-- **Reservations are released** in every state of a run whose steps are sparing. -/
theorem releasable_of_sparingRun (integer : SqlInteger) (hmac : Bytes → String) (state : Journaled)
    (run : SparingRun integer hmac state) : Releasable integer state.store :=
  releasable_of_roomy run.accounted_roomy.1 run.accounted_roomy.2

/-- The reservation of a spend that is halfway. -/
theorem releasable_halfway : Releasable .unbounded halfway.store :=
  releasable_of_sparingRun .unbounded constantDigest halfway
    (.step (.step .start (.root "t" [(.str "c", .int 5)]) fun _ _ => trivial)
      (.reserve oneCall.scope oneCall.amounts oneCall.reservationId) fun _ _ _ _ _ _ _ _ _ _ => trivial)

/-! ## A reservation that is stranded -/

def twoDigits : List String :=
  let digits := "0123456789".toList
  digits.flatMap fun ten => digits.map fun one => String.ofList [ten, one]

def hundredLimits : RawAmounts := twoDigits.map fun name => (.str name, .int 9)

/-- A hundred limits, and a counter besides that a reservation holds. -/
def crowded : HierarchicalStore := runFrom (.signed64 id) constantDigest .empty
  [.root "t" [(.str "00", .int 9)], .reserve tenant [(.str "x", .int 1)] "i",
    .configure tenant hundredLimits [(.str "00", .int 9)]]

/-- The reservation is active, and can be cancelled no more. -/
theorem stranded_reservation :
    ((crowded.activeRow tenant "i").map ReservationRow.status).toOption = some .active ∧
      outcome (perform (.signed64 id) constantDigest (.cancel tenant "i")) crowded = .error counterLimit := by
  decide +kernel

end CapabilityHub.Budget
