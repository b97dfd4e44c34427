import CapabilityHub.Budget.Contract
import CapabilityHub.Database.Ensures
import CapabilityHub.Service.Approvals

/-! # What an execution is charged

The body of `execute` and its handlers, with the reservation as the local variable that they pass on.
What the admission, the provider, the idempotency record and the audit sink answer is an argument, and
other calls may use the ledger at any point in between. An execution leaves no reservation of its own
active, and the charge is that of what happened (`CapabilityHub.Service.execution_settled`).
-/

namespace CapabilityHub.Service

open Budget
open Transaction hiding bind_eq_ok pure_eq_ok

/-- What the steps inside an execution answer. -/
structure ExecutionSteps where
  executionAt : ℚ
  approvalAt : ℚ
  /-- `_admit_idempotency`: the result to replay, if there is one. -/
  admission : Except Raised (Option ExecutionResult)
  replayAudited : Except Raised Unit
  answer : Except Raised ExecutionResult
  completed : Except Raised Unit
  marked : Except Raised Unit
  failureAudited : Except Raised Unit
  audited : Except Raised Unit

structure Frame (σ : Type) where
  ledger : σ
  /-- The local variable `reservation`. -/
  reservation : Option String := none
  /-- What `budget.reserve` has given to this call. -/
  created : Option String := none

/-- What other calls do to a ledger while a call holds a reservation. -/
structure Interference {σ ε : Type} (contract : LedgerContract σ ε) where
  step : Nat → Option String → σ → σ
  keeps : ∀ moment id state,
    contract.reservation (step moment (some id) state) id = contract.reservation state id

/-- What `execute` is left with inside its `try`. -/
inductive Finished where
  | replayed (result : ExecutionResult)
  | executed (result : ExecutionResult)

/-- The amounts of one execution with its tokens. -/
def bill (tokens : Int) : RawAmounts :=
  [(.str "executions", .int 1), (.str "portable_tokens", .int tokens)]

def providerUnhandledError : Raised :=
  .hub { code := "provider_unhandled_error", category := .provider,
         safeMessage := "The provider failed without a safe structured error." }

section

variable {σ ε : Type} (contract : LedgerContract σ ε) (raised : ε → Raised)
  (others : Interference contract)

/-- A statement on the ledger, whose errors are raised as they are seen outside. -/
def onLedger {α : Type} (work : Transaction σ ε α) : Transaction (Frame σ) Raised α := fun frame =>
  match work frame.ledger with
  | .ok value ledger => .ok value { frame with ledger := ledger }
  | .error error ledger => .error (raised error) { frame with ledger := ledger }

/-- Other calls come in between. -/
def meanwhile (moment : Nat) : Transaction (Frame σ) Raised Unit :=
  Transaction.write fun frame => { frame with ledger := others.step moment frame.created frame.ledger }

/-- `reservation = budget.reserve(...)`. -/
def reserveBudget (limit : Int) : Transaction (Frame σ) Raised Unit := do
  let id ← onLedger raised (contract.reserve (bill limit))
  Transaction.write fun frame => { frame with reservation := some id, created := some id }

/-- The reservation is settled, and the variable is `None` after that. -/
def settle (operation : String → Transaction σ ε Unit) : Transaction (Frame σ) Raised Unit :=
  fun frame =>
    match frame.reservation with
    | none => .ok () frame
    | some id => bind (onLedger raised (operation id))
        (fun _ => Transaction.write fun frame => { frame with reservation := none }) frame

/-- `if reservation is not None and reservation.active: reservation.reconcile({"executions": 1})`. -/
def chargeFailure : Transaction (Frame σ) Raised Unit := fun frame =>
  match frame.reservation with
  | none => .ok () frame
  | some id =>
      if contract.active frame.ledger id then
        onLedger raised (contract.reconcile id [(.str "executions", .int 1)]) frame
      else .ok () frame

variable (validates : List (String × Json) → Json → Bool) (checked : Checked)
  (request : ExecutionRequest) (steps : ExecutionSteps)

/-- What is left of the answer of the provider after its checks. -/
def delivered : Except Raised ExecutionResult := do
  let answered ← steps.answer
  let result ← normalizeResult answered checked.manifest request
  validateProviderOutput validates checked.operation result.output
  pure result

/-- The part of `execute` that asks the provider. -/
def provide : Transaction (Frame σ) Raised ExecutionResult := do
  meanwhile contract others 2
  let result ← query fun _ => delivered validates checked request steps
  if checked.limit < result.portableTokens then do
    settle raised fun id => contract.reconcile id (bill checked.limit)
    query fun _ => .error (budgetError "provider_output_budget_exceeded"
      "Provider output exceeded the hard output budget."
      [("max_output_tokens", .number checked.limit)])
  else do
    settle raised fun id => contract.reconcile id (bill result.portableTokens)
    meanwhile contract others 3
    query fun _ => steps.completed
    pure result

/-- The `try` of `execute` after its checks. -/
def admitted : Transaction (Frame σ) Raised Finished := do
  meanwhile contract others 0
  reserveBudget contract raised checked.limit
  meanwhile contract others 1
  match steps.admission with
  | .error error => do
      settle raised contract.cancel
      query fun _ => .error error
  | .ok (some result) => do
      settle raised contract.cancel
      query fun _ => steps.replayAudited
      pure (.replayed result)
  | .ok none => do
      let result ← provide contract raised others validates checked request steps
      pure (.executed result)

/-- The two `except` of `execute`. -/
def handleFailure (error : Raised) : Transaction (Frame σ) Raised Finished := do
  chargeFailure contract raised
  meanwhile contract others 4
  query fun _ => steps.marked
  query fun _ => steps.failureAudited
  query fun _ => .error (match error with
    | .hub error => .hub error
    | _ => providerUnhandledError)

-- SHA-256 and the MAC of the reference signer
variable (sha256 mac : Bytes → Bytes)

/-- The checks of `execute`, up to the reservation. -/
def checks (service : CapabilityHubService) (grants : Dict (Nat × String) ExecutionGrant)
    (context : ServiceContext) (maxOutputTokens : Option Int) : Except Raised Checked :=
  checkExecution sha256 mac validates service grants request context maxOutputTokens
    steps.executionAt steps.approvalAt (.ok ())

/-- `execute`. -/
def execute (service : CapabilityHubService) (grants : Dict (Nat × String) ExecutionGrant)
    (context : ServiceContext) (maxOutputTokens : Option Int) :
    Transaction (Frame σ) Raised ExecutionResult := do
  let finished ← recover
    (do
      let checked ← query fun _ =>
        checks validates request steps sha256 mac service grants context maxOutputTokens
      admitted contract raised others validates checked request steps)
    (handleFailure contract raised others steps)
  match finished with
  | .replayed result => pure result
  | .executed result => do
      query fun _ => steps.audited
      pure result

/-- The executions and the tokens that an execution owes which has a reservation. -/
def netCharge : Nat × Nat :=
  match steps.admission, delivered validates checked request steps with
  | .ok none, .ok result =>
      let measured := (measureText (canonicalJson result.output)).portableTokens
      if checked.limit < measured then (1, checked.limit.toNat) else (1, measured)
  | .ok none, .error _ => (1, 0)
  | _, _ => (0, 0)

end

/-- The charge of so many executions and tokens. -/
def chargeOf (owed : Nat × Nat) (counter : String) : Nat :=
  if counter = "executions" then owed.1 else if counter = "portable_tokens" then owed.2 else 0

/-- The charge of one execution, to which tokens may be added. -/
def oneExecution : Amounts := (∅ : Amounts).set "executions" 1

theorem getD_oneExecution (counter : String) :
    oneExecution.getD counter 0 = chargeOf (1, 0) counter := by
  rw [oneExecution, Dict.getD_set, chargeOf]
  by_cases same : counter = "executions"
  · rw [if_pos same, if_pos same]
  · rw [if_neg same, if_neg same, ite_self]
    rfl

theorem validate_executions {label : String} :
    validateAmounts [(.str "executions", .int 1)] label true = .ok oneExecution := rfl

theorem validate_bill {tokens : Int} (natural : 0 ≤ tokens) {label : String} :
    ∃ charge, validateAmounts (bill tokens) label true = .ok charge ∧
      ∀ counter, charge.getD counter 0 = chargeOf (1, tokens.toNat) counter := by
  have item : validateItem label (.str "portable_tokens", .int tokens) =
      .ok ("portable_tokens", tokens.toNat) := by
    refine validateItem_eq_ok.mpr ⟨?_, by decide⟩
    rw [Int.toNat_of_nonneg natural]
  by_cases none : tokens.toNat = 0
  · refine ⟨oneExecution, bind_eq_ok.mpr ⟨oneExecution, rfl, bind_eq_ok.mpr ⟨oneExecution, ?_, rfl⟩⟩,
      fun counter => none ▸ getD_oneExecution counter⟩
    exact bind_eq_ok.mpr ⟨_, item, pure_eq_ok.mpr (by simp [none])⟩
  · refine ⟨oneExecution.set "portable_tokens" tokens.toNat,
      bind_eq_ok.mpr ⟨oneExecution, rfl, bind_eq_ok.mpr ⟨_, ?_, rfl⟩⟩, fun counter => ?_⟩
    · exact bind_eq_ok.mpr ⟨_, item, pure_eq_ok.mpr (by simp [none])⟩
    · rw [Dict.getD_set, getD_oneExecution, chargeOf, chargeOf]
      by_cases tokens : counter = "portable_tokens"
      · rw [if_pos tokens, if_neg (by rw [tokens]; decide), if_pos tokens]
      · simp [tokens]

theorem covers_bill {amounts charge : Amounts} {limit tokens : Nat}
    (held : ∀ counter, amounts.getD counter 0 = chargeOf (1, limit) counter)
    (charged : ∀ counter, charge.getD counter 0 = chargeOf (1, tokens) counter)
    (fits : tokens ≤ limit) : Covers amounts charge := by
  intro counter
  rw [held, charged, chargeOf, chargeOf]
  split
  · exact Nat.le_refl 1
  · split
    · exact fits
    · exact Nat.le_refl 0

/-! ## The reservation of a call -/

section

variable {σ ε : Type} {contract : LedgerContract σ ε} {raised : ε → Raised}
  {others : Interference contract} {validates : List (String × Json) → Json → Bool}
  {checked : Checked} {request : ExecutionRequest} {steps : ExecutionSteps} {frame : Frame σ}
  {id : String} {amounts : Amounts} {owed : Nat × Nat}

/-- The reservation of the call is still active. -/
structure Frame.Holds (contract : LedgerContract σ ε) (frame : Frame σ) (id : String)
    (amounts : Amounts) : Prop where
  reservation : frame.reservation = some id
  created : frame.created = some id
  active : contract.reservation frame.ledger id = some (.active amounts)

/-- The reservation of the call is settled. -/
structure Frame.Paid (contract : LedgerContract σ ε) (frame : Frame σ) (id : String)
    (owed : Nat × Nat) : Prop where
  created : frame.created = some id
  charged : contract.Charged frame.ledger id (chargeOf owed)

/-- The reservation of the call is settled and forgotten. -/
structure Frame.Closed (contract : LedgerContract σ ε) (frame : Frame σ) (id : String)
    (owed : Nat × Nat) : Prop extends frame.Paid contract id owed where
  reservation : frame.reservation = none

theorem ensures_meanwhile_holds {moment : Nat} {post : Except Raised Unit → Frame σ → Prop}
    (holds : frame.Holds contract id amounts)
    (next : ∀ later, later.Holds contract id amounts → post (.ok ()) later) :
    Ensures (meanwhile contract others moment) frame post := by
  refine ensures_write (next _ ⟨holds.reservation, holds.created, ?_⟩)
  change contract.reservation (others.step moment frame.created frame.ledger) id = _
  rw [holds.created, others.keeps]
  exact holds.active

theorem ensures_meanwhile_paid {moment : Nat} {post : Except Raised Unit → Frame σ → Prop}
    (paid : frame.Paid contract id owed)
    (next : ∀ later, later.Paid contract id owed → later.reservation = frame.reservation →
      post (.ok ()) later) :
    Ensures (meanwhile contract others moment) frame post := by
  obtain ⟨amounts, settled, charge⟩ := paid.charged
  refine ensures_write (next _ ⟨paid.created, amounts, ?_, charge⟩ rfl)
  change contract.reservation (others.step moment frame.created frame.ledger) id = _
  rw [paid.created, others.keeps]
  exact settled

/-- An operation that settles the active reservation. -/
theorem ensures_settle {operation : String → Transaction σ ε Unit} {charge : Amounts}
    {post : Except Raised Unit → Frame σ → Prop} (holds : frame.Holds contract id amounts)
    (settles : ∃ final, operation id frame.ledger = .ok () final ∧
      contract.reservation final id = some (.settled charge))
    (owes : ∀ counter, charge.getD counter 0 = chargeOf owed counter)
    (next : ∀ later, later.Closed contract id owed → post (.ok ()) later) :
    Ensures (settle raised operation) frame post := by
  obtain ⟨final, done, settled⟩ := settles
  have written : settle raised operation frame =
      .ok () { frame with ledger := final, reservation := none } := by
    rw [settle, holds.reservation]
    refine Transaction.bind_eq_ok.mpr ⟨(), { frame with ledger := final }, ?_, rfl⟩
    rw [onLedger, done]
  exact ensures_of_ok written (next _ ⟨⟨holds.created, charge, settled, owes⟩, rfl⟩)

theorem ensures_reconcile_bill {limit tokens : Int} {post : Except Raised Unit → Frame σ → Prop}
    (holds : frame.Holds contract id amounts)
    (held : ∀ counter, amounts.getD counter 0 = chargeOf (1, limit.toNat) counter)
    (natural : 0 ≤ tokens) (fits : tokens ≤ limit)
    (next : ∀ later, later.Closed contract id (1, tokens.toNat) → post (.ok ()) later) :
    Ensures (settle raised fun id => contract.reconcile id (bill tokens)) frame post := by
  obtain ⟨charge, valid, charged⟩ := @validate_bill tokens natural "actual"
  exact ensures_settle holds (contract.reconciled holds.active valid
    (covers_bill held charged (Int.toNat_le_toNat fits))) charged next

theorem ensures_cancel {post : Except Raised Unit → Frame σ → Prop}
    (holds : frame.Holds contract id amounts)
    (next : ∀ later, later.Closed contract id (0, 0) → post (.ok ()) later) :
    Ensures (settle raised contract.cancel) frame post := by
  refine ensures_settle holds (contract.cancelled holds.active) (fun counter => ?_) next
  rw [chargeOf, ite_self, ite_self]
  rfl

/-! ## The steps of an execution -/

theorem tokens_of_delivered {result : ExecutionResult}
    (done : delivered validates checked request steps = .ok result) :
    result.portableTokens = (measureText (canonicalJson result.output)).portableTokens := by
  obtain ⟨answered, -, done⟩ := bind_eq_ok.mp done
  obtain ⟨normalized, normal, done⟩ := bind_eq_ok.mp done
  obtain ⟨-, -, done⟩ := bind_eq_ok.mp done
  obtain ⟨-, -, normal⟩ := bind_eq_ok.mp normal
  cases normal
  cases done
  rfl

/-- What the `try` of an execution leaves to its handlers. -/
def Leaves (contract : LedgerContract σ ε) (owed : Nat × Nat) (frame : Frame σ) : Prop :=
  frame.reservation = none ∧ (frame.created = none ∨ ∃ id, frame.Paid contract id owed) ∨
    ∃ id amounts, frame.Holds contract id amounts ∧ Covers amounts oneExecution ∧ owed = (1, 0)

theorem Frame.Closed.leaves (closed : frame.Closed contract id owed) : Leaves contract owed frame :=
  .inl ⟨closed.reservation, .inr ⟨id, closed.toPaid⟩⟩

/-- How the `try` of an execution can end. -/
def Ends (contract : LedgerContract σ ε) (validates : List (String × Json) → Json → Bool)
    (checked : Checked) (request : ExecutionRequest) (steps : ExecutionSteps) :
    Except Raised Finished → Frame σ → Prop
  | .error _, frame => Leaves contract (netCharge validates checked request steps) frame
  | .ok (.replayed value), frame => steps.admission = .ok (some value) ∧
      ∃ id, frame.Closed contract id (0, 0) ∧ netCharge validates checked request steps = (0, 0)
  | .ok (.executed value), frame => steps.admission = .ok none ∧
      ∃ id, frame.Closed contract id (1, (measureText (canonicalJson value.output)).portableTokens) ∧
        netCharge validates checked request steps =
          (1, (measureText (canonicalJson value.output)).portableTokens)

theorem ensures_provide (holds : frame.Holds contract id amounts)
    (held : ∀ counter, amounts.getD counter 0 = chargeOf (1, checked.limit.toNat) counter)
    (limited : 0 ≤ checked.limit) (admission : steps.admission = .ok none) :
    Ensures (provide contract raised others validates checked request steps) frame
      fun result later => Ends contract validates checked request steps (result.map .executed) later := by
  refine Ensures.bind (ensures_meanwhile_holds holds fun frame holds => ?_)
  refine Ensures.bind (ensures_query ?_)
  cases done : delivered validates checked request steps with
  | error error =>
      have none : 0 ≤ checked.limit.toNat := Nat.zero_le _
      refine .inr ⟨id, amounts, holds, ?_, ?_⟩
      · exact covers_bill held getD_oneExecution none
      · rw [netCharge, admission, done]
  | ok result =>
      have measured := tokens_of_delivered done
      have owed : netCharge validates checked request steps =
          if checked.limit < result.portableTokens then (1, checked.limit.toNat)
          else (1, result.portableTokens.toNat) := by
        rw [netCharge, admission, done, measured]
        rfl
      have natural : 0 ≤ result.portableTokens := by
        rw [measured]
        exact Int.natCast_nonneg _
      dsimp only
      split
      next exceeds =>
        have limit : netCharge validates checked request steps = (1, checked.limit.toNat) :=
          owed.trans (if_pos exceeds)
        refine Ensures.bind (ensures_reconcile_bill holds held limited le_rfl
          fun frame closed => ensures_query ?_)
        rw [← limit] at closed
        exact closed.leaves
      next within =>
        have fits : result.portableTokens ≤ checked.limit := not_lt.mp within
        have owed' : netCharge validates checked request steps =
            (1, result.portableTokens.toNat) := owed.trans (if_neg within)
        refine Ensures.bind (ensures_reconcile_bill holds held natural fits fun frame closed => ?_)
        rw [← owed'] at closed
        refine Ensures.bind (ensures_meanwhile_paid closed.toPaid fun frame paid same => ?_)
        have closed : frame.Closed contract id _ := ⟨paid, same.trans closed.reservation⟩
        refine Ensures.bind (ensures_query ?_)
        cases steps.completed with
        | error error => exact closed.leaves
        | ok _ =>
            have exact : netCharge validates checked request steps =
                (1, (measureText (canonicalJson result.output)).portableTokens) := by
              rw [owed', measured, Int.toNat_natCast]
            exact ensures_pure ⟨admission, id, exact ▸ closed, exact⟩

theorem ensures_reserveBudget {post : Except Raised Unit → Frame σ → Prop} {limit : Int}
    (natural : 0 ≤ limit) (nothing : frame.reservation = none ∧ frame.created = none)
    (refused : ∀ error later, later.reservation = none ∧ later.created = none →
      post (.error error) later)
    (reserved : ∀ later id amounts, later.Holds contract id amounts →
      (∀ counter, amounts.getD counter 0 = chargeOf (1, limit.toNat) counter) → post (.ok ()) later) :
    Ensures (reserveBudget contract raised limit) frame post := by
  refine Ensures.bind (ensures_iff.mpr ⟨fun id later done => ?_, fun error later done => ?_⟩)
  · rw [onLedger] at done
    split at done
    next given ledger reserves =>
      cases done
      obtain ⟨-, amounts, valid, active⟩ := contract.reserved reserves
      obtain ⟨charge, valid', charged⟩ := @validate_bill limit natural "amounts"
      obtain rfl : charge = amounts := Except.ok.inj (valid'.symm.trans valid)
      exact ensures_write (reserved _ _ charge ⟨rfl, rfl, active⟩ charged)
    next => cases done
  · rw [onLedger] at done
    split at done
    next => cases done
    next =>
      cases done
      exact refused _ _ nothing

/-- The `try` of an execution settles its reservation, or leaves it to the handler. -/
theorem ensures_admitted (natural : 0 ≤ checked.limit)
    (nothing : frame.reservation = none ∧ frame.created = none) :
    Ensures (admitted contract raised others validates checked request steps) frame
      (Ends contract validates checked request steps) := by
  refine Ensures.bind (ensures_write (Ensures.bind (ensures_reserveBudget natural nothing
    (fun error later nothing => .inl ⟨nothing.1, .inl nothing.2⟩) fun frame id amounts holds held =>
      Ensures.bind (ensures_meanwhile_holds holds fun frame holds => ?_))))
  dsimp only
  have free (answered : steps.admission ≠ .ok none) :
      netCharge validates checked request steps = (0, 0) := by
    rw [netCharge]
    split
    next same _ => exact absurd same answered
    next same _ => exact absurd same answered
    next => rfl
  split
  next error admission =>
    refine Ensures.bind (ensures_cancel holds fun frame closed => ensures_query ?_)
    rw [← free (by rw [admission]; nofun)] at closed
    exact closed.leaves
  next result admission =>
    have owed : netCharge validates checked request steps = (0, 0) := free (by rw [admission]; nofun)
    refine Ensures.bind (ensures_cancel holds fun frame closed => ?_)
    refine Ensures.bind (ensures_query ?_)
    cases steps.replayAudited with
    | error error =>
        rw [← owed] at closed
        exact closed.leaves
    | ok _ => exact ensures_pure ⟨admission, id, closed, owed⟩
  next admission =>
    refine Ensures.bind ((ensures_provide holds held natural admission).mono fun result later ends => ?_)
    cases result with
    | error error => exact ends
    | ok value => exact ensures_pure ends

/-- The handlers settle what the `try` has left, and raise. -/
theorem ensures_handleFailure {error : Raised} {post : Except Raised Finished → Frame σ → Prop}
    (leaves : Leaves contract owed frame)
    (next : ∀ failure later, later.created = frame.created →
      (later.created = none ∨ ∃ id, later.Paid contract id owed) → post (.error failure) later) :
    Ensures (handleFailure contract raised others steps error) frame post := by
  have raises {later : Frame σ} (same : later.created = frame.created)
      (settled : later.created = none ∨ ∃ id, later.Paid contract id owed) :
      Ensures (do
        query fun _ => steps.marked
        query fun _ => steps.failureAudited
        query fun _ => .error (match error with
          | .hub error => .hub error
          | _ => providerUnhandledError)) later post := by
    refine Ensures.bind (ensures_query ?_)
    cases steps.marked with
    | error error => exact next error later same settled
    | ok _ =>
        refine Ensures.bind (ensures_query ?_)
        cases steps.failureAudited with
        | error error => exact next error later same settled
        | ok _ => exact ensures_query (next _ later same settled)
  refine Ensures.bind ?_
  rcases leaves with ⟨nothing, settled⟩ | ⟨id, amounts, holds, covers, rfl⟩
  · have free : chargeFailure contract raised frame = .ok () frame := by
      rw [chargeFailure, nothing]
    refine ensures_of_ok free (Ensures.bind ?_)
    rcases settled with none | ⟨id, paid⟩
    · exact ensures_write (raises rfl (.inl none))
    · exact ensures_meanwhile_paid paid fun later paid' _ =>
        raises (paid'.created.trans paid.created.symm) (.inr ⟨id, paid'⟩)
  · obtain ⟨final, done, settled⟩ := contract.reconciled holds.active validate_executions covers
    have active : contract.active frame.ledger id = true := by
      rw [LedgerContract.active, holds.active]
    have charged : chargeFailure contract raised frame =
        onLedger raised (contract.reconcile id [(.str "executions", .int 1)]) frame := by
      rw [chargeFailure, holds.reservation]
      exact if_pos active
    rw [onLedger, done] at charged
    have paid : Frame.Paid contract { frame with ledger := final } id (1, 0) :=
      ⟨holds.created, oneExecution, settled, getD_oneExecution⟩
    refine ensures_of_ok charged (Ensures.bind ?_)
    exact ensures_meanwhile_paid paid fun later paid' _ =>
      raises (paid'.created.trans holds.created.symm) (.inr ⟨id, paid'⟩)

/-! ## Executions -/

-- SHA-256 and the MAC of the reference signer
variable {sha256 mac : Bytes → Bytes}

/-- What an execution leaves of the reservations it has created. -/
structure Settled (contract : LedgerContract σ ε) (validates : List (String × Json) → Json → Bool)
    (request : ExecutionRequest) (steps : ExecutionSteps) (checks : Except Raised Checked)
    (result : Except Raised ExecutionResult) (frame : Frame σ) : Prop where
  /-- Without a reservation it raises. -/
  refused : frame.created = none → ∃ error, result = .error error
  /-- Its reservation is settled with what the execution owes. -/
  charged : ∀ id, frame.created = some id → ∃ checked, checks = .ok checked ∧
    contract.Charged frame.ledger id (chargeOf (netCharge validates checked request steps))
  /-- A result is a replayed one, which is not charged, or a new one, charged with its output. -/
  returned : ∀ value, result = .ok value → ∃ id, frame.created = some id ∧
    (steps.admission = .ok (some value) ∧ contract.Charged frame.ledger id (chargeOf (0, 0)) ∨
      steps.admission = .ok none ∧ contract.Charged frame.ledger id
        (chargeOf (1, (measureText (canonicalJson value.output)).portableTokens)))

theorem natural_of_checks {service : CapabilityHubService}
    {grants : Dict (Nat × String) ExecutionGrant} {context : ServiceContext}
    {maxOutputTokens : Option Int}
    (done : checks validates request steps sha256 mac service grants context maxOutputTokens =
      .ok checked) : 0 ≤ checked.limit := by
  simp only [checks, checkExecution, bind_eq_ok, exists_unit] at done
  obtain ⟨positive, claims, -, manifest, -, -, rest⟩ := done
  have limited := not_lt.mp (raiseIf_eq_ok.mp positive)
  split at rest
  next => cases rest
  next grant known =>
    simp only [bind_eq_ok, exists_unit] at rest
    obtain ⟨-, rest⟩ := rest
    split at rest
    next => cases rest
    next operation named =>
      simp only [bind_eq_ok, exists_unit, pure_eq_ok] at rest
      obtain ⟨-, -, -, approved, -, -, -, -, -, rfl⟩ := rest
      exact zero_le_one.trans limited

/-- Whatever the steps inside an execution answer, and whatever other calls do to the ledger in
between, it leaves no reservation of its own active, and is charged for what happened. -/
theorem execution_settled (contract : LedgerContract σ ε) (raised : ε → Raised)
    (others : Interference contract) (validates : List (String × Json) → Json → Bool)
    (sha256 mac : Bytes → Bytes) (service : CapabilityHubService)
    (grants : Dict (Nat × String) ExecutionGrant) (request : ExecutionRequest)
    (context : ServiceContext) (maxOutputTokens : Option Int) (steps : ExecutionSteps) (ledger : σ) :
    Ensures (execute contract raised others validates request steps sha256 mac service grants context
        maxOutputTokens) { ledger := ledger }
      (Settled contract validates request steps
        (checks validates request steps sha256 mac service grants context maxOutputTokens)) := by
  generalize found : checks validates request steps sha256 mac service grants context
    maxOutputTokens = given
  have raises {later : Frame σ} {failure : Raised} (settled : later.created = none ∨
      ∃ id checked, given = .ok checked ∧
        later.Paid contract id (netCharge validates checked request steps)) :
      Settled contract validates request steps given (.error failure) later := by
    refine ⟨fun _ => ⟨failure, rfl⟩, fun id created => ?_, nofun⟩
    rcases settled with nothing | ⟨id', checked, valid, paid⟩
    · exact absurd (created.symm.trans nothing) (Option.some_ne_none id)
    · obtain rfl : id' = id := Option.some.inj (paid.created.symm.trans created)
      exact ⟨checked, valid, paid.charged⟩
  refine Ensures.bind (Ensures.recover (Ensures.bind (ensures_query ?_)))
  rw [found]
  cases given with
  | error error =>
      have nothing : Leaves contract (0, 0) { ledger := ledger } := .inl ⟨rfl, .inl rfl⟩
      exact ensures_handleFailure nothing fun failure later same _ => raises (.inl same)
  | ok checked =>
      refine (ensures_admitted (natural_of_checks found) ⟨rfl, rfl⟩).mono fun result frame ends => ?_
      cases result with
      | error error =>
          exact ensures_handleFailure ends fun failure later _ settled =>
            raises (settled.imp_right fun ⟨id, paid⟩ => ⟨id, checked, rfl, paid⟩)
      | ok finished =>
          cases finished with
          | replayed value =>
              obtain ⟨admission, id, closed, owed⟩ := ends
              refine ensures_pure ⟨fun none => ?_, fun id' created => ?_, fun other same => ?_⟩
              · exact absurd (closed.created.symm.trans none) (Option.some_ne_none id)
              · obtain rfl : id = id' := Option.some.inj (closed.created.symm.trans created)
                exact ⟨checked, rfl, owed ▸ closed.charged⟩
              · obtain rfl : value = other := Except.ok.inj same
                exact ⟨id, closed.created, .inl ⟨admission, closed.charged⟩⟩
          | executed value =>
              obtain ⟨admission, id, closed, owed⟩ := ends
              refine Ensures.bind (ensures_query ?_)
              cases steps.audited with
              | error error => exact raises (.inr ⟨id, checked, rfl, owed ▸ closed.toPaid⟩)
              | ok _ =>
                  refine ensures_pure ⟨fun none => ?_, fun id' created => ?_, fun other same => ?_⟩
                  · exact absurd (closed.created.symm.trans none) (Option.some_ne_none id)
                  · obtain rfl : id = id' := Option.some.inj (closed.created.symm.trans created)
                    exact ⟨checked, rfl, owed ▸ closed.charged⟩
                  · obtain rfl : value = other := Except.ok.inj same
                    exact ⟨id, closed.created, .inr ⟨admission, closed.charged⟩⟩

end

/-- The ledger in memory of a project, which no other call uses. -/
def projectLedger : LedgerContract (Book String) BudgetError :=
  Book.contract (.root "project") (List.nodup_singleton _)

def alone : Interference projectLedger := ⟨fun _ _ book => book, fun _ _ _ => rfl⟩

/-- An admitted call whose provider answers. -/
def answered : ExecutionSteps where
  executionAt := 0
  approvalAt := 0
  admission := .ok none
  replayAudited := .ok ()
  answer := .ok ⟨writer.identity.revision, "w", .null, "h", 0, "audit"⟩
  completed := .ok ()
  marked := .ok ()
  failureAudited := .ok ()
  audited := .ok ()

def granted : Dict (Nat × String) ExecutionGrant :=
  (∅ : Dict (Nat × String) ExecutionGrant).set (writing.shared, References.referenceOf id
    (claimsFor writer "execution" actor.referenceScope writing.executionTtl))
    ⟨writer.identity.revision, [write.name]⟩

theorem execution_settled_project :
    Ensures (execute projectLedger (fun _ => .valueError) alone (fun _ _ => true)
        (requestOf id id writing writer write actor "a") answered id id writing granted actor none)
      { ledger := .empty }
      (Settled projectLedger (fun _ _ => true) (requestOf id id writing writer write actor "a") answered
        (checks (fun _ _ => true) (requestOf id id writing writer write actor "a") answered id id
          writing granted actor none)) :=
  execution_settled projectLedger (fun _ => .valueError) alone (fun _ _ => true) id id writing granted
    (requestOf id id writing writer write actor "a") actor none answered .empty

end CapabilityHub.Service
