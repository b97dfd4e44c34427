import CapabilityHub.Data.Order
import CapabilityHub.Errors
import CapabilityHub.Metering
import CapabilityHub.Models
import CapabilityHub.References

/-! # The tier of a task

`ReasoningRouter`. An argument that is a member of an enumeration or its text is the text. The
configuration and the states of the tasks stand apart, and a call gives its decision and the next
states, or raises before it changes one.
-/

namespace CapabilityHub.Reasoning

inductive ReasoningTier where
  | low
  | medium
  | high
  deriving DecidableEq

namespace ReasoningTier

def value : ReasoningTier → String
  | .low => "low"
  | .medium => "medium"
  | .high => "high"

/-- `_TIER_ORDER`. -/
def order : ReasoningTier → Nat
  | .low => 0
  | .medium => 1
  | .high => 2

/-- The members, in their order. -/
def all : List ReasoningTier := [.low, .medium, .high]

theorem mem_all (tier : ReasoningTier) : tier ∈ all := by
  cases tier <;> decide

end ReasoningTier

/-- `_RISK_FLOOR`. -/
def riskFloor : SideEffect → ReasoningTier
  | .none => .low
  | .read => .low
  | .reversibleWrite => .medium
  | .irreversible => .high

/-- `_as_tier`. -/
def asTier (text : String) : Except Raised ReasoningTier :=
  match ReasoningTier.all.find? (·.value = text) with
  | some tier => .ok tier
  | none => .error .valueError

/-- `_as_risk`. -/
def asRisk (text : String) : Except Raised SideEffect :=
  match [SideEffect.none, .read, .reversibleWrite, .irreversible].find? (·.value = text) with
  | some risk => .ok risk
  | none => .error .valueError

@[simp] theorem asTier_value (tier : ReasoningTier) : asTier tier.value = .ok tier := by
  cases tier <;> rfl

@[simp] theorem asRisk_value (risk : SideEffect) : asRisk risk.value = .ok risk := by
  cases risk <;> rfl

namespace Errors

/-- `NoEligibleReasoningTier`. -/
def noEligibleTier (minimum : ReasoningTier) : Raised :=
  .hub { code := "no_eligible_reasoning_tier", category := .budget,
         safeMessage := "No eligible reasoning tier satisfies the required safety floor.",
         details := [("minimum_tier", .text minimum.value)] }

end Errors

structure TaskRoutingSnapshot where
  taskId : String
  currentTier : Option ReasoningTier
  escalationsUsed : Nat
  distinctAttempts : Nat

/-- `_TaskState`. -/
structure TaskState where
  currentTier : Option ReasoningTier := none
  escalationsUsed : Nat := 0
  attemptCounts : Dict (String × String) Nat := ∅

structure ReasoningDecision where
  tier : ReasoningTier
  reasonCodes : List String
  escalationsUsed : Nat
  policyRevision : String

/-- `_fingerprint`. -/
def fingerprint (sha256 : Bytes → Bytes) (value : Json) : String :=
  hex (sha256 (encodeUtf8 (canonicalJson value)))

/-- `character.lower()`. Of the characters beyond ASCII, the Kelvin sign and the capital I with a
dot have an ASCII letter in theirs; what the others have is no ASCII character either. -/
def lowered (character : Char) : List Char :=
  if character.toNat = 0x212a then ['k']
  else if character.toNat = 0x130 then ['i', Char.ofNat 0x307]
  else [character.toLower]

/-- `_reason_code`: the runs of `[a-z0-9]`, and one underscore between two of them. -/
def reasonCode (reason : String) : String :=
  let words := ((reason.toList.flatMap lowered).splitOnP fun character =>
    !(character.isLower || character.isDigit)).filter (· ≠ [])
  if words = [] then "unspecified" else String.ofList (['_'].intercalate words)

theorem revision_given : "default" ≠ "" := by decide

theorem one_attempt : 1 ≤ 1 := Nat.le_refl 1

/-- The configuration of a `ReasoningRouter`. -/
structure ReasoningRouter where
  policyRevision : String := "default"
  maxEscalations : Nat := 2
  maxEquivalentAttempts : Nat := 1
  revisionGiven : policyRevision ≠ "" := by first | exact revision_given | decide
  attemptsPositive : 1 ≤ maxEquivalentAttempts := by first | exact one_attempt | decide

/-- `_normalize_eligible`. -/
def normalizeEligible : Option (List String) → Except Raised (List ReasoningTier)
  | none => .ok ReasoningTier.all
  | some values => do
      let tiers ← values.mapM asTier
      .ok (sortedBy ReasoningTier.order tiers.dedup)

/-- The greater of the two floors. -/
def minimumTier (riskFloor policyFloor : ReasoningTier) : ReasoningTier :=
  maxBy ReasoningTier.order riskFloor [policyFloor]

def floorReasons (riskFloor policyFloor : ReasoningTier) : List String :=
  (if riskFloor.order > ReasoningTier.low.order then ["risk_floor:" ++ riskFloor.value] else []) ++
    if policyFloor.order > ReasoningTier.low.order then ["policy_floor:" ++ policyFloor.value] else []

/-- The attempt and its evidence, where there is an attempt. -/
def attemptPair (sha256 : Bytes → Bytes) (attemptSignature evidenceSignature : Json) :
    Option (String × String) :=
  match attemptSignature with
  | .null => none
  | signature => some (fingerprint sha256 signature, fingerprint sha256 evidenceSignature)

namespace ReasoningRouter

variable (router : ReasoningRouter)

/-- `previous >= self.max_equivalent_attempts`. -/
def noProgress (attempt : Option (String × String)) (counts : Dict (String × String) Nat) : Bool :=
  match attempt with
  | none => false
  | some pair => router.maxEquivalentAttempts ≤ counts.getD pair 0

/-- The counts with one more of the attempt. -/
def countAttempt (attempt : Option (String × String)) (counts : Dict (String × String) Nat) :
    Dict (String × String) Nat :=
  match attempt with
  | none => counts
  | some pair => counts.set pair (counts.getD pair 0 + 1)

/-- `tier if tier in candidates else other`. -/
def tierAmong (candidates : List ReasoningTier) (other : ReasoningTier) :
    Option ReasoningTier → ReasoningTier
  | some tier => if tier ∈ candidates then tier else other
  | none => other

/-- `current`, before an escalation. `cheapest` is the first of the candidates. -/
def retained (candidates : List ReasoningTier) (cheapest : ReasoningTier) (state : TaskState) :
    ReasoningTier :=
  let current := tierAmong candidates cheapest state.currentTier
  if current.order < cheapest.order then cheapest else current

/-- What `route` does under its lock. -/
def advance (candidates : List ReasoningTier) (cheapest : ReasoningTier) (floors : List String)
    (escalationReason : Option String) (attempt : Option (String × String)) (state : TaskState) :
    ReasoningDecision × TaskState :=
  let current := retained candidates cheapest state
  let counts := countAttempt attempt state.attemptCounts
  let conclude (tier : ReasoningTier) (escalations : Nat) (reasons : List String) :
      ReasoningDecision × TaskState :=
    (⟨tier, floors ++ reasons, escalations, router.policyRevision⟩, ⟨some tier, escalations, counts⟩)
  if router.noProgress attempt state.attemptCounts then
    conclude current state.escalationsUsed ["equivalent_attempt", "no_progress", "stop"]
  else
    match escalationReason with
    | some reason =>
        if router.maxEscalations ≤ state.escalationsUsed then
          conclude current state.escalationsUsed ["escalation_cap_reached", "stop"]
        else
          match candidates.find? (current.order < ·.order) with
          | none => conclude current state.escalationsUsed ["highest_eligible_tier", "stop"]
          | some higher =>
              conclude higher (state.escalationsUsed + 1) ["escalated:" ++ reasonCode reason]
    | none =>
        conclude current state.escalationsUsed
          [if current = cheapest then "cheapest_eligible" else "retained_escalated_tier"]

/-- `route`. -/
def route (sha256 : Bytes → Bytes) (tasks : Dict String TaskState) (taskId : String)
    (eligibleTiers : Option (List String)) (risk policyMinimum : String)
    (escalationReason : Option String) (attemptSignature evidenceSignature : Json) :
    Except Raised (ReasoningDecision × Dict String TaskState) := do
  raiseIf (taskId = "") .valueError
  let riskValue ← asRisk risk
  let policyFloor ← asTier policyMinimum
  let minimum := minimumTier (riskFloor riskValue) policyFloor
  let eligible ← normalizeEligible eligibleTiers
  match eligible.filter (minimum.order ≤ ·.order) with
  | [] => .error (Errors.noEligibleTier minimum)
  | cheapest :: dearer =>
      let (decision, state) := router.advance (cheapest :: dearer) cheapest
        (floorReasons (riskFloor riskValue) policyFloor) escalationReason
        (attemptPair sha256 attemptSignature evidenceSignature) (tasks.getD taskId {})
      .ok (decision, tasks.set taskId state)

end ReasoningRouter

def TaskState.snapshot (tasks : Dict String TaskState) (taskId : String) : TaskRoutingSnapshot :=
  let state := tasks.getD taskId {}
  ⟨taskId, state.currentTier, state.escalationsUsed, state.attemptCounts.size⟩

/-! ## What a decision comes to -/

section

variable {router : ReasoningRouter} {candidates eligible : List ReasoningTier}
  {cheapest tier : ReasoningTier} {floors : List String} {escalationReason : Option String}
  {attempt : Option (String × String)} {state : TaskState} {sha256 : Bytes → Bytes}
  {tasks final : Dict String TaskState} {taskId : String} {decision : ReasoningDecision}
  {attemptSignature evidenceSignature : Json} {eligibleTiers : Option (List String)}

theorem fingerprint_str_injective (injective : Function.Injective sha256) :
    Function.Injective fun text => fingerprint sha256 (.str text) := by
  intro first second same
  have texts := References.encodeUtf8_injective (injective (hex_injective same))
  have distinct (text : String) : (Json.str text).Distinct := by simp [Json.Distinct]
  have read := loads_canonicalJson (distinct first)
  rw [texts, loads_canonicalJson (distinct second)] at read
  cases read
  rfl

theorem mapM_asTier (tiers : List ReasoningTier) :
    (tiers.map (·.value)).mapM asTier = .ok tiers := by
  induction tiers with
  | nil => rfl
  | cons tier tiers ih =>
      rw [List.map_cons, mapM_cons_eq_ok]
      exact ⟨tier, tiers, asTier_value tier, ih, rfl⟩

/-- A set of tiers is in the order of the members. -/
theorem sortedBy_tiers (tiers : List ReasoningTier) :
    sortedBy ReasoningTier.order tiers.dedup = ReasoningTier.all.filter (· ∈ tiers) := by
  have ordered : ReasoningTier.all.Pairwise fun first second => first.order < second.order := by
    decide
  have nodup : ReasoningTier.all.Nodup := by decide
  apply sortedBy_of_perm ReasoningTier.order (ordered.filter _)
  apply (List.perm_ext_iff_of_nodup (List.nodup_dedup tiers) (nodup.filter _)).mpr
  intro tier
  rw [List.mem_dedup, List.mem_filter, decide_eq_true_iff]
  exact (and_iff_right tier.mem_all).symm

theorem normalizeEligible_values (tiers : List ReasoningTier) :
    normalizeEligible (some (tiers.map (·.value))) =
      .ok (ReasoningTier.all.filter (· ∈ tiers)) := by
  rw [normalizeEligible, mapM_asTier, ← sortedBy_tiers]
  rfl

theorem stop_notMem_floorReasons (riskFloor policyFloor : ReasoningTier) :
    "stop" ∉ floorReasons riskFloor policyFloor := by
  cases riskFloor <;> cases policyFloor <;> decide

theorem stop_ne_escalated (reason : String) : "stop" ≠ "escalated:" ++ reason := by
  intro same
  have first := congrArg (fun text => text.toList.head?) same
  rw [String.toList_append] at first
  cases first

namespace ReasoningRouter

/-- An escalation reason escalates, or stops. -/
def Escalates (router : ReasoningRouter) (candidates : List ReasoningTier)
    (cheapest : ReasoningTier) (state : TaskState) : Prop :=
  state.escalationsUsed < router.maxEscalations ∧
    ∃ tier ∈ candidates, (retained candidates cheapest state).order < tier.order

theorem find?_higher : candidates.find? (tier.order < ·.order) = none ↔
    ¬∃ higher ∈ candidates, tier.order < higher.order := by
  simp

/-- The three ways to stop. -/
theorem advance_stops (clean : "stop" ∉ floors) :
    "stop" ∈ (router.advance candidates cheapest floors escalationReason attempt
        state).1.reasonCodes ↔
      router.noProgress attempt state.attemptCounts = true ∨
        escalationReason.isSome ∧ ¬router.Escalates candidates cheapest state := by
  rw [advance.eq_def]
  by_cases equivalent : router.noProgress attempt state.attemptCounts = true
  · simp [equivalent]
  · cases escalationReason with
    | none =>
        by_cases same : retained candidates cheapest state = cheapest <;>
          simp [equivalent, clean, same]
    | some reason =>
        by_cases spent : router.maxEscalations ≤ state.escalationsUsed
        · have stuck : ¬router.Escalates candidates cheapest state := fun escalates =>
            absurd escalates.1 (Nat.not_lt.mpr spent)
          simp [equivalent, spent, stuck]
        · cases found : candidates.find? ((retained candidates cheapest state).order < ·.order) with
          | none =>
              have stuck : ¬router.Escalates candidates cheapest state := fun escalates =>
                find?_higher.mp found escalates.2
              simp [equivalent, spent, found, stuck]
          | some higher =>
              have escalates : router.Escalates candidates cheapest state :=
                ⟨Nat.lt_of_not_le spent, higher, List.mem_of_find?_eq_some found,
                  of_decide_eq_true (List.find?_some found :)⟩
              simp [equivalent, spent, found, escalates, clean, stop_ne_escalated]

theorem attemptCounts_advance :
    (router.advance candidates cheapest floors escalationReason attempt state).2.attemptCounts =
      countAttempt attempt state.attemptCounts := by
  rw [advance.eq_def]
  dsimp only
  split
  · rfl
  · split
    · split
      · rfl
      · split <;> rfl
    · rfl

theorem route_eq_ok {risk : SideEffect} {policyFloor : ReasoningTier}
    (eligibility : normalizeEligible eligibleTiers = .ok eligible) :
    router.route sha256 tasks taskId eligibleTiers risk.value policyFloor.value escalationReason
        attemptSignature evidenceSignature = .ok (decision, final) ↔
      taskId ≠ "" ∧ ∃ cheapest dearer,
        eligible.filter ((minimumTier (riskFloor risk) policyFloor).order ≤ ·.order) =
          cheapest :: dearer ∧
        ∃ next, router.advance (cheapest :: dearer) cheapest
            (floorReasons (riskFloor risk) policyFloor) escalationReason
            (attemptPair sha256 attemptSignature evidenceSignature) (tasks.getD taskId {}) =
              (decision, next) ∧ tasks.set taskId next = final := by
  rw [route, bind_eq_ok, exists_unit, raiseIf_eq_ok, asRisk_value, asTier_value, eligibility]
  apply and_congr_right
  intro _
  dsimp only [bind, Except.bind]
  split
  next none => simp [none]
  next cheapest dearer some =>
    rw [some]
    simp only [List.cons.injEq, Except.ok.injEq, Prod.mk.injEq]
    constructor
    · intro same
      exact ⟨cheapest, dearer, ⟨rfl, rfl⟩, _, Prod.ext same.1 rfl, same.2⟩
    · intro same
      obtain ⟨_, _, ⟨rfl, rfl⟩, next, advanced, rfl⟩ := same
      rw [advanced]
      exact ⟨rfl, rfl⟩

end ReasoningRouter

end

example : reasonCode " Retry - FAILED!" = "retry_failed" := by decide

end CapabilityHub.Reasoning
