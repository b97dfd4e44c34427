import CapabilityHub.Service.System

/-! # What a step does to a call

Every step of a call of `execute` is one of a few changes to the call and to the record of its
seat (`CapabilityHub.Service.step_progress`).
-/

namespace CapabilityHub.Service

variable {sha256 slotHash mac : Bytes → Bytes} {validates : List (String × Json) → Json → Bool}
  {backend : IdempotencyBackend} {system final : System} {call : Call} {seat : Seat}
  {existing : IdempotencyRecord} {result : ExecutionResult}

theorem kept_seat (seated : call.seat backend = some seat) : Kept backend seat := by
  cases backend with
  | shared => trivial
  | sqlite settings =>
      obtain ⟨key, _, rfl⟩ := Option.map_eq_some_iff.mp seated
      rfl

theorem replayOf_eq_ok {digest : String} : replayOf existing digest = .ok result ↔
    existing.argumentsDigest = digest ∧ existing.status = .complete ∧
      existing.result = some result := by
  rcases existing with ⟨digest', status, stored⟩
  cases status <;> cases stored <;>
    simp [replayOf, bind_eq_ok, raiseIf_eq_ok, exists_unit, pure, Except.pure]

/-- The phases a call goes through without a record being written. -/
inductive Advances (sha256 slotHash : Bytes → Bytes) (backend : IdempotencyBackend)
    (system : System) (call : Call) : Phase → Prop
  | keyless (phase : call.phase = .checked) (keyless : call.seat backend = none) :
      Advances sha256 slotHash backend system call .admitted
  | waits (phase : call.phase = .checked) : Advances sha256 slotHash backend system call .waiting
  | fails (phase : call.phase = .checked ∨ call.phase = .waiting) :
      Advances sha256 slotHash backend system call .failed
  | replays {seat : Seat} {record : IdempotencyRecord} {written : Option ℚ}
      {result : ExecutionResult} (phase : call.phase = .checked ∨ call.phase = .waiting)
      (seated : call.seat backend = some seat)
      (seen : view slotHash backend system.idempotency seat = some (record, written))
      (same : record.argumentsDigest = call.digest sha256) (complete : record.status = .complete)
      (stored : record.result = some result) :
      Advances sha256 slotHash backend system call (.replayed result)
  | raises (phase : call.phase = .admitted ∨ call.phase = .invoked) :
      Advances sha256 slotHash backend system call .raising

/-- The answer of a provider is a value of the language: no object has a key twice. -/
def Answers : Action → Prop
  | .provide _ (.ok answer) _ => answer.output.Distinct
  | _ => True

/-- What a step of a call does. -/
inductive Progress (sha256 slotHash : Bytes → Bytes) (backend : IdempotencyBackend)
    (system : System) : System → Prop
  | idle : Progress sha256 slotHash backend system system
  | advanced {index : Nat} {call : Call} {phase : Phase} (found : system.calls[index]? = some call)
      (advances : Advances sha256 slotHash backend system call phase) :
      Progress sha256 slotHash backend system (system.put index { call with phase := phase })
  | invoked {index : Nat} {call : Call} (found : system.calls[index]? = some call)
      (phase : call.phase = .admitted) :
      Progress sha256 slotHash backend system
        (system.put index { call with phase := .invoked, invocations := call.invocations + 1 })
  | settled {index : Nat} {call : Call} {result : ExecutionResult}
      (found : system.calls[index]? = some call) (phase : call.phase = .invoked)
      (distinct : result.output.Distinct) :
      Progress sha256 slotHash backend system
        (system.put index { call with phase := .settled result })
  | reserved {index : Nat} {call : Call} {seat : Seat} {checkedAt insertedAt : ℚ}
      (found : system.calls[index]? = some call) (phase : call.phase = .checked)
      (seated : call.seat backend = some seat)
      (free : (reserveSeat slotHash seat (call.digest sha256) checkedAt insertedAt backend
        system.idempotency).1 = none) :
      Progress sha256 slotHash backend system
        { system.put index { call with phase := .admitted, reservedAt := some checkedAt } with
          idempotency := (reserveSeat slotHash seat (call.digest sha256) checkedAt insertedAt backend
            system.idempotency).2
          admissions := system.admissions ++ [(seat, index)] }
  | completed {index : Nat} {call : Call} {result : ExecutionResult} {now : ℚ}
      (found : system.calls[index]? = some call) (phase : call.phase = .settled result) :
      Progress sha256 slotHash backend system
        { system.put index
            { call with phase := .returned result, completion := some (now, result) } with
          idempotency := match call.seat backend with
            | none => system.idempotency
            | some seat => completeSeat slotHash seat result now backend system.idempotency }
  | abandoned {index : Nat} {call : Call} {now : ℚ} (found : system.calls[index]? = some call)
      (phase : call.phase = .raising ∨ ∃ result, call.phase = .replayed result) :
      Progress sha256 slotHash backend system
        { system.put index { call with phase := .failed } with
          idempotency := match call.seat backend with
            | none => system.idempotency
            | some seat => uncertainSeat slotHash seat now backend system.idempotency }
  | recovered {now : ℚ} : Progress sha256 slotHash backend system (recoverStep backend system now)

theorem advances_answered {written : Option ℚ}
    (phase : call.phase = .checked ∨ call.phase = .waiting)
    (seated : call.seat backend = some seat)
    (seen : existing.status = .complete →
      view slotHash backend system.idempotency seat = some (existing, written)) :
    Advances sha256 slotHash backend system call (call.answered sha256 existing) := by
  unfold Call.answered
  cases replayed : replayOf existing (call.digest sha256) with
  | error raised => exact .fails phase
  | ok result =>
      rcases replayOf_eq_ok.mp replayed with ⟨same, complete, stored⟩
      exact .replays phase seated (seen complete) same complete stored

theorem reserveStep_progress (index : Nat) (checkedAt insertedAt : ℚ) :
    Progress sha256 slotHash backend system
      (reserveStep sha256 slotHash backend system index checkedAt insertedAt) := by
  unfold reserveStep System.change
  cases found : system.calls[index]? with
  | none => exact .idle
  | some call =>
      dsimp only
      split
      next phase =>
        split
        next key seat given seated =>
          split
          · exact .advanced found (.fails (.inl phase))
          · cases reserved : (reserveSeat slotHash seat (call.digest sha256) checkedAt insertedAt
                backend system.idempotency).1 with
            | none => exact .reserved found phase seated reserved
            | some existing =>
                apply Progress.advanced found
                rcases reserveSeat_some (kept_seat seated) reserved with ⟨⟨written, seen⟩, _⟩
                cases backend with
                | shared => exact .waits phase
                | sqlite settings =>
                    dsimp only [Call.found]
                    split
                    · exact .waits phase
                    · exact advances_answered (.inl phase) seated fun _ => seen
        next missing =>
          refine .advanced found (.keyless phase ?_)
          cases seated : call.seat backend with
          | none => rfl
          | some seat =>
              rcases Option.map_eq_some_iff.mp seated with ⟨key, given, _⟩
              exact (missing key seat given seated).elim
      · exact .idle

theorem resumeStep_progress (index : Nat) (timedOut : Bool) :
    Progress sha256 slotHash backend system
      (resumeStep sha256 slotHash backend system index timedOut) := by
  unfold resumeStep System.change
  cases found : system.calls[index]? with
  | none => exact .idle
  | some call =>
      dsimp only
      split
      next seat phase seated =>
        split
        · exact .idle
        · apply Progress.advanced found
          cases replayed : replayOf (waitSeat slotHash seat (call.digest sha256) backend
              system.idempotency) (call.digest sha256) with
          | error raised =>
              rw [Call.answered, replayed]
              exact .fails (.inr phase)
          | ok result =>
              rcases view_of_waitSeat (kept_seat seated) (replayOf_eq_ok.mp replayed).2.1 with
                ⟨written, seen⟩
              exact advances_answered (.inr phase) seated fun _ => seen
      · exact .idle

theorem provideStep_progress (index : Nat) {answer : Except Raised ExecutionResult}
    {reconciled : Except Raised Unit}
    (answers : ∀ result, answer = .ok result → result.output.Distinct) :
    Progress sha256 slotHash backend system
      (provideStep validates system index answer reconciled) := by
  unfold provideStep System.change
  cases found : system.calls[index]? with
  | none => exact .idle
  | some call =>
      dsimp only
      split
      next phase =>
        cases settled : settleResult validates call.checked call.request answer reconciled with
        | error raised => exact .advanced found (.raises (.inr phase))
        | ok result =>
            apply Progress.settled found phase
            simp only [settleResult, normalizeResult, bind_eq_ok, exists_unit, raiseIf_eq_ok,
              pure_eq_ok] at settled
            rcases settled with ⟨answered, given, normal, ⟨_, rfl⟩, _, _, _, rfl⟩
            exact answers answered given
      · exact .idle

theorem invokeStep_progress (index : Nat) :
    Progress sha256 slotHash backend system (invokeStep system index) := by
  unfold invokeStep System.change
  cases found : system.calls[index]? with
  | none => exact .idle
  | some call =>
      dsimp only
      split
      next phase => exact .invoked found phase
      · exact .idle

theorem refuseStep_progress (index : Nat) :
    Progress sha256 slotHash backend system (refuseStep system index) := by
  unfold refuseStep System.change
  cases found : system.calls[index]? with
  | none => exact .idle
  | some call =>
      dsimp only
      split
      next phase => exact .advanced found (.raises (.inl phase))
      · exact .idle

theorem completeStep_progress (index : Nat) (now : ℚ) :
    Progress sha256 slotHash backend system (completeStep slotHash backend system index now) := by
  unfold completeStep System.change
  cases found : system.calls[index]? with
  | none => exact .idle
  | some call =>
      dsimp only
      split
      next result phase => exact .completed found phase
      · exact .idle

theorem abandonStep_progress (index : Nat) (now : ℚ) :
    Progress sha256 slotHash backend system (abandonStep slotHash backend system index now) := by
  unfold abandonStep System.change
  cases found : system.calls[index]? with
  | none => exact .idle
  | some call =>
      dsimp only
      split
      next phase => exact .abandoned found (.inl phase)
      next result phase => exact .abandoned found (.inr ⟨result, phase⟩)
      · exact .idle

/-- What a step of the system does to calls and records. -/
inductive Effect (sha256 slotHash : Bytes → Bytes) (backend : IdempotencyBackend)
    (system : System) : System → Prop
  | issued {final : System} (idempotency : final.idempotency = system.idempotency)
      (calls : final.calls = system.calls) (admissions : final.admissions = system.admissions) :
      Effect sha256 slotHash backend system final
  | opened {call : Call} (phase : call.phase = .checked) (reservedAt : call.reservedAt = none)
      (completion : call.completion = none) (invocations : call.invocations = 0) :
      Effect sha256 slotHash backend system { system with calls := system.calls ++ [call] }
  | progressed {final : System} (progress : Progress sha256 slotHash backend system final) :
      Effect sha256 slotHash backend system final

/-- **One step.** -/
theorem step_effect {action : Action} (answers : Answers action) :
    Effect sha256 slotHash backend system
      (step sha256 slotHash mac validates backend system action) := by
  cases action with
  | search service context revision now =>
      unfold step
      dsimp only
      split <;> exact .issued rfl rfl rfl
  | load service capabilityRef context sectionNames operationNames maxOutputTokens verifiedAt
      executionAt handleTimes delivered =>
      unfold step
      dsimp only
      split
      · exact .issued rfl rfl rfl
      · split <;> exact .issued rfl rfl rfl
  | approve service revision operation arguments taskId context ttlSeconds now =>
      unfold step
      dsimp only
      split <;> exact .issued rfl rfl rfl
  | execute service request context maxOutputTokens executionAt approvalAt reserved =>
      unfold step
      dsimp only
      split
      · exact .issued rfl rfl rfl
      · exact .opened rfl rfl rfl rfl
  | reserve index checkedAt insertedAt =>
      exact .progressed (reserveStep_progress index checkedAt insertedAt)
  | resume index timedOut => exact .progressed (resumeStep_progress index timedOut)
  | invoke index => exact .progressed (invokeStep_progress index)
  | refuse index => exact .progressed (refuseStep_progress index)
  | provide index answer reconciled =>
      apply Effect.progressed
      apply provideStep_progress index
      intro result given
      subst given
      exact answers
  | complete index now => exact .progressed (completeStep_progress index now)
  | abandon index now => exact .progressed (abandonStep_progress index now)
  | recover now => exact .progressed .recovered

end CapabilityHub.Service
