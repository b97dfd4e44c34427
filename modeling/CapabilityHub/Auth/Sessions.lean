import CapabilityHub.Auth.Authenticator
import CapabilityHub.Data.Runs
import Mathlib.Data.List.Nodup

/-! # Sessions and one-time tokens

The calls of several threads interleave between their two parts. As long as no session starts
between the two parts of an authentication, and the session is not closed between those of an
issue, each token that was issued passes once at most, before its expiry and while its session is
open (`CapabilityHub.Auth.one_time_along`). Where a session ends and another one starts in between,
a token passes a second time (`CapabilityHub.Auth.passes_twice`).
-/

namespace CapabilityHub.Auth

/-- A call of `issue_one_time` that has left the lock. -/
structure Issuance where
  expiry : Int
  /-- How often the authenticator had been closed. -/
  closes : Nat

/-- A token that `issue_one_time` returned. -/
structure IssuedToken where
  token : String
  expiry : Int
  nonce : String
  key : Bytes
  /-- Its session is the one after as many closes. -/
  closes : Nat

/-- A call of `authenticate` whose token passed the checks before the lock. -/
structure Verification where
  token : String
  nonce : String
  now : ℚ
  closes : Nat
  starts : Nat

/-- An authenticator, the calls between their parts, and its history. -/
structure System where
  authenticator : Authenticator
  starts : Nat := 0
  closes : Nat := 0
  issuing : List Issuance := []
  verifying : List Verification := []
  issued : List IssuedToken := []
  /-- The tokens that passed. -/
  authenticated : List String := []
  /-- The keys so far, the first one first. -/
  keys : List Bytes

inductive Action where
  | startSession (digest : Bytes)
  | close (key : Bytes)
  | issueOneTime (ttlSeconds : Int) (now : ℚ)
  | sign (index : Nat) (nonce : String)
  | authenticate (authorization : String) (now : ℚ)
  | consumeNonce (index : Nat)

variable (mac : Bytes → Bytes → Bytes) (identity : AuthIdentity)

/-- The token of a header. -/
def bearer (authorization : String) : String := String.ofList (authorization.toList.drop 7)

def step (system : System) : Action → System
  | .startSession digest =>
      match system.authenticator.startSession digest with
      | some authenticator =>
          { system with authenticator := authenticator, starts := system.starts + 1 }
      | none => system
  | .close key => { system with
      authenticator := .close key
      closes := system.closes + 1
      keys := system.keys ++ [key] }
  | .issueOneTime ttlSeconds now =>
      if 0 < ttlSeconds ∧ 0 ≤ now ∧ system.authenticator.Active then
        { system with issuing := system.issuing ++ [⟨truncate now + ttlSeconds, system.closes⟩] }
      else system
  | .sign index nonce =>
      match system.issuing[index]? with
      | some issuance => { system with
          issuing := system.issuing.eraseIdx index
          issued := ⟨oneTimeToken mac identity system.authenticator.key issuance.expiry nonce,
            issuance.expiry, nonce, system.authenticator.key, issuance.closes⟩ :: system.issued }
      | none => system
  | .authenticate authorization now =>
      match checkAuthorization mac identity system.authenticator.key authorization now with
      | .ok nonce => { system with
          verifying := system.verifying ++
            [⟨bearer authorization, nonce, now, system.closes, system.starts⟩] }
      | .error _ => system
  | .consumeNonce index =>
      match system.verifying[index]? with
      | some verification =>
          match system.authenticator.consumeNonce verification.nonce with
          | .ok authenticator => { system with
              authenticator := authenticator
              verifying := system.verifying.eraseIdx index
              authenticated := verification.token :: system.authenticated }
          | .error _ => { system with verifying := system.verifying.eraseIdx index }
      | none => system

/-- An authenticator as it is made. -/
def fresh (key : Bytes) : System := { authenticator := { key := key }, keys := [key] }

/-- Keys and nonces are fresh, and what has the right signature under the key was signed with
it. -/
def Legal (system : System) : Action → Prop
  | .close key => key ∉ system.keys
  | .sign _ nonce => nonce ≠ "" ∧ nonce ∉ system.issued.map IssuedToken.nonce
  | .authenticate authorization _ => ∀ start encoded supplied,
      ((bearer authorization).toList.splitOn '.').map String.ofList = [start, encoded, supplied] →
      supplied = signature mac system.authenticator.key encoded →
      ∃ issued ∈ system.issued, issued.key = system.authenticator.key ∧
        encodedPayload identity issued.expiry issued.nonce = encoded
  | _ => True

/-- The session did not change between the two parts of the call. -/
def Undisturbed (system : System) : Action → Prop
  | .sign index _ => ∀ issuance ∈ system.issuing[index]?, issuance.closes = system.closes
  | .consumeNonce index =>
      ∀ verification ∈ system.verifying[index]?, verification.starts = system.starts
  | _ => True

/-- **A token that passes** does so for the first time, before its expiry and in its session. -/
def PassesOnce (system : System) (action : Action) : Prop :=
  ∀ index verification, action = .consumeNonce index →
    system.verifying[index]? = some verification →
    (∃ next, system.authenticator.consumeNonce verification.nonce = .ok next) →
    ∀ issued ∈ system.issued, issued.token = verification.token →
      issued.token ∉ system.authenticated ∧ verification.now < issued.expiry ∧
        issued.closes = system.closes ∧ system.authenticator.Active

/-! ## What holds of a system -/

section

variable {mac identity} {system : System} {action : Action}

/-- **Every token belongs to its key, and every pass is remembered in its session.** -/
structure Sound (mac : Bytes → Bytes → Bytes) (identity : AuthIdentity) (system : System) :
    Prop where
  keys : system.keys.Nodup
  current : system.keys[system.closes]? = some system.authenticator.key
  count : system.keys.length = system.closes + 1
  nonces : (system.issued.map IssuedToken.nonce).Nodup
  signed : ∀ issued ∈ system.issued, issued.nonce ≠ "" ∧
    issued.token = oneTimeToken mac identity issued.key issued.expiry issued.nonce ∧
    system.keys[issued.closes]? = some issued.key
  checked : ∀ verification ∈ system.verifying, verification.starts ≤ system.starts ∧
    (verification.starts = system.starts → system.authenticator.Active →
      verification.closes = system.closes) ∧
    ∃ issued ∈ system.issued, issued.token = verification.token ∧
      issued.nonce = verification.nonce ∧ issued.closes = verification.closes ∧
      verification.now < issued.expiry
  remembered : ∀ token ∈ system.authenticated, ∃ issued ∈ system.issued, issued.token = token ∧
    issued.closes ≤ system.closes ∧ (issued.closes = system.closes →
      system.authenticator.Active ∧ issued.nonce ∈ system.authenticator.consumedNonces)

theorem sound_fresh (key : Bytes) : Sound mac identity (fresh key) where
  keys := List.nodup_singleton key
  current := rfl
  count := rfl
  nonces := List.nodup_nil
  signed := nofun
  checked := nofun
  remembered := nofun

/-- The payload of a token can be read back. -/
theorem nonce_of_encodedPayload {expiry expiry' : Int} {nonce nonce' : String} (named : nonce ≠ "")
    (named' : nonce' ≠ "")
    (same : encodedPayload identity expiry nonce = encodedPayload identity expiry' nonce') :
    nonce = nonce' := by
  have read : readPayload identity (encodedPayload identity expiry nonce) = some (expiry, nonce) :=
    readPayload_encodedPayload named
  rw [same, readPayload_encodedPayload named', Option.some.injEq, Prod.mk.injEq] at read
  exact read.2.symm

theorem Sound.unique (sound : Sound mac identity system) {first second : IssuedToken}
    (member : first ∈ system.issued) (member' : second ∈ system.issued)
    (same : first.nonce = second.nonce) : first = second :=
  List.inj_on_of_nodup_map sound.nonces member member' same

/-- Tokens of one text are one token. -/
theorem Sound.unique_token (sound : Sound mac identity system) {first second : IssuedToken}
    (member : first ∈ system.issued) (member' : second ∈ system.issued)
    (same : first.token = second.token) : first = second := by
  obtain ⟨named, text, _⟩ := sound.signed first member
  obtain ⟨named', text', _⟩ := sound.signed second member'
  have split : ((oneTimeToken mac identity first.key first.expiry first.nonce).toList.splitOn '.').map
      String.ofList = _ := splitOn_oneTimeToken
  rw [← text, same, text', splitOn_oneTimeToken] at split
  injection split with _ rest
  injection rest with payloads _
  exact sound.unique member member' (nonce_of_encodedPayload named named' payloads.symm)

/-- A text with two dots is its three parts. -/
theorem text_of_splitOn {text start middle stop : String}
    (split : (text.toList.splitOn '.').map String.ofList = [start, middle, stop]) :
    text = start ++ "." ++ middle ++ "." ++ stop := by
  have parts : text.toList.splitOn '.' = [start.toList, middle.toList, stop.toList] := by
    have lists := congrArg (List.map String.toList) split
    rwa [List.map_map, show String.toList ∘ String.ofList = id from funext fun _ =>
      String.toList_ofList, List.map_id] at lists
  have whole : ['.'].intercalate (text.toList.splitOn '.') = text.toList :=
    List.intercalate_splitOn '.'
  rw [parts] at whole
  apply String.toList_inj.mp
  rw [← whole]
  simp [String.toList_append]

/-- What the checks before the lock tell of a token. -/
theorem checkAuthorization_eq_ok {key : Bytes} {authorization nonce : String} {now : ℚ}
    (checked : checkAuthorization mac identity key authorization now = .ok nonce) :
    ∃ encoded expiry, ((bearer authorization).toList.splitOn '.').map String.ofList =
        ["chs1", encoded, signature mac key encoded] ∧
      readPayload identity encoded = some (expiry, nonce) ∧ now < expiry := by
  rw [checkAuthorization, bind_eq_ok] at checked
  obtain ⟨_, _, checked⟩ := checked
  rw [checkSigned] at checked
  split at checked
  next start encoded supplied split =>
    simp only [bind_eq_ok, exists_unit, raiseIf_eq_ok, not_not] at checked
    obtain ⟨rfl, same, checked⟩ := checked
    obtain rfl := References.compareDigest_eq_ok same
    cases read : readPayload identity encoded with
    | none => simp [read] at checked
    | some found =>
        obtain ⟨expiry, nonce'⟩ := found
        rw [read] at checked
        simp only [bind_eq_ok, exists_unit, raiseIf_eq_ok, pure_eq_ok, not_le] at checked
        obtain ⟨_, current, rfl⟩ := checked
        exact ⟨encoded, expiry, split, read, current⟩
  next => contradiction

/-- A token that passes the checks before the lock was signed with the key. -/
theorem Sound.of_checked (sound : Sound mac identity system) {authorization nonce : String} {now : ℚ}
    (legal : Legal mac identity system (.authenticate authorization now))
    (checked : checkAuthorization mac identity system.authenticator.key authorization now =
      .ok nonce) :
    ∃ issued ∈ system.issued, issued.token = bearer authorization ∧ issued.nonce = nonce ∧
      issued.closes = system.closes ∧ now < issued.expiry := by
  obtain ⟨encoded, expiry, split, read, current⟩ := checkAuthorization_eq_ok checked
  obtain ⟨issued, member, key, rfl⟩ := legal _ _ _ split rfl
  obtain ⟨named, text, placed⟩ := sound.signed issued member
  rw [readPayload_encodedPayload named, Option.some.injEq, Prod.mk.injEq] at read
  obtain ⟨rfl, rfl⟩ := read
  refine ⟨issued, member, ?_, rfl, ?_, current⟩
  · rw [text, text_of_splitOn split, oneTimeToken, key]
    rfl
  · rw [key, ← sound.current] at placed
    have bound : issued.closes < system.keys.length := by
      by_contra past
      rw [List.getElem?_eq_none (Nat.le_of_not_lt past), eq_comm, sound.current] at placed
      contradiction
    exact (List.getElem?_inj bound sound.keys).mp placed

theorem consumeNonce_eq_ok {authenticator next : Authenticator} {nonce : String} :
    authenticator.consumeNonce nonce = .ok next ↔ authenticator.Active ∧
      nonce ∉ authenticator.consumedNonces ∧
      { authenticator with consumedNonces := nonce :: authenticator.consumedNonces } = next := by
  simp only [Authenticator.consumeNonce, Authenticator.Active, bind_eq_ok, exists_unit,
    raiseIf_eq_ok, pure_eq_ok, ne_eq]

theorem Sound.startSession (sound : Sound mac identity system) {authenticator : Authenticator}
    {digest : Bytes} (started : system.authenticator.startSession digest = some authenticator) :
    Sound mac identity
      { system with authenticator := authenticator, starts := system.starts + 1 } := by
  rw [Authenticator.startSession] at started
  split at started
  next => contradiction
  next inactive =>
    obtain rfl := Option.some.inj started
    refine { sound with checked := ?_, remembered := ?_ }
    · intro verification member
      obtain ⟨earlier, _, rest⟩ := sound.checked verification member
      exact ⟨Nat.le_succ_of_le earlier,
        fun now => absurd earlier (by rw [now]; exact Nat.not_succ_le_self _), rest⟩
    · intro token member
      obtain ⟨issued, known, same, earlier, here⟩ := sound.remembered token member
      exact ⟨issued, known, same, earlier, fun now => absurd inactive (here now).1⟩

theorem Sound.close (sound : Sound mac identity system) {key : Bytes} (fresh : key ∉ system.keys) :
    Sound mac identity { system with
      authenticator := .close key, closes := system.closes + 1, keys := system.keys ++ [key] } where
  keys := List.nodup_append.mpr ⟨sound.keys, List.nodup_singleton key, fun old member new at_end => by
    rw [List.mem_singleton.mp at_end]
    exact fun same => fresh (same ▸ member)⟩
  current := by
    dsimp only
    rw [← sound.count, List.getElem?_append_right (Nat.le_refl _), Nat.sub_self]
    rfl
  count := by
    dsimp only
    rw [List.length_append, sound.count]
    rfl
  nonces := sound.nonces
  signed := by
    intro issued member
    obtain ⟨named, text, placed⟩ := sound.signed issued member
    refine ⟨named, text, ?_⟩
    have bound : issued.closes < system.keys.length := by
      by_contra past
      rw [List.getElem?_eq_none (Nat.le_of_not_lt past)] at placed
      contradiction
    dsimp only
    rw [List.getElem?_append_left bound, placed]
  checked := by
    intro verification member
    obtain ⟨earlier, _, rest⟩ := sound.checked verification member
    exact ⟨earlier, fun _ active => absurd rfl active, rest⟩
  remembered := by
    intro token member
    obtain ⟨issued, known, same, earlier, _⟩ := sound.remembered token member
    exact ⟨issued, known, same, Nat.le_succ_of_le earlier,
      fun now => absurd earlier (by rw [now]; exact Nat.not_succ_le_self _)⟩

theorem Sound.sign (sound : Sound mac identity system) {issuance : Issuance} {nonce : String}
    {issuing : List Issuance} (undisturbed : issuance.closes = system.closes) (named : nonce ≠ "")
    (fresh : nonce ∉ system.issued.map IssuedToken.nonce) : Sound mac identity { system with
      issuing := issuing
      issued := ⟨oneTimeToken mac identity system.authenticator.key issuance.expiry nonce,
        issuance.expiry, nonce, system.authenticator.key, issuance.closes⟩ :: system.issued } where
  keys := sound.keys
  current := sound.current
  count := sound.count
  nonces := List.nodup_cons.mpr ⟨fresh, sound.nonces⟩
  signed := by
    intro issued member
    rcases List.mem_cons.mp member with rfl | member
    · exact ⟨named, rfl, by rw [undisturbed]; exact sound.current⟩
    · exact sound.signed issued member
  checked := by
    intro verification member
    obtain ⟨earlier, current, issued, known, rest⟩ := sound.checked verification member
    exact ⟨earlier, current, issued, List.mem_cons_of_mem _ known, rest⟩
  remembered := by
    intro token member
    obtain ⟨issued, known, rest⟩ := sound.remembered token member
    exact ⟨issued, List.mem_cons_of_mem _ known, rest⟩

theorem Sound.pass (sound : Sound mac identity system) {index : Nat} {verification : Verification}
    (found : system.verifying[index]? = some verification)
    (undisturbed : verification.starts = system.starts) {authenticator : Authenticator}
    (consumed : system.authenticator.consumeNonce verification.nonce = .ok authenticator) :
    Sound mac identity { system with
      authenticator := authenticator
      verifying := system.verifying.eraseIdx index
      authenticated := verification.token :: system.authenticated } := by
  obtain ⟨active, unseen, rfl⟩ := consumeNonce_eq_ok.mp consumed
  refine { sound with checked := ?_, remembered := ?_ }
  · exact fun other member => sound.checked other (List.mem_of_mem_eraseIdx member)
  · intro token member
    rcases List.mem_cons.mp member with rfl | member
    · obtain ⟨_, current, issued, known, same, nonce, closes, _⟩ :=
        sound.checked verification (List.mem_of_getElem? found)
      have here : issued.closes = system.closes := closes.trans (current undisturbed active)
      exact ⟨issued, known, same, Nat.le_of_eq here,
        fun _ => ⟨active, by rw [nonce]; exact List.mem_cons_self⟩⟩
    · obtain ⟨issued, known, same, earlier, here⟩ := sound.remembered token member
      exact ⟨issued, known, same, earlier,
        fun now => ⟨active, List.mem_cons_of_mem _ (here now).2⟩⟩

theorem Sound.step (sound : Sound mac identity system) (legal : Legal mac identity system action)
    (undisturbed : Undisturbed system action) :
    Sound mac identity (step mac identity system action) := by
  cases action with
  | startSession digest =>
      rw [Auth.step]
      split
      next authenticator started => exact sound.startSession started
      next => exact sound
  | close key => exact sound.close legal
  | issueOneTime ttlSeconds now =>
      rw [Auth.step]
      split
      next => exact { sound with }
      next => exact sound
  | sign index nonce =>
      rw [Auth.step]
      split
      next issuance found => exact sound.sign (undisturbed issuance found) legal.1 legal.2
      next => exact sound
  | authenticate authorization now =>
      rw [Auth.step]
      split
      next nonce checked =>
        obtain ⟨issued, member, same, rfl, closes, current⟩ := sound.of_checked legal checked
        refine { sound with checked := ?_ }
        intro verification pending
        rcases List.mem_append.mp pending with pending | new
        · exact sound.checked verification pending
        · obtain rfl := List.mem_singleton.mp new
          exact ⟨Nat.le_refl _, fun _ _ => rfl, issued, member, same, rfl, closes, current⟩
      next => exact sound
  | consumeNonce index =>
      rw [Auth.step]
      split
      next verification found =>
        split
        next authenticator consumed =>
          exact sound.pass found (undisturbed verification found) consumed
        next => exact { sound with
          checked := fun other member => sound.checked other (List.mem_of_mem_eraseIdx member) }
      next => exact sound

theorem Sound.passesOnce (sound : Sound mac identity system)
    (undisturbed : Undisturbed system action) : PassesOnce system action := by
  intro index verification same found ⟨next, consumed⟩ issued member named
  subst same
  obtain ⟨active, unseen, _⟩ := consumeNonce_eq_ok.mp consumed
  obtain ⟨_, current, issued', member', named', nonce, closes, early⟩ :=
    sound.checked verification (List.mem_of_getElem? found)
  obtain rfl := sound.unique_token member member' (named.trans named'.symm)
  have here : issued.closes = system.closes :=
    closes.trans (current (undisturbed verification found) active)
  refine ⟨fun passed => ?_, early, here, active⟩
  obtain ⟨earlier, known, sameToken, _, remembered⟩ := sound.remembered _ passed
  obtain rfl := sound.unique_token known member sameToken
  exact unseen (nonce ▸ (remembered here).2)

end

/-- **One-time tokens pass once**, where no session starts and none is closed between the two parts
of a call. -/
theorem one_time_along (key : Bytes) (actions : List Action)
    (allowed : Along (step mac identity)
      (fun system action => Legal mac identity system action ∧ Undisturbed system action)
      (fresh key) actions) :
    Along (step mac identity) PassesOnce (fresh key) actions :=
  allowed.imp (sound_fresh key) (fun _ _ both sound => sound.step both.1 both.2)
    fun _ _ sound both => sound.passesOnce both.2

/-! ## Runs on fixed inputs -/

/-- A MAC that shows its key and its message. -/
def openMac (key message : Bytes) : Bytes := key ++ message

def operator : AuthIdentity := ⟨"tenant", "operator", "http-loopback", "session", by decide⟩

/-- The token of the runs below. -/
def sampleToken : String := oneTimeToken openMac operator [0] 110 "nonce"

/-- A call that presents the token of the runs. -/
def present : Action := .authenticate ("Bearer " ++ sampleToken) 105

theorem bearer_sampleToken : bearer ("Bearer " ++ sampleToken) = sampleToken := by
  rw [bearer, String.toList_append]
  exact String.ofList_toList

/-- A token passes the checks before the lock under the key that it was signed with. -/
theorem checkAuthorization_sampleToken :
    checkAuthorization openMac operator [0] ("Bearer " ++ sampleToken) 105 = .ok "nonce" := by
  have signed : checkSigned openMac operator [0] sampleToken 105 = .ok "nonce" :=
    (checkSigned_oneTimeToken (by decide)).mpr ⟨rfl, by norm_num, by norm_num, rfl⟩
  have start : startsWith ("Bearer " ++ sampleToken) "Bearer " = true := by
    rw [startsWith, String.toList_append, List.isPrefixOf_iff_prefix]
    exact List.prefix_append _ _
  rw [checkAuthorization, ← bearer, bearer_sampleToken, start, signed]
  rfl

/-- A session with the token of the runs. -/
def sampleSession : System where
  authenticator := { key := [0], sessionDigest := some [7] }
  starts := 1
  issued := [⟨sampleToken, 110, "nonce", [0], 0⟩]
  keys := [[0]]

/-- The calls that lead to it. -/
def opening : List Action := [.startSession [7], .issueOneTime 10 100, .sign 0 "nonce"]

theorem run_opening : run (step openMac operator) (fresh [0]) opening = sampleSession := by
  have future : truncate 100 + 10 = 110 := by norm_num [truncate]
  simp [opening, run, step, fresh, Authenticator.startSession, Authenticator.Active, future,
    sampleSession, sampleToken]

theorem legal_present {system : System} (key : system.authenticator.key = [0])
    (issued : system.issued = [⟨sampleToken, 110, "nonce", [0], 0⟩]) :
    Legal openMac operator system present := by
  intro start encoded supplied split _
  rw [bearer_sampleToken, sampleToken, splitOn_oneTimeToken] at split
  injection split with _ rest
  injection rest with payloads _
  refine ⟨⟨sampleToken, 110, "nonce", [0], 0⟩, ?_, key.symm, ?_⟩
  · rw [issued]
    exact List.mem_singleton_self _
  · dsimp only
    exact payloads

theorem step_present {system : System} (key : system.authenticator.key = [0]) :
    step openMac operator system present = { system with
      verifying := system.verifying ++
        [⟨sampleToken, "nonce", 105, system.closes, system.starts⟩] } := by
  rw [present, step, key, checkAuthorization_sampleToken, bearer_sampleToken]

/-- The calls that lead to the session are allowed ones. -/
theorem along_opening : Along (step openMac operator)
    (fun system action => Legal openMac operator system action ∧ Undisturbed system action)
    (fresh [0]) opening := by
  refine ⟨⟨trivial, trivial⟩, ⟨trivial, trivial⟩, ⟨⟨by decide, ?_⟩, ?_⟩, trivial⟩
  · simp [step, fresh, Authenticator.startSession, Authenticator.Active]
  · intro issuance found
    simp [step, fresh, Authenticator.startSession, Authenticator.Active] at found
    rw [← found]
    rfl

/-- The token passes, and it is refused where it is presented again. -/
theorem one_time_along_sampleSession :
    Along (step openMac operator) PassesOnce (fresh [0])
      (opening ++ [present, .consumeNonce 0, present, .consumeNonce 0]) := by
  refine one_time_along openMac operator [0] _ (along_append.mpr ⟨along_opening, ?_⟩)
  rw [run_opening]
  refine ⟨⟨legal_present rfl rfl, trivial⟩, ?_⟩
  rw [step_present rfl]
  refine ⟨⟨trivial, fun _ found => ?_⟩, ⟨legal_present rfl rfl, trivial⟩, ?_⟩
  · rw [← Option.some.inj found]
  rw [step_present rfl]
  refine ⟨⟨trivial, fun _ found => ?_⟩, trivial⟩
  rw [← Option.some.inj found]

/-- The calls by which the token passes a second time. -/
def reopening : List Action :=
  [present, present, .consumeNonce 0, .close [1], .startSession [8], .consumeNonce 0]

/-- **A token passes twice** where its session ends and another one starts between the two parts
of the second call. -/
theorem passes_twice :
    Along (step openMac operator) (Legal openMac operator) (fresh [0]) (opening ++ reopening) ∧
      ¬Along (step openMac operator) PassesOnce (fresh [0]) (opening ++ reopening) ∧
      (run (step openMac operator) (fresh [0]) (opening ++ reopening)).authenticated =
        [sampleToken, sampleToken] := by
  rw [along_append, along_append, run_append, run_opening]
  refine ⟨⟨along_opening.mono fun _ _ both => both.1, legal_present rfl rfl, ?_⟩, ?_, ?_⟩
  · rw [step_present rfl]
    refine ⟨legal_present rfl rfl, ?_⟩
    rw [step_present rfl]
    have new : ([1] : Bytes) ∉ [([0] : Bytes)] := by decide
    exact ⟨trivial, new, trivial, trivial, trivial⟩
  · intro ⟨_, _, both⟩
    rw [step_present rfl] at both
    obtain ⟨_, both⟩ := both
    rw [step_present rfl] at both
    obtain ⟨_, _, _, again, _⟩ := both
    have first := again 0 ⟨sampleToken, "nonce", 105, 0, 1⟩ rfl rfl ⟨_, rfl⟩
      ⟨sampleToken, 110, "nonce", [0], 0⟩ (List.mem_singleton_self _) rfl
    exact first.1 (List.mem_singleton_self _)
  · rw [reopening, run, List.foldl_cons, step_present rfl, List.foldl_cons, step_present rfl]
    rfl

end CapabilityHub.Auth
