import CapabilityHub.Data.Runs
import CapabilityHub.Preferences.Store
import Mathlib.Tactic.Linarith

/-! # Updates of preferences

A call replaces the whole file by what it has read with its own setting written into it. No update is
lost as long as, at each replacement, the call has read every other setting as it is now
(`CapabilityHub.Preferences.updates_kept`); otherwise a change of the locale can undo a quarantine
(`CapabilityHub.Preferences.quarantine_undone`).
-/

namespace CapabilityHub.Preferences

/-- What a payload stores settings under. -/
inductive Slot where
  /-- A key of the document other than `capabilities`. -/
  | key (name : String)
  | coordinate (name : String)
  deriving DecidableEq

/-- What a payload says in a slot. -/
def lookup (payload : Dict String Json) : Slot → Option Json
  | .key name => if name = "capabilities" then none else payload.get? name
  | .coordinate name => mappingGet (capabilitiesOf payload) name

def Setting.slot : Setting → Slot
  | .locale _ => .key "locale"
  | .lifecycle coordinate _ => .coordinate coordinate

/-- Every setting but the one that a replacement writes is as the call has read it. -/
def Undisturbed (scope : Scope) : Action → Prop
  | .start _ => True
  | .finish index => ∀ call payload, scope.calls[index]? = some call → scope.file.read = .ok payload →
      ∀ slot, slot ≠ call.setting.slot → lookup call.base slot = lookup payload slot

/-- What holds of the settings of a scope after calls, when the file was `initial` before them. -/
structure Kept (initial : File) (scope : Scope) : Prop where
  /-- What no call has set is as it was. -/
  untouched : ∀ before payload slot, initial.read = .ok before → scope.file.read = .ok payload →
    (∀ call ∈ scope.finished, call.setting.slot ≠ slot) → lookup payload slot = lookup before slot
  /-- What calls have set is the value of one of them, and none of them started after it returned. -/
  latest : ∀ payload slot, scope.file.read = .ok payload →
    (∃ call ∈ scope.finished, call.setting.slot = slot) →
      ∃ call ∈ scope.finished, call.setting.slot = slot ∧
        lookup payload slot = some call.setting.value ∧
        ∀ other ∈ scope.finished, other.setting.slot = slot → other.started < call.returned
  /-- A quarantine that no other call for the coordinate follows is seen, in a global scope where the
  project says nothing else. -/
  quarantined : ∀ call ∈ scope.finished, ∀ coordinate,
    call.setting = .lifecycle coordinate "quarantined" →
    (∀ other ∈ scope.finished, other.setting.slot = .coordinate coordinate →
      other = call ∨ other.returned ≤ call.started) →
    ∀ otherFile payload, otherFile.read = .ok payload →
      lifecycleState otherFile scope.file coordinate = .ok (some "quarantined") ∧
        ((lookup payload (.coordinate coordinate)).bind stateOf = none →
          lifecycleState scope.file otherFile coordinate = .ok (some "quarantined"))

variable {payload base : Dict String Json} {slot : Slot} {setting : Setting} {scope : Scope}
  {initial : File} {action : Action}

/-! ## One replacement -/

theorem capabilitiesOf_set {key : String} {value : Json} (other : key ≠ "capabilities") :
    capabilitiesOf (payload.set key value) = capabilitiesOf payload := by
  rw [capabilitiesOf, capabilitiesOf, Dict.get?_set_of_ne fun same => other same.symm]

theorem lookup_apply : lookup (setting.apply payload) slot =
    if slot = setting.slot then some setting.value else lookup payload slot := by
  cases setting with
  | locale name =>
      cases slot with
      | key key =>
          simp only [lookup, Setting.apply, Setting.slot, Slot.key.injEq, Dict.get?_set]
          by_cases same : key = "locale"
          · rw [if_pos same, if_pos same, if_neg (by rw [same]; decide)]
          · rw [if_neg same, if_neg same]
      | coordinate coordinate =>
          rw [if_neg (by simp [Setting.slot]), lookup, lookup, Setting.apply,
            capabilitiesOf_set (by decide)]
  | lifecycle coordinate state =>
      cases slot with
      | key key =>
          rw [if_neg (by simp [Setting.slot]), lookup, lookup, Setting.apply]
          by_cases same : key = "capabilities"
          · rw [if_pos same, if_pos same]
          · rw [if_neg same, if_neg same, Dict.get?_set_of_ne same]
      | coordinate other =>
          have stored : capabilitiesOf ((Setting.lifecycle coordinate state).apply payload) =
              assign coordinate (Setting.lifecycle coordinate state).value (capabilitiesOf payload) := by
            rw [capabilitiesOf, Setting.apply, Dict.get?_set_self]
          rw [lookup, stored, mappingGet, lookup_assign, lookup, mappingGet]
          simp only [Setting.slot, Slot.coordinate.injEq]

/-! ## Runs -/

/-- The value of a slot after calls: that of the last one for it. -/
def latestValue (finished : List Finished) (before : Dict String Json) (slot : Slot) : Option Json :=
  match (finished.filter fun call => call.setting.slot = slot).getLast? with
  | some call => some call.setting.value
  | none => lookup before slot

/-- The invariant of a run: the file says in each slot what the last call for it has set. -/
structure Sound (initial : File) (scope : Scope) : Prop where
  readable : (∃ payload, scope.file.read = .ok payload) ∨ scope.calls = [] ∧ scope.finished = []
  stored : ∀ payload, scope.file.read = .ok payload → ∃ before, initial.read = .ok before ∧
    ∀ slot, lookup payload slot = latestValue scope.finished before slot
  started : ∀ call ∈ scope.calls, call.started < scope.clock
  ordered : scope.finished.Pairwise fun earlier later => earlier.returned < later.returned
  spans : ∀ call ∈ scope.finished, call.started < call.returned ∧ call.returned < scope.clock

theorem sound_initial (initial : File) : Sound initial { file := initial } where
  readable := .inr ⟨rfl, rfl⟩
  stored := fun payload read => ⟨payload, read, fun _ => rfl⟩
  started := by simp
  ordered := List.Pairwise.nil
  spans := by simp

theorem latestValue_append {finished : List Finished} {call : Finished} {before : Dict String Json} :
    latestValue (finished ++ [call]) before slot =
      if slot = call.setting.slot then some call.setting.value
      else latestValue finished before slot := by
  rw [latestValue, List.filter_append]
  by_cases same : slot = call.setting.slot
  · simp [same]
  · have other : call.setting.slot ≠ slot := fun equal => same equal.symm
    simp [same, other, latestValue]

theorem Sound.step (sound : Sound initial scope) (undisturbed : Undisturbed scope action) :
    Sound initial (Preferences.step scope action) := by
  cases action with
  | start setting =>
      rw [Preferences.step]
      split
      next payload checked read =>
        refine ⟨.inl ⟨payload, read⟩, sound.stored, fun call member => ?_, sound.ordered,
          fun call member => ?_⟩
        · rcases List.mem_append.mp member with member | member
          · exact Nat.lt_succ_of_lt (sound.started call member)
          · rw [List.mem_singleton.mp member]
            exact Nat.lt_succ_self _
        · exact ⟨(sound.spans call member).1, Nat.lt_succ_of_lt (sound.spans call member).2⟩
      · exact ⟨sound.readable, sound.stored,
          fun call member => Nat.lt_succ_of_lt (sound.started call member), sound.ordered,
          fun call member => ⟨(sound.spans call member).1,
            Nat.lt_succ_of_lt (sound.spans call member).2⟩⟩
  | finish index =>
      rw [Preferences.step]
      split
      next call found =>
        have inside := List.mem_of_getElem? found
        have earlier := sound.started call inside
        obtain ⟨payload, read⟩ : ∃ payload, scope.file.read = .ok payload := by
          refine sound.readable.resolve_right fun none => ?_
          rw [none.1] at inside
          cases inside
        obtain ⟨before, read', stored⟩ := sound.stored payload read
        refine ⟨.inl ⟨_, rfl⟩, ?_, fun other member => ?_, ?_, fun other member => ?_⟩
        · intro written same
          obtain rfl := Except.ok.inj same
          refine ⟨before, read', fun slot => ?_⟩
          rw [lookup_apply, latestValue_append]
          by_cases own : slot = call.setting.slot
          · rw [if_pos own, if_pos own]
          · rw [if_neg own, if_neg own, undisturbed call payload found read slot own, stored slot]
        · exact Nat.lt_succ_of_lt (sound.started other (List.mem_of_mem_eraseIdx member))
        · refine List.pairwise_append.mpr ⟨sound.ordered, List.pairwise_singleton _ _, ?_⟩
          intro other member last inside
          rw [List.mem_singleton.mp inside]
          exact (sound.spans other member).2
        · rcases List.mem_append.mp member with member | member
          · exact ⟨(sound.spans other member).1, Nat.lt_succ_of_lt (sound.spans other member).2⟩
          · rw [List.mem_singleton.mp member]
            exact ⟨earlier, Nat.lt_succ_self _⟩
      · exact sound

/-- The last call for a slot, and that none for it started after it returned. -/
theorem Sound.latest (sound : Sound initial scope) (read : scope.file.read = .ok payload)
    (some : ∃ call ∈ scope.finished, call.setting.slot = slot) :
    ∃ call ∈ scope.finished, call.setting.slot = slot ∧
      lookup payload slot = .some call.setting.value ∧
      ∀ other ∈ scope.finished, other.setting.slot = slot → other.started < call.returned := by
  obtain ⟨before, _, stored⟩ := sound.stored payload read
  have value := stored slot
  rw [latestValue] at value
  cases found : (scope.finished.filter fun call => call.setting.slot = slot).getLast? with
  | none =>
      obtain ⟨call, member, own⟩ := some
      have empty := List.getLast?_eq_none_iff.mp found
      have inside : call ∈ scope.finished.filter fun call => call.setting.slot = slot :=
        List.mem_filter.mpr ⟨member, by simpa using own⟩
      rw [empty] at inside
      cases inside
  | some call =>
      rw [found] at value
      have inside := List.mem_filter.mp (List.mem_of_getLast? found)
      refine ⟨call, inside.1, by simpa using inside.2, value, fun other member own => ?_⟩
      obtain ⟨front, shape⟩ := List.getLast?_eq_some_iff.mp found
      have ordered := sound.ordered.sublist (List.filter_sublist (p := fun call : Finished =>
        decide (call.setting.slot = slot)))
      rw [shape] at ordered
      have member' : other ∈ front ++ [call] := by
        rw [← shape]
        exact List.mem_filter.mpr ⟨member, by simpa using own⟩
      rcases List.mem_append.mp member' with before | last
      · exact (sound.spans other member).1.trans
          ((List.pairwise_append.mp ordered).2.2 other before call List.mem_cons_self)
      · rw [List.mem_singleton.mp last]
        exact (sound.spans call inside.1).1

theorem Sound.kept (sound : Sound initial scope) : Kept initial scope where
  untouched := by
    intro before payload slot read read' none
    obtain ⟨first, read'', stored⟩ := sound.stored payload read'
    obtain rfl := Except.ok.inj (read.symm.trans read'')
    have empty : (scope.finished.filter fun call => call.setting.slot = slot) = [] :=
      List.filter_eq_nil_iff.mpr fun call member => by simpa using none call member
    rw [stored slot, latestValue, empty]
    rfl
  latest := fun payload slot read some => sound.latest read some
  quarantined := by
    intro call member coordinate set alone otherFile payload read
    have own : call.setting.slot = .coordinate coordinate := by rw [set]; rfl
    obtain ⟨current, read'⟩ : ∃ current, scope.file.read = .ok current := by
      refine sound.readable.resolve_right fun none => ?_
      rw [none.2] at member
      cases member
    obtain ⟨last, inside, same, value, later⟩ := sound.latest read' ⟨call, member, own⟩
    have only : last = call := by
      refine (alone last inside same).resolve_right fun before => ?_
      exact absurd (later call member own) (Nat.not_lt.mpr before)
    have stored : (mappingGet (capabilitiesOf current) coordinate).bind stateOf =
        some "quarantined" := by
      rw [lookup, only, set] at value
      rw [value]
      rfl
    rw [lookup]
    refine ⟨?_, fun none => ?_⟩
    · rw [lifecycleState, read, read']
      simp only [bind_eq_ok, pure_eq_ok, Except.ok.injEq]
      exact ⟨_, rfl, _, rfl, by rw [stored, Option.some_or]⟩
    · rw [lifecycleState, read, read']
      simp only [bind_eq_ok, pure_eq_ok, Except.ok.injEq]
      exact ⟨_, rfl, _, rfl, by rw [none, stored]; rfl⟩

/-- **No update is lost** in a run in which each call has read all other settings as they are when it
replaces the file. -/
theorem updates_kept (initial : File) (actions : List Action)
    (undisturbed : Along step Undisturbed { file := initial } actions) :
    Kept initial (run step { file := initial } actions) :=
  (undisturbed.invariant (sound_initial initial) fun _ _ allowed sound => sound.step allowed).kept

/-- Two calls for the locale that overlap, and a quarantine after them. -/
def overlapping : List Action :=
  [.start (.locale "en"), .start (.locale "zh-CN"), .finish 1, .finish 0,
    .start (.lifecycle "acme/tool" "quarantined"), .finish 0]

theorem updates_kept_overlapping :
    Kept .absent (run step { file := .absent } overlapping) := by
  refine updates_kept .absent overlapping ⟨trivial, trivial, ?_, ?_, trivial, ?_, trivial⟩
  · intro call payload found read slot other
    obtain rfl := Option.some.inj found
    obtain rfl := Except.ok.inj read
    rfl
  · intro call payload found read slot other
    obtain rfl := Option.some.inj found
    obtain rfl := Except.ok.inj read
    have written (payload : Dict String Json) :
        lookup ((Setting.locale "zh-CN").apply payload) slot = lookup payload slot :=
      lookup_apply.trans (if_neg other)
    exact (written _).symm
  · intro call payload found read slot other
    obtain rfl := Option.some.inj found
    obtain rfl := Except.ok.inj read
    rfl

/-- A change of the locale, between whose two steps a capability is quarantined. -/
def undoing : List Action :=
  [.start (.locale "en"), .start (.lifecycle "acme/tool" "quarantined"), .finish 1, .finish 0]

/-- The quarantine is undone. -/
theorem quarantine_undone : ¬∀ (initial : File) (actions : List Action),
    (run step { file := initial } actions).calls = [] →
      Kept initial (run step { file := initial } actions) := by
  intro claimed
  have kept := claimed .absent undoing rfl
  have alone : ∀ other ∈ (run step { file := .absent } undoing).finished,
      other.setting.slot = .coordinate "acme/tool" →
        other = ⟨.lifecycle "acme/tool" "quarantined", 1, 2⟩ ∨ other.returned ≤ 1 := by
    decide
  have seen := (kept.quarantined ⟨.lifecycle "acme/tool" "quarantined", 1, 2⟩ (by decide) "acme/tool"
    rfl alone .absent _ rfl).1
  have lost : lifecycleState .absent (run step { file := .absent } undoing).file "acme/tool" =
      .ok none := rfl
  rw [lost] at seen
  cases seen

end CapabilityHub.Preferences
