import CapabilityHub.OpenApi.Walk
import Mathlib.Data.List.Perm.Subperm

/-! # Inlining of references

The walk follows the references in the order of the document. `Clears` and `Revisits` say what it
finds on its way; from them follows when `_schema` does with cycles and references what it is for
(`CapabilityHub.OpenApi.schema_inlines_iff`).
-/

namespace CapabilityHub.OpenApi

section

variable (root : Json)

/-- **Clears**: following the reference returns, and every object on its way is admitted. -/
inductive Clears (admits : Json → Prop) : List String → String → Prop
  | follow {seen : List String} {reference : String} {fields : List (String × Json)}
      (fresh : reference ∉ seen) (found : resolvePointer root reference = .ok (.obj fields))
      (admitted : admits (.obj fields))
      (below : ∀ next ∈ visible (.obj fields), Clears admits (seen ++ [reference]) next) :
      Clears admits seen reference

/-- **Revisits**: following the reference meets one that is on its way, before any that is not found. -/
inductive Revisits : List String → String → Prop
  | here {seen : List String} {reference : String} (again : reference ∈ seen) : Revisits seen reference
  | onward {seen : List String} {reference : String} {fields : List (String × Json)}
      {before after : List String} {next : String}
      (fresh : reference ∉ seen) (found : resolvePointer root reference = .ok (.obj fields))
      (met : visible (.obj fields) = before ++ next :: after)
      (passed : ∀ earlier ∈ before, Clears root (fun _ => True) (seen ++ [reference]) earlier)
      (revisits : Revisits (seen ++ [reference]) next) :
      Revisits seen reference

/-- The walk from a value comes to a reference that is on its way. -/
def WalkRevisits (value : Json) : Prop :=
  ∃ before reference after, visible value = before ++ reference :: after ∧
    (∀ earlier ∈ before, Clears root (fun _ => True) [] earlier) ∧ Revisits root [] reference

/-- The walk from a value goes through, and no reference is hidden from it. -/
def WalkClears (value : Json) : Prop :=
  Shows value ∧ ∀ reference ∈ visible value, Clears root Shows [] reference

end

variable {root value result target : Json} {seen : List String} {reference : String} {depth : Nat}
  {admits : Json → Prop}

/-! ## Following a reference -/

theorem followReference_of_mem (again : reference ∈ seen) :
    followReference root depth seen reference = .error (.raised cycleError) := by
  rw [followReference.eq_def, if_pos again]

theorem followReference_zero (fresh : reference ∉ seen) :
    followReference root 0 seen reference = .error .tooDeep := by
  rw [followReference.eq_def, if_neg fresh]

theorem followReference_succ (fresh : reference ∉ seen) :
    followReference root (depth + 1) seen reference =
      resolvePointer root reference >>=
        schemaWith (followReference root depth (seen ++ [reference])) := by
  rw [followReference.eq_def, if_neg fresh]

theorem schemaWith_eq_ok {follow : String → Except Halt Json} :
    schemaWith follow value = .ok result ↔
      ∃ fields, value = .obj fields ∧ inlined follow value = .ok result := by
  cases value <;> simp [schemaWith]

/-- Following a reference returns when it resolves to an object over which the walk returns. -/
theorem followReference_eq_ok :
    followReference root depth seen reference = .ok result ↔
      reference ∉ seen ∧ ∃ rest fields, depth = rest + 1 ∧
        resolvePointer root reference = .ok (.obj fields) ∧
        inlined (followReference root rest (seen ++ [reference])) (.obj fields) = .ok result := by
  by_cases again : reference ∈ seen
  · rw [followReference_of_mem again]
    exact iff_of_false (fun absurd => by cases absurd) fun both => both.1 again
  cases depth with
  | zero =>
      rw [followReference_zero again]
      apply iff_of_false
      · intro absurd
        cases absurd
      · rintro ⟨-, rest, fields, absurd, -⟩
        cases absurd
  | succ rest =>
      rw [followReference_succ again, bind_eq_ok]
      constructor
      · rintro ⟨resolved, found, done⟩
        obtain ⟨fields, rfl, ran⟩ := schemaWith_eq_ok.mp done
        exact ⟨again, rest, fields, rfl, found, ran⟩
      · rintro ⟨-, rest', fields, same, found, ran⟩
        cases same
        exact ⟨.obj fields, found, schemaWith_eq_ok.mpr ⟨fields, rfl, ran⟩⟩

theorem givesObjects_followReference :
    ∀ depth seen, GivesObjects (followReference root depth seen) := by
  intro depth
  induction depth with
  | zero =>
      intro seen reference result done
      obtain ⟨-, rest, fields, absurd, -⟩ := followReference_eq_ok.mp done
      cases absurd
  | succ depth ih =>
      intro seen reference result done
      obtain ⟨-, rest, fields, same, found, ran⟩ := followReference_eq_ok.mp done
      cases same
      cases named : refOf fields with
      | some next =>
          rw [inlined, named] at ran
          exact ih _ next result ran
      | none =>
          obtain ⟨members, -, rfl⟩ := (inlined_obj_eq_ok named).mp ran
          exact ⟨members, rfl⟩

/-- Where following a reference returns, the walk clears. -/
theorem clears_of_ok (done : followReference root depth seen reference = .ok result) :
    Clears root (fun _ => True) seen reference := by
  induction depth generalizing seen reference result with
  | zero =>
      obtain ⟨-, rest, fields, absurd, -⟩ := followReference_eq_ok.mp done
      cases absurd
  | succ depth ih =>
      obtain ⟨fresh, rest, fields, same, found, ran⟩ := followReference_eq_ok.mp done
      cases same
      refine .follow fresh found trivial ?_
      intro next met
      obtain ⟨inner, followed⟩ := inlined_ok_iff.mp ⟨result, ran⟩ next met
      exact ih followed

/-- Where the walk clears, following the reference returns, except at the bound. -/
theorem Clears.ok_or_tooDeep (clears : Clears root admits seen reference) (depth : Nat) :
    (∃ result, followReference root depth seen reference = .ok result) ∨
      followReference root depth seen reference = .error .tooDeep := by
  induction clears generalizing depth with
  | @follow seen reference fields fresh found admitted below ih =>
      cases depth with
      | zero => exact .inr (followReference_zero fresh)
      | succ depth =>
          rw [followReference_succ fresh, found, ok_bind, schemaWith]
          cases ran : inlined (followReference root depth (seen ++ [reference])) (.obj fields) with
          | ok result => exact .inl ⟨result, rfl⟩
          | error halt =>
              right
              obtain ⟨before, next, after, met, -, stopped⟩ := inlined_error ran
              have inside : next ∈ visible (.obj fields) := by
                rw [met]
                exact List.mem_append_right _ List.mem_cons_self
              rcases ih next inside depth with ⟨result, done⟩ | deep
              · rw [done] at stopped
                cases stopped
              · rw [deep] at stopped
                cases stopped
                rfl

/-- Where the walk over a value meets the references of `before` and then `reference`. -/
theorem inlined_stops_at {follow : String → Except Halt Json} {before after : List String} {halt : Halt}
    (met : visible value = before ++ reference :: after)
    (passed : ∀ earlier ∈ before,
      (∃ result, follow earlier = .ok result) ∨ follow earlier = .error .tooDeep)
    (stopped : follow reference = .error halt) :
    inlined follow value = .error halt ∨ inlined follow value = .error .tooDeep := by
  suffices ended : settled (inlined follow value) = .error halt ∨
      settled (inlined follow value) = .error .tooDeep from
    ended.imp settled_eq_error.mp settled_eq_error.mp
  rw [settled_inlined, met]
  clear met
  induction before with
  | nil =>
      rw [List.nil_append, List.forM_cons, stopped]
      exact .inl rfl
  | cons first rest ih =>
      rw [List.cons_append, List.forM_cons]
      rcases passed first List.mem_cons_self with ⟨result, done⟩ | deep
      · rw [done]
        exact ih fun earlier mem => passed earlier (List.mem_cons_of_mem first mem)
      · rw [deep]
        exact .inr rfl

/-- Where the walk revisits, following the reference is a cycle, except at the bound. -/
theorem Revisits.cycle_or_tooDeep (revisits : Revisits root seen reference) (depth : Nat) :
    followReference root depth seen reference = .error (.raised cycleError) ∨
      followReference root depth seen reference = .error .tooDeep := by
  induction revisits generalizing depth with
  | here again => exact .inl (followReference_of_mem again)
  | @onward seen reference fields before after next fresh found met passed revisits ih =>
      cases depth with
      | zero => exact .inr (followReference_zero fresh)
      | succ depth =>
          rw [followReference_succ fresh, found, ok_bind, schemaWith]
          have before_passes := fun earlier mem => (passed earlier mem).ok_or_tooDeep depth
          rcases ih depth with cycle | deep
          · exact inlined_stops_at met before_passes cycle
          · exact .inr ((inlined_stops_at met before_passes deep).elim id id)

theorem resolveParts_error {parts : List String} {halt : Halt}
    (failed : resolveParts value parts = .error halt) : halt = .raised notFoundError := by
  induction parts generalizing value with
  | nil => cases value <;> cases failed
  | cons part rest ih =>
      cases value with
      | obj fields =>
          rw [resolveParts] at failed
          cases member : mappingGet fields part with
          | some inner =>
              rw [member] at failed
              exact ih failed
          | none =>
              rw [member] at failed
              cases failed
              rfl
      | _ =>
          cases failed
          rfl

theorem resolvePointer_error {halt : Halt} (failed : resolvePointer root reference = .error halt) :
    halt = .raised notFoundError ∨ halt = .raised remoteError := by
  rw [resolvePointer] at failed
  cases pointed : pointerParts? reference with
  | some parts =>
      rw [pointed] at failed
      exact .inl (resolveParts_error failed)
  | none =>
      rw [pointed] at failed
      cases failed
      exact .inr rfl

theorem notFoundError_ne : notFoundError ≠ cycleError := by decide

theorem remoteError_ne : remoteError ≠ cycleError := by decide

theorem invalidError_ne : invalidError ≠ cycleError := by decide

/-- Where following a reference is a cycle, the walk revisits. -/
theorem revisits_of_cycle (cycle : followReference root depth seen reference = .error (.raised cycleError)) :
    Revisits root seen reference := by
  induction depth generalizing seen reference with
  | zero =>
      by_cases again : reference ∈ seen
      · exact .here again
      · rw [followReference_zero again] at cycle
        cases cycle
  | succ depth ih =>
      by_cases again : reference ∈ seen
      · exact .here again
      rw [followReference_succ again] at cycle
      cases found : resolvePointer root reference with
      | error halt =>
          rw [found] at cycle
          cases cycle
          rcases resolvePointer_error found with same | same
          · exact absurd (Halt.raised.inj same).symm notFoundError_ne
          · exact absurd (Halt.raised.inj same).symm remoteError_ne
      | ok resolved =>
          rw [found, ok_bind] at cycle
          cases resolved with
          | obj fields =>
              obtain ⟨before, next, after, met, passed, stopped⟩ := inlined_error cycle
              refine .onward again found met ?_ (ih stopped)
              intro earlier mem
              obtain ⟨inner, done⟩ := passed earlier mem
              exact clears_of_ok done
          | _ => exact absurd (Halt.raised.inj (Except.error.inj cycle)) invalidError_ne

/-! ## The bound -/

mutual

/-- The references of all objects inside a value. -/
def allReferences : Json → List String
  | .obj fields => (refOf fields).toList ++ allReferencesOfMembers fields
  | .arr items => allReferencesOfItems items
  | _ => []

def allReferencesOfMembers : List (String × Json) → List String
  | [] => []
  | (_, value) :: rest => allReferences value ++ allReferencesOfMembers rest

def allReferencesOfItems : List Json → List String
  | [] => []
  | item :: rest => allReferences item ++ allReferencesOfItems rest

end

mutual

theorem visible_subset_all (value : Json) : visible value ⊆ allReferences value := by
  match value with
  | .obj fields =>
      rw [visible, referencesIn, allReferences]
      cases refOf fields with
      | some reference => exact List.subset_append_left _ _
      | none => exact visible_subset_all_members fields
  | .arr items =>
      rw [visible, referencesIn, allReferences]
      exact visible_subset_all_items items
  | .null | .bool _ | .int _ | .str _ => exact List.Subset.refl _

theorem visible_subset_all_members (fields : List (String × Json)) :
    referencesOfMembers false fields ⊆ allReferencesOfMembers fields := by
  match fields with
  | [] => exact List.Subset.refl _
  | (key, value) :: rest =>
      rw [referencesOfMembers, allReferencesOfMembers]
      exact List.append_subset.mpr
        ⟨List.subset_append_of_subset_left _ (visible_subset_all value),
          List.subset_append_of_subset_right _ (visible_subset_all_members rest)⟩

theorem visible_subset_all_items (items : List Json) :
    referencesOfItems false items ⊆ allReferencesOfItems items := by
  match items with
  | [] => exact List.Subset.refl _
  | item :: rest =>
      have first : itemReferences false (visible item) item ⊆ allReferences item := by
        cases item with
        | arr inner => exact List.nil_subset _
        | _ => exact visible_subset_all _
      rw [referencesOfItems, allReferencesOfItems]
      exact List.append_subset.mpr
        ⟨List.subset_append_of_subset_left _ first,
          List.subset_append_of_subset_right _ (visible_subset_all_items rest)⟩

end

theorem allReferences_member {fields : List (String × Json)} {name : String} {value : Json}
    (found : mappingGet fields name = some value) : allReferences value ⊆ allReferencesOfMembers fields := by
  induction fields with
  | nil => cases found
  | cons field rest ih =>
      obtain ⟨key, first⟩ := field
      rw [mappingGet, List.lookup_cons] at found
      rw [allReferencesOfMembers]
      by_cases same : (name == key) = true
      · rw [same] at found
        cases found
        exact List.subset_append_left _ _
      · rw [Bool.not_eq_true] at same
        rw [same] at found
        exact List.subset_append_of_subset_right _ (ih found)

/-- What a pointer resolves to is inside the document. -/
theorem allReferences_resolveParts {parts : List String}
    (found : resolveParts value parts = .ok target) : allReferences target ⊆ allReferences value := by
  induction parts generalizing value with
  | nil =>
      cases value <;> cases found <;> exact List.Subset.refl _
  | cons part rest ih =>
      cases value with
      | obj fields =>
          rw [resolveParts] at found
          cases member : mappingGet fields part with
          | some inner =>
              rw [member] at found
              rw [allReferences]
              exact List.Subset.trans (List.Subset.trans (ih found) (allReferences_member member))
                (List.subset_append_right _ _)
          | none =>
              rw [member] at found
              cases found
      | _ => cases found

theorem allReferences_resolvePointer (found : resolvePointer root reference = .ok target) :
    allReferences target ⊆ allReferences root := by
  rw [resolvePointer] at found
  cases pointed : pointerParts? reference with
  | some parts =>
      rw [pointed] at found
      exact allReferences_resolveParts found
  | none =>
      rw [pointed] at found
      cases found

/-- The references on the way are different ones of the document, so the bound is not met. -/
theorem followReference_ne_tooDeep {all : List String} (inside : allReferences root ⊆ all)
    (distinct : seen.Nodup) (way : seen ⊆ all) (mem : reference ∈ all)
    (enough : all.length ≤ seen.length + depth) :
    followReference root depth seen reference ≠ .error .tooDeep := by
  induction depth generalizing seen reference with
  | zero =>
      by_cases again : reference ∈ seen
      · rw [followReference_of_mem again]
        intro absurd
        cases absurd
      · have counted := (List.Nodup.subperm (List.nodup_cons.mpr ⟨again, distinct⟩)
          (List.cons_subset.mpr ⟨mem, way⟩)).length_le
        rw [List.length_cons] at counted
        omega
  | succ depth ih =>
      by_cases again : reference ∈ seen
      · rw [followReference_of_mem again]
        intro absurd
        cases absurd
      rw [followReference_succ again]
      cases found : resolvePointer root reference with
      | error halt =>
          intro deep
          cases deep
          rcases resolvePointer_error found with absurd | absurd <;> cases absurd
      | ok resolved =>
          rw [ok_bind]
          cases resolved with
          | obj fields =>
              intro deep
              obtain ⟨before, next, after, met, -, stopped⟩ := inlined_error deep
              refine ih ?_ ?_ ?_ ?_ stopped
              · exact List.nodup_append_comm.mp (List.nodup_cons.mpr ⟨again, distinct⟩)
              · exact List.append_subset.mpr ⟨way, List.cons_subset.mpr ⟨mem, List.nil_subset _⟩⟩
              · apply inside
                apply allReferences_resolvePointer found
                apply visible_subset_all
                rw [met]
                exact List.mem_append_right _ List.mem_cons_self
              · rw [List.length_append, List.length_singleton]
                omega
          | _ =>
              intro deep
              cases deep

/-! ## What the walk says about the references -/

theorem foldlM_of_resolveParts {parts : List String} (found : resolveParts value parts = .ok target) :
    parts.foldlM stepInto value = some target := by
  induction parts generalizing value with
  | nil =>
      cases value <;> cases found <;> rfl
  | cons part rest ih =>
      cases value with
      | obj fields =>
          rw [resolveParts] at found
          rw [List.foldlM_cons, stepInto]
          cases member : mappingGet fields part with
          | some inner =>
              rw [member] at found
              exact ih found
          | none =>
              rw [member] at found
              cases found
      | _ => cases found

/-- A reference denotes what it resolves to. -/
theorem denoted_of_resolvePointer (found : resolvePointer root reference = .ok target) :
    denoted root reference = some target := by
  rw [resolvePointer] at found
  rw [denoted]
  cases pointed : pointerParts? reference with
  | some parts =>
      rw [pointed] at found
      exact foldlM_of_resolveParts found
  | none =>
      rw [pointed] at found
      cases found

theorem leads_of_visible {next : String} (found : resolvePointer root reference = .ok target)
    (met : next ∈ visible target) : Leads root reference next :=
  ⟨target, denoted_of_resolvePointer found, visible_subset target met⟩

/-- A reference that the walk meets again leads back to itself. -/
theorem Revisits.leads (revisits : Revisits root seen reference) :
    (∃ earlier ∈ seen, Relation.ReflTransGen (Leads root) reference earlier) ∨
      ∃ looping, Relation.ReflTransGen (Leads root) reference looping ∧
        Relation.TransGen (Leads root) looping looping := by
  induction revisits with
  | here again => exact .inl ⟨_, again, .refl⟩
  | @onward seen reference fields before after next fresh found met passed revisits ih =>
      have step : Leads root reference next := by
        apply leads_of_visible found
        rw [met]
        exact List.mem_append_right _ List.mem_cons_self
      rcases ih with ⟨earlier, mem, path⟩ | ⟨looping, path, loop⟩
      · rcases List.mem_append.mp mem with old | new
        · exact .inl ⟨earlier, old, .head step path⟩
        · rw [List.mem_singleton] at new
          subst new
          exact .inr ⟨earlier, .refl, .head' step path⟩
      · exact .inr ⟨looping, .head step path, loop⟩

theorem WalkRevisits.cyclic (revisits : WalkRevisits root value) : Cyclic root value := by
  obtain ⟨before, reference, after, met, -, again⟩ := revisits
  have first : reference ∈ references value := by
    apply visible_subset
    rw [met]
    exact List.mem_append_right _ List.mem_cons_self
  rcases again.leads with ⟨earlier, absurd, -⟩ | ⟨looping, path, loop⟩
  · cases absurd
  · exact ⟨looping, ⟨reference, first, path⟩, loop⟩

/-- References from which the walk clears do not lead on for ever. -/
theorem Clears.acc (clears : Clears root Shows seen reference) :
    Acc (Function.swap (Leads root)) reference := by
  induction clears with
  | @follow seen reference fields fresh found admitted below ih =>
      refine ⟨_, fun next leads => ?_⟩
      obtain ⟨target, denotes, inside⟩ := leads
      rw [denoted_of_resolvePointer found] at denotes
      cases denotes
      rw [← admitted.visible_eq] at inside
      exact ih next inside

theorem not_transGen_of_acc {α : Type} {related : α → α → Prop} {item : α}
    (acc : Acc (Function.swap related) item) : ¬Relation.TransGen related item item := by
  intro loop
  have below := acc.transGen
  rw [← Relation.transGen_swap] at loop
  clear acc
  induction below with
  | intro item _ ih => exact ih item loop loop

theorem WalkClears.not_cyclic (clears : WalkClears root value) : ¬Cyclic root value := by
  rintro ⟨reference, ⟨first, inside, path⟩, loop⟩
  rw [← clears.1.visible_eq] at inside
  have acc : Acc (Function.swap (Leads root)) reference := by
    clear loop
    induction path with
    | refl => exact (clears.2 _ inside).acc
    | tail _ step ih => exact ih.inv step
  exact not_transGen_of_acc acc loop

/-! ## What the walk says about the result -/

/-- Where a reference clears, nothing is left to replace in what it gives. -/
theorem Clears.replaces (clears : Clears root Shows seen reference)
    (done : followReference root depth seen reference = .ok result) :
    references result = [] ∧ replaced root depth reference = some result := by
  induction clears generalizing depth result with
  | @follow seen reference fields fresh found admitted below ih =>
      obtain ⟨-, rest, members, rfl, same, ran⟩ := followReference_eq_ok.mp done
      rw [found] at same
      cases same
      constructor
      · rw [references_inlined (givesObjects_followReference _ _) ran]
        exact ⟨admitted, fun next met target followed => (ih next met followed).1⟩
      · rw [replaced, denoted_of_resolvePointer found]
        exact substitute_of_inlined admitted ran fun next met target followed => (ih next met followed).2

/-- A result with no reference left comes from a walk to which none was hidden. -/
theorem clears_of_references_nil (done : followReference root depth seen reference = .ok result)
    (bare : references result = []) : Clears root Shows seen reference := by
  induction depth generalizing seen reference result with
  | zero =>
      obtain ⟨-, rest, fields, absurd, -⟩ := followReference_eq_ok.mp done
      cases absurd
  | succ depth ih =>
      obtain ⟨fresh, rest, fields, same, found, ran⟩ := followReference_eq_ok.mp done
      cases same
      obtain ⟨shows, each⟩ := (references_inlined (givesObjects_followReference _ _) ran).mp bare
      refine .follow fresh found shows ?_
      intro next met
      obtain ⟨inner, followed⟩ := inlined_ok_iff.mp ⟨result, ran⟩ next met
      exact ih followed (each next met inner followed)

/-! ## The whole -/

/-- How many references there are to follow. -/
def referenceCount (root value : Json) : Nat := (allReferences root ++ allReferences value).length

variable {fields : List (String × Json)}

theorem schema_ne_tooDeep (enough : referenceCount root (.obj fields) ≤ depth) :
    schema root depth (.obj fields) ≠ .error .tooDeep := by
  intro deep
  obtain ⟨before, reference, after, met, -, stopped⟩ := inlined_error deep
  refine followReference_ne_tooDeep (List.subset_append_left _ (allReferences (.obj fields)))
    List.nodup_nil (List.nil_subset _) ?_ ?_ stopped
  · apply List.mem_append_right
    apply visible_subset_all
    rw [met]
    exact List.mem_append_right _ List.mem_cons_self
  · rw [List.length_nil, Nat.zero_add]
    exact enough

theorem schema_eq_cycle_iff (returns : schema root depth (.obj fields) ≠ .error .tooDeep) :
    schema root depth (.obj fields) = .error (.raised cycleError) ↔ WalkRevisits root (.obj fields) := by
  constructor
  · intro cycle
    obtain ⟨before, reference, after, met, passed, stopped⟩ := inlined_error cycle
    refine ⟨before, reference, after, met, ?_, revisits_of_cycle stopped⟩
    intro earlier mem
    obtain ⟨inner, done⟩ := passed earlier mem
    exact clears_of_ok done
  · rintro ⟨before, reference, after, met, passed, revisits⟩
    have before_passes := fun earlier mem => (passed earlier mem).ok_or_tooDeep depth
    rcases revisits.cycle_or_tooDeep depth with cycle | deep
    · exact (inlined_stops_at met before_passes cycle).resolve_right returns
    · exact absurd ((inlined_stops_at met before_passes deep).elim id id) returns

theorem schema_bare_iff (returns : schema root depth (.obj fields) ≠ .error .tooDeep) :
    (∃ result, schema root depth (.obj fields) = .ok result ∧ references result = []) ↔
      WalkClears root (.obj fields) := by
  constructor
  · rintro ⟨result, done, bare⟩
    obtain ⟨shows, each⟩ := (references_inlined (givesObjects_followReference _ _) done).mp bare
    refine ⟨shows, ?_⟩
    intro reference met
    obtain ⟨inner, followed⟩ := inlined_ok_iff.mp ⟨result, done⟩ reference met
    exact clears_of_references_nil followed (each reference met inner followed)
  · rintro ⟨shows, clears⟩
    cases ran : schema root depth (.obj fields) with
    | error halt =>
        obtain ⟨before, reference, after, met, -, stopped⟩ := inlined_error ran
        have inside : reference ∈ visible (.obj fields) := by
          rw [met]
          exact List.mem_append_right _ List.mem_cons_self
        rcases (clears reference inside).ok_or_tooDeep depth with ⟨inner, done⟩ | deep
        · rw [done] at stopped
          cases stopped
        · rw [deep] at stopped
          cases stopped
          exact absurd ran returns
    | ok result =>
        refine ⟨result, rfl, ?_⟩
        rw [references_inlined (givesObjects_followReference _ _) ran]
        exact ⟨shows, fun reference met target followed => ((clears reference met).replaces followed).1⟩

theorem WalkClears.expands (clears : WalkClears root (.obj fields))
    (done : schema root depth (.obj fields) = .ok result) : Expands root (.obj fields) result :=
  ⟨depth, substitute_of_inlined clears.1 done fun reference met _ followed =>
    ((clears.2 reference met).replaces followed).2⟩

/-- `_schema` ends, and it inlines a document whose references all denote objects exactly when its walk
comes to a reference on its way before one that it does not find, or finds them all and passes no array
inside an array that holds a reference. -/
theorem schema_inlines_iff (root : Json) (fields : List (String × Json)) (depth : Nat)
    (enough : referenceCount root (.obj fields) ≤ depth) :
    schema root depth (.obj fields) ≠ .error .tooDeep ∧
      (Inlines root (.obj fields) (schema root depth (.obj fields)) ↔
        (Resolvable root (.obj fields) →
          WalkRevisits root (.obj fields) ∨ WalkClears root (.obj fields))) := by
  have returns := schema_ne_tooDeep enough
  refine ⟨returns, ?_⟩
  constructor
  · intro inlines resolvable
    obtain ⟨cycle_iff, expands⟩ := inlines resolvable
    by_cases cyclic : Cyclic root (.obj fields)
    · exact .inl ((schema_eq_cycle_iff returns).mp (cycle_iff.mpr cyclic))
    · obtain ⟨result, done, bare, -⟩ := expands cyclic
      exact .inr ((schema_bare_iff returns).mp ⟨result, done, bare⟩)
  · intro walk resolvable
    rcases walk resolvable with revisits | clears
    · exact ⟨iff_of_true ((schema_eq_cycle_iff returns).mpr revisits) revisits.cyclic,
        fun acyclic => absurd revisits.cyclic acyclic⟩
    · obtain ⟨result, done, bare⟩ := (schema_bare_iff returns).mpr clears
      refine ⟨iff_of_false ?_ clears.not_cyclic, fun _ => ⟨result, done, bare, clears.expands done⟩⟩
      rw [done]
      intro absurd
      cases absurd

/-- A reference to an object without references is replaced by it. -/
theorem reference_inlines :
    referenceCount (.obj [("a", .obj [])]) (.obj [("b", .obj [("$ref", .str "#/a")])]) ≤ 1 ∧
      schema (.obj [("a", .obj [])]) 1 (.obj [("b", .obj [("$ref", .str "#/a")])]) ≠ .error .tooDeep ∧
      (Inlines (.obj [("a", .obj [])]) (.obj [("b", .obj [("$ref", .str "#/a")])])
        (schema (.obj [("a", .obj [])]) 1 (.obj [("b", .obj [("$ref", .str "#/a")])])) ↔
        (Resolvable (.obj [("a", .obj [])]) (.obj [("b", .obj [("$ref", .str "#/a")])]) →
          WalkRevisits (.obj [("a", .obj [])]) (.obj [("b", .obj [("$ref", .str "#/a")])]) ∨
            WalkClears (.obj [("a", .obj [])]) (.obj [("b", .obj [("$ref", .str "#/a")])]))) :=
  ⟨by decide, schema_inlines_iff _ _ 1 (by decide)⟩

/-! ## An array inside an array -/

/-- A schema with a reference in an array that is an item of an array. -/
def nestedFields : List (String × Json) := [("enum", .arr [.arr [.obj [("$ref", .str "#/a")]]])]

/-- The reference in the inner array stays. -/
theorem nested_array_not_inlined :
    ¬∀ (root : Json) (fields : List (String × Json)) (depth : Nat),
      referenceCount root (.obj fields) ≤ depth →
        Inlines root (.obj fields) (schema root depth (.obj fields)) := by
  intro always
  have inlines := always (.obj [("a", .obj [])]) nestedFields 1 (by decide)
  have ends : ∀ next, ¬Leads (.obj [("a", .obj [])]) "#/a" next := by
    rintro next ⟨target, denotes, inside⟩
    cases denotes
    cases inside
  have only : ∀ reference, Reachable (.obj [("a", .obj [])]) (.obj nestedFields) reference →
      reference = "#/a" := by
    rintro reference ⟨first, inside, path⟩
    have first_is : first = "#/a" := List.mem_singleton.mp inside
    subst first_is
    rcases path.cases_head with same | ⟨next, leads, -⟩
    · exact same.symm
    · exact absurd leads (ends next)
  have resolvable : Resolvable (.obj [("a", .obj [])]) (.obj nestedFields) := by
    intro reference reachable
    rw [only reference reachable]
    exact ⟨[], rfl⟩
  obtain ⟨-, expands⟩ := inlines resolvable
  have acyclic : ¬Cyclic (.obj [("a", .obj [])]) (.obj nestedFields) := by
    rintro ⟨reference, reachable, loop⟩
    rw [only reference reachable] at loop
    obtain ⟨next, leads, -⟩ := Relation.TransGen.head'_iff.mp loop
    exact ends next leads
  obtain ⟨result, done, bare, -⟩ := expands acyclic
  cases done
  cases bare

end CapabilityHub.OpenApi
