import CapabilityHub.OpenApi.References
import CapabilityHub.Data.Checks

/-! # The walk over one value

`_schema` inside one value, for any way to follow the references that it meets: where it stops, which
references its result still has, and when it puts the same in their places as `substitute`.
-/

namespace CapabilityHub.OpenApi

/-! ## One value -/

section

variable {follow : String → Except Halt Json} {replacement : String → Option Json}

/-- Whether a call returns. -/
def settled {α : Type} (outcome : Except Halt α) : Except Halt Unit := outcome.map fun _ => ()

@[simp]
theorem settled_pure {α : Type} (result : α) : settled (pure result : Except Halt α) = .ok () := rfl

@[simp]
theorem settled_ok {α : Type} (result : α) : settled (.ok result) = .ok () := rfl

@[simp]
theorem settled_error {α : Type} (halt : Halt) : settled (.error halt : Except Halt α) = .error halt := rfl

theorem settled_bind {α β : Type} (outcome : Except Halt α) (next : α → Except Halt β)
    {rest : Except Halt Unit} (same : ∀ result, settled (next result) = rest) :
    settled (outcome >>= next) = settled outcome >>= fun _ => rest := by
  cases outcome with
  | error halt => rfl
  | ok result => exact same result

mutual

/-- The walk returns if every visible reference does, and else ends as the first that does not. -/
theorem settled_inlined (value : Json) :
    settled (inlined follow value) = forM (visible value) fun reference => settled (follow reference) := by
  match value with
  | .obj fields =>
      rw [inlined, visible, referencesIn]
      cases refOf fields with
      | some reference =>
          change settled (follow reference) = (settled (follow reference) >>= fun _ => pure ())
          cases follow reference <;> rfl
      | none =>
          dsimp only
          rw [settled_bind _ _ fun _ => settled_pure _, settled_inlinedMembers fields]
          cases forM (referencesOfMembers false fields) fun reference => settled (follow reference) <;> rfl
  | .arr items =>
      rw [inlined, visible, referencesIn, settled_bind _ _ fun _ => settled_pure _, settled_schemaItems items]
      cases forM (referencesOfItems false items) fun reference => settled (follow reference) <;> rfl
  | .null => rfl
  | .bool _ => rfl
  | .int _ => rfl
  | .str _ => rfl

theorem settled_inlinedMembers (fields : List (String × Json)) :
    settled (inlinedMembers follow fields) =
      forM (referencesOfMembers false fields) fun reference => settled (follow reference) := by
  match fields with
  | [] => rfl
  | (key, value) :: rest =>
      rw [inlinedMembers, referencesOfMembers, List.forM_append, ← settled_inlined value,
        ← settled_inlinedMembers rest]
      apply settled_bind
      intro item
      rw [settled_bind _ _ fun _ => settled_pure _]
      cases inlinedMembers follow rest <;> rfl

theorem settled_schemaItems (items : List Json) :
    settled (schemaItems follow items) =
      forM (referencesOfItems false items) fun reference => settled (follow reference) := by
  match items with
  | [] => rfl
  | item :: rest =>
      have first : settled (schemaItem (inlined follow item) item) =
          forM (itemReferences false (visible item) item) fun reference => settled (follow reference) := by
        cases item with
        | obj fields => exact settled_inlined (.obj fields)
        | _ => rfl
      rw [schemaItems, referencesOfItems, List.forM_append, ← first, ← settled_schemaItems rest]
      apply settled_bind
      intro inner
      rw [settled_bind _ _ fun _ => settled_pure _]
      cases schemaItems follow rest <;> rfl

end

theorem settled_eq_ok {α : Type} {outcome : Except Halt α} :
    settled outcome = .ok () ↔ ∃ result, outcome = .ok result := by
  cases outcome with
  | error halt => simp only [settled_error, reduceCtorEq, exists_false]
  | ok result => simp only [settled_ok, Except.ok.injEq, exists_eq']

theorem settled_eq_error {α : Type} {outcome : Except Halt α} {halt : Halt} :
    settled outcome = .error halt ↔ outcome = .error halt := by
  cases outcome with
  | error other => simp only [settled_error, Except.error.injEq]
  | ok result => simp only [settled_ok, reduceCtorEq]

/-- The walk over a value returns when every reference it meets does. -/
theorem inlined_ok_iff {value : Json} :
    (∃ result, inlined follow value = .ok result) ↔
      ∀ reference ∈ visible value, ∃ result, follow reference = .ok result := by
  rw [← settled_eq_ok, settled_inlined, forM_eq_ok]
  simp only [settled_eq_ok]

/-- The walk over a value stops at the first reference that does not return. -/
theorem inlined_error {value : Json} {halt : Halt} (stopped : inlined follow value = .error halt) :
    ∃ before reference after, visible value = before ++ reference :: after ∧
      (∀ earlier ∈ before, ∃ result, follow earlier = .ok result) ∧
        follow reference = .error halt := by
  rw [← settled_eq_error, settled_inlined] at stopped
  generalize visible value = met at stopped ⊢
  induction met with
  | nil => cases stopped
  | cons first rest ih =>
      rw [List.forM_cons] at stopped
      cases followed : follow first with
      | error other =>
          rw [followed] at stopped
          cases stopped
          exact ⟨[], first, rest, rfl, List.forall_mem_nil _, followed⟩
      | ok result =>
          rw [followed] at stopped
          obtain ⟨before, reference, after, split, passed, ends⟩ := ih stopped
          refine ⟨first :: before, reference, after, by rw [split]; rfl, ?_, ends⟩
          intro earlier mem
          cases mem with
          | head => exact ⟨result, followed⟩
          | tail _ inside => exact passed earlier inside

/-! ### References in nested arrays -/

mutual

theorem visible_subset (value : Json) : visible value ⊆ references value := by
  match value with
  | .obj fields =>
      rw [visible, references, referencesIn, referencesIn]
      cases refOf fields with
      | some reference => exact List.Subset.refl _
      | none => exact visible_subset_members fields
  | .arr items =>
      rw [visible, references, referencesIn, referencesIn]
      exact visible_subset_items items
  | .null | .bool _ | .int _ | .str _ => exact List.Subset.refl _

theorem visible_subset_members (fields : List (String × Json)) :
    referencesOfMembers false fields ⊆ referencesOfMembers true fields := by
  match fields with
  | [] => exact List.Subset.refl _
  | (key, value) :: rest =>
      rw [referencesOfMembers, referencesOfMembers]
      exact List.append_subset.mpr
        ⟨List.subset_append_of_subset_left _ (visible_subset value),
          List.subset_append_of_subset_right _ (visible_subset_members rest)⟩

theorem visible_subset_items (items : List Json) :
    referencesOfItems false items ⊆ referencesOfItems true items := by
  match items with
  | [] => exact List.Subset.refl _
  | item :: rest =>
      have first : itemReferences false (visible item) item ⊆
          itemReferences true (references item) item := by
        cases item with
        | arr inner => exact List.nil_subset _
        | _ => exact visible_subset _
      rw [referencesOfItems, referencesOfItems]
      exact List.append_subset.mpr
        ⟨List.subset_append_of_subset_left _ first,
          List.subset_append_of_subset_right _ (visible_subset_items rest)⟩

end

mutual

theorem Shows.visible_eq {value : Json} (shows : Shows value) : visible value = references value := by
  match value with
  | .obj fields =>
      rw [visible, references, referencesIn, referencesIn]
      rw [Shows] at shows
      cases named : refOf fields with
      | some reference => rfl
      | none => exact ShowsMembers.visible_eq (shows named)
  | .arr items =>
      rw [visible, references, referencesIn, referencesIn]
      exact ShowsItems.visible_eq shows
  | .null | .bool _ | .int _ | .str _ => rfl

theorem ShowsMembers.visible_eq {fields : List (String × Json)} (shows : ShowsMembers fields) :
    referencesOfMembers false fields = referencesOfMembers true fields := by
  match fields with
  | [] => rfl
  | (key, value) :: rest =>
      rw [referencesOfMembers, referencesOfMembers]
      exact congrArg₂ _ shows.1.visible_eq (ShowsMembers.visible_eq shows.2)

theorem ShowsItems.visible_eq {items : List Json} (shows : ShowsItems items) :
    referencesOfItems false items = referencesOfItems true items := by
  match items with
  | [] => rfl
  | item :: rest =>
      have first : itemReferences false (visible item) item = itemReferences true (references item) item := by
        cases item with
        | arr inner => exact shows.1.symm
        | _ => exact Shows.visible_eq shows.1
      rw [referencesOfItems, referencesOfItems]
      exact congrArg₂ _ first (ShowsItems.visible_eq shows.2)

end

mutual

/-- A value without references is what it is with them replaced. -/
theorem substitute_of_references_nil {value : Json} (bare : references value = []) :
    substitute replacement value = some value := by
  match value with
  | .obj fields =>
      rw [references, referencesIn] at bare
      rw [substitute]
      cases named : refOf fields with
      | some reference =>
          rw [named] at bare
          cases bare
      | none =>
          rw [named] at bare
          dsimp only at bare ⊢
          rw [substituteMembers_of_references_nil bare]
          rfl
  | .arr items =>
      rw [references, referencesIn] at bare
      rw [substitute, substituteItems_of_references_nil bare]
      rfl
  | .null | .bool _ | .int _ | .str _ => rfl

theorem substituteMembers_of_references_nil {fields : List (String × Json)}
    (bare : referencesOfMembers true fields = []) :
    substituteMembers replacement fields = some fields := by
  match fields with
  | [] => rfl
  | (key, value) :: rest =>
      rw [referencesOfMembers, List.append_eq_nil_iff] at bare
      rw [substituteMembers, substitute_of_references_nil bare.1, substituteMembers_of_references_nil bare.2]
      rfl

theorem substituteItems_of_references_nil {items : List Json} (bare : referencesOfItems true items = []) :
    substituteItems replacement items = some items := by
  match items with
  | [] => rfl
  | item :: rest =>
      have same : itemReferences true (references item) item = references item := by cases item <;> rfl
      rw [referencesOfItems, List.append_eq_nil_iff, same] at bare
      rw [substituteItems, substitute_of_references_nil bare.1, substituteItems_of_references_nil bare.2]
      rfl

end

/-! ### The result -/

theorem inlined_obj_eq_ok {fields : List (String × Json)} {result : Json} (plain : refOf fields = none) :
    inlined follow (.obj fields) = .ok result ↔
      ∃ members, inlinedMembers follow fields = .ok members ∧ .obj members = result := by
  rw [inlined, plain]
  simp only [bind_eq_ok, pure_eq_ok]

theorem inlined_arr_eq_ok {items : List Json} {result : Json} :
    inlined follow (.arr items) = .ok result ↔
      ∃ inner, schemaItems follow items = .ok inner ∧ .arr inner = result := by
  simp only [inlined, bind_eq_ok, pure_eq_ok]

theorem inlinedMembers_cons_eq_ok {key : String} {value : Json} {rest result : List (String × Json)} :
    inlinedMembers follow ((key, value) :: rest) = .ok result ↔
      ∃ item, inlined follow value = .ok item ∧
        ∃ others, inlinedMembers follow rest = .ok others ∧ (key, item) :: others = result := by
  simp only [inlinedMembers, bind_eq_ok, pure_eq_ok]

theorem schemaItems_cons_eq_ok {item : Json} {rest result : List Json} :
    schemaItems follow (item :: rest) = .ok result ↔
      ∃ inner, schemaItem (inlined follow item) item = .ok inner ∧
        ∃ others, schemaItems follow rest = .ok others ∧ inner :: others = result := by
  simp only [schemaItems, bind_eq_ok, pure_eq_ok]

/-- The references that are followed give objects. -/
def GivesObjects (follow : String → Except Halt Json) : Prop :=
  ∀ reference result, follow reference = .ok result → ∃ fields, result = .obj fields

/-- The walk makes a text of a text only. -/
theorem inlined_eq_str (objects : GivesObjects follow) {value : Json} {text : String}
    (done : inlined follow value = .ok (.str text)) : value = .str text := by
  cases value with
  | obj fields =>
      cases named : refOf fields with
      | some reference =>
          rw [inlined, named] at done
          obtain ⟨members, absurd⟩ := objects reference _ done
          cases absurd
      | none =>
          obtain ⟨members, ran, absurd⟩ := (inlined_obj_eq_ok named).mp done
          cases absurd
  | arr items =>
      obtain ⟨inner, ran, absurd⟩ := inlined_arr_eq_ok.mp done
      cases absurd
  | str _ =>
      cases done
      rfl
  | _ => cases done

/-- The walk keeps it whether an object stands for a reference. -/
theorem refOf_inlinedMembers (objects : GivesObjects follow) {fields members : List (String × Json)}
    (plain : refOf fields = none) (done : inlinedMembers follow fields = .ok members) :
    refOf members = none := by
  induction fields generalizing members with
  | nil =>
      cases done
      rfl
  | cons field rest ih =>
      obtain ⟨key, value⟩ := field
      obtain ⟨item, ran, others, others_ran, rfl⟩ := inlinedMembers_cons_eq_ok.mp done
      rw [refOf, mappingGet, List.lookup_cons] at plain ⊢
      by_cases same : ("$ref" == key) = true
      · rw [same] at plain ⊢
        cases item with
        | str text =>
            rw [inlined_eq_str objects ran] at plain
            cases plain
        | _ => rfl
      · rw [Bool.not_eq_true] at same
        rw [same] at plain ⊢
        exact ih plain others_ran

mutual

/-- No reference is left where none was hidden and those that were followed left none. -/
theorem references_inlined (objects : GivesObjects follow) {value result : Json}
    (done : inlined follow value = .ok result) :
    references result = [] ↔ Shows value ∧
      ∀ reference ∈ visible value, ∀ target, follow reference = .ok target → references target = [] := by
  match value with
  | .obj fields =>
      rw [Shows, visible, referencesIn]
      cases named : refOf fields with
      | some reference =>
          rw [inlined, named] at done
          dsimp only
          simp only [List.mem_singleton, forall_eq, done, Except.ok.injEq, forall_eq', reduceCtorEq,
            false_implies, true_and]
      | none =>
          obtain ⟨members, ran, rfl⟩ := (inlined_obj_eq_ok named).mp done
          rw [references, referencesIn, refOf_inlinedMembers objects named ran]
          simp only [forall_const]
          exact references_inlinedMembers objects ran
  | .arr items =>
      obtain ⟨inner, ran, rfl⟩ := inlined_arr_eq_ok.mp done
      rw [Shows, visible, referencesIn, references, referencesIn]
      exact references_schemaItems objects ran
  | .null | .bool _ | .int _ | .str _ =>
      cases done
      exact iff_of_true rfl ⟨trivial, List.forall_mem_nil _⟩

theorem references_inlinedMembers (objects : GivesObjects follow) {fields members : List (String × Json)}
    (done : inlinedMembers follow fields = .ok members) :
    referencesOfMembers true members = [] ↔ ShowsMembers fields ∧
      ∀ reference ∈ referencesOfMembers false fields, ∀ target, follow reference = .ok target →
        references target = [] := by
  match fields with
  | [] =>
      cases done
      exact iff_of_true rfl ⟨trivial, List.forall_mem_nil _⟩
  | (key, value) :: rest =>
      obtain ⟨item, ran, others, others_ran, rfl⟩ := inlinedMembers_cons_eq_ok.mp done
      rw [referencesOfMembers, referencesOfMembers, List.append_eq_nil_iff, List.forall_mem_append,
        ShowsMembers, references_inlined objects ran, references_inlinedMembers objects others_ran]
      exact and_and_and_comm

theorem references_schemaItems (objects : GivesObjects follow) {items inner : List Json}
    (done : schemaItems follow items = .ok inner) :
    referencesOfItems true inner = [] ↔ ShowsItems items ∧
      ∀ reference ∈ referencesOfItems false items, ∀ target, follow reference = .ok target →
        references target = [] := by
  match items with
  | [] =>
      cases done
      exact iff_of_true rfl ⟨trivial, List.forall_mem_nil _⟩
  | item :: rest =>
      obtain ⟨first, ran, others, others_ran, rfl⟩ := schemaItems_cons_eq_ok.mp done
      have counted : itemReferences true (references first) first = references first := by
        cases first <;> rfl
      have here : references first = [] ↔ ItemShows (Shows item) item ∧
          ∀ reference ∈ itemReferences false (visible item) item, ∀ target,
            follow reference = .ok target → references target = [] := by
        cases item with
        | obj fields => exact references_inlined objects ran
        | arr items =>
            cases ran
            exact (and_iff_left (List.forall_mem_nil _)).symm
        | _ =>
            cases ran
            exact iff_of_true rfl ⟨trivial, List.forall_mem_nil _⟩
      rw [referencesOfItems, referencesOfItems, List.append_eq_nil_iff, List.forall_mem_append, counted,
        ShowsItems, here, references_schemaItems objects others_ran]
      exact and_and_and_comm

end

mutual

/-- Where no reference is hidden, the walk puts the same in their places as `substitute`. -/
theorem substitute_of_inlined {value result : Json} (shows : Shows value)
    (done : inlined follow value = .ok result)
    (same : ∀ reference ∈ visible value, ∀ target, follow reference = .ok target →
      replacement reference = some target) :
    substitute replacement value = some result := by
  match value with
  | .obj fields =>
      rw [visible, referencesIn] at same
      rw [Shows] at shows
      cases named : refOf fields with
      | some reference =>
          rw [named] at same
          rw [inlined, named] at done
          rw [substitute, named]
          exact same reference (List.mem_singleton_self reference) result done
      | none =>
          rw [named] at same
          obtain ⟨members, ran, rfl⟩ := (inlined_obj_eq_ok named).mp done
          rw [substitute, named]
          dsimp only
          rw [substituteMembers_of_inlinedMembers (shows named) ran same]
          rfl
  | .arr items =>
      rw [visible, referencesIn] at same
      obtain ⟨inner, ran, rfl⟩ := inlined_arr_eq_ok.mp done
      rw [substitute, substituteItems_of_schemaItems shows ran same]
      rfl
  | .null | .bool _ | .int _ | .str _ =>
      cases done
      rfl

theorem substituteMembers_of_inlinedMembers {fields members : List (String × Json)}
    (shows : ShowsMembers fields) (done : inlinedMembers follow fields = .ok members)
    (same : ∀ reference ∈ referencesOfMembers false fields, ∀ target, follow reference = .ok target →
      replacement reference = some target) :
    substituteMembers replacement fields = some members := by
  match fields with
  | [] =>
      cases done
      rfl
  | (key, value) :: rest =>
      obtain ⟨item, ran, others, others_ran, rfl⟩ := inlinedMembers_cons_eq_ok.mp done
      rw [referencesOfMembers, List.forall_mem_append] at same
      rw [substituteMembers, substitute_of_inlined shows.1 ran same.1,
        substituteMembers_of_inlinedMembers shows.2 others_ran same.2]
      rfl

theorem substituteItems_of_schemaItems {items inner : List Json}
    (shows : ShowsItems items) (done : schemaItems follow items = .ok inner)
    (same : ∀ reference ∈ referencesOfItems false items, ∀ target, follow reference = .ok target →
      replacement reference = some target) :
    substituteItems replacement items = some inner := by
  match items with
  | [] =>
      cases done
      rfl
  | item :: rest =>
      obtain ⟨first, ran, others, others_ran, rfl⟩ := schemaItems_cons_eq_ok.mp done
      rw [referencesOfItems, List.forall_mem_append] at same
      have here : substitute replacement item = some first := by
        cases item with
        | obj fields => exact substitute_of_inlined shows.1 ran same.1
        | arr items =>
            cases ran
            exact substitute_of_references_nil shows.1
        | _ =>
            cases ran
            rfl
      rw [substituteItems, here, substituteItems_of_schemaItems shows.2 others_ran same.2]
      rfl

end

end

end CapabilityHub.OpenApi
