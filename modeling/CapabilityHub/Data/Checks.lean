import Mathlib.Data.List.Basic

/-! # Checks that raise

A function that checks one condition after the other and raises at the first that
holds is a chain of binds in `Except`. It returns exactly when no check raises, which
`CapabilityHub.bind_eq_ok` and `CapabilityHub.raiseIf_eq_ok` read off the chain.
-/

namespace CapabilityHub

variable {ε α β : Type}

/-- `if condition: raise error`. -/
def raiseIf (condition : Prop) [Decidable condition] (error : ε) : Except ε Unit :=
  if condition then .error error else .ok ()

@[simp] theorem raiseIf_eq_ok {condition : Prop} [Decidable condition] {error : ε} :
    raiseIf condition error = .ok () ↔ ¬condition := by
  by_cases holds : condition <;> simp [raiseIf, holds]

theorem bind_eq_ok {first : Except ε α} {next : α → Except ε β} {result : β} :
    first >>= next = .ok result ↔ ∃ value, first = .ok value ∧ next value = .ok result := by
  cases first <;> simp [bind, Except.bind]

theorem bind_eq_error {first : Except ε α} {next : α → Except ε β} {error : ε} :
    first >>= next = .error error ↔
      first = .error error ∨ ∃ value, first = .ok value ∧ next value = .error error := by
  cases first <;> simp [bind, Except.bind]

theorem mapError_eq_ok {ε' : Type} {first : Except ε α} {f : ε → ε'} {result : α} :
    first.mapError f = .ok result ↔ first = .ok result := by
  cases first <;> simp [Except.mapError]

theorem map_eq_ok {first : Except ε α} {f : α → β} {result : β} :
    first.map f = .ok result ↔ ∃ value, first = .ok value ∧ f value = result := by
  cases first <;> simp [Except.map]

theorem ok_bind {value : α} {next : α → Except ε β} : (.ok value : Except ε α) >>= next = next value := rfl

theorem exists_unit {property : Unit → Prop} : (∃ value, property value) ↔ property () :=
  ⟨fun ⟨(), holds⟩ => holds, fun holds => ⟨(), holds⟩⟩

theorem pure_eq_ok {value result : α} :
    (pure value : Except ε α) = .ok result ↔ value = result := by
  simp [pure, Except.pure]

/-- A loop of checks returns when each of them does. -/
theorem forM_eq_ok {items : List α} {check : α → Except ε Unit} :
    forM items check = .ok () ↔ ∀ item ∈ items, check item = .ok () := by
  induction items with
  | nil => simp [pure, Except.pure]
  | cons first items ih =>
      rw [List.forM_cons, bind_eq_ok, exists_unit, List.forall_mem_cons, ih]

theorem mapM_cons_eq_ok {first : α} {items : List α} {f : α → Except ε β} {results : List β} :
    (first :: items).mapM f = .ok results ↔
      ∃ result rest, f first = .ok result ∧ items.mapM f = .ok rest ∧ result :: rest = results := by
  simp only [List.mapM_cons, bind_eq_ok, pure_eq_ok, exists_and_left]

/-- A loop whose rounds return what `g` says, each on a condition. -/
theorem mapM_eq_ok {items : List α} {f : α → Except ε β} {admits : α → Prop} {g : α → β}
    (spec : ∀ item result, f item = .ok result ↔ admits item ∧ g item = result)
    {results : List β} :
    items.mapM f = .ok results ↔ (∀ item ∈ items, admits item) ∧ items.map g = results := by
  induction items generalizing results with
  | nil => simp [pure, Except.pure]
  | cons first items ih =>
      rw [mapM_cons_eq_ok, List.forall_mem_cons, List.map_cons]
      constructor
      · rintro ⟨result, rest, here, below, rfl⟩
        obtain ⟨admitted, rfl⟩ := (spec first result).mp here
        obtain ⟨others, rfl⟩ := ih.mp below
        exact ⟨⟨admitted, others⟩, rfl⟩
      · rintro ⟨⟨admitted, others⟩, rfl⟩
        exact ⟨g first, items.map g, (spec first _).mpr ⟨admitted, rfl⟩,
          ih.mpr ⟨others, rfl⟩, rfl⟩

/-- A loop whose rounds all return. -/
theorem mapM_of_ok {items : List α} {f : α → Except ε β} {g : α → β}
    (each : ∀ item ∈ items, f item = .ok (g item)) : items.mapM f = .ok (items.map g) := by
  induction items with
  | nil => rfl
  | cons first items ih =>
      have here := each first List.mem_cons_self
      have below := ih fun item member => each item (List.mem_cons_of_mem _ member)
      exact mapM_cons_eq_ok.mpr ⟨_, _, here, below, rfl⟩

/-- A loop that collects results returns when each of its rounds does. -/
theorem exists_mapM_eq_ok {items : List α} {f : α → Except ε β} :
    (∃ results, items.mapM f = .ok results) ↔ ∀ item ∈ items, ∃ result, f item = .ok result := by
  induction items with
  | nil => simp [pure, Except.pure]
  | cons first items ih =>
      rw [List.forall_mem_cons, ← ih]
      constructor
      · rintro ⟨results, done⟩
        obtain ⟨result, rest, here, below, _⟩ := mapM_cons_eq_ok.mp done
        exact ⟨⟨result, here⟩, rest, below⟩
      · rintro ⟨⟨result, here⟩, rest, below⟩
        exact ⟨_, mapM_cons_eq_ok.mpr ⟨result, rest, here, below, rfl⟩⟩

theorem length_mapM {items : List α} {f : α → Except ε β} {results : List β}
    (done : items.mapM f = .ok results) : results.length = items.length := by
  induction items generalizing results with
  | nil =>
      obtain rfl := pure_eq_ok.mp done
      rfl
  | cons first items ih =>
      obtain ⟨result, rest, _, below, rfl⟩ := mapM_cons_eq_ok.mp done
      rw [List.length_cons, List.length_cons, ih below]

/-- The results of a loop over the same items in another order. -/
theorem perm_mapM {items items' : List α} {f : α → Except ε β} {results : List β}
    (perm : items.Perm items') (done : items.mapM f = .ok results) :
    ∃ results', items'.mapM f = .ok results' ∧ results.Perm results' := by
  induction perm generalizing results with
  | nil => exact ⟨results, done, .refl _⟩
  | cons item perm ih =>
      obtain ⟨value, rest, here, below, rfl⟩ := mapM_cons_eq_ok.mp done
      obtain ⟨rest', below', perm'⟩ := ih below
      exact ⟨value :: rest', mapM_cons_eq_ok.mpr ⟨value, rest', here, below', rfl⟩, perm'.cons value⟩
  | swap first second items =>
      obtain ⟨value, rest, here, below, rfl⟩ := mapM_cons_eq_ok.mp done
      obtain ⟨value', rest', here', below', rfl⟩ := mapM_cons_eq_ok.mp below
      refine ⟨value' :: value :: rest', ?_, .swap _ _ _⟩
      exact mapM_cons_eq_ok.mpr
        ⟨value', _, here', mapM_cons_eq_ok.mpr ⟨value, rest', here, below', rfl⟩, rfl⟩
  | trans _ _ ih ih' =>
      obtain ⟨middle, done', perm'⟩ := ih done
      obtain ⟨results', done'', perm''⟩ := ih' done'
      exact ⟨results', done'', perm'.trans perm''⟩

/-- The results collected are those of the rounds. -/
theorem mem_of_mapM {items : List α} {f : α → Except ε β} {results : List β} {result : β}
    (done : items.mapM f = .ok results) : result ∈ results ↔ ∃ item ∈ items, f item = .ok result := by
  induction items generalizing results with
  | nil =>
      obtain rfl := pure_eq_ok.mp done
      simp
  | cons first items ih =>
      obtain ⟨head, rest, here, below, rfl⟩ := mapM_cons_eq_ok.mp done
      simp [ih below, here, eq_comm]

/-! ## Errors -/

theorem error_bind {error : ε} {next : α → Except ε β} :
    (.error error : Except ε α) >>= next = .error error := rfl

section Raises

variable {allowed : ε → Prop}

/-- What a computation raises is raised by one of its parts. -/
theorem raises_bind {first : Except ε α} {next : α → Except ε β}
    (here : ∀ error, first = .error error → allowed error)
    (later : ∀ value error, next value = .error error → allowed error) :
    ∀ error, first >>= next = .error error → allowed error := by
  intro error failed
  cases first with
  | error raised => exact here error (congrArg Except.error (Except.error.inj failed))
  | ok value => exact later value error failed

theorem raises_raiseIf {condition : Prop} [Decidable condition] {raised : ε} (fine : allowed raised) :
    ∀ error, raiseIf condition raised = .error error → allowed error := by
  intro error failed
  rw [raiseIf] at failed
  split at failed
  · exact Except.error.inj failed ▸ fine
  · cases failed

theorem raises_forM {items : List α} {check : α → Except ε Unit}
    (each : ∀ item error, check item = .error error → allowed error) :
    ∀ error, forM items check = .error error → allowed error := by
  induction items with
  | nil =>
      intro error failed
      cases failed
  | cons first items ih =>
      rw [List.forM_cons]
      exact raises_bind (each first) fun _ => ih

theorem raises_foldlM {items : List α} {f : β → α → Except ε β}
    (each : ∀ state item error, f state item = .error error → allowed error) :
    ∀ start error, items.foldlM f start = .error error → allowed error := by
  induction items with
  | nil =>
      intro start error failed
      cases failed
  | cons first items ih =>
      intro start
      rw [List.foldlM_cons]
      exact raises_bind (each start first) ih

end Raises

/-- A loop raises what its first round that does not return raises. -/
theorem mapM_eq_error {items : List α} {f : α → Except ε β} {error : ε} :
    items.mapM f = .error error ↔ ∃ before item after results, items = before ++ item :: after ∧
      before.mapM f = .ok results ∧ f item = .error error := by
  induction items with
  | nil => simp [pure, Except.pure]
  | cons first items ih =>
      rw [List.mapM_cons, bind_eq_error]
      constructor
      · rintro (here | ⟨value, here, later⟩)
        · exact ⟨[], first, items, [], rfl, rfl, here⟩
        · rcases bind_eq_error.mp later with below | ⟨_, _, absurd⟩
          · obtain ⟨before, item, after, results, same, done, raised⟩ := ih.mp below
            refine ⟨first :: before, item, after, value :: results, ?_, ?_, raised⟩
            · rw [same, List.cons_append]
            · exact mapM_cons_eq_ok.mpr ⟨value, results, here, done, rfl⟩
          · cases absurd
      · rintro ⟨before, item, after, results, same, done, raised⟩
        cases before with
        | nil =>
            cases same
            exact .inl raised
        | cons head before =>
            obtain ⟨rfl, rfl⟩ := List.cons.inj same
            obtain ⟨value, rest, here, below, _⟩ := mapM_cons_eq_ok.mp done
            refine .inr ⟨value, here, bind_eq_error.mpr (.inl ?_)⟩
            exact ih.mpr ⟨before, item, after, rest, rfl, below, raised⟩

/-! ## Results that are passed on -/

theorem map_bind {γ : Type} {first : Except ε α} {rest : α → Except ε β} {f : β → γ} :
    (first >>= rest).map f = first >>= fun value => (rest value).map f := by
  cases first <;> rfl

theorem map_ok {value : α} {f : α → β} :
    (.ok value : Except ε α).map f = .ok (f value) := rfl

theorem map_map {γ : Type} {given : Except ε α} {f : α → β} {g : β → γ} :
    (given.map f).map g = given.map fun value => g (f value) := by
  cases given <;> rfl

/-- What every result of the rest satisfies, every result of the whole satisfies. -/
theorem of_bind {first : Except ε α} {rest : α → Except ε β} {holds : β → Prop}
    (each : ∀ value result, rest value = .ok result → holds result) :
    ∀ result, first >>= rest = .ok result → holds result := by
  intro result done
  obtain ⟨value, _, done⟩ := bind_eq_ok.mp done
  exact each value result done

theorem of_ok {value : α} {holds : α → Prop} (here : holds value) :
    ∀ result, (.ok value : Except ε α) = .ok result → holds result := by
  rintro _ ⟨⟩
  exact here

theorem of_map {given : Except ε α} {f : α → β} {holds : β → Prop}
    (each : ∀ value, given = .ok value → holds (f value)) :
    ∀ result, given.map f = .ok result → holds result := by
  intro result whole
  obtain ⟨value, inner, rfl⟩ := map_eq_ok.mp whole
  exact each value inner

end CapabilityHub
