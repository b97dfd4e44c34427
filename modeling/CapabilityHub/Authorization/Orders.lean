import CapabilityHub.Authorization.Verdict

/-! # The order of the manifests

The decision depends on the order of the manifests where nothing but the roots can refuse the call,
some manifest does not cover the path where it comes first, and others may come before it that do.
-/

namespace CapabilityHub.Authorization.PrincipalPolicyAuthorizer

variable {platform : Platform} {providers : ProviderGrants} {permission : String}
  {manifest : CapabilityManifest} {manifests manifests' dependencies : List CapabilityManifest}
  {arguments : List (String × Json)}

theorem items_perm (perm : manifests.Perm manifests') :
    (items providers manifests permission).Perm (items providers manifests' permission) :=
  (perm.flatMap_right _).filterMap _

theorem required_perm (perm : manifests.Perm manifests') :
    ParameterAuthorizer.required manifests = ParameterAuthorizer.required manifests' := by
  ext permission
  rw [mem_required, mem_required]
  exact exists_congr fun manifest => and_congr_left' perm.mem_iff

theorem covers_perm (perm : manifests.Perm manifests') :
    Covers platform providers manifests arguments = Covers platform providers manifests' arguments := by
  have roots : rootsOf providers manifests = rootsOf providers manifests' := by
    funext permission manifest
    have same : survivors (items providers manifests permission) =
        survivors (items providers manifests' permission) := by
      funext first
      rw [survivors, survivors, survives_perm (items_perm perm)]
    rw [rootsOf, rootsOf, same]
  funext permission manifest
  rw [Covers, Covers, roots]

theorem Passes.perm (perm : manifests.Perm manifests')
    (passes : Passes platform providers manifests arguments) :
    Passes platform providers manifests' arguments := by
  have required := required_perm perm
  have rootless : rootless platform providers manifests = rootless platform providers manifests' := by
    funext permission
    rw [PrincipalPolicyAuthorizer.rootless, PrincipalPolicyAuthorizer.rootless,
      shared_perm (items_perm perm)]
  obtain ⟨supported, granted, common, fine⟩ := passes
  rw [required, rootless] at fine
  rw [required] at supported granted common
  rw [rootless] at common
  refine ⟨supported, fun permission among lacking => granted permission among ?_, common, fine⟩
  obtain ⟨manifest, member, rest⟩ := lacking
  exact ⟨manifest, perm.mem_iff.mpr member, rest⟩

/-- The decision is the same in every order of the manifests. -/
def OrderIndependent (platform : Platform) (providers : ProviderGrants)
    (manifest : CapabilityManifest) (dependencies : List CapabilityManifest)
    (arguments : List (String × Json)) : Prop :=
  ∀ manifest' dependencies', (manifest' :: dependencies').Perm (manifest :: dependencies) →
    (authorize platform providers manifest' dependencies' arguments).map (·.allowed) =
      (authorize platform providers manifest dependencies arguments).map (·.allowed)

/-- In another order it is only the roots that decide. -/
theorem allowed_order (accepted : Accepted platform providers) {manifest' : CapabilityManifest}
    {dependencies' : List CapabilityManifest}
    (perm : (manifest' :: dependencies').Perm (manifest :: dependencies))
    (passes : Passes platform providers (manifest :: dependencies) arguments) :
    (GoodFirst filesystemOf (Covers platform providers (manifest :: dependencies) arguments)
        (manifest' :: dependencies') →
      (authorize platform providers manifest' dependencies' arguments).map (·.allowed) =
        answer platform (ParameterAuthorizer.required (manifest :: dependencies)) arguments) ∧
    (¬GoodFirst filesystemOf (Covers platform providers (manifest :: dependencies) arguments)
        (manifest' :: dependencies') →
      (authorize platform providers manifest' dependencies' arguments).map (·.allowed) =
        .ok false) := by
  rw [← covers_perm perm, ← required_perm perm]
  have passes' := passes.perm perm.symm
  rcases allowed_authorize accepted manifest' dependencies' arguments with ⟨both, done⟩ | ⟨not, done⟩
  · exact ⟨fun _ => done, fun bad => absurd both.2 bad⟩
  · exact ⟨fun good => absurd ⟨passes', good⟩ not, fun _ => done⟩

/-- The decision does not depend on the order exactly where something else refuses the call, or
every manifest covers the path where it comes first, or there is a permission that cannot be opened
in any order. -/
theorem orderIndependent_iff {document : Json}
    (decoded : decodeDocument platform document = .ok providers) :
    OrderIndependent platform providers manifest dependencies arguments ↔
      ¬Passes platform providers (manifest :: dependencies) arguments ∨
      (∀ declaring ∈ manifest :: dependencies, ∀ permission ∈ filesystemOf declaring,
        Covers platform providers (manifest :: dependencies) arguments permission declaring) ∨
      ∃ declaring ∈ manifest :: dependencies, ∃ permission ∈ filesystemOf declaring,
        ¬Openable filesystemOf (Covers platform providers (manifest :: dependencies) arguments)
          (manifest :: dependencies) permission := by
  have accepted := accepted_of_decodeDocument decoded
  constructor
  · intro independent
    by_contra dependent
    simp only [not_or, not_not, not_exists, not_and, not_forall] at dependent
    obtain ⟨passes, ⟨declaring, member, permission, declares, uncovered⟩, openable⟩ := dependent
    obtain ⟨order, perm, good⟩ := exists_perm_goodFirst.mpr fun permission served => by
      obtain ⟨declaring, member, declares⟩ := served
      exact openable declaring member permission declares
    -- one order in which all is covered, and one in which the uncovered one comes first
    obtain ⟨before, after, split⟩ := List.append_of_mem member
    have last : (declaring :: (before ++ after)).Perm (manifest :: dependencies) := by
      rw [split]
      exact List.perm_middle.symm
    have bad : ¬GoodFirst filesystemOf
        (Covers platform providers (manifest :: dependencies) arguments)
        (declaring :: (before ++ after)) :=
      fun good => uncovered (good permission declaring (firstOf_cons declares))
    cases order with
    | nil => exact absurd perm.symm (fun perm => List.cons_ne_nil _ _ (List.perm_nil.mp perm))
    | cons first rest =>
        have allowed := (allowed_order accepted perm passes).1 good
        have refused := (allowed_order accepted last passes).2 bad
        rw [independent first rest perm] at allowed
        rw [independent declaring _ last] at refused
        exact answer_ne (allowed.symm.trans refused)
  · intro condition manifest' dependencies' perm
    by_cases passes : Passes platform providers (manifest :: dependencies) arguments
    · have here := allowed_order accepted (List.Perm.refl (manifest :: dependencies)) passes
      have there := allowed_order accepted perm passes
      rcases condition with not | every | ⟨declaring, member, permission, declares, never⟩
      · exact absurd passes not
      · have good : ∀ order, order.Perm (manifest :: dependencies) → GoodFirst filesystemOf
            (Covers platform providers (manifest :: dependencies) arguments) order := by
          intro order perm permission first found
          obtain ⟨member, declares⟩ := firstOf_eq_some found
          exact every first (perm.mem_iff.mp member) permission declares
        rw [there.1 (good _ perm), here.1 (good _ (List.Perm.refl _))]
      · have bad : ∀ order, order.Perm (manifest :: dependencies) → ¬GoodFirst filesystemOf
            (Covers platform providers (manifest :: dependencies) arguments) order := by
          intro order perm good
          exact never (exists_perm_goodFirst.mp ⟨order, perm, good⟩ permission
            ⟨declaring, member, declares⟩)
        rw [there.2 (bad _ perm), here.2 (bad _ (List.Perm.refl _))]
    · rcases allowed_authorize accepted manifest dependencies arguments with ⟨both, _⟩ | ⟨_, here⟩
      · exact absurd both.1 passes
      · rcases allowed_authorize accepted manifest' dependencies' arguments with ⟨both, _⟩ | ⟨_, there⟩
        · exact absurd (both.1.perm perm) passes
        · rw [here, there]

/-- A system without links. -/
def plain : Platform where
  text := asciiText
  ipAddress := fun _ => none
  resolve := .ok

/-- One provider may read below a directory, and another below a directory inside it. -/
def nestedDocument : Json :=
  let roots := fun root : String => Json.obj [("filesystem.read", .obj
    [("path_roots", .arr [.str root]), ("hosts", .arr []), ("http_methods", .arr []),
      ("commands", .arr []), ("profiles", .arr []), ("secret_aliases", .arr [])])]
  .obj [("broad", roots "/data"), ("narrow", roots "/data/in")]

def nestedGrants : ProviderGrants := ((decodeDocument plain nestedDocument).toOption).getD ∅

theorem decodeDocument_nested : decodeDocument plain nestedDocument = .ok nestedGrants := rfl

/-- A capability of a provider that reads files. -/
def reader (provider : String) : CapabilityManifest where
  identity := ⟨"files", provider, "1.0.0", "sha256:" ++ provider⟩
  kind := .cli
  summary := "reads a file"
  provider := provider
  operations := [{ name := "read", operationType := .execute, sideEffect := .read }]
  permissions := ["filesystem.read"]

/-- The path is allowed where the narrow root comes first, and refused where the broad one does. -/
theorem nested_orderDependent :
    decodeDocument plain nestedDocument = .ok nestedGrants ∧
      ¬OrderIndependent plain nestedGrants (reader "narrow") [reader "broad"]
        [("path", .str "/data/in/a")] := by
  refine ⟨decodeDocument_nested, fun independent => ?_⟩
  have same := independent (reader "broad") [reader "narrow"] (List.Perm.swap _ _ _)
  exact absurd same (by decide +kernel)

/-- A path that is below neither root is refused in both orders. -/
theorem nested_outside_orderIndependent_iff :
    OrderIndependent plain nestedGrants (reader "narrow") [reader "broad"]
        [("path", .str "/home")] ↔
      ¬Passes plain nestedGrants [reader "narrow", reader "broad"] [("path", .str "/home")] ∨
      (∀ declaring ∈ [reader "narrow", reader "broad"], ∀ permission ∈ filesystemOf declaring,
        Covers plain nestedGrants [reader "narrow", reader "broad"] [("path", .str "/home")]
          permission declaring) ∨
      ∃ declaring ∈ [reader "narrow", reader "broad"], ∃ permission ∈ filesystemOf declaring,
        ¬Openable filesystemOf
          (Covers plain nestedGrants [reader "narrow", reader "broad"] [("path", .str "/home")])
          [reader "narrow", reader "broad"] permission :=
  orderIndependent_iff decodeDocument_nested

end CapabilityHub.Authorization.PrincipalPolicyAuthorizer
