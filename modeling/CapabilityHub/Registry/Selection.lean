import CapabilityHub.Registry.Install
import CapabilityHub.Registry.Reading

/-! # The version that is chosen

An activation without a revision, the check of staged revisions and the projections all take the
revision of a coordinate that is highest in `_revision_order`: by the numbers of the version, and then
by its text. As texts the prereleases come after the version without one
(`CapabilityHub.Registry.selects_highest_iff`).
-/

namespace CapabilityHub.Registry

variable (text : PythonText) (sha256 : Bytes → Bytes)

namespace CapabilityRegistry

variable (registry : CapabilityRegistry)

/-- `_selected_revisions`. -/
def selectedRevisions (revisions : Option (List String)) : Except Raised (Dict String CapabilityManifest) := do
  let manifests ← (revisions.getD registry.revisions.keys).mapM registry.revision
  pure (Dict.ofEntries ((selectedManifestValues text manifests).map fun manifest =>
    (manifest.identity.coordinate, manifest)))

/-- The manifest is a revision of the coordinate. -/
def Registered (coordinate : String) (manifest : CapabilityManifest) : Prop :=
  registry.revisions.get? manifest.identity.revision = some manifest ∧
    manifest.identity.coordinate = coordinate

/-- The revision of a coordinate that an activation, a check of staged revisions and the projections
take. -/
structure Chooses (coordinate : String) (chosen : CapabilityManifest) : Prop where
  activation : registry.chosenRevision text coordinate none = .ok chosen.identity.revision
  found : registry.revision chosen.identity.revision = .ok chosen
  staged : ∃ selected, registry.selectedRevisions text none = .ok selected ∧
    selected.get? coordinate = some chosen
  /-- The staged revisions may be given, in any order. -/
  given : ∀ revisions, (∀ name ∈ revisions, name ∈ registry.revisions.keys) →
    (∀ manifest, registry.Registered coordinate manifest → manifest.identity.revision ∈ revisions) →
      ∃ selected, registry.selectedRevisions text (some revisions) = .ok selected ∧
        selected.get? coordinate = some chosen
  projected : (selectedManifestValues text (registry.revisions.entries.map Prod.snd)).filter
    (fun manifest => manifest.identity.coordinate = coordinate) = [chosen]

/-- No revision of the coordinate is higher. -/
structure Highest (coordinate : String) (chosen : CapabilityManifest) : Prop where
  registered : registry.Registered coordinate chosen
  highest : ∀ manifest, registry.Registered coordinate manifest →
    revisionOrder text manifest ≤ revisionOrder text chosen

/-- The names of the revisions of each coordinate. -/
def Indexed : Prop :=
  ∀ coordinate name, name ∈ registry.byCoordinate.getD coordinate [] ↔
    ∃ manifest, registry.revisions.get? name = some manifest ∧ manifest.identity.coordinate = coordinate

end CapabilityRegistry

open CapabilityRegistry

variable {text sha256} {policy : ProjectionPolicy} {initial registry other : CapabilityRegistry}
  {manifests : List CapabilityManifest} {manifest chosen : CapabilityManifest} {coordinate : String}

/-! ## The index -/

theorem indexed_performAll (constructed : construct text sha256 policy = .ok initial)
    (calls : List Call) : (performAll text sha256 initial calls).Indexed := by
  obtain rfl := construct_eq_ok.mp constructed
  have start : (emptyRegistry policy).Indexed := by
    intro coordinate name
    simp [emptyRegistry, Dict.getD]
  have step : ∀ registry final call, registry.Indexed →
      Performed text sha256 registry call final → final.Indexed := by
    intro registry final call indexed done
    cases done with
    | @registered _ _ staged resolution registers staging resolving =>
        intro coordinate name
        simp only [rebuildIndexes, Dict.getD, Dict.get?_tabulate]
        by_cases inside : coordinate ∈ staged.entries.map fun entry => entry.2.identity.coordinate
        · rw [if_pos inside, Option.getD_some]
          simp [Dict.mem_entries_iff]
        · rw [if_neg inside]
          refine iff_of_false (by simp) ?_
          rintro ⟨manifest, found, same⟩
          exact inside (List.mem_map.mpr ⟨(name, manifest), Dict.mem_entries_iff.mpr found, same⟩)
    | _ => exact indexed
  exact performAll_induction start step calls

/-! ## The highest revision -/

theorem revision_injective (same : revisionOrder text manifest = revisionOrder text chosen) :
    manifest.identity.revision = chosen.identity.revision := by
  have order (manifest : CapabilityManifest) :
      (ofLex (ofLex (ofLex (ofLex (revisionOrder text manifest)).2).2).2).2 = manifest.identity.revision := rfl
  rw [← order manifest, same, order]

/-- The manifests of a registry under their own names. -/
theorem mem_registered (keyed : Keyed registry.revisions) :
    manifest ∈ registry.revisions.entries.map Prod.snd ∧ manifest.identity.coordinate = coordinate ↔
      registry.Registered coordinate manifest := by
  rw [List.mem_map, CapabilityRegistry.Registered, and_congr_left_iff]
  intro _
  constructor
  · rintro ⟨⟨name, value⟩, member, rfl⟩
    have found := Dict.mem_entries_iff.mp member
    rwa [keyed name value found]
  · intro found
    exact ⟨(manifest.identity.revision, manifest), Dict.mem_entries_iff.mpr found, rfl⟩

theorem CapabilityRegistry.Highest.eq (highest : registry.Highest text coordinate manifest)
    (highest' : registry.Highest text coordinate chosen) : manifest = chosen := by
  have same := revision_injective (le_antisymm (highest'.highest _ highest.registered)
    (highest.highest _ highest'.registered))
  have found := highest.registered.1
  rw [same, highest'.registered.1] at found
  exact (Option.some.inj found).symm

/-- Of some manifests each coordinate has one that is selected. -/
theorem coordinates_selectedManifestValues (text : PythonText) (manifests : List CapabilityManifest) :
    (selectedManifestValues text manifests).map (fun manifest => manifest.identity.coordinate) =
      sortedSet (manifests.map fun manifest => manifest.identity.coordinate) := by
  rw [selectedManifestValues, List.map_filterMap]
  conv_rhs => rw [← List.filterMap_some (l := sortedSet _)]
  apply List.filterMap_congr
  intro coordinate member
  obtain ⟨manifest, inside, same⟩ := List.mem_map.mp (mem_sortedSet.mp member)
  have kept : manifest ∈ manifests.filter fun manifest => manifest.identity.coordinate = coordinate :=
    List.mem_filter.mpr ⟨inside, decide_eq_true same⟩
  split
  next nothing =>
    rw [nothing] at kept
    cases kept
  next first rest filtered =>
    have chosen := maxBy_mem (revisionOrder text) first rest
    rw [← filtered] at chosen
    rw [Option.map_some, of_decide_eq_true (List.mem_filter.mp chosen).2]

/-- The manifest that is selected for a coordinate is the highest. -/
theorem selected_of_highest (highest : registry.Highest text coordinate chosen)
    (members : ∀ manifest, manifest ∈ manifests ∧ manifest.identity.coordinate = coordinate ↔
      registry.Registered coordinate manifest) (selected : manifest ∈ selectedManifestValues text manifests)
    (same : manifest.identity.coordinate = coordinate) : manifest = chosen := by
  obtain ⟨coordinate', _, found⟩ := List.mem_filterMap.mp selected
  split at found
  · cases found
  next first rest filtered =>
    rw [Option.some.injEq] at found
    have here := maxBy_mem (revisionOrder text) first rest
    rw [found, ← filtered] at here
    obtain ⟨inside, equal⟩ := List.mem_filter.mp here
    have equal := of_decide_eq_true equal
    suffices own : registry.Highest text coordinate manifest from own.eq highest
    refine ⟨(members manifest).mp ⟨inside, same⟩, fun manifest' registered => ?_⟩
    obtain ⟨inside', same'⟩ := (members manifest').mpr registered
    rw [← found]
    apply le_maxBy
    rw [← filtered]
    exact List.mem_filter.mpr ⟨inside', decide_eq_true (same'.trans (same.symm.trans equal))⟩

/-- What is selected of manifests with those of the coordinate is its highest. -/
theorem filter_selected (highest : registry.Highest text coordinate chosen)
    (members : ∀ manifest, manifest ∈ manifests ∧ manifest.identity.coordinate = coordinate ↔
      registry.Registered coordinate manifest) :
    (selectedManifestValues text manifests).filter
      (fun manifest => manifest.identity.coordinate = coordinate) = [chosen] := by
  have nodup := nodup_sortedSet (manifests.map fun manifest => manifest.identity.coordinate)
  rw [← coordinates_selectedManifestValues text] at nodup
  have inside := (members chosen).mpr highest.registered
  have covered : coordinate ∈ sortedSet (manifests.map fun manifest => manifest.identity.coordinate) :=
    mem_sortedSet.mpr (List.mem_map.mpr ⟨chosen, inside⟩)
  rw [← coordinates_selectedManifestValues text] at covered
  obtain ⟨manifest, selected, same⟩ := List.mem_map.mp covered
  apply List.perm_singleton.mp
  apply (List.perm_ext_iff_of_nodup (nodup.of_map.filter _) (List.nodup_singleton _)).mpr
  intro manifest'
  rw [List.mem_filter, List.mem_singleton, decide_eq_true_eq]
  constructor
  · intro selected'
    exact selected_of_highest highest members selected'.1 selected'.2
  · intro equal
    rw [equal, ← selected_of_highest highest members selected same]
    exact ⟨selected, same⟩

theorem selectedRevisions_highest {revisions : Option (List String)} (keyed : Keyed registry.revisions)
    (highest : registry.Highest text coordinate chosen)
    (known : ∀ name ∈ revisions.getD registry.revisions.keys, name ∈ registry.revisions.keys)
    (every : ∀ manifest, registry.Registered coordinate manifest →
      manifest.identity.revision ∈ revisions.getD registry.revisions.keys) :
    ∃ selected, registry.selectedRevisions text revisions = .ok selected ∧
      selected.get? coordinate = some chosen := by
  have resolve : ∀ name ∈ revisions.getD registry.revisions.keys, ∃ manifest,
      registry.revision name = .ok manifest := by
    intro name member
    obtain ⟨manifest, found⟩ := Dict.get?_isSome_iff.mpr (known name member)
    exact ⟨manifest, revision_eq_ok.mpr found⟩
  obtain ⟨manifests, done⟩ := exists_mapM_eq_ok.mpr resolve
  have members : ∀ manifest, manifest ∈ manifests ∧ manifest.identity.coordinate = coordinate ↔
      registry.Registered coordinate manifest := by
    intro manifest
    rw [mem_of_mapM done]
    constructor
    · intro ⟨⟨name, _, found⟩, same⟩
      rw [revision_eq_ok] at found
      exact ⟨(keyed name manifest found).symm ▸ found, same⟩
    · intro registered
      exact ⟨⟨_, every manifest registered, revision_eq_ok.mpr registered.1⟩, registered.2⟩
  have nodup := nodup_sortedSet (manifests.map fun manifest => manifest.identity.coordinate)
  rw [← coordinates_selectedManifestValues text] at nodup
  have own : chosen ∈ (selectedManifestValues text manifests).filter
      (fun manifest => manifest.identity.coordinate = coordinate) := by
    rw [filter_selected highest members]
    exact List.mem_singleton_self _
  refine ⟨_, CapabilityHub.bind_eq_ok.mpr ⟨manifests, done, rfl⟩, ?_⟩
  rw [Dict.get?_ofEntries _ (by rw [List.map_map]; exact nodup), ← Dict.mem_entries_iff]
  refine List.mem_map.mpr ⟨chosen, (List.mem_filter.mp own).1, ?_⟩
  rw [of_decide_eq_true (List.mem_filter.mp own).2]

/-- The highest revision is the one chosen. -/
theorem CapabilityRegistry.Highest.chooses (highest : registry.Highest text coordinate chosen)
    (keyed : Keyed registry.revisions) (indexed : registry.Indexed) :
    registry.Chooses text coordinate chosen := by
  have registered := highest.registered
  refine ⟨?_, revision_eq_ok.mpr registered.1, ?_, ?_, ?_⟩
  · have names := indexed coordinate
    rw [chosenRevision, activeCandidate]
    cases listed : registry.byCoordinate.getD coordinate [] with
    | nil =>
        rw [listed] at names
        cases (names chosen.identity.revision).mpr ⟨chosen, registered⟩
    | cons first rest =>
        rw [listed] at names
        have inside := maxBy_mem (registry.revisionKey text) first rest
        obtain ⟨manifest, found, same⟩ := (names _).mp inside
        have named := keyed _ manifest found
        have own : registry.Registered coordinate manifest := ⟨named.symm ▸ found, same⟩
        have key {manifest : CapabilityManifest} (registered : registry.Registered coordinate manifest) :
            registry.revisionKey text manifest.identity.revision = revisionOrder text manifest := by
          rw [revisionKey, registered.1]
          rfl
        have equal : manifest = chosen := by
          refine CapabilityRegistry.Highest.eq ⟨own, ?_⟩ highest
          intro manifest' registered'
          have le := le_maxBy (registry.revisionKey text)
            ((names manifest'.identity.revision).mpr ⟨manifest', registered'⟩)
          rw [← named, key own, key registered'] at le
          exact WithBot.coe_le_coe.mp le
        dsimp only
        rw [← equal, named]
  · refine selectedRevisions_highest keyed highest (fun name member => member) ?_
    intro manifest registered
    exact Dict.mem_keys_of_get? registered.1
  · intro revisions known every
    exact selectedRevisions_highest keyed highest known every
  · exact filter_selected highest fun manifest => mem_registered keyed

theorem exists_highest (text : PythonText) (keyed : Keyed registry.revisions)
    (known : ∃ manifest, registry.Registered coordinate manifest) :
    ∃ chosen, registry.Highest text coordinate chosen := by
  have members : ∀ manifest, manifest ∈ (registry.revisions.entries.map Prod.snd).filter
      (fun manifest => manifest.identity.coordinate = coordinate) ↔
        registry.Registered coordinate manifest := by
    intro manifest
    rw [List.mem_filter, decide_eq_true_eq]
    exact mem_registered keyed
  obtain ⟨manifest, registered⟩ := known
  cases listed : (registry.revisions.entries.map Prod.snd).filter
      (fun manifest => manifest.identity.coordinate = coordinate) with
  | nil =>
      rw [listed] at members
      cases (members manifest).mpr registered
  | cons first rest =>
      rw [listed] at members
      refine ⟨_, (members _).mp (maxBy_mem (revisionOrder text) first rest), fun manifest registered => ?_⟩
      exact le_maxBy (revisionOrder text) ((members manifest).mpr registered)

/-! ## The choice among versions -/

variable {versions : CapabilityManifest → SemVer}

/-- The revision chosen for a coordinate, where its versions are semantic: none has higher numbers, it is
stable if one with its numbers is, and a registry with the same revisions, from any other calls, chooses
the same. -/
structure Selects (text : PythonText) (sha256 : Bytes → Bytes) (versions : CapabilityManifest → SemVer)
    (registry : CapabilityRegistry) (coordinate : String) (chosen : CapabilityManifest) : Prop where
  registered : registry.Registered coordinate chosen
  chooses : registry.Chooses text coordinate chosen
  numbers : ∀ manifest, registry.Registered coordinate manifest →
    (versions manifest).key ≤ (versions chosen).key
  stable : ∀ manifest, registry.Registered coordinate manifest →
    (versions manifest).key = (versions chosen).key → (versions manifest).Stable → (versions chosen).Stable
  reordered : ∀ policy initial calls, construct text sha256 policy = .ok initial →
    (∀ manifest, (performAll text sha256 initial calls).Registered coordinate manifest ↔
      registry.Registered coordinate manifest) →
        (performAll text sha256 initial calls).Chooses text coordinate chosen

/-- A revision with the highest numbers. -/
def Top (versions : CapabilityManifest → SemVer) (registry : CapabilityRegistry) (coordinate : String)
    (manifest : CapabilityManifest) : Prop :=
  registry.Registered coordinate manifest ∧ ∀ other, registry.Registered coordinate other →
    (versions other).key ≤ (versions manifest).key

theorem revisionOrder_text (decimals : AsciiDecimals text) {version : SemVer}
    (versioned : manifest.identity.version = version.text) :
    revisionOrder text manifest = toLex ((version.major : Int), toLex ((version.minor : Int),
      toLex ((version.patch : Int), toLex (version.text, manifest.identity.revision)))) := by
  rw [revisionOrder, versioned, versionNumber_text decimals]
  rfl

theorem key_le_of_revisionOrder (decimals : AsciiDecimals text) {version version' : SemVer}
    (versioned : manifest.identity.version = version.text)
    (versioned' : chosen.identity.version = version'.text)
    (le : revisionOrder text manifest ≤ revisionOrder text chosen) : version.key ≤ version'.key := by
  rw [revisionOrder_text decimals versioned, revisionOrder_text decimals versioned'] at le
  simp only [SemVer.key, Prod.Lex.toLex_le_toLex] at le ⊢
  grind

theorem text_le_of_revisionOrder (decimals : AsciiDecimals text) {version version' : SemVer}
    (versioned : manifest.identity.version = version.text)
    (versioned' : chosen.identity.version = version'.text) (same : version.key = version'.key)
    (le : revisionOrder text manifest ≤ revisionOrder text chosen) : version.text ≤ version'.text := by
  rw [revisionOrder_text decimals versioned, revisionOrder_text decimals versioned'] at le
  simp only [SemVer.key, Prod.Lex.toLex_le_toLex, toLex_inj, Prod.mk.injEq] at le same
  grind

theorem CapabilityRegistry.Highest.top (decimals : AsciiDecimals text)
    (versioned : ∀ manifest, registry.Registered coordinate manifest →
      manifest.identity.version = (versions manifest).text)
    (highest : registry.Highest text coordinate chosen) : Top versions registry coordinate chosen := by
  refine ⟨highest.registered, fun manifest registered => ?_⟩
  exact key_le_of_revisionOrder decimals (versioned _ registered) (versioned _ highest.registered)
    (highest.highest manifest registered)

/-- A stable version is chosen exactly if the revisions with the highest numbers are all stable, or none is. -/
theorem selects_iff (decimals : AsciiDecimals text) (keyed : Keyed registry.revisions)
    (indexed : registry.Indexed)
    (versioned : ∀ manifest, registry.Registered coordinate manifest →
      manifest.identity.version = (versions manifest).text)
    (known : ∃ manifest, registry.Registered coordinate manifest) :
    (∃ chosen, Selects text sha256 versions registry coordinate chosen) ↔
      ¬∃ stable prerelease, Top versions registry coordinate stable ∧
        Top versions registry coordinate prerelease ∧ (versions stable).Stable ∧
          ¬(versions prerelease).Stable := by
  obtain ⟨highest, isHighest⟩ := exists_highest text keyed known
  have top := isHighest.top decimals versioned
  constructor
  · rintro ⟨chosen, selects⟩ ⟨stable, prerelease, topStable, topPrerelease, isStable, isPrerelease⟩
    have same := (isHighest.chooses keyed indexed).projected.symm.trans selects.chooses.projected
    obtain rfl : highest = chosen := List.head_eq_of_cons_eq same
    have key {manifest : CapabilityManifest} (other : Top versions registry coordinate manifest) :
        (versions manifest).key = (versions highest).key :=
      le_antisymm (top.2 manifest other.1) (other.2 highest top.1)
    have chosenStable := selects.stable stable topStable.1 (key topStable) isStable
    have le := text_le_of_revisionOrder decimals (versioned _ topPrerelease.1) (versioned _ top.1)
      (key topPrerelease) (isHighest.highest prerelease topPrerelease.1)
    have numbers : (versions highest).triple = (versions prerelease).triple := by
      have equal := key topPrerelease
      simp only [SemVer.key, toLex_inj, Prod.mk.injEq] at equal
      simp only [SemVer.triple, equal]
    exact absurd (text_lt numbers chosenStable isPrerelease) (not_lt.mpr le)
  · intro apart
    refine ⟨highest, top.1, isHighest.chooses keyed indexed, top.2, ?_, ?_⟩
    · intro manifest registered same stable
      by_contra prerelease
      refine apart ⟨manifest, highest, ⟨registered, fun other member => ?_⟩, top, stable, prerelease⟩
      rw [same]
      exact top.2 other member
    · intro policy initial calls constructed same
      have again : (performAll text sha256 initial calls).Highest text coordinate highest :=
        ⟨(same highest).mpr top.1, fun manifest registered =>
          isHighest.highest manifest ((same manifest).mp registered)⟩
      exact again.chooses (keyed_performAll constructed calls) (indexed_performAll constructed calls)

/-- **Version selection.** The revision chosen for a coordinate has the highest numbers, whichever way it is
asked for and in whatever order the revisions came. It is stable whenever a stable one has these numbers
exactly if the revisions with the highest numbers are all stable, or none is; and a constraint admits a
prerelease only if it does so in the order of versions exactly if, where the numbers fit, no expression with
the numbers of the prerelease has it on the wrong side. -/
theorem version_selection_iff (text : PythonText) (sha256 : Bytes → Bytes) (decimals : AsciiDecimals text)
    (policy : ProjectionPolicy) (initial : CapabilityRegistry)
    (constructed : construct text sha256 policy = .ok initial) (calls : List Call) (coordinate : String)
    (versions : CapabilityManifest → SemVer)
    (versioned : ∀ manifest, (performAll text sha256 initial calls).Registered coordinate manifest →
      manifest.identity.version = (versions manifest).text)
    (known : ∃ manifest, (performAll text sha256 initial calls).Registered coordinate manifest) :
    ((∃ chosen, Selects text sha256 versions (performAll text sha256 initial calls) coordinate chosen) ↔
      ¬∃ stable prerelease, Top versions (performAll text sha256 initial calls) coordinate stable ∧
        Top versions (performAll text sha256 initial calls) coordinate prerelease ∧
          (versions stable).Stable ∧ ¬(versions prerelease).Stable) ∧
    ∀ (dependency : DependencySpec) (expressions : List Expression) (candidate : SemVer),
      splitWords (strip dependency.versionConstraint) = expressions.map Expression.text →
        expressions ≠ [] → ¬candidate.Stable →
          ((satisfies text candidate.text dependency = true →
              ∀ expression ∈ expressions, expression.admits candidate = true) ↔
            ((∀ expression ∈ expressions, expression.admitsNumbers candidate = true) →
              ∀ expression ∈ expressions, expression.target.value.key = candidate.key →
                expression.admitsPrerelease candidate = true)) := by
  constructor
  · exact selects_iff decimals (keyed_performAll constructed calls) (indexed_performAll constructed calls)
      versioned known
  · intro dependency expressions candidate split constrains _
    exact satisfies_admits_iff decimals split constrains

/-- A version without a suffix. -/
def numbered (major minor patch : Nat) : SemVer where
  major := major
  minor := minor
  patch := patch
  plain := by simp

/-- The first release candidate of a version. -/
def releaseCandidate (version : SemVer) : SemVer :=
  { version with prerelease := [.alphanumeric "rc1" (by decide) (by decide)] }

/-- The versions of a manifest whose version is one of two. -/
def oneOf (first second : SemVer) (manifest : CapabilityManifest) : SemVer :=
  if manifest.identity.version = first.text then first else second

/-- Two versions of one skill. -/
def twoVersions (first second : SemVer) : List Call :=
  [.register (skill "a" first.text "x" []), .register (skill "a" second.text "x" [])]

def registered (first second : SemVer) : CapabilityRegistry :=
  performAll asciiText id (emptyRegistry isolatePolicy) (twoVersions first second)

theorem asciiDecimals : AsciiDecimals asciiText := by
  intro char ascii
  rw [asciiText, Char.isDigit]
  simp only [Char.le_def, ge_iff_le, Bool.and_eq_true, decide_eq_true_eq]

/-- The revisions of the skill, by their versions. -/
theorem registered_versions (first second : SemVer) (listed :
    (registered first second).revisions.entries.map (fun entry => entry.2.identity) =
      [⟨"d", "a", first.text, ""⟩, ⟨"d", "a", second.text, ""⟩]) :
    (∀ manifest, (registered first second).Registered "d/a" manifest →
        manifest.identity.version = (oneOf first second manifest).text) ∧
      ∀ version ∈ [first, second], ∃ manifest, (registered first second).Registered "d/a" manifest ∧
        manifest.identity.version = version.text := by
  have keyed : Keyed (registered first second).revisions := keyed_performAll construct_eq _
  constructor
  · intro manifest own
    have member := List.mem_map_of_mem (f := fun entry => entry.2.identity) (Dict.mem_entries_iff.mpr own.1)
    rw [listed] at member
    rw [oneOf]
    split
    next same => exact same
    next other =>
      rcases List.mem_cons.mp member with same | member
      · exact absurd (congrArg CapabilityIdentity.version same) other
      · exact congrArg CapabilityIdentity.version (List.mem_singleton.mp member)
  · intro version member
    have inside : (⟨"d", "a", version.text, ""⟩ : CapabilityIdentity) ∈
        (registered first second).revisions.entries.map fun entry => entry.2.identity := by
      rw [listed]
      rcases List.mem_cons.mp member with rfl | member
      · exact List.mem_cons_self
      · rw [List.mem_singleton.mp member]
        exact List.mem_cons_of_mem _ List.mem_cons_self
    obtain ⟨⟨name, manifest⟩, stored, same⟩ := List.mem_map.mp inside
    have found := Dict.mem_entries_iff.mp stored
    refine ⟨manifest, ⟨?_, ?_⟩, congrArg CapabilityIdentity.version same⟩
    · rwa [keyed name manifest found]
    · dsimp only at same
      rw [same]
      rfl

/-- The higher number is chosen, not the higher text. -/
theorem version_selection_numbers :
    ∃ chosen, Selects asciiText id (oneOf (numbered 1 2 0) (numbered 1 10 0))
      (registered (numbered 1 2 0) (numbered 1 10 0)) "d/a" chosen := by
  obtain ⟨versioned, listed⟩ := registered_versions (numbered 1 2 0) (numbered 1 10 0) (by decide +kernel)
  obtain ⟨manifest, known, _⟩ := listed _ List.mem_cons_self
  apply (version_selection_iff asciiText id asciiDecimals isolatePolicy _ construct_eq _ "d/a" _ versioned
    ⟨manifest, known⟩).1.mpr
  rintro ⟨stable, prerelease, _, _, _, isPrerelease⟩
  apply isPrerelease
  rw [oneOf]
  split <;> rfl

/-- A release candidate is chosen over the release, and admitted where only the release and what comes after
it are. -/
theorem releaseCandidate_chosen :
    (¬∃ chosen, Selects asciiText id (oneOf (numbered 1 0 0) (releaseCandidate (numbered 1 0 0)))
      (registered (numbered 1 0 0) (releaseCandidate (numbered 1 0 0))) "d/a" chosen) ∧
    satisfies asciiText (releaseCandidate (numbered 1 0 0)).text
      { coordinate := "d/a", versionConstraint := ">=1.0.0" } = true ∧
    Expression.text ⟨.atLeast, (numbered 1 0 0).named⟩ = ">=1.0.0" ∧
    Expression.admits ⟨.atLeast, (numbered 1 0 0).named⟩ (releaseCandidate (numbered 1 0 0)) = false := by
  refine ⟨?_, by decide +kernel, by decide +kernel, by decide +kernel⟩
  obtain ⟨versioned, listed⟩ := registered_versions (numbered 1 0 0)
    (releaseCandidate (numbered 1 0 0)) (by decide +kernel)
  obtain ⟨stable, known, named⟩ := listed _ List.mem_cons_self
  obtain ⟨prerelease, known', named'⟩ := listed _ (List.mem_cons_of_mem _ List.mem_cons_self)
  have key (manifest : CapabilityManifest) :
      (oneOf (numbered 1 0 0) (releaseCandidate (numbered 1 0 0)) manifest).key = (numbered 1 0 0).key := by
    rw [oneOf]
    split <;> rfl
  have level (first second : CapabilityManifest) :
      (oneOf (numbered 1 0 0) (releaseCandidate (numbered 1 0 0)) first).key ≤
        (oneOf (numbered 1 0 0) (releaseCandidate (numbered 1 0 0)) second).key := by
    rw [key, key]
  have keyed : Keyed (registered (numbered 1 0 0) (releaseCandidate (numbered 1 0 0))).revisions :=
    keyed_performAll construct_eq _
  rw [selects_iff asciiDecimals keyed (indexed_performAll construct_eq _) versioned ⟨stable, known⟩, not_not]
  refine ⟨stable, prerelease, ⟨known, fun other _ => level other stable⟩,
    ⟨known', fun other _ => level other prerelease⟩, ?_, ?_⟩
  · rw [oneOf, if_pos named]
    rfl
  · have apart : (releaseCandidate (numbered 1 0 0)).text ≠ (numbered 1 0 0).text := by decide +kernel
    rw [oneOf, if_neg (named' ▸ apart)]
    exact List.cons_ne_nil _ _

end CapabilityHub.Registry
