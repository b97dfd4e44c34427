import CapabilityHub.Manifest.Fields

/-! # The identities of manifests

A revision string joins its parts with marks that a version may contain. It is read back because a
namespace and a name have none of the marks, and a digest has a fixed length
(`CapabilityHub.Manifest.revision_eq_iff`).
-/

namespace CapabilityHub.Manifest

/-- What `_parse_identity` passes on. -/
structure WellFormed (identity : CapabilityIdentity) : Prop where
  capabilityNamespace : isName identity.capabilityNamespace.toList = true
  name : isName identity.name.toList = true
  version : Fits 128 identity.version ∧ identity.version.toList.any isSpace = false
  digest : isDigest identity.digest.toList = true

variable {metadata : List (String × Json)} {identity other : CapabilityIdentity} {text : String}
  {char mark : Char} {check : List (String × Json) → Bool} {document : Json}
  {manifest : CapabilityManifest}

theorem wellFormed_of_parseIdentity (parsed : parseIdentity metadata = .ok identity) :
    WellFormed identity := by
  rw [parseIdentity] at parsed
  simp only [bind_eq_ok, name_eq_ok, string_eq_ok, exists_unit, raiseIf_eq_ok, pure_eq_ok,
    Bool.not_eq_true, Bool.not_eq_false] at parsed
  obtain ⟨_, ⟨_, named⟩, _, ⟨_, named'⟩, version, ⟨_, fits⟩, spaced, digest, ⟨_, _⟩, digested, rfl⟩ :=
    parsed
  exact ⟨named, named', ⟨fits, spaced⟩, digested⟩

theorem wellFormed_of_parseManifest (parsed : parseManifest check document = .ok manifest) :
    WellFormed manifest.identity := by
  rw [parseManifest] at parsed
  simp only [bind_eq_ok, exists_unit, pure_eq_ok] at parsed
  obtain ⟨_, _, _, _, metadata, _, identity, read, parsed⟩ := parsed
  iterate 13 obtain ⟨_, _, parsed⟩ := parsed
  cases parsed
  exact wellFormed_of_parseIdentity read

theorem notMem_of_isName (named : isName text.toList = true) (foreign : isPlain mark = false)
    (apart : mark ≠ '.' ∧ mark ≠ '_' ∧ mark ≠ '-') : mark ∉ text.toList := by
  intro member
  cases letters : text.toList with
  | nil =>
      rw [letters] at member
      cases member
  | cons first rest =>
      rw [letters, isName] at named
      rw [letters] at member
      simp only [Bool.and_eq_true, List.all_eq_true, Bool.or_eq_true, decide_eq_true_eq] at named
      rcases List.mem_cons.mp member with rfl | later
      · rw [named.1.1] at foreign
        cases foreign
      · rcases named.2 mark later with ((plain | dot) | underscore) | dash
        · rw [plain] at foreign
          cases foreign
        · exact apart.1 dot
        · exact apart.2.1 underscore
        · exact apart.2.2 dash

theorem length_of_isDigest (digested : isDigest text.toList = true) : text.toList.length = 71 := by
  rw [isDigest] at digested
  simp only [Bool.and_eq_true, decide_eq_true_eq] at digested
  exact digested.1.2

/-- Two texts that are cut at their first mark. -/
theorem eq_of_first_mark {before before' after after' : List Char} (fresh : mark ∉ before)
    (fresh' : mark ∉ before') (same : before ++ mark :: after = before' ++ mark :: after') :
    before = before' ∧ after = after' := by
  induction before generalizing before' with
  | nil =>
      cases before' with
      | nil =>
          rw [List.nil_append, List.nil_append, List.cons.injEq] at same
          exact ⟨rfl, same.2⟩
      | cons first rest =>
          rw [List.nil_append, List.cons_append, List.cons.injEq] at same
          exact absurd (same.1 ▸ List.mem_cons_self) fresh'
  | cons first rest ih =>
      rw [List.mem_cons, not_or] at fresh
      cases before' with
      | nil =>
          rw [List.nil_append, List.cons_append, List.cons.injEq] at same
          exact absurd same.1.symm fresh.1
      | cons first' rest' =>
          rw [List.mem_cons, not_or] at fresh'
          rw [List.cons_append, List.cons_append, List.cons.injEq] at same
          obtain ⟨rfl, rfl⟩ := ih fresh.2 fresh'.2 same.2
          exact ⟨by rw [same.1], rfl⟩

theorem toList_coordinate (identity : CapabilityIdentity) :
    identity.coordinate.toList = identity.capabilityNamespace.toList ++ '/' :: identity.name.toList := by
  simp [CapabilityIdentity.coordinate]

theorem toList_revision (identity : CapabilityIdentity) :
    identity.revision.toList = identity.coordinate.toList ++ '@' ::
      (identity.version.toList ++ '#' :: identity.digest.toList) := by
  simp [CapabilityIdentity.revision]

namespace WellFormed

theorem at_notMem_coordinate (formed : WellFormed identity) : '@' ∉ identity.coordinate.toList := by
  rw [toList_coordinate, List.mem_append, List.mem_cons]
  rintro (first | slash | second)
  · exact notMem_of_isName formed.capabilityNamespace (by decide) (by decide) first
  · cases slash
  · exact notMem_of_isName formed.name (by decide) (by decide) second

theorem coordinate_eq_iff (formed : WellFormed identity) (formed' : WellFormed other) :
    identity.coordinate = other.coordinate ↔
      identity.capabilityNamespace = other.capabilityNamespace ∧ identity.name = other.name := by
  constructor
  · intro same
    rw [← String.toList_inj, toList_coordinate, toList_coordinate] at same
    have slash (identity : CapabilityIdentity) (formed : WellFormed identity) :
        '/' ∉ identity.capabilityNamespace.toList :=
      notMem_of_isName formed.capabilityNamespace (by decide) (by decide)
    obtain ⟨first, second⟩ := eq_of_first_mark (slash identity formed) (slash other formed') same
    exact ⟨String.toList_inj.mp first, String.toList_inj.mp second⟩
  · rintro ⟨first, second⟩
    rw [CapabilityIdentity.coordinate, CapabilityIdentity.coordinate, first, second]

theorem eq_of_revision (formed : WellFormed identity) (formed' : WellFormed other)
    (same : identity.revision = other.revision) : identity = other := by
  rw [← String.toList_inj, toList_revision, toList_revision] at same
  obtain ⟨coordinates, rest⟩ :=
    eq_of_first_mark formed.at_notMem_coordinate formed'.at_notMem_coordinate same
  -- the digests are equally long, so the versions end at the same place
  have lengths : ('#' :: identity.digest.toList).length = ('#' :: other.digest.toList).length := by
    rw [List.length_cons, List.length_cons, length_of_isDigest formed.digest,
      length_of_isDigest formed'.digest]
  obtain ⟨versions, digests⟩ := List.append_inj' rest lengths
  obtain ⟨namespaces, names⟩ := (formed.coordinate_eq_iff formed').mp (String.toList_inj.mp coordinates)
  cases identity
  cases other
  rw [CapabilityIdentity.mk.injEq]
  exact ⟨namespaces, names, String.toList_inj.mp versions, String.toList_inj.mp (List.cons.inj digests).2⟩

end WellFormed

/-- **Revision strings identify.** The revisions of two parsed manifests are equal exactly if all parts
of their identities are, and so are the coordinates for namespace and name. -/
theorem revision_eq_iff (check : List (String × Json) → Bool) (first second : Json)
    (manifest manifest' : CapabilityManifest) (parsed : parseManifest check first = .ok manifest)
    (parsed' : parseManifest check second = .ok manifest') :
    (manifest.identity.revision = manifest'.identity.revision ↔
      manifest.identity.capabilityNamespace = manifest'.identity.capabilityNamespace ∧
      manifest.identity.name = manifest'.identity.name ∧
      manifest.identity.version = manifest'.identity.version ∧
      manifest.identity.digest = manifest'.identity.digest) ∧
    (manifest.identity.coordinate = manifest'.identity.coordinate ↔
      manifest.identity.capabilityNamespace = manifest'.identity.capabilityNamespace ∧
      manifest.identity.name = manifest'.identity.name) := by
  have formed := wellFormed_of_parseManifest parsed
  have formed' := wellFormed_of_parseManifest parsed'
  refine ⟨⟨fun same => ?_, ?_⟩, formed.coordinate_eq_iff formed'⟩
  · rw [formed.eq_of_revision formed' same]
    exact ⟨rfl, rfl, rfl, rfl⟩
  · rintro ⟨namespaces, names, versions, digests⟩
    rw [CapabilityIdentity.revision, CapabilityIdentity.revision, CapabilityIdentity.coordinate,
      CapabilityIdentity.coordinate, namespaces, names, versions, digests]

/-- A document with one operation. -/
def oneOperation (version digest : String) : Json :=
  .obj [("apiVersion", .str apiVersion), ("kind", .str "Capability"),
    ("metadata", .obj [("namespace", .str "n"), ("name", .str "c"), ("version", .str version),
      ("digest", .str digest)]),
    ("spec", .obj [("type", .str "cli"), ("summary", .str "s"), ("provider", .str "p"),
      ("operations", .arr [.obj [("name", .str "o")]])])]

/-- The manifest of such a document. -/
def oneOperationManifest (version digest : String) : CapabilityManifest where
  identity := ⟨"n", "c", version, digest⟩
  kind := .cli
  summary := "s"
  provider := "p"
  operations := [⟨"o", .execute, [], [], .none, false⟩]
  metadata := [("namespace", .str "n"), ("name", .str "c"), ("version", .str version),
    ("digest", .str digest), ("root_extensions", .obj []), ("extensions", .obj [])]

def zeroDigest : String := "sha256:0000000000000000000000000000000000000000000000000000000000000000"

/-- Versions with the marks in them are told apart. -/
theorem marked_versions_identify :
    let first := oneOperationManifest "1" zeroDigest
    let second := oneOperationManifest "1#2@3/4" zeroDigest
    (first.identity.revision = second.identity.revision ↔
      first.identity.capabilityNamespace = second.identity.capabilityNamespace ∧
      first.identity.name = second.identity.name ∧ first.identity.version = second.identity.version ∧
      first.identity.digest = second.identity.digest) ∧
    (first.identity.coordinate = second.identity.coordinate ↔
      first.identity.capabilityNamespace = second.identity.capabilityNamespace ∧
      first.identity.name = second.identity.name) :=
  revision_eq_iff (fun _ => true) (oneOperation "1" zeroDigest) (oneOperation "1#2@3/4" zeroDigest) _ _
    rfl rfl

end CapabilityHub.Manifest
