import CapabilityHub.Merkle.Levels

/-! # The depth of a leaf

An audit path skips the levels on which its position is unpaired. A position is
paired on every level exactly when its audit path has as many siblings as the
tree has levels (`CapabilityHub.Merkle.auditPath_full_iff`). No audit path is
longer, so `2 ^ height` leaves have paths of at most `height` siblings
(`CapabilityHub.Merkle.length_auditPath_le`).
-/

namespace CapabilityHub.Merkle

variable {Entry Digest : Type*}

/-- The position `index` has a sibling on every level of a tree whose last
position is `last`: wherever it is the last position of a level below the root,
it is the right half of a pair. -/
def PairedThroughout (index last : Nat) : Prop :=
  ∀ level, last / 2 ^ level ≠ 0 → index / 2 ^ level = last / 2 ^ level →
    index / 2 ^ level % 2 = 1

theorem div_two_pow_succ (number level : Nat) :
    number / 2 ^ (level + 1) = number / 2 / 2 ^ level := by
  rw [Nat.pow_succ', Nat.div_div_eq_div_mul]

theorem pairedThroughout_zero (index : Nat) : PairedThroughout index 0 := by
  intro level nonzero
  simp at nonzero

/-- Being paired throughout is being paired at the lowest level and above it. -/
theorem pairedThroughout_iff {index last : Nat} (several : last ≠ 0) :
    PairedThroughout index last ↔
      (index = last → index % 2 = 1) ∧ PairedThroughout (index / 2) (last / 2) := by
  constructor
  · intro paired
    refine ⟨fun same => ?_, fun level nonzero same => ?_⟩
    · simpa using paired 0 (by simpa using several) (by simpa using same)
    · have above := paired (level + 1)
      rw [div_two_pow_succ, div_two_pow_succ] at above
      exact above nonzero same
  · rintro ⟨lowest, above⟩ level nonzero same
    cases level with
    | zero => simpa using lowest (by simpa using same)
    | succ level =>
        rw [div_two_pow_succ] at nonzero same ⊢
        rw [div_two_pow_succ] at same
        exact above level nonzero same

section Sibling

variable {index : Nat} {digests : List Digest}

theorem sibling_of_odd (inside : index < digests.length) (odd : index % 2 = 1) :
    ∃ digest, sibling index digests = some digest ∧ digests[index - 1]? = some digest := by
  refine ⟨digests[index - 1], ?_, List.getElem?_eq_getElem (by omega)⟩
  rw [sibling, if_pos odd]
  exact List.getElem?_eq_getElem (by omega)

theorem sibling_of_even (inside : index + 1 < digests.length) (even : index % 2 = 0) :
    ∃ digest, sibling index digests = some digest ∧ digests[index + 1]? = some digest := by
  refine ⟨digests[index + 1], ?_, List.getElem?_eq_getElem inside⟩
  rw [sibling, if_neg (by omega)]
  exact List.getElem?_eq_getElem inside

theorem sibling_of_last (last : index + 1 = digests.length) (even : index % 2 = 0) :
    sibling index digests = none := by
  rw [sibling, if_neg (by omega)]
  exact List.getElem?_eq_none (by omega)

/-- A position has a sibling unless it is an even last one. -/
theorem sibling_eq_none_iff (inside : index < digests.length) :
    sibling index digests = none ↔ index + 1 = digests.length ∧ index % 2 = 0 := by
  constructor
  · intro absent
    by_cases odd : index % 2 = 1
    · obtain ⟨_, present, _⟩ := sibling_of_odd inside odd
      rw [present] at absent
      cases absent
    · by_cases next : index + 1 < digests.length
      · obtain ⟨_, present, _⟩ := sibling_of_even next (by omega)
        rw [present] at absent
        cases absent
      · omega
  · rintro ⟨last, even⟩
    exact sibling_of_last last even

end Sibling

variable (scheme : HashScheme Entry Digest)

/-- The last position of the next level. -/
theorem length_pairUp_sub_one (node : Digest → Digest → Digest) {digests : List Digest}
    (nonempty : 0 < digests.length) :
    (pairUp node digests).length - 1 = (digests.length - 1) / 2 := by
  rw [length_pairUp]
  omega

/-- An audit path has no sibling above the root. -/
theorem div_two_pow_ne_zero_of_lt_length_auditPath {digests : List Digest} {index level : Nat}
    (inside : index < digests.length)
    (below : level < (scheme.hashed.auditPath index digests).length) :
    (digests.length - 1) / 2 ^ level ≠ 0 := by
  induction counted : digests.length using Nat.strong_induction_on
    generalizing digests index level with
  | h count ih =>
      subst counted
      by_cases several : 2 ≤ digests.length
      · have upper : ∀ level,
            level < (scheme.hashed.auditPath (index / 2) (pairUp scheme.node digests)).length →
              (digests.length - 1) / 2 / 2 ^ level ≠ 0 := by
          intro level below
          rw [← length_pairUp_sub_one scheme.node (by omega)]
          exact ih _ (by rw [length_pairUp]; omega) (by rw [length_pairUp]; omega) below rfl
        rw [auditPath_pairUp scheme index digests inside, List.length_append] at below
        cases present : sibling index digests with
        | none =>
            rw [present] at below
            simp only [Option.toList_none, List.length_nil, Nat.zero_add] at below
            intro zero
            have shrink : (digests.length - 1) / 2 / 2 ^ level ≤
                (digests.length - 1) / 2 ^ level :=
              Nat.div_le_div_right (Nat.div_le_self _ _)
            exact upper level below (Nat.eq_zero_of_le_zero (shrink.trans zero.le))
        | some digest =>
            rw [present] at below
            simp only [Option.toList_some, List.length_singleton] at below
            cases level with
            | zero => rw [Nat.pow_zero, Nat.div_one]; omega
            | succ level =>
                rw [div_two_pow_succ]
                exact upper level (by omega)
      · rw [scheme.hashed.auditPath_small (by omega)] at below
        simp at below

/-- At most `2 ^ height` leaves have audit paths of at most `height` siblings. -/
theorem length_auditPath_le {digests : List Digest} {index height : Nat}
    (inside : index < digests.length) (bounded : digests.length ≤ 2 ^ height) :
    (scheme.hashed.auditPath index digests).length ≤ height := by
  by_contra longer
  refine div_two_pow_ne_zero_of_lt_length_auditPath scheme inside (Nat.not_le.mp longer) ?_
  exact Nat.div_eq_of_lt (by omega)

/-- **Full audit paths.** The siblings of an audit path use up all the levels of
the tree exactly when its position is paired throughout. -/
theorem auditPath_full_iff {digests : List Digest} {index : Nat}
    (inside : index < digests.length) :
    (digests.length - 1) / 2 ^ (scheme.hashed.auditPath index digests).length = 0 ↔
      PairedThroughout index (digests.length - 1) := by
  induction counted : digests.length using Nat.strong_induction_on generalizing digests index with
  | h count ih =>
      subst counted
      by_cases several : 2 ≤ digests.length
      · have next : index / 2 < (pairUp scheme.node digests).length := by
          rw [length_pairUp]; omega
        have upper := ih _ (by rw [length_pairUp]; omega) next rfl
        rw [length_pairUp_sub_one scheme.node (by omega)] at upper
        rw [pairedThroughout_iff (by omega)]
        cases present : sibling index digests with
        | none =>
            obtain ⟨last, even⟩ := (sibling_eq_none_iff inside).mp present
            refine iff_of_false ?_ fun paired => ?_
            · rw [auditPath_pairUp scheme index digests inside, present]
              simp only [Option.toList_none, List.nil_append]
              cases counted : (scheme.hashed.auditPath (index / 2)
                  (pairUp scheme.node digests)).length with
              | zero => rw [Nat.pow_zero, Nat.div_one]; omega
              | succ level =>
                  rw [div_two_pow_succ, ← length_pairUp_sub_one scheme.node (by omega)]
                  exact div_two_pow_ne_zero_of_lt_length_auditPath scheme next
                    (Nat.lt_of_lt_of_eq (Nat.lt_succ_self level) counted.symm)
            · have odd := paired.1 (by omega)
              omega
        | some digest =>
            have lowest : index = digests.length - 1 → index % 2 = 1 := by
              intro last
              by_contra even
              rw [(sibling_eq_none_iff inside).mpr ⟨by omega, by omega⟩] at present
              cases present
            rw [auditPath_pairUp scheme index digests inside, present]
            simp only [Option.toList_some, List.singleton_append, List.length_cons]
            rw [div_two_pow_succ, upper]
            exact (and_iff_right lowest).symm
      · have single : digests.length - 1 = 0 := by omega
        rw [single, Nat.zero_div]
        exact iff_of_true rfl (pairedThroughout_zero index)

/-- In a tree over `2 ^ height` leaves every audit path has `height` siblings. -/
theorem length_auditPath_two_pow {digests : List Digest} {index height : Nat}
    (inside : index < digests.length) (perfect : digests.length = 2 ^ height) :
    (scheme.hashed.auditPath index digests).length = height := by
  induction height generalizing digests index with
  | zero => rw [scheme.hashed.auditPath_small (by simp [perfect]), List.length_nil]
  | succ height ih =>
      rw [Nat.pow_succ] at perfect
      have present : sibling index digests ≠ none := by
        intro absent
        have last := (sibling_eq_none_iff inside).mp absent
        omega
      obtain ⟨digest, found⟩ := Option.ne_none_iff_exists'.mp present
      rw [auditPath_pairUp scheme index digests inside, found]
      simp only [Option.toList_some, List.singleton_append, List.length_cons]
      rw [ih (by rw [length_pairUp]; omega) (by rw [length_pairUp]; omega)]

end CapabilityHub.Merkle
