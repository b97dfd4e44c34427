import Mathlib.Data.List.Basic
import Mathlib.Data.List.Induction
import Mathlib.Data.Set.Function

/-! # Hash chains

Entries of which each names the hash of the one before it. Where no two trusted entries have one hash,
the number of entries and the hash of the last one tell them all (`CapabilityHub.Linked.unique`).
-/

namespace CapabilityHub

variable {ε η : Type} {hash previous : ε → η} {start : η} {entries others : List ε} {entry : ε}
  {trusted : Set ε}

/-- The hash of the last entry, or what a chain starts with. -/
def lastHash (hash : ε → η) (start : η) (entries : List ε) : η := (entries.getLast?.map hash).getD start

/-- Each entry names the hash of the entry before it. -/
def Linked (hash previous : ε → η) (start : η) (entries : List ε) : Prop :=
  ∀ earlier entry, earlier ++ [entry] <+: entries → previous entry = lastHash hash start earlier

@[simp] theorem lastHash_nil : lastHash hash start [] = start := rfl

@[simp] theorem lastHash_concat : lastHash hash start (entries ++ [entry]) = hash entry := by
  rw [lastHash, List.getLast?_concat]
  rfl

@[simp] theorem linked_nil : Linked hash previous start [] := by
  intro earlier entry shorter
  have none := List.prefix_nil.mp shorter
  exact absurd none (List.append_ne_nil_of_right_ne_nil _ (List.cons_ne_nil _ _))

theorem linked_concat : Linked hash previous start (entries ++ [entry]) ↔
    Linked hash previous start entries ∧ previous entry = lastHash hash start entries := by
  constructor
  · intro linked
    refine ⟨fun earlier other shorter => ?_, linked entries entry (List.prefix_refl _)⟩
    exact linked earlier other (shorter.trans (List.prefix_append _ _))
  · rintro ⟨linked, names⟩ earlier other shorter
    rcases List.prefix_concat_iff.mp shorter with same | inside
    · obtain ⟨rfl, last⟩ := List.append_inj' same rfl
      obtain rfl := List.singleton_inj.mp last
      exact names
    · exact linked earlier other inside

/-- The last hash and the length of a chain tell its entries. -/
theorem Linked.unique (injective : Set.InjOn hash trusted) (linked : Linked hash previous start entries)
    (linked' : Linked hash previous start others) (inside : ∀ entry ∈ entries, entry ∈ trusted)
    (inside' : ∀ entry ∈ others, entry ∈ trusted) (length : entries.length = others.length)
    (last : lastHash hash start entries = lastHash hash start others) : entries = others := by
  induction entries using List.reverseRecOn generalizing others with
  | nil => exact (List.length_eq_zero_iff.mp length.symm).symm
  | append_singleton entries entry ih =>
      rcases others.eq_nil_or_concat' with rfl | ⟨others, other, rfl⟩
      · exact absurd length (by simp)
      · rw [lastHash_concat, lastHash_concat] at last
        have same : entry = other := injective (inside entry (by simp)) (inside' other (by simp)) last
        rw [linked_concat] at linked linked'
        rw [List.length_append, List.length_append] at length
        have before := linked.2.symm.trans ((congrArg previous same).trans linked'.2)
        rw [same, ih linked.1 linked'.1 (fun entry member => inside entry (List.mem_append_left _ member))
          (fun entry member => inside' entry (List.mem_append_left _ member))
          (Nat.add_right_cancel length) before]

end CapabilityHub
