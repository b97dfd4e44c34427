import Mathlib.Data.List.Infix

/-! # The longest prefix that fits

Items are taken from the front of a list as long as there is room for them, in number and in size. What
is taken of the front of a list is what is taken of the whole exactly if the front ends for lack of room
or nothing comes after it (`CapabilityHub.longestPrefix_append_iff`).
-/

namespace CapabilityHub

variable {α : Type} (size : α → Nat)

def totalSize : List α → Nat
  | [] => 0
  | item :: rest => size item + totalSize rest

/-- At most so many items, of at most so much size. -/
def HasRoom (limit room : Nat) (items : List α) : Prop :=
  items.length ≤ limit ∧ totalSize size items ≤ room

structure LongestPrefix (limit room : Nat) (items result : List α) : Prop where
  front : result <+: items
  fits : HasRoom size limit room result
  longest : ∀ longer, longer <+: items → HasRoom size limit room longer → longer <+: result

/-- Items are taken until the next one does not fit. -/
def takeFitting : Nat → Nat → List α → List α
  | _, _, [] => []
  | 0, _, _ :: _ => []
  | limit + 1, room, item :: rest =>
      if size item ≤ room then item :: takeFitting limit (room - size item) rest else []

variable {size} {limit room : Nat} {items result result' front later : List α} {item : α}

theorem takeFitting_zero (room : Nat) (items : List α) : takeFitting size 0 room items = [] := by
  cases items <;> rw [takeFitting]

theorem takeFitting_cons (roomy : size item ≤ room) :
    takeFitting size (limit + 1) room (item :: items) =
      item :: takeFitting size limit (room - size item) items := by
  rw [takeFitting, if_pos roomy]

theorem takeFitting_of_large (large : room < size item) :
    takeFitting size (limit + 1) room (item :: items) = [] := by
  rw [takeFitting, if_neg large.not_ge]

theorem totalSize_append : totalSize size (front ++ later) = totalSize size front + totalSize size later := by
  induction front with
  | nil => rw [List.nil_append, totalSize, Nat.zero_add]
  | cons item front ih => rw [List.cons_append, totalSize, totalSize, ih, Nat.add_assoc]

theorem hasRoom_nil : HasRoom size limit room ([] : List α) := ⟨Nat.zero_le _, Nat.zero_le _⟩

theorem hasRoom_cons : HasRoom size (limit + 1) room (item :: items) ↔
    size item ≤ room ∧ HasRoom size limit (room - size item) items := by
  rw [HasRoom, HasRoom, List.length_cons, totalSize]
  omega

theorem longestPrefix_takeFitting (limit room : Nat) (items : List α) :
    LongestPrefix size limit room items (takeFitting size limit room items) := by
  induction items generalizing limit room with
  | nil =>
      rw [takeFitting]
      exact ⟨List.prefix_refl _, hasRoom_nil, fun _ front _ => front⟩
  | cons item rest ih =>
      cases limit with
      | zero =>
          refine ⟨List.nil_prefix, hasRoom_nil, fun longer _ fits => ?_⟩
          rw [List.length_eq_zero_iff.mp (Nat.le_zero.mp fits.1)]
          exact List.nil_prefix
      | succ limit =>
          rw [takeFitting]
          split
          next small =>
            obtain ⟨front, fits, longest⟩ := ih limit (room - size item)
            refine ⟨List.cons_prefix_cons.mpr ⟨rfl, front⟩, hasRoom_cons.mpr ⟨small, fits⟩, ?_⟩
            intro longer before fits'
            cases longer with
            | nil => exact List.nil_prefix
            | cons first longer =>
                obtain ⟨rfl, before'⟩ := List.cons_prefix_cons.mp before
                exact List.cons_prefix_cons.mpr ⟨rfl, longest longer before' (hasRoom_cons.mp fits').2⟩
          next large =>
            refine ⟨List.nil_prefix, hasRoom_nil, fun longer before fits' => ?_⟩
            cases longer with
            | nil => exact List.nil_prefix
            | cons first longer =>
                obtain ⟨rfl, _⟩ := List.cons_prefix_cons.mp before
                exact absurd (hasRoom_cons.mp fits').1 large

/-- Where the front of a list is not taken to its end, or it is and then there is no room for what comes
next, nothing is taken of the rest. -/
theorem longestPrefix_append_iff (taken : LongestPrefix size limit room front result) :
    LongestPrefix size limit room (front ++ later) result ↔
      ∀ next ∈ later.head?, ¬HasRoom size limit room (front ++ [next]) := by
  constructor
  · intro whole next following fits
    obtain ⟨rest, rfl⟩ : ∃ rest, later = next :: rest := by
      cases later with
      | nil => cases following
      | cons first rest => exact ⟨rest, by rw [Option.some.inj following]⟩
    have before : front ++ [next] <+: front ++ next :: rest :=
      List.prefix_append_right_inj front |>.mpr ⟨rest, rfl⟩
    have longer := (whole.longest _ before fits).length_le
    have shorter := taken.front.length_le
    rw [List.length_append, List.length_singleton] at longer
    omega
  · intro full
    refine ⟨taken.front.trans (List.prefix_append front later), taken.fits, fun longer before fits => ?_⟩
    rcases List.prefix_or_prefix_of_prefix before (List.prefix_append front later) with inside | ⟨extra, rfl⟩
    · exact taken.longest longer inside fits
    · rw [List.prefix_append_right_inj] at before
      cases extra with
      | nil => exact taken.longest _ (by rw [List.append_nil]) fits
      | cons next extra =>
          obtain ⟨rest, rfl⟩ := before
          refine absurd ⟨?_, ?_⟩ (full next rfl)
          · have fewer := fits.1
            rw [List.length_append, List.length_cons] at fewer
            rw [List.length_append, List.length_singleton]
            omega
          · have smaller := fits.2
            rw [totalSize_append, totalSize] at smaller
            rw [totalSize_append, totalSize, totalSize]
            omega

end CapabilityHub
