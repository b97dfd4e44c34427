import CapabilityHub.Data.JsonScan
import CapabilityHub.References

/-! # Lines of a text

`str.splitlines` ends a line at more characters than `\n`. A JSON text that `ensure_ascii=False` has
written keeps some of them, and is then split inside of its string literals.
-/

namespace CapabilityHub

/-- A character at which `str.splitlines` ends a line. -/
def isLineBreak (char : Char) : Bool :=
  [0x0a, 0x0b, 0x0c, 0x0d, 0x1c, 0x1d, 0x1e, 0x85, 0x2028, 0x2029].contains char.toNat

/-- `str.splitlines`. -/
def splitBreaks : List Char → List (List Char)
  | [] => []
  | '\r' :: '\n' :: rest => [] :: splitBreaks rest
  | char :: rest =>
      if isLineBreak char then [] :: splitBreaks rest
      else
        match splitBreaks rest with
        | [] => [[char]]
        | line :: lines => (char :: line) :: lines

example : splitBreaks "a\r\nb\u2028\nc".toList = ["a", "b", "", "c"].map String.toList := by decide +kernel

variable {chars rest line more : List Char} {char : Char} {after : Bool}

theorem splitBreaks_break (ends : isLineBreak char = true) (other : char ≠ '\r') :
    splitBreaks (char :: rest) = [] :: splitBreaks rest := by
  rw [splitBreaks, if_pos ends]
  intro _ same
  exact absurd same other

theorem splitBreaks_cons (inner : isLineBreak char = false) {lines : List (List Char)}
    (ended : splitBreaks rest = line :: lines) :
    splitBreaks (char :: rest) = (char :: line) :: lines := by
  rw [splitBreaks, if_neg (ne_true_of_eq_false inner), ended]
  intro _ same
  subst same
  cases inner

/-- A piece ends where its line does, or before a line break. -/
def EndsPiece (more : List Char) : Prop :=
  more = [] ∨ ∃ char rest, more = char :: rest ∧ isLineBreak char = true

/-- How a line is split: into a head, and pieces that each follow a line break. -/
structure Pieces (line head : List Char) (tail : List (List Char)) : Prop where
  first : ∃ more, line = head ++ more ∧ EndsPiece more
  inner : ∀ char ∈ head, isLineBreak char = false
  whole : (∀ char ∈ line, isLineBreak char = false) → head = line ∧ tail = []
  others : ∀ piece ∈ tail, ∃ before char more, line = before ++ char :: (piece ++ more) ∧
    isLineBreak char = true ∧ EndsPiece more

theorem splitBreaks_line (single : '\r' ∉ line) : ∃ head tail, Pieces line head tail ∧
    ∀ rest, splitBreaks (line ++ '\n' :: rest) = head :: (tail ++ splitBreaks rest) := by
  induction line with
  | nil =>
      refine ⟨[], [], ⟨⟨[], rfl, .inl rfl⟩, by simp, fun _ => ⟨rfl, rfl⟩, by simp⟩, fun rest => ?_⟩
      · exact splitBreaks_break rfl (by decide)
  | cons char line ih =>
      rw [List.mem_cons, not_or] at single
      obtain ⟨head, tail, pieces, split⟩ := ih single.2
      obtain ⟨more, ends, ended⟩ := pieces.first
      have later : ∀ piece ∈ tail, ∃ before mark more, char :: line =
          before ++ mark :: (piece ++ more) ∧ isLineBreak mark = true ∧ EndsPiece more := by
        intro piece member
        obtain ⟨before, mark, more, same, breaks, ended⟩ := pieces.others piece member
        exact ⟨char :: before, mark, more, by rw [same, List.cons_append], breaks, ended⟩
      by_cases breaks : isLineBreak char = true
      · refine ⟨[], head :: tail, ⟨⟨char :: line, rfl, .inr ⟨char, line, rfl, breaks⟩⟩, by simp,
          fun whole => ?_, List.forall_mem_cons.mpr ⟨?_, later⟩⟩, fun rest => ?_⟩
        · rw [whole char List.mem_cons_self] at breaks
          cases breaks
        · exact ⟨[], char, more, by rw [ends, List.nil_append], breaks, ended⟩
        · rw [List.cons_append, splitBreaks_break breaks (Ne.symm single.1), split]
          rfl
      · rw [Bool.not_eq_true] at breaks
        refine ⟨char :: head, tail, ⟨⟨more, by rw [ends, List.cons_append], ended⟩,
          List.forall_mem_cons.mpr ⟨breaks, pieces.inner⟩, fun whole => ?_, later⟩, fun rest => ?_⟩
        · obtain ⟨same, none⟩ := pieces.whole fun other member =>
            whole other (List.mem_cons_of_mem _ member)
          exact ⟨by rw [same], none⟩
        · rw [List.cons_append, splitBreaks_cons breaks (split rest)]

/-! ## Lines of JSON -/

/-- Up to a character beyond ASCII a scan gets inside of a literal. -/
theorem scanQuotes_before_wide {inside : Bool} (wide : 128 ≤ char.toNat)
    (scanned : scanQuotes inside (line ++ char :: more) = some after) :
    scanQuotes inside line = some true := by
  have quote : char ≠ '"' := by
    rintro rfl
    exact absurd wide (by decide)
  fun_induction scanQuotes inside line with
  | case1 inside =>
      cases inside
      · rw [List.nil_append, scanQuotes_outside quote, if_pos (.inr wide)] at scanned
        cases scanned
      · rfl
  | case2 rest ih =>
      rw [List.cons_append, scanQuotes_quote] at scanned
      exact ih scanned
  | case3 first rest quote bad =>
      rw [List.cons_append, scanQuotes_outside quote, if_pos bad] at scanned
      cases scanned
  | case4 first rest quote fine ih =>
      rw [List.cons_append, scanQuotes_outside quote, if_neg fine] at scanned
      exact ih scanned
  | case5 rest ih =>
      rw [List.cons_append, scanQuotes_quote] at scanned
      exact ih scanned
  | case6 =>
      change scanQuotes true ('\\' :: char :: more) = _ at scanned
      rw [scanQuotes_escape, if_pos wide] at scanned
      cases scanned
  | case7 mark rest bad =>
      rw [List.cons_append, List.cons_append, scanQuotes_escape, if_pos bad] at scanned
      cases scanned
  | case8 mark rest ascii _ ih =>
      rw [List.cons_append, List.cons_append, scanQuotes_escape, if_neg ascii] at scanned
      exact ih scanned
  | case9 first rest quote slash ih =>
      rw [List.cons_append, scanQuotes_inside quote slash] at scanned
      exact ih scanned

/-- A line break in a text without control characters is beyond ASCII. -/
theorem wide_of_isLineBreak (breaks : isLineBreak char = true) (printed : 0x20 ≤ char.toNat) :
    128 ≤ char.toNat := by
  simp only [isLineBreak, List.contains_cons, List.contains_nil, Bool.or_false, Bool.or_eq_true,
    beq_iff_eq] at breaks
  omega

/-- Of a line that is split nothing is read but letters of ASCII. -/
theorem Pieces.letters {head : List Char} {tail : List (List Char)} (pieces : Pieces line head tail)
    (printed : ∀ char ∈ line, 0x20 ≤ char.toNat) (scanned : scanQuotes false line = some false)
    (broken : ∃ char ∈ line, isLineBreak char = true) {piece : List Char}
    (member : piece ∈ head :: tail) {value : Json} (loaded : loads piece = some value) :
    ∀ letter ∈ value.letters, letter.toNat < 128 := by
  have wide : ∀ char ∈ line, isLineBreak char = true → 128 ≤ char.toNat := fun char member breaks =>
    wide_of_isLineBreak breaks (printed char member)
  rcases List.mem_cons.mp member with rfl | member
  · obtain ⟨more, split, ended⟩ := pieces.first
    rcases ended with rfl | ⟨mark, rest, rfl, breaks⟩
    · rw [List.append_nil] at split
      obtain ⟨mark, among, breaks⟩ := broken
      rw [pieces.inner mark (split ▸ among)] at breaks
      cases breaks
    · have inside : scanQuotes false piece = some true := by
        rw [split] at scanned
        refine scanQuotes_before_wide (wide mark ?_ breaks) scanned
        rw [split]
        exact List.mem_append_right _ List.mem_cons_self
      rw [(loads_reads loaded).1] at inside
      cases inside
  · obtain ⟨before, mark, more, split, breaks, ended⟩ := pieces.others piece member
    have among : mark ∈ line := by
      rw [split]
      exact List.mem_append_right _ List.mem_cons_self
    have beyond := wide mark among breaks
    have quote : mark ≠ '"' ∧ mark ≠ '\\' := by
      constructor <;> rintro rfl <;> exact absurd beyond (by decide)
    rw [split] at scanned
    rw [scanQuotes_append (scanQuotes_before_wide beyond scanned),
      scanQuotes_inside quote.1 quote.2] at scanned
    rcases ended with rfl | ⟨mark', rest, rfl, breaks'⟩
    · rw [List.append_nil] at scanned
      exact letters_of_inside scanned loaded
    · have among' : mark' ∈ line := by
        rw [split]
        simp
      exact letters_of_inside (scanQuotes_before_wide (wide mark' among' breaks') scanned) loaded

end CapabilityHub
