import CapabilityHub.Data.JsonMembers

/-! # Files of JSON lines

A canonical text has no line end inside (`CapabilityHub.newline_notMem_canonicalJson`), so texts that are
written one to a line are read back one by one.
-/

namespace CapabilityHub

/-- The lines of a file, and what follows the last line end. -/
def splitLines : List Char → List (List Char) × List Char
  | [] => ([], [])
  | char :: rest =>
      let below := splitLines rest
      if char = '\n' then ([] :: below.1, below.2)
      else
        match below.1 with
        | [] => ([], char :: below.2)
        | line :: lines => ((char :: line) :: lines, below.2)

/-- A text on a line of its own. -/
def lineOf (text : String) : List Char := text.toList ++ ['\n']

variable {chars more line : List Char} {lines : List (List Char)} {escape : Char → List Char}

theorem splitLines_line (single : '\n' ∉ line) :
    splitLines (line ++ '\n' :: more) = (line :: (splitLines more).1, (splitLines more).2) := by
  induction line with
  | nil => rfl
  | cons char line ih =>
      have other : char ≠ '\n' := fun same => single (same ▸ List.mem_cons_self)
      have below := ih fun member => single (List.mem_cons_of_mem _ member)
      rw [List.cons_append, splitLines, below]
      exact if_neg other

/-- What is written after whole lines is read after them. -/
theorem splitLines_append (whole : splitLines chars = (lines, [])) :
    splitLines (chars ++ more) = (lines ++ (splitLines more).1, (splitLines more).2) := by
  induction chars generalizing lines with
  | nil =>
      obtain ⟨rfl, _⟩ := Prod.mk.inj whole
      rfl
  | cons char chars ih =>
      rw [splitLines] at whole
      rw [List.cons_append, splitLines]
      by_cases ends : char = '\n'
      · rw [if_pos ends] at whole ⊢
        obtain ⟨rfl, finished⟩ := Prod.mk.inj whole
        rw [ih (Prod.ext rfl finished)]
        rfl
      · rw [if_neg ends] at whole ⊢
        cases found : (splitLines chars).1 with
        | nil =>
            rw [found] at whole
            cases whole
        | cons first others =>
            rw [found] at whole
            obtain ⟨rfl, finished⟩ := Prod.mk.inj whole
            rw [ih (Prod.ext found finished)]
            rfl

/-! ## The characters of a text -/

section

variable {allowed : Char → Prop} (marks : ∀ char, 0x20 ≤ char.toNat → char.toNat < 128 → allowed char)

include marks

theorem forall_mem_intercalate {parts : List (List Char)}
    (each : ∀ part ∈ parts, ∀ char ∈ part, allowed char) :
    ∀ char ∈ [','].intercalate parts, allowed char := by
  induction parts with
  | nil => exact fun char member => absurd member List.not_mem_nil
  | cons part parts ih =>
      obtain ⟨here, others⟩ := List.forall_mem_cons.mp each
      cases parts with
      | nil => rwa [List.intercalate_singleton]
      | cons next parts =>
          rw [List.intercalate_cons_cons]
          intro char member
          rcases List.mem_append.mp member with front | later
          · rcases List.mem_append.mp front with inside | comma
            · exact here char inside
            · rw [List.mem_singleton.mp comma]
              exact marks ',' (by decide) (by decide)
          · exact ih others char later

theorem forall_mem_toString (value : Int) : ∀ char ∈ (toString value).toList, allowed char := by
  have digits (value : Nat) : ∀ char ∈ Nat.toDigits 10 value, allowed char := by
    intro char member
    have digit := Nat.isDigit_of_mem_toDigits (by decide) (by decide) member
    simp only [Char.isDigit, Bool.and_eq_true, decide_eq_true_eq] at digit
    refine marks char ?_ ?_
    · exact Nat.le_trans (by decide) (UInt32.le_iff_toNat_le.mp digit.1)
    · exact Nat.lt_of_le_of_lt (UInt32.le_iff_toNat_le.mp digit.2) (by decide)
  rw [toList_toString_int]
  split
  · exact digits _
  · exact List.forall_mem_cons.mpr ⟨marks '-' (by decide) (by decide), digits _⟩

theorem forall_mem_marked {opening closing : Char} {inside : List Char}
    (opens : 0x20 ≤ opening.toNat ∧ opening.toNat < 128)
    (closes : 0x20 ≤ closing.toNat ∧ closing.toNat < 128)
    (each : ∀ char ∈ inside, allowed char) :
    ∀ char ∈ opening :: inside ++ [closing], allowed char := by
  rw [List.cons_append]
  refine List.forall_mem_cons.mpr ⟨marks opening opens.1 opens.2, fun char member => ?_⟩
  rcases List.mem_append.mp member with member | last
  · exact each char member
  · rw [List.mem_singleton.mp last]
    exact marks closing closes.1 closes.2

theorem forall_mem_word {word : List Char}
    (plain : (word.all fun char => 0x20 ≤ char.toNat && char.toNat < 128) = true) :
    ∀ char ∈ word, allowed char := by
  intro char member
  have bounds := List.all_eq_true.mp plain char member
  rw [Bool.and_eq_true, decide_eq_true_eq, decide_eq_true_eq] at bounds
  exact marks char bounds.1 bounds.2

theorem forall_mem_escape (escaped : ∀ char, ∀ written ∈ escape char, allowed written)
    (text : List Char) : ∀ char ∈ '"' :: text.flatMap escape ++ ['"'], allowed char := by
  refine forall_mem_marked marks (by decide) (by decide) fun char member => ?_
  obtain ⟨letter, _, written⟩ := List.mem_flatMap.mp member
  exact escaped letter char written

end

mutual

/-- A text has no characters but printable ones of ASCII and those of its escaped letters. -/
theorem forall_mem_render {allowed : Char → Prop}
    (marks : ∀ char, 0x20 ≤ char.toNat → char.toNat < 128 → allowed char)
    (escaped : ∀ char, ∀ written ∈ escape char, allowed written) :
    ∀ value : Json, ∀ char ∈ value.render escape, allowed char
  | .null => by
      rw [Json.render]
      exact forall_mem_word marks rfl
  | .bool true => by
      rw [Json.render]
      exact forall_mem_word marks rfl
  | .bool false => by
      rw [Json.render]
      exact forall_mem_word marks rfl
  | .int value => by
      rw [Json.render]
      exact forall_mem_toString marks value
  | .str text => by
      rw [Json.render]
      exact forall_mem_escape marks escaped text.toList
  | .arr items => by
      rw [Json.render]
      exact forall_mem_marked marks (by decide) (by decide)
        (forall_mem_intercalate marks (forall_mem_renderItems marks escaped items))
  | .obj fields => by
      rw [Json.render]
      exact forall_mem_marked marks (by decide) (by decide)
        (forall_mem_intercalate marks (forall_mem_renderFields marks escaped fields))

theorem forall_mem_renderItems {allowed : Char → Prop}
    (marks : ∀ char, 0x20 ≤ char.toNat → char.toNat < 128 → allowed char)
    (escaped : ∀ char, ∀ written ∈ escape char, allowed written) :
    ∀ items : List Json, ∀ part ∈ renderItems escape items, ∀ char ∈ part, allowed char
  | [], part, member => by cases member
  | item :: rest, part, member => by
      rw [renderItems] at member
      rcases List.mem_cons.mp member with rfl | member
      · exact forall_mem_render marks escaped item
      · exact forall_mem_renderItems marks escaped rest part member

theorem forall_mem_renderFields {allowed : Char → Prop}
    (marks : ∀ char, 0x20 ≤ char.toNat → char.toNat < 128 → allowed char)
    (escaped : ∀ char, ∀ written ∈ escape char, allowed written) :
    ∀ fields : List (String × Json), ∀ part ∈ renderFields escape fields,
      ∀ char ∈ part, allowed char
  | [], part, member => by cases member
  | (key, value) :: rest, part, member => by
      rw [renderFields] at member
      rcases List.mem_cons.mp member with rfl | member
      · have split : '"' :: key.toList.flatMap escape ++ '"' :: ':' :: value.render escape =
            ('"' :: key.toList.flatMap escape ++ ['"']) ++ ':' :: value.render escape := by simp
        intro char member
        rw [split] at member
        rcases List.mem_append.mp member with named | given
        · exact forall_mem_escape marks escaped key.toList char named
        · rcases List.mem_cons.mp given with rfl | given
          · exact marks ':' (by decide) (by decide)
          · exact forall_mem_render marks escaped value char given
      · exact forall_mem_renderFields marks escaped rest part member

end

/-- Control characters are escaped. -/
theorem printed_escapeRaw (char : Char) : ∀ written ∈ escapeRaw char, 0x20 ≤ written.toNat := by
  have digit (value : Nat) : 0x20 ≤ (hexDigit (value % 16)).toNat := by
    have every : ∀ value < 16, 0x20 ≤ (hexDigit value).toNat := by decide
    exact every _ (Nat.mod_lt _ (by decide))
  have unicode (unit : Nat) : ∀ written ∈ unicodeEscape unit, 0x20 ≤ written.toNat := by
    simp only [unicodeEscape, List.mem_cons, List.not_mem_nil, or_false, forall_eq_or_imp, forall_eq]
    exact ⟨by decide, by decide, digit _, digit _, digit _, digit _⟩
  have other : ∀ written ∈ (if char.toNat < 0x20 then unicodeEscape char.toNat else [char]),
      0x20 ≤ written.toNat := by
    split
    · exact unicode _
    next printed => exact fun written member => List.mem_singleton.mp member ▸ Nat.not_lt.mp printed
  have short (letter : Char) (low : 0x20 ≤ letter.toNat) :
      ∀ written ∈ ['\\', letter], 0x20 ≤ written.toNat := by
    intro written member
    rcases List.mem_cons.mp member with rfl | member
    · exact (by decide : 0x20 ≤ '\\'.toNat)
    · exact List.mem_singleton.mp member ▸ low
  unfold escapeRaw escapeShort
  repeat' split
  all_goals first
    | exact other
    | exact short _ (by decide)

theorem printed_canonicalJson (value : Json) : ∀ char ∈ (canonicalJson value).toList, 0x20 ≤ char.toNat := by
  rw [canonicalJson, String.toList_ofList]
  exact forall_mem_render (fun _ printed _ => printed) printed_escapeRaw _

theorem newline_notMem_canonicalJson (value : Json) : '\n' ∉ (canonicalJson value).toList :=
  fun member => absurd (printed_canonicalJson value _ member) (by decide)

/-! ## Lines read back -/

/-- A canonical text is read back with the line end after it. -/
theorem loads_lineOf {value : Json} (distinct : value.Distinct) :
    loads (lineOf (canonicalJson value)) = some value.sorted := by
  obtain ⟨first, others, same, solid, _⟩ := @head_render escapeRaw value.sorted
  have read := parseValue_render legible_escapeRaw value.sorted distinct.sorted ['\n']
    (by simp [Stops]) ((value.sorted.render escapeRaw ++ ['\n']).length + 1)
    (by rw [List.length_append]; omega)
  have front : skipSpace (value.sorted.render escapeRaw ++ ['\n']) =
      value.sorted.render escapeRaw ++ ['\n'] := by
    rw [same, List.cons_append, skipSpace_cons solid]
  rw [lineOf, canonicalJson, String.toList_ofList, loads, front, read]
  rfl

/-- A canonical text on a line of its own is one line. -/
theorem splitLines_lineOf (value : Json) :
    splitLines (lineOf (canonicalJson value)) = ([(canonicalJson value).toList], []) :=
  splitLines_line (newline_notMem_canonicalJson value)

end CapabilityHub
