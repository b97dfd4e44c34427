import CapabilityHub.Registry.Versions
import CapabilityHub.Text.SemVer

/-! # Reading versions

`_version_number` reads the numbers of a semantic version and passes over its suffix. A constraint
therefore admits a version by the numbers alone (`CapabilityHub.Registry.satisfies_iff`).
-/

namespace CapabilityHub.Registry

/-! ## Constraints -/

inductive Operator where
  | caret
  | tilde
  | atLeast
  | atMost
  | above
  | below
  | exact
  deriving DecidableEq

def Operator.chars : Operator → List Char
  | caret => ['^']
  | tilde => ['~']
  | atLeast => ['>', '=']
  | atMost => ['<', '=']
  | above => ['>']
  | below => ['<']
  | exact => []

/-- One expression of a constraint. -/
structure Expression where
  operator : Operator
  target : NamedVersion

namespace Expression

variable (expression : Expression) (candidate : SemVer)

def text : String := String.ofList (expression.operator.chars ++ expression.target.chars)

/-- The versions that an expression admits in the order of versions. -/
def admits : Bool :=
  let target := expression.target.value
  match expression.operator with
  | .caret => target.atMost candidate && candidate.major = target.major
  | .tilde =>
      target.atMost candidate && candidate.major = target.major && candidate.minor = target.minor
  | .atLeast => target.atMost candidate
  | .atMost => candidate.atMost target
  | .above => target.precedes candidate
  | .below => candidate.precedes target
  | .exact => candidate.equals target

/-- The versions whose numbers an expression admits. -/
def admitsNumbers : Bool :=
  let target := expression.target.value
  match expression.operator with
  | .caret => target.key ≤ candidate.key && candidate.major = target.major
  | .tilde =>
      target.key ≤ candidate.key && candidate.major = target.major && candidate.minor = target.minor
  | .atLeast => target.key ≤ candidate.key
  | .atMost => candidate.key ≤ target.key
  | .above => target.key < candidate.key
  | .below => candidate.key < target.key
  | .exact => candidate.key = target.key

/-- Whether the prerelease of a version with the numbers of the target is on the right side of it. -/
def admitsPrerelease : Bool :=
  let target := expression.target.value.prerelease
  let own := candidate.prerelease
  match expression.operator with
  | .caret | .tilde | .atLeast => prereleaseBefore target own || target = own
  | .atMost => prereleaseBefore own target || own = target
  | .above | .below | .exact => own = target

variable {expression : Expression} {candidate : SemVer}

/-- An expression that admits the numbers of a version admits it in the order of versions, unless the
numbers are its own and the prerelease is on the wrong side. -/
theorem admits_iff (numbers : expression.admitsNumbers candidate = true) :
    expression.admits candidate = true ↔
      (expression.target.value.key = candidate.key → expression.admitsPrerelease candidate = true) := by
  rw [admitsNumbers] at numbers
  rw [admits, admitsPrerelease]
  cases operator : expression.operator
  all_goals simp only [operator, Bool.and_eq_true, decide_eq_true_eq] at numbers
  all_goals simp only [SemVer.atMost, SemVer.precedes, SemVer.equals, Bool.and_eq_true, Bool.or_eq_true,
    decide_eq_true_eq]
  case caret | tilde | atLeast => grind
  case atMost => grind
  case above | below => grind
  case exact => grind

end Expression

/-- What `\d` and `int` make of ASCII characters. -/
def AsciiDecimals (text : PythonText) : Prop :=
  ∀ char : Char, char.toNat < 128 →
    text.decimal char = if char.isDigit then some (char.toNat - '0'.toNat) else none

variable {text : PythonText} {char : Char} {rest : List Char} {version : SemVer} {named : NamedVersion}

/-! ## Numbers -/

theorem decimal_digit (decimals : AsciiDecimals text) (digit : char.isDigit = true) :
    text.decimal char = some (char.toNat - '0'.toNat) := by
  have ascii : char.toNat < 128 := (Char.isDigit_iff_toNat.mp digit).2.trans_lt (by decide)
  rw [decimals char ascii, if_pos digit]

/-- What follows a number is no digit. -/
def Ended (text : PythonText) (rest : List Char) : Prop := ∀ char ∈ rest.head?, text.decimal char = none

theorem ended_of_mark (decimals : AsciiDecimals text) (mark : char ∈ ['.', '-', '+']) :
    Ended text (char :: rest) := by
  intro other same
  cases same
  have plain : (['.', '-', '+'].all fun char => char.toNat < 128 && !char.isDigit) = true := by decide
  have each := List.all_eq_true.mp plain char mark
  rw [Bool.and_eq_true, decide_eq_true_eq, Bool.not_eq_true'] at each
  obtain ⟨ascii, other⟩ := each
  rw [decimals char ascii, other]
  rfl

theorem follow_append (decimals : AsciiDecimals text) (ended : Ended text rest) {chars : List Char}
    (plain : ∀ char ∈ chars, char.isDigit = true) (number : Nat) :
    digits.follow text number (chars ++ rest) = (some (Nat.ofDigitChars 10 chars number), rest) := by
  induction chars generalizing number with
  | nil =>
      rw [List.nil_append, Nat.ofDigitChars_nil]
      cases rest with
      | nil => rfl
      | cons char rest =>
          rw [digits.follow, ended char rfl]
  | cons char chars ih =>
      rw [List.forall_mem_cons] at plain
      rw [List.cons_append, digits.follow, decimal_digit decimals plain.1]
      dsimp only
      rw [ih plain.2, Nat.ofDigitChars_cons]

/-- The digits of a number are read as the number. -/
theorem digits_toDigits (decimals : AsciiDecimals text) (ended : Ended text rest) (value : Nat) :
    digits text (Nat.toDigits 10 value ++ rest) = (some value, rest) := by
  have plain : ∀ char ∈ Nat.toDigits 10 value, char.isDigit = true := fun char member =>
    Nat.isDigit_of_mem_toDigits (by decide) (by decide) member
  have read := Nat.ofDigitChars_ten_toDigits (n := value)
  cases written : Nat.toDigits 10 value with
  | nil => exact absurd written Nat.toDigits_ne_nil
  | cons first chars =>
      rw [written, List.forall_mem_cons] at plain
      rw [written, Nat.ofDigitChars_cons, Nat.mul_zero, Nat.zero_add] at read
      rw [List.cons_append, digits, decimal_digit decimals plain.1]
      dsimp only
      rw [follow_append decimals ended plain.2, read]

theorem dottedNumber_dot (decimals : AsciiDecimals text) (ended : Ended text rest) (value : Nat) :
    dottedNumber text ('.' :: (Nat.toDigits 10 value ++ rest)) = (some value, rest) := by
  rw [dottedNumber, digits_toDigits decimals ended]

theorem dottedNumber_other (other : ∀ char ∈ rest.head?, char ≠ '.') :
    dottedNumber text rest = (none, rest) := by
  rw [dottedNumber.eq_def]
  split
  next rest => exact absurd rfl (other '.' rfl)
  next => rfl

/-! ## Versions -/

/-- What can follow the numbers. -/
structure Suffix (rest : List Char) : Prop where
  starts : rest = [] ∨ ∃ mark more, rest = mark :: more ∧ (mark = '-' ∨ mark = '+')
  single : '\n' ∉ rest

theorem suffix_version (version : SemVer) : Suffix version.suffix := by
  constructor
  · by_cases stable : version.Stable
    · rcases suffix_stable stable with none | ⟨rest, same⟩
      · exact .inl none
      · exact .inr ⟨'+', rest, same, .inr rfl⟩
    · obtain ⟨rest, same⟩ := suffix_prerelease stable
      exact .inr ⟨'-', rest, same, .inl rfl⟩
  · intro member
    have plain := isVersionChar_suffix member
    revert plain
    decide

theorem Suffix.ended (decimals : AsciiDecimals text) (suffix : Suffix rest) : Ended text rest := by
  rcases suffix.starts with rfl | ⟨mark, more, rfl, marks⟩
  · intro char absurd
    cases absurd
  · apply ended_of_mark decimals
    rcases marks with rfl | rfl <;> decide

theorem Suffix.dotless (suffix : Suffix rest) : ∀ char ∈ rest.head?, char ≠ '.' := by
  rcases suffix.starts with rfl | ⟨mark, more, rfl, marks⟩
  · intro char absurd
    cases absurd
  · intro char same
    cases same
    rcases marks with rfl | rfl <;> decide

theorem versionNumber_chars (decimals : AsciiDecimals text) (named : NamedVersion) :
    versionNumber text (String.ofList named.chars) = some named.value.triple := by
  have suffix := suffix_version named.value
  have ends := suffix.ended decimals
  have marked (mark : Char) (rest : List Char) (same : named.value.suffix = mark :: rest) :
      (mark = '-' ∨ mark = '+') ∧ '\n' ∉ rest := by
    have single := suffix.single
    rcases suffix.starts with none | ⟨_, _, shape, marks⟩
    · rw [none] at same
      cases same
    · rw [shape] at same
      cases same
      rw [shape] at single
      exact ⟨marks, fun member => single (List.mem_cons_of_mem mark member)⟩
  have dot {more : List Char} : Ended text ('.' :: more) := ended_of_mark decimals (by decide)
  rw [versionNumber, String.toList_ofList, NamedVersion.chars]
  cases shown : named.precision with
  | major =>
      obtain ⟨minor, patch⟩ := named.hidden.1 shown
      dsimp only
      rw [digits_toDigits decimals ends]
      dsimp only
      rw [dottedNumber_other suffix.dotless]
      dsimp only
      rw [dottedNumber_other suffix.dotless]
      dsimp only
      rw [SemVer.triple, minor, patch]
      split
      next => rfl
      next mark rest same => exact if_pos (marked mark rest same)
  | minor =>
      have patch := named.hidden.2 shown
      dsimp only
      rw [digits_toDigits decimals dot]
      dsimp only
      rw [dottedNumber_dot decimals ends]
      dsimp only
      rw [dottedNumber_other suffix.dotless]
      dsimp only
      rw [SemVer.triple, patch]
      split
      next => rfl
      next mark rest same => exact if_pos (marked mark rest same)
  | full =>
      dsimp only
      rw [digits_toDigits decimals dot]
      dsimp only
      rw [dottedNumber_dot decimals dot]
      dsimp only
      rw [dottedNumber_dot decimals ends]
      dsimp only
      split
      next => rfl
      next mark rest same => exact if_pos (marked mark rest same)

theorem versionNumber_text (decimals : AsciiDecimals text) (version : SemVer) :
    versionNumber text version.text = some version.triple := by
  rw [← String.ofList_toList (s := version.text), SemVer.toList_text]
  exact versionNumber_chars decimals version.named

/-! ## Readings of constraints -/

variable {expression : Expression} {expressions : List Expression} {candidate : SemVer}
  {dependency : DependencySpec}

theorem satisfiesExpression_text (decimals : AsciiDecimals text) :
    satisfiesExpression text candidate.triple expression.text = expression.admitsNumbers candidate := by
  obtain ⟨first, rest, same, digit⟩ := expression.target.starts
  have read : versionNumber text (String.ofList (first :: rest)) =
      some expression.target.value.triple := by
    rw [← same]
    exact versionNumber_chars decimals expression.target
  have apart (mark : Char) (other : mark.isDigit = false) : (mark == first) = false := by
    apply beq_false_of_ne
    intro equal
    rw [equal, digit] at other
    cases other
  have caret := apart '^' (by decide)
  have tilde := apart '~' (by decide)
  have above := apart '>' (by decide)
  have below := apart '<' (by decide)
  have equals := apart '=' (by decide)
  have exactly : (some expression.target.value.triple == some candidate.triple) =
      decide (candidate.key = expression.target.value.key) := by
    rw [Bool.eq_iff_iff, beq_iff_eq, decide_eq_true_eq, Option.some.injEq, eq_comm]
    exact (toLex.injective.eq_iff.trans (by simp [SemVer.triple, Prod.ext_iff])).symm
  rw [satisfiesExpression, Expression.admitsNumbers]
  simp only [startsWith, Expression.text, String.toList_ofList, same]
  cases expression.operator with
  | exact =>
      simp [-String.ofList_cons, -Option.some_beq_some, Operator.chars, List.isPrefixOf, caret, tilde, above,
        below, read, exactly]
  | _ =>
      simp [-String.ofList_cons, Operator.chars, List.isPrefixOf, equals, read]
      rfl

/-- No expression is a star. -/
theorem Expression.text_ne_star : expression.text ≠ "*" := by
  obtain ⟨first, rest, same, digit⟩ := expression.target.starts
  intro star
  have chars := congrArg String.toList star
  rw [Expression.text, String.toList_ofList, same] at chars
  cases operator : expression.operator with
  | exact =>
      rw [operator] at chars
      cases chars
      revert digit
      decide
  | _ =>
      rw [operator] at chars
      cases chars

theorem splitWords_empty : splitWords "" = [] := by decide +kernel

theorem splitWords_star : splitWords "*" = ["*"] := by decide +kernel

/-- The expressions of a constraint are read as their numbers. -/
theorem satisfies_text (decimals : AsciiDecimals text)
    (split : splitWords (strip dependency.versionConstraint) = expressions.map Expression.text)
    (constrains : expressions ≠ []) :
    satisfies text candidate.text dependency =
      expressions.all fun expression => expression.admitsNumbers candidate := by
  have constrained : ¬(strip dependency.versionConstraint = "" ∨ strip dependency.versionConstraint = "*") := by
    rintro (none | star)
    · rw [none, splitWords_empty] at split
      exact constrains (List.map_eq_nil_iff.mp split.symm)
    · rw [star, splitWords_star] at split
      have member : "*" ∈ expressions.map Expression.text := by
        rw [← split]
        exact List.mem_singleton_self _
      obtain ⟨expression, _, same⟩ := List.mem_map.mp member
      exact expression.text_ne_star same
  rw [satisfies, if_neg constrained, versionNumber_text decimals]
  dsimp only
  rw [split, List.all_map]
  refine congrArg expressions.all (funext fun expression => ?_)
  exact satisfiesExpression_text decimals

/-- A constraint admits only what it admits in the order of versions unless one of its expressions has the
numbers of the version and a prerelease on the wrong side. -/
theorem satisfies_admits_iff (decimals : AsciiDecimals text)
    (split : splitWords (strip dependency.versionConstraint) = expressions.map Expression.text)
    (constrains : expressions ≠ []) :
    (satisfies text candidate.text dependency = true →
        ∀ expression ∈ expressions, expression.admits candidate = true) ↔
      ((∀ expression ∈ expressions, expression.admitsNumbers candidate = true) →
        ∀ expression ∈ expressions, expression.target.value.key = candidate.key →
          expression.admitsPrerelease candidate = true) := by
  rw [satisfies_text decimals split constrains, List.all_eq_true]
  apply imp_congr_right
  intro numbers
  apply forall₂_congr
  intro expression member
  exact Expression.admits_iff (numbers expression member)

end CapabilityHub.Registry
