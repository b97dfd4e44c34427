import CapabilityHub.Metering

/-! # Inside and outside of string literals

A JSON text is ASCII outside of its string literals and has no backslash there. A piece of a text that
begins inside a literal, and so is read the wrong way round, is a JSON text only if it is ASCII
altogether and has no backslash at all.
-/

namespace CapabilityHub

/-- Whether a text that begins inside a string literal, or outside, ends inside one; `none` where a
character cannot stand where it does. -/
def scanQuotes : Bool → List Char → Option Bool
  | inside, [] => some inside
  | false, char :: rest =>
      if char = '"' then scanQuotes true rest
      else if char = '\\' ∨ 128 ≤ char.toNat then none
      else scanQuotes false rest
  | true, char :: rest =>
      if char = '"' then scanQuotes false rest
      else if char = '\\' then
        match rest with
        | [] => none
        | mark :: rest => if 128 ≤ mark.toNat then none else scanQuotes true rest
      else scanQuotes true rest

mutual

/-- The characters of all the texts in a value. -/
def Json.letters : Json → List Char
  | .str text => text.toList
  | .arr items => lettersItems items
  | .obj fields => lettersFields fields
  | .null => []
  | .bool _ => []
  | .int _ => []

def lettersItems : List Json → List Char
  | [] => []
  | item :: rest => item.letters ++ lettersItems rest

def lettersFields : List (String × Json) → List Char
  | [] => []
  | (key, value) :: rest => key.toList ++ value.letters ++ lettersFields rest

end

variable {inside after : Bool} {chars rest more first second letters : List Char} {char : Char}
  {escape : Char → List Char}

theorem scanQuotes_quote : scanQuotes inside ('"' :: rest) = scanQuotes (!inside) rest := by
  cases inside <;> rw [scanQuotes.eq_def] <;> rfl

theorem scanQuotes_outside (quote : char ≠ '"') : scanQuotes false (char :: rest) =
    if char = '\\' ∨ 128 ≤ char.toNat then none else scanQuotes false rest := by
  rw [scanQuotes, if_neg quote]

theorem scanQuotes_inside (quote : char ≠ '"') (slash : char ≠ '\\') :
    scanQuotes true (char :: rest) = scanQuotes true rest := by
  rw [scanQuotes.eq_def]
  exact (if_neg quote).trans (if_neg slash)

theorem scanQuotes_escape : scanQuotes true ('\\' :: char :: rest) =
    if 128 ≤ char.toNat then none else scanQuotes true rest := by
  rw [scanQuotes.eq_def]
  rfl

theorem scanQuotes_append (scanned : scanQuotes inside first = some after) :
    scanQuotes inside (first ++ second) = scanQuotes after second := by
  fun_induction scanQuotes inside first with
  | case1 inside => rw [Option.some.inj scanned, List.nil_append]
  | case2 rest ih =>
      rw [List.cons_append, scanQuotes_quote]
      exact ih scanned
  | case3 => cases scanned
  | case4 char rest quote fine ih =>
      rw [List.cons_append, scanQuotes_outside quote, if_neg fine]
      exact ih scanned
  | case5 rest ih =>
      rw [List.cons_append, scanQuotes_quote]
      exact ih scanned
  | case6 => cases scanned
  | case7 => cases scanned
  | case8 mark rest ascii _ ih =>
      rw [List.cons_append, List.cons_append, scanQuotes_escape, if_neg ascii]
      exact ih scanned
  | case9 char rest quote slash ih =>
      rw [List.cons_append, scanQuotes_inside quote slash]
      exact ih scanned

theorem scanQuotes_plain (plain : ∀ char ∈ chars, char ≠ '"' ∧ char ≠ '\\' ∧ char.toNat < 128) :
    scanQuotes false chars = some false := by
  induction chars with
  | nil => rfl
  | cons char rest ih =>
      obtain ⟨⟨quote, slash, ascii⟩, others⟩ := List.forall_mem_cons.mp plain
      rw [scanQuotes_outside quote, if_neg fun bad => bad.elim slash ascii.not_ge]
      exact ih others

/-- What is scanned from inside a literal as well as from outside it is ASCII without a backslash. -/
theorem plain_of_scanned_both {after' : Bool} (scanned : scanQuotes inside chars = some after)
    (scanned' : scanQuotes (!inside) chars = some after') :
    ∀ char ∈ chars, char ≠ '\\' ∧ char.toNat < 128 := by
  induction chars generalizing inside with
  | nil => exact fun char member => absurd member List.not_mem_nil
  | cons char rest ih =>
      by_cases quote : char = '"'
      · rw [quote, scanQuotes_quote] at scanned scanned'
        refine List.forall_mem_cons.mpr ⟨?_, ih scanned scanned'⟩
        rw [quote]
        decide
      · -- one of the two scans is outside here
        have fine : ¬(char = '\\' ∨ 128 ≤ char.toNat) := by
          intro bad
          cases inside
          · rw [scanQuotes_outside quote, if_pos bad] at scanned
            cases scanned
          · change scanQuotes false _ = _ at scanned'
            rw [scanQuotes_outside quote, if_pos bad] at scanned'
            cases scanned'
        obtain ⟨slash, wide⟩ := not_or.mp fine
        have step (state : Bool) : scanQuotes state (char :: rest) = scanQuotes state rest := by
          cases state
          · rw [scanQuotes_outside quote, if_neg fine]
          · exact scanQuotes_inside quote slash
        rw [step] at scanned scanned'
        exact List.forall_mem_cons.mpr ⟨⟨slash, Nat.not_le.mp wide⟩, ih scanned scanned'⟩

/-! ## What is read -/

/-- The text is read up to the rest: what is read ends outside of literals, and where it has no
backslash the letters are among its characters. -/
def Scans (inside : Bool) (chars rest letters : List Char) : Prop :=
  ∃ consumed, chars = consumed ++ rest ∧ scanQuotes inside consumed = some false ∧
    ('\\' ∉ consumed → letters ⊆ consumed)

theorem Scans.trans {letters' : List Char} (here : Scans inside chars rest letters)
    (there : Scans false rest more letters') : Scans inside chars more (letters ++ letters') := by
  obtain ⟨consumed, split, scanned, found⟩ := here
  obtain ⟨consumed', split', scanned', found'⟩ := there
  refine ⟨consumed ++ consumed', ?_, ?_, fun unescaped => ?_⟩
  · rw [split, split', List.append_assoc]
  · rw [scanQuotes_append scanned, scanned']
  · rw [List.mem_append, not_or] at unescaped
    exact List.append_subset.mpr
      ⟨List.Subset.trans (found unescaped.1) (List.subset_append_left _ _),
        List.Subset.trans (found' unescaped.2) (List.subset_append_right _ _)⟩

theorem Scans.mono {letters' : List Char} (reads : Scans inside chars rest letters)
    (fewer : letters' ⊆ letters) : Scans inside chars rest letters' := by
  obtain ⟨consumed, split, scanned, found⟩ := reads
  exact ⟨consumed, split, scanned, fun unescaped => List.Subset.trans fewer (found unescaped)⟩

theorem scans_plain (plain : ∀ char ∈ chars, char ≠ '"' ∧ char ≠ '\\' ∧ char.toNat < 128) :
    Scans false (chars ++ rest) rest [] :=
  ⟨chars, rfl, scanQuotes_plain plain, fun _ => List.nil_subset _⟩

theorem scans_skipSpace : Scans false chars (skipSpace chars) [] := by
  have plain : ∀ char ∈ chars.takeWhile jsonSpace, char ≠ '"' ∧ char ≠ '\\' ∧ char.toNat < 128 := by
    intro char member
    have space := List.all_eq_true.mp List.all_takeWhile char member
    simp only [jsonSpace, Bool.or_eq_true, decide_eq_true_eq] at space
    rcases space with ((rfl | rfl) | rfl) | rfl <;> decide
  have split : Scans false (chars.takeWhile jsonSpace ++ chars.dropWhile jsonSpace)
      (chars.dropWhile jsonSpace) [] := scans_plain plain
  rwa [List.takeWhile_append_dropWhile] at split

/-- A mark that is not a quotation mark and stands outside of literals. -/
theorem scans_mark (quote : char ≠ '"') (slash : char ≠ '\\') (ascii : char.toNat < 128) :
    Scans false (char :: rest) rest [] := by
  have plain : ∀ other ∈ [char], other ≠ '"' ∧ other ≠ '\\' ∧ other.toNat < 128 := by
    intro other member
    rw [List.mem_singleton.mp member]
    exact ⟨quote, slash, ascii⟩
  exact scans_plain plain

theorem scans_of_head? (quote : char ≠ '"') (slash : char ≠ '\\') (ascii : char.toNat < 128)
    (found : chars.head? = some char) : Scans false chars chars.tail [] := by
  cases chars with
  | nil => cases found
  | cons first rest =>
      obtain rfl := Option.some.inj found
      exact scans_mark quote slash ascii

theorem scans_quote (reads : Scans true chars rest letters) : Scans false ('"' :: chars) rest letters := by
  obtain ⟨consumed, rfl, scanned, found⟩ := reads
  refine ⟨'"' :: consumed, rfl, by rw [scanQuotes_quote]; exact scanned, fun unescaped => ?_⟩
  exact List.Subset.trans (found fun member => unescaped (List.mem_cons_of_mem _ member))
    (List.subset_cons_self _ _)

/-! ### String literals -/

theorem hexDigit_plain {digit : Char} {value : Nat} (read : hexDigitValue digit = some value) :
    digit ≠ '"' ∧ digit ≠ '\\' := by
  constructor <;> rintro rfl <;> cases read

theorem scanQuotes_hexUnit {second' third fourth : Char} {unit : Nat}
    (read : hexUnit char second' third fourth = some unit) :
    scanQuotes true (char :: second' :: third :: fourth :: rest) = scanQuotes true rest := by
  simp only [hexUnit, Option.bind_eq_bind, Option.bind_eq_some_iff] at read
  obtain ⟨_, first, _, second, _, third, _, fourth, _⟩ := read
  have plain := hexDigit_plain first
  rw [scanQuotes_inside plain.1 plain.2]
  have plain := hexDigit_plain second
  rw [scanQuotes_inside plain.1 plain.2]
  have plain := hexDigit_plain third
  rw [scanQuotes_inside plain.1 plain.2]
  have plain := hexDigit_plain fourth
  rw [scanQuotes_inside plain.1 plain.2]

theorem simpleEscape_ascii {unit : Nat} (known : simpleEscape char = some unit) : char.toNat < 128 := by
  unfold simpleEscape at known
  split at known
  next either => rcases either with rfl | rfl | rfl <;> decide
  split at known
  next same => subst same; decide
  split at known
  next same => subst same; decide
  split at known
  next same => subst same; decide
  split at known
  next same => subst same; decide
  split at known
  next same => subst same; decide
  cases known

/-- A literal is read up to its closing mark; without a backslash its units are its characters. -/
def ReadsLiteral (chars rest : List Char) (units : List Nat) : Prop :=
  ∃ consumed, chars = consumed ++ rest ∧ scanQuotes true consumed = some false ∧
    ('\\' ∉ consumed → ∃ body, consumed = body ++ ['"'] ∧ units = body.map Char.toNat)

theorem ReadsLiteral.escaped {units units' : List Nat} (reads : ReadsLiteral chars rest units)
    (first : List Char) (slash : '\\' ∈ first) (scanned : scanQuotes true first = some true) :
    ReadsLiteral (first ++ chars) rest units' := by
  obtain ⟨consumed, rfl, scanned', _⟩ := reads
  refine ⟨first ++ consumed, (List.append_assoc _ _ _).symm, ?_, fun unescaped => ?_⟩
  · rw [scanQuotes_append scanned, scanned']
  · exact absurd (List.mem_append_left _ slash) unescaped

theorem scanString_reads {units : List Nat} (scanned : scanString chars = some (units, rest)) :
    ReadsLiteral chars rest units := by
  fun_induction scanString chars generalizing units with
  | case1 => cases scanned
  | case2 rest' =>
      cases scanned
      exact ⟨['"'], rfl, rfl, fun _ => ⟨[], rfl, rfl⟩⟩
  | case3 => cases scanned
  | case4 => cases scanned
  | case5 first second third fourth more unit read _ ih =>
      obtain ⟨scanned', below, same⟩ := Option.map_eq_some_iff.mp scanned
      cases same
      refine (ih below).escaped ['\\', 'u', first, second, third, fourth] List.mem_cons_self ?_
      rw [scanQuotes_escape, if_neg (by decide), scanQuotes_hexUnit read, scanQuotes]
  | case6 => cases scanned
  | case7 => cases scanned
  | case8 mark more _ unit known _ ih =>
      obtain ⟨scanned', below, same⟩ := Option.map_eq_some_iff.mp scanned
      cases same
      refine (ih below).escaped ['\\', mark] List.mem_cons_self ?_
      rw [scanQuotes_escape, if_neg (simpleEscape_ascii known).not_ge, scanQuotes]
  | case9 => cases scanned
  | case10 char more quote slash _ ih =>
      obtain ⟨scanned', below, same⟩ := Option.map_eq_some_iff.mp scanned
      cases same
      obtain ⟨consumed, rfl, scanned', found⟩ := ih below
      refine ⟨char :: consumed, rfl, ?_, fun unescaped => ?_⟩
      · rw [scanQuotes_inside quote slash, scanned']
      · obtain ⟨body, rfl, units⟩ := found fun member => unescaped (List.mem_cons_of_mem _ member)
        exact ⟨char :: body, rfl, by rw [List.map_cons, units]⟩

theorem joinUnits_map (body : List Char) : joinUnits (body.map Char.toNat) = some body := by
  induction body with
  | nil => rfl
  | cons char body ih =>
      have joined := joinUnits_toNat char (body.map Char.toNat)
      rw [ih] at joined
      exact joined

theorem parseString_reads {text : String} (parsed : parseString chars = some (text, rest)) :
    Scans true chars rest text.toList := by
  simp only [parseString, Option.bind_eq_bind, Option.bind_eq_some_iff] at parsed
  obtain ⟨⟨units, rest'⟩, scanned, letters, joined, same⟩ := parsed
  cases same
  obtain ⟨consumed, split, scanned', found⟩ := scanString_reads scanned
  refine ⟨consumed, split, scanned', fun unescaped => ?_⟩
  obtain ⟨body, rfl, rfl⟩ := found unescaped
  rw [joinUnits_map] at joined
  rw [String.toList_ofList, ← Option.some.inj joined]
  exact List.subset_append_left _ _

/-! ### Numbers -/

theorem isDigit_plain (digit : char.isDigit = true) :
    char ≠ '"' ∧ char ≠ '\\' ∧ char.toNat < 128 := by
  simp only [Char.isDigit, Bool.and_eq_true, decide_eq_true_eq] at digit
  refine ⟨?_, ?_, ?_⟩
  · rintro rfl
    exact absurd digit (by decide)
  · rintro rfl
    exact absurd digit (by decide)
  · exact Nat.lt_of_le_of_lt (UInt32.le_iff_toNat_le.mp digit.2) (by decide)

theorem parseDigits_reads {value : Nat} (parsed : parseDigits chars = some (value, rest)) :
    Scans false chars rest [] := by
  simp only [parseDigits] at parsed
  split at parsed
  next => cases parsed
  split at parsed
  next leading =>
    cases parsed
    rw [List.head?_takeWhile, Option.filter_eq_some_iff] at leading
    exact scans_of_head? (by decide) (by decide) (by decide) leading.1
  next =>
    cases parsed
    have plain : Scans false (chars.takeWhile Char.isDigit ++ chars.dropWhile Char.isDigit)
        (chars.dropWhile Char.isDigit) [] :=
      scans_plain fun char member => isDigit_plain (List.all_eq_true.mp List.all_takeWhile char member)
    rwa [List.takeWhile_append_dropWhile] at plain

theorem parseInt_reads {value : Int} (parsed : parseInt chars = some (value, rest)) :
    Scans false chars rest [] := by
  simp only [parseInt] at parsed
  split at parsed
  next minus =>
    obtain ⟨digits, read, same⟩ := Option.map_eq_some_iff.mp parsed
    cases same
    exact (scans_of_head? (by decide) (by decide) (by decide) minus).trans (parseDigits_reads read)
  next =>
    obtain ⟨digits, read, same⟩ := Option.map_eq_some_iff.mp parsed
    cases same
    exact parseDigits_reads read

/-! ### Values -/

theorem lettersFields_assign (key : String) (value : Json) (fields : List (String × Json)) :
    lettersFields (assign key value fields) ⊆
      lettersFields fields ++ (key.toList ++ value.letters) := by
  induction fields with
  | nil =>
      rw [assign, lettersFields, lettersFields, lettersFields, List.append_nil, List.nil_append]
      exact List.Subset.refl _
  | cons field fields ih =>
      obtain ⟨other, held⟩ := field
      rw [assign]
      split
      next same =>
        intro letter member
        simp only [lettersFields, List.mem_append] at member ⊢
        tauto
      next =>
        intro letter member
        have later : letter ∈ lettersFields (assign key value fields) →
            letter ∈ lettersFields fields ++ (key.toList ++ value.letters) := fun inside => ih inside
        simp only [lettersFields, List.mem_append] at member later ⊢
        tauto

theorem lettersFields_foldl (members fields : List (String × Json)) :
    lettersFields (members.foldl (fun fields field => assign field.1 field.2 fields) fields) ⊆
      lettersFields fields ++ lettersFields members := by
  induction members generalizing fields with
  | nil => exact List.subset_append_left _ _
  | cons member rest ih =>
      rw [List.foldl_cons]
      refine List.Subset.trans (ih _) ?_
      refine List.append_subset.mpr ⟨List.Subset.trans (lettersFields_assign _ _ _) ?_, ?_⟩
      · rw [lettersFields]
        intro letter member
        simp only [List.mem_append] at member ⊢
        tauto
      · rw [lettersFields]
        exact List.Subset.trans (List.subset_append_right _ _) (List.subset_append_right _ _)

/-- A word whose first character has been looked at. -/
theorem scans_word {word : List Char} {count : Nat} (same : rest.take count = word)
    (plain : ∀ other ∈ char :: word, other ≠ '"' ∧ other ≠ '\\' ∧ other.toNat < 128) :
    Scans false (char :: rest) (rest.drop count) [] := by
  have split : char :: rest = (char :: word) ++ rest.drop count := by
    rw [← same, List.cons_append, List.take_append_drop]
  rw [split]
  exact scans_plain plain

theorem scans_parse (fuel : Nat) :
    (∀ chars value rest, parseValue fuel chars = some (value, rest) →
      Scans false chars rest value.letters) ∧
    (∀ chars items rest, parseItems fuel chars = some (items, rest) →
      Scans false chars rest (lettersItems items)) ∧
    ∀ chars members rest, parseMembers fuel chars = some (members, rest) →
      Scans false chars rest (lettersFields members) := by
  induction fuel with
  | zero =>
      refine ⟨fun _ _ _ parsed => ?_, fun _ _ _ parsed => ?_, fun _ _ _ parsed => ?_⟩
      · rw [parseValue] at parsed
        cases parsed
      · rw [parseItems] at parsed
        cases parsed
      · rw [parseMembers] at parsed
        cases parsed
  | succ fuel ih =>
      obtain ⟨values, items, members⟩ := ih
      refine ⟨fun chars value rest parsed => ?_, fun chars list rest parsed => ?_,
        fun chars list rest parsed => ?_⟩
      · cases chars with
        | nil =>
            rw [parseValue] at parsed
            cases parsed
        | cons first chars =>
            rw [parseValue] at parsed
            split at parsed
            next text =>
              subst text
              obtain ⟨read, below, same⟩ := Option.map_eq_some_iff.mp parsed
              cases same
              exact scans_quote (parseString_reads below)
            split at parsed
            next brace =>
              subst brace
              have opened : Scans false ('\x7b' :: chars) (skipSpace chars) [] :=
                (scans_mark (by decide) (by decide) (by decide)).trans scans_skipSpace
              split at parsed
              next closed =>
                cases parsed
                exact opened.trans (scans_of_head? (by decide) (by decide) (by decide) closed)
              next =>
                obtain ⟨read, below, same⟩ := Option.map_eq_some_iff.mp parsed
                cases same
                refine (opened.trans (members _ _ _ below)).mono ?_
                exact lettersFields_foldl read.1 []
            split at parsed
            next bracket =>
              subst bracket
              have opened : Scans false ('[' :: chars) (skipSpace chars) [] :=
                (scans_mark (by decide) (by decide) (by decide)).trans scans_skipSpace
              split at parsed
              next closed =>
                cases parsed
                exact opened.trans (scans_of_head? (by decide) (by decide) (by decide) closed)
              next =>
                obtain ⟨read, below, same⟩ := Option.map_eq_some_iff.mp parsed
                cases same
                exact opened.trans (items _ _ _ below)
            split at parsed
            next null =>
              cases parsed
              obtain ⟨rfl, word⟩ := null
              exact scans_word word (by simp)
            split at parsed
            next yes =>
              cases parsed
              obtain ⟨rfl, word⟩ := yes
              exact scans_word word (by simp)
            split at parsed
            next no =>
              cases parsed
              obtain ⟨rfl, word⟩ := no
              exact scans_word word (by simp)
            obtain ⟨read, below, same⟩ := Option.map_eq_some_iff.mp parsed
            cases same
            exact parseInt_reads below
      · rw [parseItems] at parsed
        simp only [Option.bind_eq_bind, Option.bind_eq_some_iff] at parsed
        obtain ⟨⟨item, rest'⟩, here, parsed⟩ := parsed
        have front := (values _ _ _ here).trans scans_skipSpace
        split at parsed
        next comma =>
          rw [Option.bind_eq_some_iff] at parsed
          obtain ⟨⟨list', rest''⟩, below, same⟩ := parsed
          cases same
          have next' := ((scans_of_head? (by decide) (by decide) (by decide) comma).trans
            scans_skipSpace).trans (items _ _ _ below)
          refine (front.trans next').mono ?_
          simp [lettersItems]
        split at parsed
        next closed =>
          cases parsed
          refine (front.trans (scans_of_head? (by decide) (by decide) (by decide) closed)).mono ?_
          simp [lettersItems]
        next => cases parsed
      · cases chars with
        | nil =>
            rw [parseMembers] at parsed
            cases parsed
        | cons first chars =>
            rw [parseMembers] at parsed
            split at parsed
            next => cases parsed
            next text =>
              obtain rfl := not_not.mp text
              simp only [Option.bind_eq_bind, Option.bind_eq_some_iff] at parsed
              obtain ⟨⟨key, rest₁⟩, here, parsed⟩ := parsed
              split at parsed
              next => cases parsed
              next colon =>
                rw [Option.bind_eq_some_iff] at parsed
                obtain ⟨⟨value, rest₂⟩, given, parsed⟩ := parsed
                have named := (scans_quote (parseString_reads here)).trans scans_skipSpace
                have marked := (named.trans (scans_of_head? (by decide) (by decide) (by decide)
                  (not_not.mp colon))).trans scans_skipSpace
                have front := (marked.trans (values _ _ _ given)).trans scans_skipSpace
                split at parsed
                next comma =>
                  rw [Option.bind_eq_some_iff] at parsed
                  obtain ⟨⟨list', rest₃⟩, below, same⟩ := parsed
                  cases same
                  have later := ((scans_of_head? (by decide) (by decide) (by decide) comma).trans
                    scans_skipSpace).trans (members _ _ _ below)
                  refine (front.trans later).mono ?_
                  simp [lettersFields]
                split at parsed
                next closed =>
                  cases parsed
                  refine (front.trans
                    (scans_of_head? (by decide) (by decide) (by decide) closed)).mono ?_
                  simp [lettersFields]
                next => cases parsed

theorem loads_reads {value : Json} (loaded : loads chars = some value) :
    scanQuotes false chars = some false ∧ ('\\' ∉ chars → value.letters ⊆ chars) := by
  rw [loads] at loaded
  split at loaded
  next => cases loaded
  next value' rest parsed =>
    split at loaded
    next done =>
      obtain rfl := Option.some.inj loaded
      have front : Scans false chars (skipSpace chars) [] := scans_skipSpace
      have back : Scans false rest (skipSpace rest) [] := scans_skipSpace
      rw [done] at back
      obtain ⟨consumed, split, scanned, found⟩ :=
        (front.trans ((scans_parse _).1 _ _ _ parsed)).trans back
      rw [List.append_nil] at split
      rw [split]
      refine ⟨scanned, fun unescaped => ?_⟩
      have all := found unescaped
      rw [List.nil_append, List.append_nil] at all
      exact all
    next => cases loaded

/-- A piece of a text that begins inside a literal is a JSON text only where it is ASCII without a
backslash, and then so are the letters of its value. -/
theorem letters_of_inside {value : Json} (scanned : scanQuotes true chars = some after)
    (loaded : loads chars = some value) : ∀ letter ∈ value.letters, letter.toNat < 128 := by
  obtain ⟨outside, found⟩ := loads_reads loaded
  have plain := plain_of_scanned_both scanned outside
  exact fun letter member =>
    (plain letter (found (fun slash => (plain _ slash).1 rfl) member)).2

/-! ## What is written -/

/-- An escaped character keeps inside of its literal. -/
def Quotes (escape : Char → List Char) : Prop := ∀ char, scanQuotes true (escape char) = some true

theorem scanQuotes_flatMap (quotes : Quotes escape) (text : List Char) :
    scanQuotes true (text.flatMap escape) = some true := by
  induction text with
  | nil => rfl
  | cons char text ih => rw [List.flatMap_cons, scanQuotes_append (quotes char), ih]

theorem scanQuotes_literal (quotes : Quotes escape) (text : List Char) :
    scanQuotes false ('"' :: text.flatMap escape ++ ['"']) = some false := by
  rw [List.cons_append, scanQuotes_quote]
  change scanQuotes true _ = _
  rw [scanQuotes_append (scanQuotes_flatMap quotes text)]
  rfl

theorem scanQuotes_intercalate {parts : List (List Char)}
    (each : ∀ part ∈ parts, scanQuotes false part = some false) :
    scanQuotes false ([','].intercalate parts) = some false := by
  induction parts with
  | nil => rfl
  | cons part parts ih =>
      obtain ⟨here, others⟩ := List.forall_mem_cons.mp each
      cases parts with
      | nil => rwa [List.intercalate_singleton]
      | cons next parts =>
          rw [List.intercalate_cons_cons, List.append_assoc, scanQuotes_append here]
          exact ih others

theorem scanQuotes_int (value : Int) : scanQuotes false (toString value).toList = some false := by
  have digits (number : Nat) : ∀ digit ∈ Nat.toDigits 10 number,
      digit ≠ '"' ∧ digit ≠ '\\' ∧ digit.toNat < 128 := fun digit member =>
    isDigit_plain (Nat.isDigit_of_mem_toDigits (by decide) (by decide) member)
  rw [toList_toString_int]
  split
  · exact scanQuotes_plain (digits _)
  · exact scanQuotes_plain (List.forall_mem_cons.mpr ⟨by decide, digits _⟩)

mutual

theorem scanQuotes_render (quotes : Quotes escape) :
    ∀ value : Json, scanQuotes false (value.render escape) = some false
  | .null => by
      rw [Json.render]
      rfl
  | .bool true => by
      rw [Json.render]
      rfl
  | .bool false => by
      rw [Json.render]
      rfl
  | .int value => by
      rw [Json.render]
      exact scanQuotes_int value
  | .str text => by
      rw [Json.render]
      exact scanQuotes_literal quotes text.toList
  | .arr items => by
      rw [Json.render, List.cons_append, scanQuotes_outside (by decide), if_neg (by decide),
        scanQuotes_append (scanQuotes_intercalate (scanQuotes_renderItems quotes items))]
      rfl
  | .obj fields => by
      rw [Json.render, List.cons_append, scanQuotes_outside (by decide), if_neg (by decide),
        scanQuotes_append (scanQuotes_intercalate (scanQuotes_renderFields quotes fields))]
      rfl

theorem scanQuotes_renderItems (quotes : Quotes escape) : ∀ items : List Json,
    ∀ part ∈ renderItems escape items, scanQuotes false part = some false
  | [], part, member => by cases member
  | item :: rest, part, member => by
      rw [renderItems] at member
      rcases List.mem_cons.mp member with rfl | member
      · exact scanQuotes_render quotes item
      · exact scanQuotes_renderItems quotes rest part member

theorem scanQuotes_renderFields (quotes : Quotes escape) : ∀ fields : List (String × Json),
    ∀ part ∈ renderFields escape fields, scanQuotes false part = some false
  | [], part, member => by cases member
  | (key, value) :: rest, part, member => by
      rw [renderFields] at member
      rcases List.mem_cons.mp member with rfl | member
      · have marked : '"' :: key.toList.flatMap escape ++ '"' :: ':' :: value.render escape =
            ('"' :: key.toList.flatMap escape ++ ['"']) ++ (':' :: value.render escape) := by simp
        rw [marked, scanQuotes_append (scanQuotes_literal quotes key.toList),
          scanQuotes_outside (by decide), if_neg (by decide)]
        exact scanQuotes_render quotes value
      · exact scanQuotes_renderFields quotes rest part member

end

theorem scanQuotes_unicodeEscape (unit : Nat) : scanQuotes true (unicodeEscape unit) = some true := by
  have digit (value : Nat) : hexDigit (value % 16) ≠ '"' ∧ hexDigit (value % 16) ≠ '\\' := by
    have every : ∀ value < 16, hexDigit value ≠ '"' ∧ hexDigit value ≠ '\\' := by decide
    exact every _ (Nat.mod_lt _ (by decide))
  rw [unicodeEscape, scanQuotes_escape, if_neg (by decide),
    scanQuotes_inside (digit _).1 (digit _).2, scanQuotes_inside (digit _).1 (digit _).2,
    scanQuotes_inside (digit _).1 (digit _).2, scanQuotes_inside (digit _).1 (digit _).2, scanQuotes]

theorem quotes_escapeRaw : Quotes escapeRaw := by
  intro char
  unfold escapeRaw escapeShort
  split
  · rfl
  split
  · rfl
  split
  · rfl
  split
  · rfl
  split
  · rfl
  split
  · rfl
  split
  · rfl
  next quote slash _ _ _ _ _ =>
    dsimp only
    split
    · exact scanQuotes_unicodeEscape _
    · exact scanQuotes_inside quote slash

theorem escapeRaw_wide (wide : 128 ≤ char.toNat) : escapeRaw char = [char] := by
  have other {mark : Char} (ascii : mark.toNat < 128) : char ≠ mark := by
    rintro rfl
    exact absurd ascii wide.not_gt
  rw [escapeRaw, escapeShort, if_neg (other (by decide)), if_neg (other (by decide)),
    if_neg (other (by decide)), if_neg (other (by decide)), if_neg (other (by decide)),
    if_neg (by omega), if_neg (by omega), if_neg (by omega)]

/-- A character beyond ASCII is written as it is, and for no other. -/
theorem mem_escapeRaw_wide {written : Char} (wide : 128 ≤ written.toNat) :
    written ∈ escapeRaw char ↔ written = char := by
  by_cases ascii : char.toNat < 128
  · refine ⟨fun member => ?_, fun same => ?_⟩
    · exact absurd wide (ascii_escapeRaw ascii written member).not_ge
    · exact absurd ascii (same ▸ wide.not_gt)
  · rw [escapeRaw_wide (Nat.not_lt.mp ascii), List.mem_singleton]

theorem mem_flatMap_wide (wide : 128 ≤ char.toNat) (text : List Char) :
    char ∈ text.flatMap escapeRaw ↔ char ∈ text := by
  rw [List.mem_flatMap]
  refine ⟨fun found => ?_, fun member => ⟨char, member, (mem_escapeRaw_wide wide).mpr rfl⟩⟩
  obtain ⟨letter, member, written⟩ := found
  exact (mem_escapeRaw_wide wide).mp written ▸ member

theorem mem_intercalate_wide (wide : 128 ≤ char.toNat) (parts : List (List Char)) :
    char ∈ [','].intercalate parts ↔ ∃ part ∈ parts, char ∈ part := by
  have comma : char ≠ ',' := by
    rintro rfl
    exact absurd wide (by decide)
  induction parts with
  | nil => simp
  | cons part parts ih =>
      cases parts with
      | nil => simp
      | cons next parts =>
          have separate : char ∈ [','].intercalate (part :: next :: parts) ↔
              char ∈ part ∨ char ∈ [','].intercalate (next :: parts) := by
            rw [List.intercalate_cons_cons, List.mem_append, List.mem_append, List.mem_singleton,
              or_iff_left comma]
          exact separate.trans ((or_congr_right ih).trans (by simp))

/-- Whether all the characters are ASCII. -/
theorem notMem_of_ascii (wide : 128 ≤ char.toNat)
    (ascii : (chars.all fun char => char.toNat < 128) = true) : char ∉ chars := by
  intro member
  have small := List.all_eq_true.mp ascii char member
  exact absurd wide (of_decide_eq_true small).not_ge

theorem notMem_int_wide (wide : 128 ≤ char.toNat) (value : Int) : char ∉ (toString value).toList := by
  have digits (number : Nat) : char ∉ Nat.toDigits 10 number := fun member =>
    absurd wide (isDigit_plain
      (Nat.isDigit_of_mem_toDigits (by decide) (by decide) member)).2.2.not_ge
  rw [toList_toString_int]
  split
  · exact digits _
  · intro member
    rcases List.mem_cons.mp member with rfl | member
    · exact absurd wide (by decide)
    · exact digits _ member

mutual

/-- A character beyond ASCII stands in the text where it is among the letters. -/
theorem mem_render_wide (wide : 128 ≤ char.toNat) :
    ∀ value : Json, char ∈ value.render escapeRaw ↔ char ∈ value.letters
  | .null => by
      rw [Json.render, Json.letters]
      exact iff_of_false (notMem_of_ascii wide rfl) List.not_mem_nil
  | .bool true => by
      rw [Json.render, Json.letters]
      exact iff_of_false (notMem_of_ascii wide rfl) List.not_mem_nil
  | .bool false => by
      rw [Json.render, Json.letters]
      exact iff_of_false (notMem_of_ascii wide rfl) List.not_mem_nil
  | .int value => by
      rw [Json.render, Json.letters]
      exact iff_of_false (notMem_int_wide wide value) List.not_mem_nil
  | .str text => by
      have mark : char ∉ ['"'] := notMem_of_ascii wide rfl
      rw [Json.render, Json.letters, List.cons_append, List.mem_cons, List.mem_append,
        mem_flatMap_wide wide, or_iff_right (fun same => mark (List.mem_singleton.mpr same)),
        or_iff_left mark]
  | .arr items => by
      have opening : char ∉ ['['] := notMem_of_ascii wide rfl
      have closing : char ∉ [']'] := notMem_of_ascii wide rfl
      rw [Json.render, Json.letters, List.cons_append, List.mem_cons, List.mem_append,
        or_iff_right (fun same => opening (List.mem_singleton.mpr same)), or_iff_left closing,
        mem_intercalate_wide wide, mem_renderItems_wide wide items]
  | .obj fields => by
      have opening : char ∉ ['\x7b'] := notMem_of_ascii wide rfl
      have closing : char ∉ ['\x7d'] := notMem_of_ascii wide rfl
      rw [Json.render, Json.letters, List.cons_append, List.mem_cons, List.mem_append,
        or_iff_right (fun same => opening (List.mem_singleton.mpr same)), or_iff_left closing,
        mem_intercalate_wide wide, mem_renderFields_wide wide fields]

theorem mem_renderItems_wide (wide : 128 ≤ char.toNat) : ∀ items : List Json,
    (∃ part ∈ renderItems escapeRaw items, char ∈ part) ↔ char ∈ lettersItems items
  | [] => by simp [renderItems, lettersItems]
  | item :: rest => by
      rw [renderItems, lettersItems, List.exists_mem_cons_iff, List.mem_append,
        mem_render_wide wide item, mem_renderItems_wide wide rest]

theorem mem_renderFields_wide (wide : 128 ≤ char.toNat) : ∀ fields : List (String × Json),
    (∃ part ∈ renderFields escapeRaw fields, char ∈ part) ↔ char ∈ lettersFields fields
  | [] => by simp [renderFields, lettersFields]
  | (key, value) :: rest => by
      have marks : char ∉ ['"', ':'] := notMem_of_ascii wide rfl
      rw [renderFields, lettersFields, List.exists_mem_cons_iff, mem_renderFields_wide wide rest]
      simp only [List.mem_append, List.mem_cons, mem_flatMap_wide wide, mem_render_wide wide value,
        List.not_mem_nil, or_false, not_or] at marks ⊢
      tauto

end

theorem mem_lettersItems {items : List Json} :
    char ∈ lettersItems items ↔ ∃ item ∈ items, char ∈ item.letters := by
  induction items with
  | nil => simp [lettersItems]
  | cons item items ih => rw [lettersItems, List.mem_append, ih, List.exists_mem_cons_iff]

theorem mem_lettersFields {fields : List (String × Json)} : char ∈ lettersFields fields ↔
    ∃ field ∈ fields, char ∈ field.1.toList ∨ char ∈ field.2.letters := by
  induction fields with
  | nil => simp [lettersFields]
  | cons field fields ih =>
      rw [lettersFields, List.mem_append, List.mem_append, ih, List.exists_mem_cons_iff]

mutual

/-- Sorting keeps the letters. -/
theorem mem_letters_sorted : ∀ value : Json, char ∈ value.sorted.letters ↔ char ∈ value.letters
  | .null => by rw [Json.sorted]
  | .bool _ => by rw [Json.sorted]
  | .int _ => by rw [Json.sorted]
  | .str _ => by rw [Json.sorted]
  | .arr items => by
      rw [Json.sorted, Json.letters, Json.letters]
      exact mem_lettersItems_sorted items
  | .obj fields => by
      rw [Json.sorted, Json.letters, Json.letters, mem_lettersFields, ← mem_lettersFields_sorted fields,
        mem_lettersFields]
      exact exists_congr fun field => and_congr_left' (List.perm_insertionSort _ _).mem_iff

theorem mem_lettersItems_sorted : ∀ items : List Json,
    char ∈ lettersItems (sortedItems items) ↔ char ∈ lettersItems items
  | [] => Iff.rfl
  | item :: rest => by
      rw [sortedItems, lettersItems, lettersItems, List.mem_append, List.mem_append,
        mem_letters_sorted item, mem_lettersItems_sorted rest]

theorem mem_lettersFields_sorted : ∀ fields : List (String × Json),
    char ∈ lettersFields (sortedFields fields) ↔ char ∈ lettersFields fields
  | [] => Iff.rfl
  | (key, value) :: rest => by
      rw [sortedFields, lettersFields, lettersFields, List.mem_append, List.mem_append,
        List.mem_append, List.mem_append, mem_letters_sorted value, mem_lettersFields_sorted rest]

end

end CapabilityHub
