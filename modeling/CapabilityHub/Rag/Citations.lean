import CapabilityHub.Rag.Provider
import Mathlib.Data.List.TakeWhile
import Mathlib.Tactic.NormNum

/-! # Citations of files

The first line that is cited for a chunk is the chunk's first line, also where blank lines at its front
have been stripped from the text. So a citation is that of the text exactly if the chunk does not start
with a blank line (`CapabilityHub.Rag.execute_cites_iff`).
-/

namespace CapabilityHub.Rag

/-- A line without anything but white space. -/
def Blank (line : List Char) : Prop := ∀ char ∈ line, isSpace char = true

/-- The lines from `first` to `last`, the first line of a file being number one. -/
def citedLines (lines : List (List Char)) (first last : Nat) : List (List Char) :=
  (lines.drop (first - 1)).take (last + 1 - first)

/-- **Cites**: the lines are lines of the file, and joined they are the text but for white space in front
of it in the first line and behind it in the last. -/
structure Cites (lines : List (List Char)) (first last : Nat) (text : List Char) : Prop where
  bounds : 1 ≤ first ∧ first ≤ last ∧ last ≤ lines.length
  joined : ∃ before after, joinLines (citedLines lines first last) = before ++ text ++ after ∧
    Blank before ∧ Blank after ∧ '\n' ∉ before ∧ '\n' ∉ after

variable {lines rest : List (List Char)} {line before after text chars front : List Char}
  {offset chunkLines : Nat}

/-! ## Joined lines -/

theorem joinLines_cons_cons {first second : List Char} :
    joinLines (first :: second :: rest) = first ++ '\n' :: joinLines (second :: rest) := by
  rw [joinLines, List.intercalate_cons_cons, List.append_assoc]
  rfl

theorem joinLines_singleton : joinLines [line] = line := by
  rw [joinLines, List.intercalate_singleton]

/-- A text up to its first line end is the first line. -/
theorem eq_of_append_newline {first second : List Char} {more more' : List Char} (plain : '\n' ∉ first)
    (plain' : '\n' ∉ second) (same : first ++ '\n' :: more = second ++ '\n' :: more') :
    first = second ∧ more = more' := by
  induction first generalizing second with
  | nil =>
      cases second with
      | nil => exact ⟨rfl, (List.cons.inj same).2⟩
      | cons char second =>
          obtain ⟨here, -⟩ := List.cons.inj same
          subst here
          exact absurd List.mem_cons_self plain'
  | cons char first ih =>
      cases second with
      | nil =>
          obtain ⟨here, -⟩ := List.cons.inj same
          subst here
          exact absurd List.mem_cons_self plain
      | cons char' second =>
          obtain ⟨rfl, later⟩ := List.cons.inj same
          rw [List.mem_cons, not_or] at plain plain'
          obtain ⟨rfl, ends⟩ := ih plain.2 plain'.2 later
          exact ⟨rfl, ends⟩

/-- The front of joined lines up to a line end are the first of them. -/
theorem joinLines_take (plain : ∀ line ∈ lines, '\n' ∉ line) (given : lines ≠ [])
    (split : joinLines lines = front ++ after) (ends : after = [] ∨ ∃ more, after = '\n' :: more) :
    joinLines (lines.take (front.count '\n' + 1)) = front ∧ front.count '\n' < lines.length := by
  induction lines generalizing front with
  | nil => exact absurd rfl given
  | cons first rest ih =>
      rw [List.forall_mem_cons] at plain
      cases rest with
      | nil =>
          rw [joinLines_singleton] at split
          have whole : after = [] := by
            rcases ends with none | ⟨more, rfl⟩
            · exact none
            · refine absurd ?_ plain.1
              rw [split]
              exact List.mem_append_right _ List.mem_cons_self
          rw [whole, List.append_nil] at split
          subst split
          rw [List.count_eq_zero.mpr plain.1]
          exact ⟨joinLines_singleton, Nat.zero_lt_one⟩
      | cons second rest =>
          rw [joinLines_cons_cons] at split
          by_cases single : '\n' ∈ front
          · obtain ⟨head, tail, rfl, fresh⟩ := List.eq_append_cons_of_mem single
            rw [List.append_assoc, List.cons_append] at split
            obtain ⟨rfl, later⟩ := eq_of_append_newline plain.1 fresh split
            obtain ⟨joined, fewer⟩ := ih plain.2 (List.cons_ne_nil _ _) later
            rw [List.count_append, List.count_cons_self, List.count_eq_zero.mpr plain.1, Nat.zero_add]
            constructor
            · rw [List.take_succ_cons, List.take_succ_cons, joinLines_cons_cons, ← List.take_succ_cons,
                joined]
            · rw [List.length_cons]
              omega
          · rw [List.count_eq_zero.mpr single]
            have start : after = [] ∨ ∃ more, after = '\n' :: more := ends
            rcases start with rfl | ⟨more, rfl⟩
            · rw [List.append_nil] at split
              refine absurd ?_ single
              rw [← split]
              exact List.mem_append_right _ List.mem_cons_self
            · obtain ⟨rfl, -⟩ := eq_of_append_newline plain.1 single split
              refine ⟨?_, by simp⟩
              rw [Nat.zero_add, List.take_succ_cons, List.take_zero, joinLines_singleton]

/-! ## Lines -/

theorem splitBreaks_plain (chars : List Char) : ∀ line ∈ splitBreaks chars, '\n' ∉ line := by
  fun_induction splitBreaks chars with
  | case1 => exact List.forall_mem_nil _
  | case2 rest ih => exact List.forall_mem_cons.mpr ⟨List.not_mem_nil, ih⟩
  | case3 char rest _ breaks ih => exact List.forall_mem_cons.mpr ⟨List.not_mem_nil, ih⟩
  | case4 char rest _ breaks none ih =>
      intro line member
      rw [List.mem_singleton.mp member, List.mem_singleton]
      rintro rfl
      exact breaks rfl
  | case5 char rest _ breaks first more split ih =>
      rw [split, List.forall_mem_cons] at ih
      refine List.forall_mem_cons.mpr ⟨?_, ih.2⟩
      rw [List.mem_cons, not_or]
      refine ⟨?_, ih.1⟩
      rintro rfl
      exact breaks rfl

/-! ## Stripped texts -/

theorem blank_takeWhile (chars : List Char) : Blank (chars.takeWhile isSpace) := by
  intro char member
  exact List.mem_takeWhile_imp member

/-- What `strip` takes away is white space, and what it leaves does not start with any. -/
theorem strip_eq (chars : List Char) : ∃ before after,
    chars = before ++ (strip (String.ofList chars)).toList ++ after ∧ Blank before ∧ Blank after ∧
      ∀ char ∈ (strip (String.ofList chars)).toList.head?, isSpace char = false := by
  have left : chars.takeWhile isSpace ++ chars.dropWhile isSpace = chars := List.takeWhile_append_dropWhile
  rw [strip, String.toList_ofList, String.toList_ofList]
  generalize kept : chars.dropWhile isSpace = rest at left ⊢
  have right : (rest.reverse.dropWhile isSpace).reverse ++ (rest.reverse.takeWhile isSpace).reverse =
      rest := by
    rw [← List.reverse_append, List.takeWhile_append_dropWhile, List.reverse_reverse]
  refine ⟨chars.takeWhile isSpace, (rest.reverse.takeWhile isSpace).reverse, ?_, blank_takeWhile chars,
    ?_, ?_⟩
  · rw [List.append_assoc, right, left]
  · intro char member
    exact blank_takeWhile rest.reverse char (List.mem_reverse.mp member)
  · intro char first
    have head : rest.head? = some char := by
      rw [← right, List.head?_append, Option.mem_def.mp first]
      rfl
    have stops := List.head?_dropWhile_not isSpace chars
    rw [kept, head] at stops
    exact stops

/-! ## Chunks -/

theorem joinLines_cons (first : List Char) (rest : List (List Char)) :
    ∃ tail, joinLines (first :: rest) = first ++ tail ∧
      (tail = [] ∨ ∃ more, tail = '\n' :: more) := by
  cases rest with
  | nil => exact ⟨[], by rw [joinLines_singleton, List.append_nil], .inl rfl⟩
  | cons second rest => exact ⟨_, joinLines_cons_cons, .inr ⟨_, rfl⟩⟩

theorem isSpace_newline : isSpace '\n' = true := by decide

/-- Where the first line has more than white space, what is stripped in front is in that line. -/
theorem newline_notMem_before {first tail : List Char} (split : first ++ tail = before ++ after)
    (plain : '\n' ∉ first) (blank : Blank before) (written : ¬Blank first) : '\n' ∉ before := by
  rcases List.append_eq_append_iff.mp split with ⟨more, rfl, -⟩ | ⟨more, rfl, -⟩
  · exact absurd (fun char member => blank char (List.mem_append_left _ member)) written
  · exact fun member => plain (List.mem_append_left _ member)

/-- Where the first line is white space, a text that starts with none is behind its end. -/
theorem newline_mem_before {first tail : List Char} {char : Char}
    (split : first ++ tail = before ++ char :: after) (blank : Blank first)
    (starts : tail = [] ∨ ∃ more, tail = '\n' :: more) (printed : isSpace char = false) :
    '\n' ∈ before := by
  have other : char ≠ '\n' := by
    rintro rfl
    rw [isSpace_newline] at printed
    cases printed
  have later (more : List Char) (same : tail = more ++ char :: after) : '\n' ∈ more := by
    rcases starts with rfl | ⟨tail, rfl⟩
    · exact absurd (congrArg List.length same) (by simp)
    · cases more with
      | nil => exact absurd (List.cons.inj same).1.symm other
      | cons first more =>
          rw [← (List.cons.inj same).1]
          exact List.mem_cons_self
  rcases List.append_eq_append_iff.mp split with ⟨more, rfl, same⟩ | ⟨more, rfl, same⟩
  · exact List.mem_append_right _ (later more same)
  · cases more with
    | nil => exact absurd (later [] same.symm) List.not_mem_nil
    | cons next more =>
        obtain ⟨rfl, -⟩ := List.cons.inj same
        rw [blank char (List.mem_append_right _ List.mem_cons_self)] at printed
        cases printed

theorem takeWhile_newline (chars : List Char) : ∃ line rest, chars = line ++ rest ∧ '\n' ∉ line ∧
    line ⊆ chars ∧ (rest = [] ∨ ∃ more, rest = '\n' :: more) := by
  by_cases member : '\n' ∈ chars
  · obtain ⟨line, rest, rfl, plain⟩ := List.eq_append_cons_of_mem member
    exact ⟨line, _, rfl, plain, List.subset_append_left _ _, .inr ⟨rest, rfl⟩⟩
  · exact ⟨chars, [], (List.append_nil _).symm, member, List.Subset.refl _, .inl rfl⟩

/-- A chunk is cited as it is exactly if its first line is not blank. -/
theorem cites_chunk_iff {first : List Char} (plain : ∀ line ∈ lines, '\n' ∉ line)
    (here : lines[offset]? = some first) (positive : 1 ≤ chunkLines)
    (written : chunkText chunkLines lines offset ≠ "") :
    Cites lines (offset + 1) (offset + 1 + (chunkText chunkLines lines offset).toList.count '\n')
      (chunkText chunkLines lines offset).toList ↔ ¬Blank first := by
  obtain ⟨inside, first_is⟩ := List.getElem?_eq_some_iff.mp here
  obtain ⟨size, rfl⟩ := Nat.exists_eq_add_of_le' positive
  have dropped : lines.drop offset = first :: lines.drop (offset + 1) := by
    rw [List.drop_eq_getElem_cons inside, first_is]
  have chunk_is : chunkAt (size + 1) lines offset = first :: (lines.drop (offset + 1)).take size := by
    rw [chunkAt, dropped, List.take_succ_cons]
  obtain ⟨before, after, split, blank, blank', head⟩ :=
    strip_eq (joinLines (chunkAt (size + 1) lines offset))
  rw [← chunkText] at split head
  generalize passage : (chunkText (size + 1) lines offset).toList = text at split head ⊢
  obtain ⟨char, text, rfl⟩ : ∃ char more, text = char :: more := by
    cases text with
    | nil => exact absurd (String.toList_eq_nil_iff.mp passage) written
    | cons char more => exact ⟨char, more, rfl⟩
  have printed : isSpace char = false := head char rfl
  have cited_is (count : Nat) : citedLines lines (offset + 1) (offset + 1 + count) =
      first :: (lines.drop (offset + 1)).take count := by
    rw [citedLines, Nat.add_sub_cancel, dropped]
    have amount : offset + 1 + count + 1 - (offset + 1) = count + 1 := by omega
    rw [amount, List.take_succ_cons]
  constructor
  · rintro ⟨-, front, behind, joined, -, -, single, -⟩ allBlank
    rw [cited_is] at joined
    obtain ⟨tail, whole, starts⟩ := joinLines_cons first
      ((lines.drop (offset + 1)).take ((char :: text).count '\n'))
    rw [whole, List.append_assoc, List.cons_append] at joined
    exact single (newline_mem_before joined allBlank starts printed)
  · intro notBlank
    obtain ⟨tail, whole, -⟩ := joinLines_cons first ((lines.drop (offset + 1)).take size)
    have plain_first : '\n' ∉ first := by
      rw [← first_is]
      exact plain _ (List.getElem_mem inside)
    have single : '\n' ∉ before := by
      rw [chunk_is, whole, List.append_assoc] at split
      exact newline_notMem_before split plain_first blank notBlank
    obtain ⟨last, rest, rfl, single', subset, ends⟩ := takeWhile_newline after
    rw [← List.append_assoc] at split
    have plain_chunk : ∀ line ∈ chunkAt (size + 1) lines offset, '\n' ∉ line := by
      intro line member
      exact plain line (List.mem_of_mem_drop (List.mem_of_mem_take member))
    obtain ⟨joined, fewer⟩ := joinLines_take plain_chunk (by rw [chunk_is]; exact List.cons_ne_nil _ _)
      split ends
    have counted : (before ++ char :: text ++ last).count '\n' = (char :: text).count '\n' := by
      rw [List.count_append, List.count_append, List.count_eq_zero.mpr single,
        List.count_eq_zero.mpr single', Nat.zero_add, Nat.add_zero]
    rw [counted] at joined fewer
    rw [chunk_is] at joined fewer
    rw [List.take_succ_cons, List.take_take] at joined
    rw [List.length_cons, List.length_take, List.length_drop] at fewer
    refine ⟨⟨by omega, by omega, by omega⟩, before, last, ?_, blank, ?_, single, single'⟩
    · have least : min ((char :: text).count '\n') size = (char :: text).count '\n' := by omega
      rw [cited_is, ← joined, least]
    · exact fun char member => blank' char (List.mem_append_left _ member)

/-! ## Results -/

variable {surroundings : Surroundings} {fixture : LocalRagFixture} {provider : LocalRagProvider}
  {identity : CapabilityIdentity} {request : ExecutionRequest} {context : ProviderContext}
  {execution : RagExecution} {result : RagResult}

/-- A result of a search of files is a chunk of one of them. -/
theorem result_cut (served : provider.fixtureOf identity = some fixture) (unindexed : fixture.index = none)
    (done : provider.execute surroundings identity request context = .ok execution)
    (member : result ∈ execution.output.results) :
    ∃ candidate raw offset, result = .passage candidate ∧
      CutFrom surroundings.fileText fixture.bounds fixture.tree.content candidate raw offset := by
  obtain ⟨fixture', served', executed⟩ := execute_eq_ok done
  rw [served] at served'
  cases served'
  obtain ⟨asked, scope, found, -, -, retrieved, fitted⟩ := executeFixture_eq_ok executed
  obtain ⟨query, candidates, -, ranked, results, -⟩ := retrieveOutput_files unindexed retrieved
  obtain ⟨short, first, -, second, -⟩ := fitOutput_eq_ok fitted
  have among := (second.front.trans first.front).subset member
  rw [results] at among
  obtain ⟨candidate, filled, rfl⟩ := List.mem_map.mp among
  have taken := (fill_front 0 _).subset filled
  obtain ⟨raw, offset, cut⟩ := candidates_cut ranked (List.mem_of_mem_take taken)
  exact ⟨candidate, raw, offset, rfl, cut⟩

/-- Every line of a file is in one chunk, and a result of a search of files, which is the text of a chunk,
cites the lines of its text exactly if the chunk does not start with a blank line. -/
theorem execute_cites_iff (surroundings : Surroundings) (provider : LocalRagProvider)
    (fixture : LocalRagFixture) (identity : CapabilityIdentity) (request : ExecutionRequest)
    (context : ProviderContext) (execution : RagExecution)
    (served : provider.fixtureOf identity = some fixture) (unindexed : fixture.index = none)
    (done : provider.execute surroundings identity request context = .ok execution) :
    (∀ raw line, line < (linesOf surroundings.fileText raw).length →
      ∃! offset, offset ∈ offsets (linesOf surroundings.fileText raw).length fixture.bounds.chunkLines ∧
        offset ≤ line ∧ line < offset + fixture.bounds.chunkLines) ∧
    ∀ result ∈ execution.output.results, ∃ candidate raw offset first,
      result = .passage candidate ∧
      CutFrom surroundings.fileText fixture.bounds fixture.tree.content candidate raw offset ∧
      (linesOf surroundings.fileText raw)[offset]? = some first ∧
      (Cites (linesOf surroundings.fileText raw) candidate.startLine (endLine candidate)
        candidate.text.toList ↔ ¬Blank first) := by
  have positive := fixture.bounds.positive.1
  refine ⟨fun raw line inside => existsUnique_chunk positive inside, ?_⟩
  intro result member
  obtain ⟨candidate, raw, offset, same, cut⟩ := result_cut served unindexed done member
  have inside := ((mem_offsets positive).mp cut.cut).1
  have here := List.getElem?_eq_getElem inside
  refine ⟨candidate, raw, offset, _, same, cut, here, ?_⟩
  have written : chunkText fixture.bounds.chunkLines (linesOf surroundings.fileText raw) offset ≠ "" := by
    rw [← cut.passage]
    exact cut.written
  rw [endLine, cut.start, cut.passage]
  exact cites_chunk_iff (splitBreaks_plain _) here positive written

/-! ### A file that starts with a blank line -/

/-- The functions as they are on ASCII texts, with clocks that stand still. -/
def asciiSurroundings : Surroundings where
  fileText := {
    casefold := fun text => String.ofList (text.toList.map Char.toLower)
    words := splitWords
    decode := fun raw => String.ofList (raw.map fun byte => Char.ofNat byte.toNat) }
  nfkc := id
  control := fun char => char.toNat < 0x20
  floatText := fun _ => "0.0".toList
  sha256 := id
  monotonic := fun _ => 0
  now := 0

def fishManifest : CapabilityManifest where
  identity := ⟨"docs", "fish", "1", "f"⟩
  kind := .rag
  summary := "About fish."
  provider := "local-rag"
  operations := []

/-- One file of two lines, the first of which is empty. -/
def fishFixture : LocalRagFixture where
  manifest := fishManifest
  tree := {
    entries := [⟨"/docs/fish.md", true, ".md", some "fish.md"⟩]
    content := fun _ => some [10, 102, 105, 115, 104] }
  bounds := ⟨[".md"], 12, 500, 512000, by decide⟩

def fishProvider : LocalRagProvider where
  fixtures := [fishFixture]
  unique := List.nodup_singleton _

def fishRequest : ExecutionRequest where
  executionRef := "e"
  operation := "retrieve"
  arguments := [("query", .str "fish")]
  taskId := "task"

def fishContext : ProviderContext := ⟨"tenant", "principal", "session", 30000, 2000⟩

theorem overdueAt_ascii : overdueAt asciiSurroundings 30000 = fun _ => false := by
  funext reading
  apply decide_eq_false
  change ¬((0 : ℚ) + ((30000 : Int) : ℚ) / 1000 < 0)
  norm_num

theorem rankedCandidates_fish : rankedCandidates asciiSurroundings fishFixture "fish" 30000 =
    .ok [⟨1, "fish.md", 1, "fish"⟩] := by
  rw [rankedCandidates, overdueAt_ascii]
  rfl

theorem linesOf_fish :
    linesOf asciiSurroundings.fileText [10, 102, 105, 115, 104] = [[], "fish".toList] := by decide +kernel

theorem execute_fish : ∃ execution,
    fishProvider.execute asciiSurroundings fishManifest.identity fishRequest fishContext = .ok execution ∧
      execution.output = ⟨[.passage ⟨1, "fish.md", 1, "fish"⟩], false⟩ := by
  have read : readArguments fishRequest.arguments = .ok ⟨some "fish", none, 5, 64000, ∅⟩ := rfl
  have served : fishProvider.fixtureOf fishManifest.identity = some fishFixture := rfl
  refine execute_of_fits served rfl read rfl ?_ ?_ ?_
  · change (rankedCandidates asciiSurroundings fishFixture "fish" 30000).mapError Halt.raised >>= _ = _
    rw [rankedCandidates_fish]
    rfl
  · decide +kernel
  · decide +kernel

/-- The theorem on its search: what is cited is the first line, which is blank. -/
theorem fish_cites : ∃ execution,
    fishProvider.execute asciiSurroundings fishManifest.identity fishRequest fishContext = .ok execution ∧
    ∀ result ∈ execution.output.results, ∃ candidate raw offset first,
      result = .passage candidate ∧
      CutFrom asciiSurroundings.fileText fishFixture.bounds fishFixture.tree.content candidate raw offset ∧
      (linesOf asciiSurroundings.fileText raw)[offset]? = some first ∧
      (Cites (linesOf asciiSurroundings.fileText raw) candidate.startLine (endLine candidate)
        candidate.text.toList ↔ ¬Blank first) := by
  obtain ⟨execution, done, -⟩ := execute_fish
  exact ⟨execution, done, (execute_cites_iff asciiSurroundings fishProvider fishFixture
    fishManifest.identity fishRequest fishContext execution rfl rfl done).2⟩

/-- The text `fish` is cited as the empty line before it. -/
theorem blank_line_cited :
    ¬∀ (surroundings : Surroundings) (provider : LocalRagProvider) (fixture : LocalRagFixture)
      (identity : CapabilityIdentity) (request : ExecutionRequest) (context : ProviderContext)
      (execution : RagExecution), provider.fixtureOf identity = some fixture → fixture.index = none →
      provider.execute surroundings identity request context = .ok execution →
      ∀ result ∈ execution.output.results, ∃ candidate raw, result = .passage candidate ∧
        fixture.tree.content candidate.relative = some raw ∧
        Cites (linesOf surroundings.fileText raw) candidate.startLine (endLine candidate)
          candidate.text.toList := by
  intro always
  obtain ⟨execution, done, output⟩ := execute_fish
  have cited := always asciiSurroundings fishProvider fishFixture fishManifest.identity fishRequest
    fishContext execution rfl rfl done
  rw [output] at cited
  obtain ⟨candidate, raw, same, read, cites⟩ := cited _ (List.mem_singleton_self _)
  cases same
  cases read
  have plain : ∀ line ∈ [[], "fish".toList], '\n' ∉ line := by decide
  have here : [[], "fish".toList][0]? = some [] := rfl
  have passage : chunkText 12 [[], "fish".toList] 0 = "fish" := by decide +kernel
  have written : chunkText 12 [[], "fish".toList] 0 ≠ "" := by
    rw [passage]
    decide
  have exact_iff := cites_chunk_iff plain here (by decide) written
  rw [passage] at exact_iff
  rw [linesOf_fish] at cites
  exact exact_iff.mp cites (List.forall_mem_nil _)

end CapabilityHub.Rag
