import CapabilityHub.Text.UrlJoin

/-! # Where a joined URL leads

A URL that is joined from a base and a relative path leads to the segments of the base followed by
those of the path, exactly when it loses no character.
-/

namespace CapabilityHub.Url

variable {refused : List Char → Bool} {default url path base relative more : List Char}
  {split based : SplitResult} {segment : List Char} {segments : List (List Char)}

/-! ## The last segment -/

/-- The segments before the last one. -/
theorem exists_front (path : List Char) : ∃ front : List (List Char),
    (∀ last, '/' ∉ last → splitPath (path.rdropWhile (· ≠ '/') ++ last) = front ++ [last]) ∧
      splitPath path = front ++ [path.rtakeWhile (· ≠ '/')] := by
  have noSlash : '/' ∉ path.rtakeWhile (· ≠ '/') := by
    intro member
    simpa using List.mem_rtakeWhile_imp member
  have whole : path.rdropWhile (· ≠ '/') ++ path.rtakeWhile (· ≠ '/') = path :=
    List.rdropWhile_append_rtakeWhile
  rcases List.eq_nil_or_concat (path.rdropWhile (· ≠ '/')) with none | ⟨front, c, some⟩
  · refine ⟨[], fun last notMem => ?_, ?_⟩
    · rw [none]
      exact List.splitOn_eq_singleton notMem
    · rw [none, List.nil_append] at whole
      rw [whole] at noSlash ⊢
      exact List.splitOn_eq_singleton noSlash
  · rw [List.concat_eq_append] at some
    have slash : c = '/' := by
      have present : path.rdropWhile (· ≠ '/') ≠ [] := by
        rw [some]
        simp
      have last := List.rdropWhile_last_not (· ≠ '/') path present
      rw [List.getLast_congr present (by simp) some, List.getLast_append_singleton] at last
      simpa using last
    have each (last : List Char) (notMem : '/' ∉ last) :
        splitPath (path.rdropWhile (· ≠ '/') ++ last) = splitPath front ++ [last] := by
      rw [some, slash, splitPath, List.append_assoc, List.singleton_append,
        List.splitOn_append_cons_self, List.splitOn_eq_singleton notMem]
      rfl
    refine ⟨splitPath front, each, ?_⟩
    have here := each _ noSlash
    rwa [whole] at here

/-- A text with the mark that it was cut at. -/
def attach (mark : Char) (rest : List Char) : List Char := if rest = [] then [] else mark :: rest

theorem cut_attach (mark : Char) (text : List Char) :
    (cut mark text).1 ++ attach mark (cut mark text).2 = text ∨
      mark ∈ text ∧ (cut mark text).2 = [] := by
  by_cases member : mark ∈ text
  · obtain ⟨front, rest, rfl, notMem⟩ := exists_of_mem member
    rw [cut_append notMem]
    by_cases empty : rest = []
    · exact .inr ⟨member, empty⟩
    · rw [attach, if_neg empty]
      exact .inl rfl
  · rw [cut_of_notMem member]
    exact .inl (List.append_nil _)

theorem weight_cut_attach (mark : Char) (text : List Char) :
    weight ((cut mark text).1 ++ attach mark (cut mark text).2) ≤ weight text ∧
      (mark ≠ '/' → weight text ≤ weight ((cut mark text).1 ++ attach mark (cut mark text).2) →
        mark ∈ text → (cut mark text).2 ≠ []) := by
  by_cases member : mark ∈ text
  · obtain ⟨front, rest, rfl, notMem⟩ := exists_of_mem member
    rw [cut_append notMem]
    by_cases empty : rest = []
    · rw [empty, attach, if_pos rfl, List.append_nil, weight_append]
      refine ⟨Nat.le_add_right _ _, fun different kept => ?_⟩
      rw [weight_cons_of_ne different] at kept
      dsimp only at kept
      omega
    · rw [attach, if_neg empty]
      exact ⟨Nat.le_refl _, fun _ _ _ => empty⟩
  · rw [cut_of_notMem member, attach, if_pos rfl, List.append_nil]
    exact ⟨Nat.le_refl _, fun _ _ member' => absurd member' member⟩

theorem prefix_splitParams (path : List Char) : (splitParams path).1 <+: path := by
  have inside : (cut ';' (path.rtakeWhile (· ≠ '/'))).1 <+: path.rtakeWhile (· ≠ '/') :=
    List.takeWhile_prefix _
  obtain ⟨rest, same⟩ := inside
  refine ⟨rest, ?_⟩
  rw [splitParams, List.append_assoc, same, List.rdropWhile_append_rtakeWhile]

theorem subset_splitParams {c : Char} (member : c ∈ (splitParams path).1 ++ (splitParams path).2) :
    c ∈ path := by
  rcases List.mem_append.mp member with member | member
  · exact (prefix_splitParams path).subset member
  · have inside := (List.dropWhile_sublist _).subset (List.mem_of_mem_tail member)
    exact (List.rtakeWhile_suffix _ _).subset inside

/-- The parameters of a path are those of its last segment. -/
theorem splitParams_spec (path : List Char) : ∃ front last, splitPath path = front ++ [last] ∧
    splitPath (splitParams path).1 = front ++ [(cut ';' last).1] ∧
      (splitParams path).2 = (cut ';' last).2 ∧
      weight (splitParams path).1 + weight (attach ';' (splitParams path).2) ≤ weight path ∧
      (weight path ≤ weight (splitParams path).1 + weight (attach ';' (splitParams path).2) →
        ';' ∈ last → (cut ';' last).2 ≠ []) := by
  obtain ⟨front, each, here⟩ := exists_front path
  obtain ⟨fewer, kept⟩ := weight_cut_attach ';' (path.rtakeWhile (· ≠ '/'))
  have whole : weight path =
      weight (path.rdropWhile (· ≠ '/')) + weight (path.rtakeWhile (· ≠ '/')) := by
    rw [← weight_append, List.rdropWhile_append_rtakeWhile]
  rw [weight_append] at fewer kept
  refine ⟨front, _, here, ?_, rfl, ?_, fun enough => ?_⟩
  · apply each
    intro member
    have member' := (sublist_cut ';' _).subset member
    simpa using List.mem_rtakeWhile_imp member'
  · rw [whole, splitParams, weight_append]
    dsimp only
    omega
  · rw [whole, splitParams, weight_append] at enough
    dsimp only at enough
    exact kept (by decide) (by omega)

/-! ## The directory of the base -/

/-- The segments of the directory of a base path, but for empty ones. -/
def baseSegments (path : List Char) : List (List Char) :=
  (directory (splitParams path).1).filter (· ≠ [])

theorem mem_directory (member : segment ∈ directory path) : segment ∈ splitPath path := by
  rw [directory] at member
  split at member
  · exact member
  · exact List.dropLast_subset _ member

theorem total_directory_le (path : List Char) : total (directory path) ≤ weight path := by
  rw [directory, ← total_splitPath]
  split
  · exact Nat.le_refl _
  · exact total_dropLast_le _

theorem directory_cons (start : ∀ c ∈ path.head?, c = '/') :
    ∃ rest, directory path = [] :: rest := by
  cases path with
  | nil => exact ⟨[], rfl⟩
  | cons c path =>
      obtain rfl := start c rfl
      have parts : splitPath ('/' :: path) = [] :: splitPath path := by
        rw [splitPath, List.splitOn_cons_eq_if_modifyHead, if_pos (by simp)]
        rfl
      have present : splitPath path ≠ [] := List.splitOn_ne_nil _ _
      rw [directory, parts]
      split
      · exact ⟨_, rfl⟩
      · exact ⟨_, List.dropLast_cons_of_ne_nil present⟩

theorem squeeze_concat (first : List Char) (middle : List (List Char)) (last : List Char) :
    squeeze (first :: (middle ++ [last])) = first :: (middle.filter (· ≠ []) ++ [last]) := by
  cases middle with
  | nil => rfl
  | cons second middle =>
      have parts : second :: (middle ++ [last]) = (second :: middle) ++ [last] := rfl
      rw [List.cons_append, squeeze, parts, List.dropLast_concat, List.getLastD_concat]

/-! ## The text of the joined URL -/

theorem isScheme_http : IsScheme "http".toList := by decide

theorem isScheme_https : IsScheme "https".toList := by decide

/-- The schemes of HTTP. -/
def IsHttp (scheme : List Char) : Prop := scheme = "http".toList ∨ scheme = "https".toList

theorem IsHttp.isScheme {scheme : List Char} (http : IsHttp scheme) :
    IsScheme scheme ∧ scheme.map Char.toLower = scheme ∧
      (∀ c ∈ scheme, isUnsafe c = false) ∧ ∀ c ∈ scheme.head?, isSpace c = false := by
  have head (first : Char) (rest : List Char) (solid : isSpace first = false) :
      ∀ c ∈ (first :: rest).head?, isSpace c = false := by
    intro c member
    rw [← Option.some.inj member]
    exact solid
  have safe (name : List Char) (all : name.all (!isUnsafe ·) = true) :
      ∀ c ∈ name, isUnsafe c = false := by
    simpa using all
  rcases http with rfl | rfl
  · exact ⟨isScheme_http, rfl, safe _ rfl, head 'h' _ rfl⟩
  · exact ⟨isScheme_https, rfl, safe _ rfl, head 'h' _ rfl⟩

def absolute (path : List Char) : List Char :=
  if path = [] ∨ path.head? = some '/' then path else '/' :: path

theorem weight_absolute (path : List Char) : weight (absolute path) = weight path := by
  rw [absolute]
  split
  · rfl
  · exact weight_slash path

theorem head?_absolute (path : List Char) : ∀ c ∈ (absolute path).head?, c = '/' := by
  intro c found
  rw [absolute] at found
  split at found
  next same =>
    rcases same with empty | slash
    · rw [empty] at found
      cases found
    · exact (Option.some.inj (slash.symm.trans found)).symm
  next => exact (Option.some.inj found).symm

theorem subset_absolute {c : Char} (member : c ∈ absolute path) : c = '/' ∨ c ∈ path := by
  rw [absolute] at member
  split at member
  · exact .inr member
  · exact List.mem_cons.mp member

theorem sanitize_of_clean {text : List Char} (start : ∀ c ∈ text.head?, isSpace c = false)
    (safe : ∀ c ∈ text, isUnsafe c = false) : sanitize text = text := by
  have stays : text.dropWhile isSpace = text := by
    cases text with
    | nil => rfl
    | cons c text => exact List.dropWhile_cons_of_neg (by simp [start c rfl])
  rw [sanitize, stays]
  exact List.filter_eq_self.mpr fun c member => by simp [safe c member]

/-- What comes after the path starts with a mark. -/
theorem head?_marks (query fragment : List Char) (start : ∀ c ∈ more.head?, c = '?') :
    ∀ c ∈ (((attach '?' query ++ attach '#' fragment) ++ more).filter (!isUnsafe ·)).head?,
      c = '?' ∨ c = '#' := by
  intro c found
  by_cases noQuery : query = []
  · by_cases noFragment : fragment = []
    · rw [noQuery, noFragment, attach, attach, if_pos rfl, if_pos rfl] at found
      exact .inl (head?_filter_query start c found)
    · rw [noQuery, attach, attach, if_pos rfl, if_neg noFragment] at found
      exact .inr (Option.some.inj found).symm
  · rw [attach, if_neg noQuery] at found
    exact .inl (Option.some.inj found).symm

/-- A URL that is put together from clean parts is read as these parts. -/
theorem reads_unparse {params : List Char} (http : IsHttp split.scheme)
    (accepted : refused split.netloc = false) (netloc : ∀ c ∈ split.netloc, inNetloc c = true)
    (safe : ∀ c ∈ split.netloc ++ split.path ++ params, isUnsafe c = false)
    (marks : ∀ c ∈ split.path ++ params, c ≠ '?' ∧ c ≠ '#')
    (query : ∀ c ∈ more.head?, c = '?') :
    Reads refused (sanitize (unparse split params ++ more)) split.scheme split.netloc
      (absolute (split.path ++ attach ';' params)) := by
  obtain ⟨isScheme, lower, clean, start⟩ := http.isScheme
  generalize same : absolute (split.path ++ attach ';' params) = path
  have inside (c : Char) (member : c ∈ path) : c = '/' ∨ c = ';' ∨ c ∈ split.path ++ params := by
    rw [← same] at member
    rcases subset_absolute member with rfl | member
    · exact .inl rfl
    · rcases List.mem_append.mp member with member | member
      · exact .inr (.inr (List.mem_append_left _ member))
      · rw [attach] at member
        split at member
        next => cases member
        next =>
          rcases List.mem_cons.mp member with rfl | member
          · exact .inr (.inl rfl)
          · exact .inr (.inr (List.mem_append_right _ member))
  have text : unparse split params ++ more = (split.scheme ++ ':' :: '/' :: '/' :: (split.netloc ++ path)) ++
      ((attach '?' split.query ++ attach '#' split.fragment) ++ more) := by
    rw [← same]
    simp [unparse, absolute, attach, List.append_assoc]
  have safe' : ∀ c ∈ split.scheme ++ ':' :: '/' :: '/' :: (split.netloc ++ path),
      isUnsafe c = false := by
    intro c member
    rcases List.mem_append.mp member with member | member
    · exact clean c member
    · simp only [List.mem_cons, List.mem_append] at member
      rcases member with rfl | rfl | rfl | member | member
      · decide
      · decide
      · decide
      · exact safe c (by simp [member])
      · rcases inside c member with rfl | rfl | member
        · decide
        · decide
        · apply safe c
          rw [List.append_assoc]
          exact List.mem_append_right _ member
  have present : split.scheme ++ ':' :: '/' :: '/' :: (split.netloc ++ path) ≠ [] := by simp
  have first : ∀ c ∈ (split.scheme ++ ':' :: '/' :: '/' :: (split.netloc ++ path)).head?,
      isSpace c = false := by
    intro c found
    rw [List.head?_append] at found
    cases scheme : split.scheme with
    | nil =>
        rw [scheme] at http
        rcases http with none | none <;> cases none
    | cons head rest =>
        rw [scheme] at found
        exact start c (by rw [scheme]; exact found)
  rw [text, sanitize_append (by rw [sanitize_of_clean first safe']; exact present),
    sanitize_of_clean first safe']
  refine ⟨accepted, ⟨split.scheme, ((attach '?' split.query ++ attach '#' split.fragment) ++
      more).filter (!isUnsafe ·), isScheme, lower, ?_, ?_⟩, netloc, ?_, ?_, ?_⟩
  · rw [List.append_assoc split.scheme, List.cons_append, List.cons_append, List.cons_append,
      List.append_assoc split.netloc]
  · exact head?_marks split.query split.fragment query
  · rw [← same]
    exact head?_absolute _
  · intro member
    rcases inside _ member with slash | semicolon | member
    · cases slash
    · cases semicolon
    · exact (marks _ member).1 rfl
  · intro member
    rcases inside _ member with slash | semicolon | member
    · cases slash
    · cases semicolon
    · exact (marks _ member).2 rfl

/-- The parts of what `urlsplit` reads are clean. -/
theorem clean_of_urlsplit (read : urlsplit refused default url = some split) :
    refused split.netloc = false ∧ (∀ c ∈ split.netloc, inNetloc c = true) ∧
      (∀ c ∈ split.netloc ++ split.path, isUnsafe c = false) ∧
      ∀ c ∈ split.path, c ≠ '?' ∧ c ≠ '#' := by
  have inside : ∀ c ∈ (splitScheme default (sanitize url)).2, isUnsafe c = false := by
    intro c member
    by_cases has : HasScheme (sanitize url)
    · obtain ⟨name, rest, text, _, same⟩ := splitScheme_of_hasScheme has
      rw [same] at member
      have member' : c ∈ sanitize url := by
        rw [text]
        exact List.mem_append_right _ (List.mem_cons_of_mem _ member)
      exact isUnsafe_of_mem_sanitize member'
    · rw [splitScheme_of_not has] at member
      exact isUnsafe_of_mem_sanitize member
  rw [urlsplit] at read
  generalize splitScheme default (sanitize url) = parts at read inside
  obtain ⟨scheme, rest⟩ := parts
  dsimp only at read inside
  have located : (∀ c ∈ (splitNetloc rest).1, inNetloc c = true) ∧
      ∀ c ∈ (splitNetloc rest).1 ++ (splitNetloc rest).2, c ∈ rest := by
    rcases splitNetloc_cases rest with ⟨netloc, left, same, inNetloc', _, parted⟩ | parted
    · rw [parted]
      refine ⟨inNetloc', fun c member => ?_⟩
      rw [same]
      exact List.mem_cons_of_mem _ (List.mem_cons_of_mem _ member)
    · rw [parted]
      refine ⟨by simp, fun c member => member⟩
  have path (c : Char) (member : c ∈ (cut '?' (cut '#' (splitNetloc rest).2).1).1) :
      c ∈ (splitNetloc rest).2 ∧ c ≠ '?' ∧ c ≠ '#' := by
    have once := (sublist_cut '?' _).subset member
    refine ⟨(sublist_cut '#' _).subset once, ?_, ?_⟩
    · rintro rfl
      exact notMem_cut '?' _ member
    · rintro rfl
      exact notMem_cut '#' _ once
  split at read
  next => cases read
  next accepted =>
    cases read
    refine ⟨by simpa using accepted, located.1, fun c member => inside c (located.2 c ?_),
      fun c member => (path c member).2⟩
    rcases List.mem_append.mp member with member | member
    · exact List.mem_append_left _ member
    · exact List.mem_append_right _ (path c member).1

/-- What it takes to lose nothing of a relative path. -/
structure Kept (basePath relative : List Char) : Prop where
  plain : Relative relative
  base : ∀ segment ∈ baseSegments basePath, ¬IsDots segment
  inner : ∀ segment ∈ (splitPath relative).dropLast, ¬IsDots segment
  last : ¬IsDots (cut ';' ((splitPath relative).getLastD [])).1
  params : ';' ∈ (splitPath relative).getLastD [] → (cut ';' ((splitPath relative).getLastD [])).2 ≠ []

/-- The segments of the base followed by those of the relative path. -/
def routed (basePath relative : List Char) : List (List Char) :=
  baseSegments basePath ++
    ((splitPath relative).dropLast.filter (· ≠ []) ++ [(splitPath relative).getLastD []])

/-- A path after the directory of a base. -/
theorem squeeze_directory {front : List (List Char)} (last : List Char)
    (clean : ∀ segment ∈ front, '/' ∉ segment) (start : ∀ c ∈ based.path.head?, c = '/') : ∃ middle : List (List Char),
      squeeze (directory (splitParams based.path).1 ++ (front ++ [last])) = [] :: (middle ++ [last]) ∧
        middle = baseSegments based.path ++ front.filter (· ≠ []) ∧
        (∀ segment ∈ middle, '/' ∉ segment) ∧
        total middle ≤ weight based.path + total front := by
  have start' : ∀ c ∈ (splitParams based.path).1.head?, c = '/' := by
    obtain ⟨rest, same⟩ := prefix_splitParams based.path
    intro c found
    apply start
    rw [← same, List.head?_append, Option.mem_def.mp found]
    rfl
  obtain ⟨rest, same⟩ := directory_cons start'
  have few : total (directory (splitParams based.path).1) ≤ weight based.path :=
    (total_directory_le _).trans (weight_le_of_sublist (prefix_splitParams _).sublist)
  have base : baseSegments based.path = rest.filter (· ≠ []) := by
    rw [baseSegments, same]
    rfl
  refine ⟨baseSegments based.path ++ front.filter (· ≠ []), ?_, rfl, fun segment member => ?_, ?_⟩
  · rw [same, List.cons_append, ← List.append_assoc, squeeze_concat, List.filter_append, base]
  · rcases List.mem_append.mp member with member | member
    · exact slash_notMem_of_mem_splitPath (mem_directory (List.mem_filter.mp member).1)
    · exact clean segment (List.mem_filter.mp member).1
  · rw [total_append, total_filter, baseSegments, total_filter]
    exact Nat.add_le_add_right few _

section

variable {final : SplitResult}

/-- The path that `urljoin` makes of two paths, when no segment is a dot segment. -/
theorem absolute_joined {middle : List (List Char)} {last params basePath path : List Char}
    (start : path.head? ≠ some '/')
    (squeezed : squeeze (directory basePath ++ splitPath path) = [] :: (middle ++ [last]))
    (plain : ∀ segment ∈ middle ++ [last], ¬IsDots segment) :
    absolute (joinedPath basePath path ++ attach ';' params) =
      joinPath ([] :: (middle ++ [last ++ attach ';' params])) := by
  have plain' : ∀ segment ∈ [] :: (middle ++ [last]), ¬IsDots segment := by
    intro segment member
    rcases List.mem_cons.mp member with rfl | member
    · simp [IsDots]
    · exact plain segment member
  have slash (last : List Char) : ∃ rest, joinPath ([] :: (middle ++ [last])) = '/' :: rest := by
    refine ⟨joinPath (middle ++ [last]), ?_⟩
    rw [joinPath, List.intercalate_cons_of_ne_nil (by simp)]
    rfl
  obtain ⟨rest, text⟩ := slash last
  have joined : joinedPath basePath path = joinPath ([] :: (middle ++ [last])) := by
    rw [joinedPath, joinedSegments, if_neg start, squeezed, resolve_of_not_isDots plain', if_neg (by simp [text])]
  rw [joined, ← List.cons_append, joinPath_concat_append, absolute, if_pos]
  · rfl
  · obtain ⟨rest', text'⟩ := slash (last ++ attach ';' params)
    refine .inr ?_
    rw [List.cons_append, text']
    rfl

/-- What is read of the URL that `urljoin` puts together. -/
theorem read_joinParts (http : IsHttp based.scheme) (read : urlsplit refused [] base = some based)
    (read' : urlsplit refused default relative = some split) (same : split.scheme = based.scheme)
    (query : ∀ c ∈ more.head?, c = '?') :
    ∃ final, urlsplit refused [] (joinParts based split ++ more) = some final ∧
      final.scheme = based.scheme ∧
      (split.netloc ≠ [] → final.path =
        absolute ((splitParams split.path).1 ++ attach ';' (splitParams split.path).2)) ∧
      (split.netloc = [] → final.netloc = based.netloc) ∧
      (split.netloc = [] → (splitParams split.path).1 = [] ∧ (splitParams split.path).2 = [] →
        final.path = absolute ((splitParams based.path).1 ++ attach ';' (splitParams based.path).2)) ∧
      (split.netloc = [] → ¬((splitParams split.path).1 = [] ∧ (splitParams split.path).2 = []) →
        final.path = absolute (joinedPath (splitParams based.path).1 (splitParams split.path).1 ++
          attach ';' (splitParams split.path).2)) := by
  obtain ⟨accepted, netloc, safe, marks⟩ := clean_of_urlsplit read
  obtain ⟨accepted', netloc', safe', marks'⟩ := clean_of_urlsplit read'
  have clean (c : Char) (member : c ∈ based.path) : isUnsafe c = false ∧ c ≠ '?' ∧ c ≠ '#' :=
    ⟨safe c (List.mem_append_right _ member), marks c member⟩
  have clean' (c : Char) (member : c ∈ split.path) : isUnsafe c = false ∧ c ≠ '?' ∧ c ≠ '#' :=
    ⟨safe' c (List.mem_append_right _ member), marks' c member⟩
  have params (c : Char) (member : c ∈ (splitParams split.path).2) :=
    clean' c (subset_splitParams (List.mem_append_right _ member))
  have put (parts : SplitResult) (paths : List Char) (scheme : parts.scheme = based.scheme)
      (taken : refused parts.netloc = false) (inside : ∀ c ∈ parts.netloc, inNetloc c = true)
      (host : ∀ c ∈ parts.netloc, isUnsafe c = false)
      (path : ∀ c ∈ parts.path, isUnsafe c = false ∧ c ≠ '?' ∧ c ≠ '#')
      (rest : ∀ c ∈ paths, isUnsafe c = false ∧ c ≠ '?' ∧ c ≠ '#') :
      ∃ final, urlsplit refused [] (unparse parts paths ++ more) = some final ∧
        final.scheme = based.scheme ∧ final.netloc = parts.netloc ∧
          final.path = absolute (parts.path ++ attach ';' paths) := by
    have reads := @reads_unparse refused more parts paths (scheme ▸ http) taken inside
      (fun c member => by
        rcases List.mem_append.mp member with member | member
        · rcases List.mem_append.mp member with member | member
          · exact host c member
          · exact (path c member).1
        · exact (rest c member).1)
      (fun c member => by
        rcases List.mem_append.mp member with member | member
        · exact (path c member).2
        · exact (rest c member).2) query
    obtain ⟨final, read, scheme', netloc, path⟩ := reads.urlsplit []
    exact ⟨final, read, scheme'.trans scheme, netloc, path⟩
  by_cases remote : split.netloc = []
  · by_cases empty : (splitParams split.path).1 = [] ∧ (splitParams split.path).2 = []
    · obtain ⟨final, read, scheme, netloc, path⟩ := put
        { based with
          path := (splitParams based.path).1
          query := if split.query = [] then based.query else split.query
          fragment := split.fragment } (splitParams based.path).2 rfl accepted netloc
        (fun c member => safe c (List.mem_append_left _ member))
        (fun c member => clean c (subset_splitParams (List.mem_append_left _ member)))
        (fun c member => clean c (subset_splitParams (List.mem_append_right _ member)))
      refine ⟨final, ?_, scheme, fun host => absurd remote host, fun _ => netloc, fun _ _ => path,
        fun _ full => absurd empty full⟩
      rw [joinParts]
      dsimp only
      rwa [if_neg (not_not.mpr remote), if_pos empty]
    · obtain ⟨final, read, scheme, netloc, path⟩ := put
        { split with
          netloc := based.netloc
          path := joinedPath (splitParams based.path).1 (splitParams split.path).1 }
        (splitParams split.path).2 same accepted netloc
        (fun c member => safe c (List.mem_append_left _ member))
        (forall_joinedPath (by decide)
          (fun c member => clean c (subset_splitParams (List.mem_append_left _ member)))
          fun c member => clean' c (subset_splitParams (List.mem_append_left _ member))) params
      refine ⟨final, ?_, scheme, fun host => absurd remote host, fun _ => netloc,
        fun _ both => absurd both empty, fun _ _ => path⟩
      rw [joinParts]
      dsimp only
      rwa [if_neg (not_not.mpr remote), if_neg empty]
  · obtain ⟨final, read, scheme, netloc, path⟩ := put
      { split with path := (splitParams split.path).1 } (splitParams split.path).2 same accepted'
      netloc' (fun c member => safe' c (List.mem_append_left _ member))
      (fun c member => clean' c (subset_splitParams (List.mem_append_left _ member))) params
    refine ⟨final, ?_, scheme, fun _ => path, fun none => absurd none remote,
      fun none => absurd none remote, fun none => absurd none remote⟩
    rw [joinParts]
    dsimp only
    rwa [if_pos remote]

/-- A base and a relative path of which nothing is lost lead to the segments of both. -/
theorem Kept.route (kept : Kept based.path relative) (present : relative ≠ [])
    (start : relative.head? ≠ some '/') (http : IsHttp based.scheme) (host : based.netloc ≠ [])
    (read : urlsplit refused [] base = some based) (query : ∀ c ∈ more.head?, c = '?')
    (joined : urljoin refused base relative = some url) :
    ∃ final, urlsplit refused [] (url ++ more) = some final ∧ final.scheme = based.scheme ∧
      final.netloc = based.netloc ∧ segmentsOf final.path = routed based.path relative := by
  obtain ⟨plain, base', inner, lastPlain, lastParams⟩ := kept
  obtain ⟨accepted, netloc, safe, marks⟩ := clean_of_urlsplit read
  have own : based.scheme ≠ [] := by
    intro empty
    rw [empty] at http
    rcases http with none | none <;> cases none
  have slashed := (reads_of_urlsplit read host own).path.1
  obtain ⟨front, last, parts, parts', params, _, _⟩ := splitParams_spec relative
  have dropped : (splitPath relative).dropLast = front := by rw [parts, List.dropLast_concat]
  have lastOf : (splitPath relative).getLastD [] = last := by rw [parts, List.getLastD_concat]
  rw [dropped] at inner
  rw [lastOf] at lastPlain lastParams
  have whole : (cut ';' last).1 ++ attach ';' (cut ';' last).2 = last :=
    (cut_attach ';' last).resolve_right fun both => lastParams both.1 both.2
  have full : ¬((splitParams relative).1 = [] ∧ (splitParams relative).2 = []) := by
    rintro ⟨noPath, noParams⟩
    rw [noPath] at parts'
    have single : front ++ [(cut ';' last).1] = [] ++ [[]] := parts'.symm
    obtain ⟨noFront, noLast⟩ := List.append_inj' single rfl
    rw [params] at noParams
    rw [List.singleton_inj.mp noLast, noParams, attach, if_pos rfl] at whole
    rw [noFront, ← whole] at parts
    apply present
    rw [← joinPath_splitPath relative, parts]
    rfl
  have clean (segment : List Char) (member : segment ∈ front) : '/' ∉ segment :=
    slash_notMem_of_mem_splitPath (parts ▸ List.mem_append_left _ member)
  obtain ⟨middle, squeezed, same, slashFree, _⟩ := squeeze_directory (cut ';' last).1 clean slashed
  rw [← parts'] at squeezed
  have start' : (splitParams relative).1.head? ≠ some '/' := by
    obtain ⟨rest, split⟩ := prefix_splitParams relative
    intro slash
    rw [← split, List.head?_append, slash] at start
    exact start rfl
  have dots : ∀ segment ∈ middle ++ [(cut ';' last).1], ¬IsDots segment := by
    intro segment member
    rw [same] at member
    rcases List.mem_append.mp member with member | member
    · rcases List.mem_append.mp member with member | member
      · exact base' segment member
      · exact inner segment (List.mem_filter.mp member).1
    · rw [List.mem_singleton.mp member]
      exact lastPlain
  rw [urljoin, if_neg present, read] at joined
  obtain ⟨split, read', joined⟩ := Option.map_eq_some_iff.mp joined
  obtain rfl := urlsplit_relative plain start read'
  rw [if_neg (not_not.mpr rfl)] at joined
  obtain ⟨final, final', scheme, _, netloc, _, path⟩ := read_joinParts http read read' rfl query
  refine ⟨final, joined ▸ final', scheme, netloc rfl, ?_⟩
  rw [path rfl full, absolute_joined start' squeezed dots, params, whole, segmentsOf,
    splitPath_joinPath ?_ (List.cons_ne_nil _ _), routed, dropped, lastOf, List.tail_cons, same,
    List.append_assoc]
  intro segment member
  rcases List.mem_cons.mp member with rfl | member
  · simp
  · rcases List.mem_append.mp member with member | member
    · exact slashFree segment member
    · rw [List.mem_singleton.mp member]
      exact slash_notMem_of_mem_splitPath (parts ▸ List.mem_append_right _ (List.mem_singleton_self _))

theorem weight_joinedPath (basePath path : List Char) :
    weight (joinedPath basePath path) = total (resolve (joinedSegments basePath path)) := by
  have clean : ∀ segment ∈ resolve (joinedSegments basePath path), '/' ∉ segment := by
    intro segment member
    refine slash_notMem_of_mem_resolve (fun segment member => ?_) member
    rw [joinedSegments] at member
    split at member
    · exact slash_notMem_of_mem_splitPath member
    · rcases mem_squeeze member with member | rfl
      · rcases List.mem_append.mp member with member | member
        · exact slash_notMem_of_mem_splitPath (mem_directory member)
        · exact slash_notMem_of_mem_splitPath member
      · simp
  rw [joinedPath]
  split
  next empty =>
    have none := weight_joinPath clean
    rw [empty] at none
    rw [← none]
    rfl
  next => exact weight_joinPath clean

theorem scheme_of_urlsplit (read : urlsplit refused default url = some split) :
    split.scheme = (splitScheme default (sanitize url)).1 := by
  rw [urlsplit] at read
  dsimp only at read
  split at read
  next => cases read
  next => cases read; rfl

/-- A joined URL has no more characters than its parts, and as many only when nothing is lost. -/
theorem kept_of_weight (present : relative ≠ []) (start : relative.head? ≠ some '/')
    (http : IsHttp based.scheme) (host : based.netloc ≠ [])
    (read : urlsplit refused [] base = some based) (query : ∀ c ∈ more.head?, c = '?')
    (joined : urljoin refused base relative = some url)
    (final' : urlsplit refused [] (url ++ more) = some final) (same : final.scheme = based.scheme)
    (enough : weight based.path + weight relative ≤ weight final.path) :
    Kept based.path relative := by
  have own : based.scheme ≠ [] := by
    intro empty
    rw [empty] at http
    rcases http with none | none <;> cases none
  have slashed := (reads_of_urlsplit read host own).path.1
  rw [urljoin, if_neg present, read] at joined
  obtain ⟨split, read', joined⟩ := Option.map_eq_some_iff.mp joined
  obtain ⟨few, whole⟩ := weight_path read'
  obtain ⟨front, last, parts, parts', params, few', lastParams⟩ := splitParams_spec split.path
  by_cases schemes : split.scheme = based.scheme
  · rw [if_neg (not_not.mpr schemes)] at joined
    obtain ⟨final'', read'', _, remote, _, empty, path⟩ := read_joinParts http read read' schemes query
    rw [joined, final'] at read''
    obtain rfl := Option.some.inj read''
    -- what is read of the relative part is never more than all of it
    have plain (enough' : weight relative ≤ weight split.path) : Relative relative ∧
        split.path = relative ∧ split.netloc = [] := by
      have plain := whole enough' start
      have same := urlsplit_relative plain start read'
      exact ⟨plain, by rw [same], by rw [same]⟩
    by_cases located : split.netloc = []
    · by_cases nothing : (splitParams split.path).1 = [] ∧ (splitParams split.path).2 = []
      · rw [empty located nothing, weight_absolute, weight_append] at enough
        obtain ⟨_, _, _, _, _, fewer, _⟩ := splitParams_spec based.path
        have zero : weight relative = 0 := by omega
        have slashes := List.countP_eq_zero.mp zero
        cases relative with
        | nil => exact absurd rfl present
        | cons c rest =>
            have slash : c = '/' := by simpa using slashes c List.mem_cons_self
            exact absurd (by rw [slash]; rfl) start
      · rw [path located nothing, weight_absolute, weight_append, weight_joinedPath] at enough
        by_cases rooted : (splitParams split.path).1.head? = some '/'
        · have less := total_resolve_le (joinedSegments (splitParams based.path).1
            (splitParams split.path).1)
          rw [joinedSegments, if_pos rooted, total_splitPath] at less
          rw [joinedSegments, if_pos rooted] at enough
          obtain ⟨rest, text⟩ := prefix_splitParams split.path
          rw [← (plain (by omega)).2.1, ← text, List.head?_append, rooted] at start
          exact absurd rfl start
        · have clean (segment : List Char) (member : segment ∈ front) : '/' ∉ segment :=
            slash_notMem_of_mem_splitPath (parts ▸ List.mem_append_left _ member)
          obtain ⟨middle, squeezed, same', _, fewMiddle⟩ :=
            squeeze_directory (cut ';' last).1 clean slashed
          rw [joinedSegments, if_neg rooted, parts', squeezed] at enough
          have less := total_resolve_le ([] :: (middle ++ [(cut ';' last).1]))
          have weighed := total_splitPath (splitParams split.path).1
          rw [parts', total_append] at weighed
          rw [total_cons, total_append] at less
          have dots := @not_isDots_of_total ([] :: (middle ++ [(cut ';' last).1])) (by
            rw [total_cons, total_append]
            simp only [List.length_nil] at less ⊢
            omega)
          simp only [List.length_nil] at less
          obtain ⟨relative', path', _⟩ := plain (by omega)
          have params' := lastParams (by omega)
          rw [path'] at parts
          have dropped : (splitPath relative).dropLast = front := by rw [parts, List.dropLast_concat]
          have lastOf : (splitPath relative).getLastD [] = last := by
            rw [parts, List.getLastD_concat]
          have inside (segment : List Char)
              (member : segment ∈ baseSegments based.path ++ front.filter (· ≠ [])) :
              ¬IsDots segment :=
            dots segment (List.mem_cons_of_mem _ (List.mem_append_left _ (same' ▸ member)))
          refine ⟨relative', fun segment member => inside segment (List.mem_append_left _ member),
            fun segment member => ?_, ?_, ?_⟩
          · rw [dropped] at member
            by_cases empty' : segment = []
            · simp [empty', IsDots]
            · exact inside segment
                (List.mem_append_right _ (List.mem_filter.mpr ⟨member, by simp [empty']⟩))
          · rw [lastOf]
            exact dots _ (List.mem_cons_of_mem _ (List.mem_append_right _ (List.mem_singleton_self _)))
          · rw [lastOf]
            exact params'
    · rw [remote located, weight_absolute, weight_append] at enough
      exact absurd (plain (by omega)).2.2 located
  · rw [if_pos schemes] at joined
    rw [← joined] at final'
    have has : HasScheme (sanitize relative) := by
      by_contra plain
      apply schemes
      rw [scheme_of_urlsplit read', splitScheme_of_not plain]
    obtain ⟨name, rest, text, isScheme, own'⟩ := splitScheme_of_hasScheme has
    have first : split.scheme = name.map Char.toLower := by rw [scheme_of_urlsplit read', own']
    have later : final.scheme = name.map Char.toLower := by
      rw [scheme_of_urlsplit final', sanitize_append (by simp [text]), text, List.append_assoc,
        List.cons_append, splitScheme_append isScheme]
    exact absurd (first.trans (later.symm.trans same)) schemes

/-- Segments without empty ones among the first are those of the base and of the template. -/
theorem eq_of_filter {base front segments : List (List Char)} {last : List Char} {count : Nat}
    (full : ∀ segment ∈ base, segment ≠ [])
    (same : base ++ (front.filter (· ≠ []) ++ [last]) =
      segments ++ (List.replicate count [] ++ (front ++ [last]))) :
    count = 0 ∧ (∀ segment ∈ front, segment ≠ []) ∧ base = segments := by
  rw [← List.append_assoc, ← List.append_assoc, ← List.append_assoc] at same
  have inner := (List.append_inj' same rfl).1
  have full' : ∀ segment ∈ base ++ front.filter (· ≠ []), segment ≠ [] := by
    intro segment member
    rcases List.mem_append.mp member with member | member
    · exact full segment member
    · simpa using (List.mem_filter.mp member).2
  rw [inner] at full'
  have none : count = 0 := by
    by_contra some
    refine full' [] ?_ rfl
    apply List.mem_append_left
    apply List.mem_append_right
    exact List.mem_replicate.mpr ⟨some, rfl⟩
  have front' : ∀ segment ∈ front, segment ≠ [] :=
    fun segment member => full' segment (List.mem_append_right _ member)
  refine ⟨none, front', ?_⟩
  rw [none, List.replicate_zero, List.append_nil,
    List.filter_eq_self.mpr fun segment member => decide_eq_true (front' segment member)] at inner
  exact List.append_cancel_right inner

theorem Kept.not_isDots (kept : Kept path relative) :
    ∀ segment ∈ splitPath relative, ¬IsDots segment := by
  have present : splitPath relative ≠ [] := List.splitOn_ne_nil _ _
  intro segment member
  rw [← List.dropLast_append_getLast present] at member
  rcases List.mem_append.mp member with member | member
  · exact kept.inner segment member
  · have last : (splitPath relative).getLastD [] = segment := by
      rw [List.mem_singleton.mp member, List.getLastD_eq_getLast?,
        List.getLast?_eq_some_getLast present]
      rfl
    intro dots
    have clean : ';' ∉ segment := by
      rcases dots with rfl | rfl <;> decide
    have whole := kept.last
    rw [last, cut_of_notMem clean] at whole
    exact whole dots

/-- A route of which nothing is lost has no dot segments. -/
theorem Kept.resolve_routed (kept : Kept path relative) :
    resolve (routed path relative) = routed path relative := by
  have present : splitPath relative ≠ [] := List.splitOn_ne_nil _ _
  apply resolve_of_not_isDots
  intro segment member
  rcases List.mem_append.mp member with member | member
  · exact kept.base segment member
  · apply kept.not_isDots segment
    rw [← List.dropLast_append_getLast present]
    rcases List.mem_append.mp member with member | member
    · exact List.mem_append_left _ (List.mem_filter.mp member).1
    · apply List.mem_append_right
      rwa [List.getLastD_eq_getLast?, List.getLast?_eq_some_getLast present] at member

theorem total_segmentsOf_le (path : List Char) : total (segmentsOf path) ≤ weight path := by
  rw [← total_splitPath, segmentsOf]
  cases splitPath path with
  | nil => exact Nat.le_refl _
  | cons first rest =>
      rw [List.tail_cons, total_cons]
      exact Nat.le_add_left _ _

/-- A URL that leads to some segments and those of the relative path has lost nothing. -/
theorem kept_of_routed {before : List (List Char)} {count : Nat} (present : relative ≠ [])
    (start : relative.head? ≠ some '/') (http : IsHttp based.scheme) (host : based.netloc ≠ [])
    (read : urlsplit refused [] base = some based) (query : ∀ c ∈ more.head?, c = '?')
    (joined : urljoin refused base relative = some url)
    (final' : urlsplit refused [] (url ++ more) = some final) (same : final.scheme = based.scheme)
    (weighed : total before = weight based.path)
    (routes : resolve (segmentsOf final.path) =
      before ++ (List.replicate count [] ++ splitPath relative)) :
    Kept based.path relative ∧ count = 0 ∧
      (∀ segment ∈ (splitPath relative).dropLast, segment ≠ []) ∧
      baseSegments based.path = before := by
  have empties : total (List.replicate count ([] : List Char)) = 0 :=
    total_eq_zero.mpr fun segment member => (List.mem_replicate.mp member).2
  have resolved := total_resolve_le (segmentsOf final.path)
  rw [routes, total_append, total_append, empties, total_splitPath, weighed] at resolved
  have segments := total_segmentsOf_le final.path
  have kept := kept_of_weight present start http host read query joined final' same (by omega)
  obtain ⟨other, read', _, _, route⟩ := kept.route present start http host read query joined
  obtain rfl := Option.some.inj (final'.symm.trans read')
  rw [route, kept.resolve_routed] at routes
  have parts : splitPath relative ≠ [] := List.splitOn_ne_nil _ _
  have whole : splitPath relative =
      (splitPath relative).dropLast ++ [(splitPath relative).getLastD []] := by
    rw [List.getLastD_eq_getLast?, List.getLast?_eq_some_getLast parts]
    exact (List.dropLast_append_getLast parts).symm
  have full : ∀ segment ∈ baseSegments based.path, segment ≠ [] :=
    fun segment member => by simpa using (List.mem_filter.mp member).2
  rw [routed] at routes
  rw [whole] at routes
  exact ⟨kept, eq_of_filter full (by simpa using routes)⟩

end

end CapabilityHub.Url
