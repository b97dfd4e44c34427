import CapabilityHub.Text.UrlWeight

/-! # What a joined URL is read as -/

namespace CapabilityHub.Url

variable {refused : List Char → Bool} {default text url path name netloc rest : List Char}
  {split : SplitResult} {mark : Char}

/-! ## Parts of a URL -/

theorem weight_sanitize_le (url : List Char) : weight (sanitize url) ≤ weight url :=
  weight_le_of_sublist (List.filter_sublist.trans (List.dropWhile_sublist _))

theorem filter_of_weight (kept : weight text ≤ weight (text.filter (!isUnsafe ·))) :
    text.filter (!isUnsafe ·) = text := by
  induction text with
  | nil => rfl
  | cons c text ih =>
      have less : weight (text.filter (!isUnsafe ·)) ≤ weight text :=
        weight_le_of_sublist List.filter_sublist
      by_cases bad : isUnsafe c = true
      · have different : c ≠ '/' := by
          rintro rfl
          exact absurd bad (by decide)
        rw [List.filter_cons_of_neg (by simp [bad]), weight_cons_of_ne different] at kept
        omega
      · have good : (c :: text).filter (!isUnsafe ·) = c :: text.filter (!isUnsafe ·) := by
          simp [bad]
        rw [good, weight_cons, weight_cons] at kept
        rw [good, ih (by omega)]

theorem sanitize_of_weight (kept : weight url ≤ weight (sanitize url)) : sanitize url = url := by
  have start : url.dropWhile isSpace = url := by
    cases url with
    | nil => rfl
    | cons c rest =>
        by_cases blank : isSpace c = true
        · have different : c ≠ '/' := by
            rintro rfl
            exact absurd blank (by decide)
          have less : weight (sanitize (c :: rest)) ≤ weight rest := by
            rw [sanitize, List.dropWhile_cons_of_pos blank]
            exact weight_sanitize_le rest
          rw [weight_cons_of_ne different] at kept
          omega
        · exact List.dropWhile_cons_of_neg blank
  rw [sanitize, start] at kept ⊢
  exact filter_of_weight kept

theorem isUnsafe_of_mem_sanitize {c : Char} (member : c ∈ sanitize url) : isUnsafe c = false := by
  simpa using (List.mem_filter.mp member).2

/-- A text that starts with a scheme. -/
def HasScheme (url : List Char) : Prop := ':' ∈ url ∧ IsScheme (url.takeWhile (· ≠ ':'))

instance : Decidable (HasScheme url) :=
  inferInstanceAs (Decidable (':' ∈ url ∧ IsScheme (url.takeWhile (· ≠ ':'))))

theorem splitScheme_of_not (plain : ¬HasScheme url) : splitScheme default url = (default, url) :=
  if_neg plain

theorem takeWhile_ne_append (notMem : mark ∉ name) (rest : List Char) :
    (name ++ mark :: rest).takeWhile (· ≠ mark) = name := by
  rw [List.takeWhile_append_of_pos (by
    intro c member
    simpa using fun same : c = mark => notMem (same ▸ member))]
  simp

theorem dropWhile_ne_append (notMem : mark ∉ name) (rest : List Char) :
    (name ++ mark :: rest).dropWhile (· ≠ mark) = mark :: rest := by
  rw [List.dropWhile_append_of_pos (by
    intro c member
    simpa using fun same : c = mark => notMem (same ▸ member))]
  simp

theorem exists_of_mem (member : mark ∈ text) :
    ∃ front rest, text = front ++ mark :: rest ∧ mark ∉ front := by
  induction text with
  | nil => cases member
  | cons c text ih =>
      by_cases same : c = mark
      · exact ⟨[], text, by rw [same]; rfl, by simp⟩
      · rcases List.mem_cons.mp member with here | later
        · exact absurd here.symm same
        · obtain ⟨front, rest, split, notMem⟩ := ih later
          refine ⟨c :: front, rest, by rw [split]; rfl, ?_⟩
          simpa [notMem] using fun here : mark = c => same here.symm

theorem colon_notMem_of_isScheme (scheme : IsScheme name) : ':' ∉ name :=
  fun member => absurd (List.all_eq_true.mp scheme.2 ':' member) (by decide)

theorem splitScheme_append (scheme : IsScheme name) (rest : List Char) :
    splitScheme default (name ++ ':' :: rest) = (name.map Char.toLower, rest) := by
  have notMem := colon_notMem_of_isScheme scheme
  have has : ':' ∈ name ++ ':' :: rest ∧ IsScheme ((name ++ ':' :: rest).takeWhile (· ≠ ':')) := by
    rw [takeWhile_ne_append notMem]
    exact ⟨by simp, scheme⟩
  rw [splitScheme, if_pos has, takeWhile_ne_append notMem, dropWhile_ne_append notMem]
  rfl

/-- The scheme of a text is in front of its first colon. -/
theorem splitScheme_of_hasScheme (has : HasScheme url) : ∃ name rest, url = name ++ ':' :: rest ∧
    IsScheme name ∧ ∀ default, splitScheme default url = (name.map Char.toLower, rest) := by
  obtain ⟨name, rest, rfl, notMem⟩ := exists_of_mem has.1
  have scheme := has.2
  rw [takeWhile_ne_append notMem] at scheme
  exact ⟨name, rest, rfl, scheme, fun default => splitScheme_append scheme rest⟩

theorem cut_of_notMem (notMem : mark ∉ text) : cut mark text = (text, []) := by
  have all : ∀ c ∈ text, decide (c ≠ mark) = true := by
    intro c member
    simpa using fun same : c = mark => notMem (same ▸ member)
  rw [cut, List.takeWhile_eq_self_iff.mpr all, List.dropWhile_eq_nil_iff.mpr all]
  rfl

theorem cut_append (notMem : mark ∉ name) (rest : List Char) :
    cut mark (name ++ mark :: rest) = (name, rest) := by
  rw [cut, takeWhile_ne_append notMem, dropWhile_ne_append notMem]
  rfl

theorem notMem_cut (mark : Char) (text : List Char) : mark ∉ (cut mark text).1 := by
  intro member
  simpa using List.mem_takeWhile_imp member

theorem sublist_cut (mark : Char) (text : List Char) : (cut mark text).1.Sublist text :=
  List.takeWhile_sublist _

theorem notMem_of_weight_cut (different : mark ≠ '/')
    (kept : weight text ≤ weight (cut mark text).1) : mark ∉ text := by
  intro member
  obtain ⟨front, rest, rfl, notMem⟩ := exists_of_mem member
  rw [cut_append notMem, weight_append, weight_cons_of_ne different] at kept
  dsimp only at kept
  omega

theorem splitNetloc_cases (text : List Char) :
    (∃ netloc rest, text = '/' :: '/' :: (netloc ++ rest) ∧ (∀ c ∈ netloc, inNetloc c = true) ∧
        (∀ c ∈ rest.head?, inNetloc c = false) ∧ splitNetloc text = (netloc, rest)) ∨
      splitNetloc text = ([], text) := by
  unfold splitNetloc
  split
  next rest =>
    refine .inl ⟨rest.takeWhile inNetloc, rest.dropWhile inNetloc, ?_, ?_, ?_, rfl⟩
    · rw [List.takeWhile_append_dropWhile]
    · exact fun c member => List.mem_takeWhile_imp member
    · intro c found
      have head := List.head?_dropWhile_not inNetloc rest
      rw [Option.mem_def.mp found] at head
      simpa using head
  next => exact .inr rfl

/-- What is read as a path, without anything else. -/
structure Relative (text : List Char) : Prop where
  clean : sanitize text = text
  noScheme : ¬HasScheme text
  noFragment : '#' ∉ text
  noQuery : '?' ∉ text

/-- A path has no characters of its own, and those of all the text only where the text is a path. -/
theorem weight_path (read : urlsplit refused default url = some split) :
    weight split.path ≤ weight url ∧
      (weight url ≤ weight split.path → url.head? ≠ some '/' → Relative url) := by
  have cleaned := weight_sanitize_le url
  have schemed : weight (splitScheme default (sanitize url)).2 ≤ weight (sanitize url) ∧
      (weight (sanitize url) ≤ weight (splitScheme default (sanitize url)).2 →
        ¬HasScheme (sanitize url)) := by
    by_cases has : HasScheme (sanitize url)
    · obtain ⟨name, rest, split, _, same⟩ := splitScheme_of_hasScheme has
      have fewer : weight rest < weight (name ++ ':' :: rest) := by
        rw [weight_append, weight_cons_of_ne (by decide)]
        omega
      rw [same, split]
      exact ⟨fewer.le, fun kept => absurd fewer (not_lt.mpr kept)⟩
    · rw [splitScheme_of_not has]
      exact ⟨Nat.le_refl _, fun _ => has⟩
  generalize schemeEq : splitScheme default (sanitize url) = parts at schemed
  obtain ⟨scheme, rest⟩ := parts
  have located : weight (splitNetloc rest).2 ≤ weight rest := by
    rcases splitNetloc_cases rest with ⟨netloc, left, same, _, _, parted⟩ | parted
    · rw [parted, same, weight_slash, weight_slash, weight_append]
      exact Nat.le_add_left _ _
    · rw [parted]
  have cutOnce := weight_le_of_sublist (sublist_cut '#' (splitNetloc rest).2)
  have cutTwice := weight_le_of_sublist (sublist_cut '?' (cut '#' (splitNetloc rest).2).1)
  have same : split.path = (cut '?' (cut '#' (splitNetloc rest).2).1).1 := by
    rw [urlsplit, schemeEq] at read
    dsimp only at read
    split at read
    next => cases read
    next => cases read; rfl
  dsimp only at schemed
  rw [same]
  refine ⟨by omega, fun kept start => ?_⟩
  have clean : sanitize url = url := sanitize_of_weight (by omega)
  have plain := schemed.2 (by omega)
  rw [clean] at plain schemeEq
  rw [splitScheme_of_not plain] at schemeEq
  cases schemeEq
  have local' : splitNetloc url = ([], url) := by
    rcases splitNetloc_cases url with ⟨netloc, left, slashes, _⟩ | parted
    · rw [slashes] at start
      exact absurd rfl start
    · exact parted
  rw [local'] at kept cutOnce cutTwice
  have noFragment : '#' ∉ url := notMem_of_weight_cut (by decide) (kept.trans cutTwice)
  rw [cut_of_notMem noFragment] at kept
  exact ⟨clean, plain, noFragment, notMem_of_weight_cut (by decide) kept⟩

theorem urlsplit_relative (relative : Relative url) (start : url.head? ≠ some '/')
    (read : urlsplit refused default url = some split) : split = ⟨default, [], url, [], []⟩ := by
  have local' : splitNetloc url = ([], url) := by
    rcases splitNetloc_cases url with ⟨netloc, left, slashes, _⟩ | parted
    · rw [slashes] at start
      exact absurd rfl start
    · exact parted
  rw [urlsplit, relative.clean, splitScheme_of_not relative.noScheme] at read
  dsimp only at read
  rw [local', cut_of_notMem relative.noFragment] at read
  dsimp only at read
  rw [cut_of_notMem relative.noQuery] at read
  split at read
  next => cases read
  next => cases read; rfl

/-! ## URLs with a network location -/

/-- The text of a URL with a scheme, a network location and a path. -/
structure Reads (refused : List Char → Bool) (text scheme netloc path : List Char) : Prop where
  accepted : refused netloc = false
  parts : ∃ name tail, IsScheme name ∧ name.map Char.toLower = scheme ∧
    text = name ++ ':' :: '/' :: '/' :: (netloc ++ (path ++ tail)) ∧
    ∀ c ∈ tail.head?, c = '?' ∨ c = '#'
  netloc : ∀ c ∈ netloc, inNetloc c = true
  path : (∀ c ∈ path.head?, c = '/') ∧ '?' ∉ path ∧ '#' ∉ path

theorem takeWhile_inNetloc_append (inside : ∀ c ∈ netloc, inNetloc c = true)
    (outside : ∀ c ∈ rest.head?, inNetloc c = false) :
    (netloc ++ rest).takeWhile inNetloc = netloc ∧ (netloc ++ rest).dropWhile inNetloc = rest := by
  rw [List.takeWhile_append_of_pos inside, List.dropWhile_append_of_pos inside]
  cases rest with
  | nil => exact ⟨List.append_nil _, rfl⟩
  | cons c rest =>
      have stop : ¬inNetloc c = true := by simp [outside c rfl]
      rw [List.takeWhile_cons_of_neg stop, List.dropWhile_cons_of_neg stop]
      exact ⟨List.append_nil _, rfl⟩

theorem cut_path {tail : List Char} (noQuery : '?' ∉ path) (noFragment : '#' ∉ path)
    (start : ∀ c ∈ tail.head?, c = '?' ∨ c = '#') :
    (cut '?' (cut '#' (path ++ tail)).1).1 = path := by
  cases tail with
  | nil => rw [List.append_nil, cut_of_notMem noFragment, cut_of_notMem noQuery]
  | cons c tail =>
      rcases start c rfl with rfl | rfl
      · by_cases more : '#' ∈ tail
        · obtain ⟨front, rest, rfl, notMem⟩ := exists_of_mem more
          have notMem' : '#' ∉ path ++ '?' :: front := by simp [noFragment, notMem]
          rw [← List.cons_append, ← List.append_assoc, cut_append notMem', cut_append noQuery]
        · have notMem : '#' ∉ path ++ '?' :: tail := by simp [noFragment, more]
          rw [cut_of_notMem notMem, cut_append noQuery]
      · rw [cut_append noFragment, cut_of_notMem noQuery]

theorem Reads.urlsplit {scheme : List Char} (reads : Reads refused (sanitize url) scheme netloc path)
    (default : List Char) : ∃ split, urlsplit refused default url = some split ∧
      split.scheme = scheme ∧ split.netloc = netloc ∧ split.path = path := by
  obtain ⟨name, tail, isScheme, same, text, start⟩ := reads.parts
  have outside : ∀ c ∈ (path ++ tail).head?, inNetloc c = false := by
    intro c found
    cases path with
    | nil => rcases start c found with rfl | rfl <;> decide
    | cons first path =>
        obtain rfl := reads.path.1 first rfl
        cases found
        decide
  obtain ⟨taken, dropped⟩ := takeWhile_inNetloc_append reads.netloc outside
  have computed : Url.urlsplit refused default url = some
      ⟨scheme, netloc, (cut '?' (cut '#' (path ++ tail)).1).1, (cut '?' (cut '#' (path ++ tail)).1).2,
        (cut '#' (path ++ tail)).2⟩ := by
    rw [Url.urlsplit, text, splitScheme_append isScheme, same]
    dsimp only
    rw [splitNetloc, taken, dropped]
    dsimp only
    rw [if_neg (by simp [reads.accepted])]
  exact ⟨_, computed, rfl, rfl, cut_path reads.path.2.1 reads.path.2.2 start⟩

theorem cut_spec (mark : Char) (text : List Char) :
    ∃ tail, text = (cut mark text).1 ++ tail ∧ ∀ c ∈ tail.head?, c = mark := by
  refine ⟨text.dropWhile (· ≠ mark), List.takeWhile_append_dropWhile.symm, fun c found => ?_⟩
  have head := List.head?_dropWhile_not (· ≠ mark) text
  rw [Option.mem_def.mp found] at head
  simpa using head

theorem reads_of_urlsplit (read : urlsplit refused default url = some split)
    (host : split.netloc ≠ []) (own : split.scheme ≠ default) :
    Reads refused (sanitize url) split.scheme split.netloc split.path := by
  have has : HasScheme (sanitize url) := by
    by_contra plain
    rw [urlsplit, splitScheme_of_not plain] at read
    dsimp only at read
    split at read
    next => cases read
    next => cases read; exact own rfl
  obtain ⟨name, rest, text, isScheme, schemes⟩ := splitScheme_of_hasScheme has
  rw [urlsplit, schemes default] at read
  dsimp only at read
  split at read
  next => cases read
  next accepted =>
    cases read
    dsimp only at host
    rcases splitNetloc_cases rest with ⟨netloc, left, slashes, inside, outside, parted⟩ | parted
    · rw [parted] at accepted ⊢
      obtain ⟨last, cutOnce, startOnce⟩ := cut_spec '#' left
      obtain ⟨middle, cutTwice, startTwice⟩ := cut_spec '?' (cut '#' left).1
      have text' : left = (cut '?' (cut '#' left).1).1 ++ (middle ++ last) := by
        rw [← List.append_assoc, ← cutTwice, ← cutOnce]
      refine ⟨by simpa using accepted, ⟨name, middle ++ last, isScheme, rfl, ?_, ?_⟩, inside, ?_, ?_, ?_⟩
      · rw [text, slashes, ← text']
      · intro c found
        cases middle with
        | nil => exact .inr (startOnce c found)
        | cons first middle => exact .inl (startTwice c found)
      · intro c found
        have found' : c ∈ left.head? := by
          rw [text', List.head?_append, Option.mem_def.mp found]
          rfl
        have outside' := outside c found'
        have noFragment : c ≠ '#' := by
          rintro rfl
          exact notMem_cut '#' left ((sublist_cut '?' _).subset (List.mem_of_head? found))
        have noQuery : c ≠ '?' := by
          rintro rfl
          exact notMem_cut '?' _ (List.mem_of_head? found)
        simpa [inNetloc, noFragment, noQuery] using outside'
      · exact notMem_cut '?' _
      · exact fun member => notMem_cut '#' left ((sublist_cut '?' _).subset member)
    · rw [parted] at host
      exact absurd rfl host

theorem Reads.append {scheme more : List Char} (reads : Reads refused text scheme netloc path)
    (query : ∀ c ∈ more.head?, c = '?') : Reads refused (text ++ more) scheme netloc path := by
  obtain ⟨name, tail, isScheme, same, text', start⟩ := reads.parts
  refine ⟨reads.accepted, ⟨name, tail ++ more, isScheme, same, by simp [text'], fun c found => ?_⟩,
    reads.netloc, reads.path⟩
  cases tail with
  | nil => exact .inl (query c found)
  | cons first tail => exact start c found

theorem sanitize_append (present : sanitize url ≠ []) (more : List Char) :
    sanitize (url ++ more) = sanitize url ++ more.filter (!isUnsafe ·) := by
  have started : ¬(url.dropWhile isSpace).isEmpty = true := by
    intro empty
    rw [sanitize, List.isEmpty_iff.mp empty] at present
    exact present rfl
  rw [sanitize, List.dropWhile_append, if_neg started, List.filter_append]
  rfl

theorem head?_filter_query {more : List Char} (query : ∀ c ∈ more.head?, c = '?') :
    ∀ c ∈ (more.filter (!isUnsafe ·)).head?, c = '?' := by
  cases more with
  | nil => exact query
  | cons first more =>
      obtain rfl := query first rfl
      intro c found
      exact (Option.some.inj found).symm

theorem Reads.ne_nil {scheme : List Char} (reads : Reads refused text scheme netloc path) :
    text ≠ [] := by
  obtain ⟨name, tail, _, _, text', _⟩ := reads.parts
  rw [text']
  simp

/-- A query does not change how the rest of a URL is read. -/
theorem Reads.query {scheme more : List Char} (reads : Reads refused (sanitize url) scheme netloc path)
    (query : ∀ c ∈ more.head?, c = '?') :
    Reads refused (sanitize (url ++ more)) scheme netloc path := by
  rw [sanitize_append reads.ne_nil]
  exact reads.append (head?_filter_query query)

/-- The text up to the first mark of a query or a fragment. -/
theorem exists_path (text : List Char) : ∃ path tail, text = path ++ tail ∧
    '?' ∉ path ∧ '#' ∉ path ∧ ∀ c ∈ tail.head?, c = '?' ∨ c = '#' := by
  obtain ⟨last, cutOnce, startOnce⟩ := cut_spec '#' text
  obtain ⟨middle, cutTwice, startTwice⟩ := cut_spec '?' (cut '#' text).1
  refine ⟨(cut '?' (cut '#' text).1).1, middle ++ last, ?_, notMem_cut '?' _,
    fun member => notMem_cut '#' text ((sublist_cut '?' _).subset member), fun c found => ?_⟩
  · rw [← List.append_assoc, ← cutTwice, ← cutOnce]
  · cases middle with
    | nil => exact .inr (startOnce c found)
    | cons first middle => exact .inl (startTwice c found)

theorem eq_of_path_append {path' : List Char} (tail tail' : List Char)
    (noMarks : '?' ∉ path ∧ '#' ∉ path) (noMarks' : '?' ∉ path' ∧ '#' ∉ path')
    (start : ∀ c ∈ tail.head?, c = '?' ∨ c = '#') (start' : ∀ c ∈ tail'.head?, c = '?' ∨ c = '#')
    (same : path ++ tail = path' ++ tail') : path = path' := by
  rw [← cut_path noMarks.1 noMarks.2 start, same, cut_path noMarks'.1 noMarks'.2 start']

theorem sanitize_slashes {slashes : List Char} (all : ∀ c ∈ slashes, c = '/') (url : List Char) :
    sanitize (url ++ slashes) = sanitize url ++ slashes := by
  have safe : slashes.filter (!isUnsafe ·) = slashes := by
    apply List.filter_eq_self.mpr
    intro c member
    rw [all c member]
    decide
  have stays : slashes.dropWhile isSpace = slashes := by
    cases slashes with
    | nil => rfl
    | cons c slashes =>
        obtain rfl := all c List.mem_cons_self
        exact List.dropWhile_cons_of_neg (by decide)
  rw [sanitize, sanitize, List.dropWhile_append]
  split
  next empty => rw [stays, safe, List.isEmpty_iff.mp empty, List.filter_nil, List.nil_append]
  next => rw [List.filter_append, safe]

theorem weight_slashes {slashes : List Char} (all : ∀ c ∈ slashes, c = '/') : weight slashes = 0 :=
  List.countP_eq_zero.mpr fun c member => by simp [all c member]

/-- Slashes at the end of a base have no part in what it is read as, apart from its path. -/
theorem Reads.slash {base scheme : List Char} (host : netloc ≠ [])
    (reads : Reads refused (sanitize base) scheme netloc path) :
    ∃ path', Reads refused (sanitize (base.rdropWhile (· = '/') ++ ['/'])) scheme netloc path' ∧
      weight path' = weight path := by
  obtain ⟨name, tail, isScheme, same, text, start⟩ := reads.parts
  generalize bare : base.rdropWhile (· = '/') = y
  obtain ⟨slashes, split, all⟩ : ∃ slashes, base = y ++ slashes ∧ ∀ c ∈ slashes, c = '/' := by
    refine ⟨base.rtakeWhile (· = '/'), ?_, fun c member => ?_⟩
    · rw [← bare, List.rdropWhile_append_rtakeWhile]
    · simpa using List.mem_rtakeWhile_imp member
  rw [split, sanitize_slashes all] at text
  -- the slashes come after the network location, which ends with another character
  obtain ⟨w, text', rest⟩ : ∃ w, sanitize y = name ++ ':' :: '/' :: '/' :: (netloc ++ w) ∧
      path ++ tail = w ++ slashes := by
    have text' : sanitize y ++ slashes =
        (name ++ ':' :: '/' :: '/' :: netloc) ++ (path ++ tail) := by simp [text]
    rcases List.append_eq_append_iff.mp text' with ⟨e, front, back⟩ | ⟨e, front, back⟩
    · rcases List.eq_nil_or_concat e with rfl | ⟨e, d, rfl⟩
      · exact ⟨[], by simpa using front.symm, by simpa using back.symm⟩
      · obtain ⟨n, c, rfl⟩ := (List.eq_nil_or_concat netloc).resolve_left host
        have ends : (name ++ ':' :: '/' :: '/' :: n) ++ [c] = (sanitize y ++ e) ++ [d] := by
          simpa using front
        have last : c = d := List.singleton_inj.mp (List.append_inj' ends rfl).2
        have slash : d = '/' := all d (by simp [back])
        have inside := reads.netloc c (by simp)
        rw [last, slash] at inside
        cases inside
    · exact ⟨e, by simp [front], back⟩
  obtain ⟨path', tail', split', noQuery, noFragment, start'⟩ := exists_path (w ++ ['/'])
  have first : ∀ c ∈ path'.head?, c = '/' := by
    intro c found
    have found' : c ∈ (w ++ ['/']).head? := by
      rw [split', List.head?_append, Option.mem_def.mp found]
      rfl
    cases w with
    | nil => exact (Option.some.inj found').symm
    | cons first w =>
        obtain rfl := Option.some.inj found'
        cases path with
        | nil =>
            have mark := start first (by rw [List.nil_append] at rest; rw [rest]; rfl)
            rcases mark with rfl | rfl
            · exact absurd (List.mem_of_head? found) noQuery
            · exact absurd (List.mem_of_head? found) noFragment
        | cons other path =>
            obtain rfl := (List.cons.inj rest).1
            exact reads.path.1 _ rfl
  refine ⟨path', ⟨reads.accepted, ⟨name, tail', isScheme, same, ?_, start'⟩, reads.netloc, first,
    noQuery, noFragment⟩, ?_⟩
  · rw [sanitize_slashes (by simp), text', ← split']
    simp
  · obtain ⟨kept, marked, parts, noQuery', noFragment', start''⟩ := exists_path w
    cases marked with
    | nil =>
        have plain (more : List Char) (all : ∀ c ∈ more, c = '/') :
            '?' ∉ w ++ more ∧ '#' ∉ w ++ more := by
          rw [parts, List.append_nil]
          constructor
          · rintro member
            rcases List.mem_append.mp member with member | member
            · exact noQuery' member
            · exact absurd (all _ member) (by decide)
          · rintro member
            rcases List.mem_append.mp member with member | member
            · exact noFragment' member
            · exact absurd (all _ member) (by decide)
        have whole : path = w ++ slashes :=
          eq_of_path_append tail [] reads.path.2 (plain slashes all) start (by simp)
            (by rw [rest, List.append_nil])
        have whole' : path' = w ++ ['/'] :=
          eq_of_path_append tail' [] ⟨noQuery, noFragment⟩ (plain ['/'] (by simp)) start' (by simp)
            (by rw [← split', List.append_nil])
        rw [whole, whole', weight_append, weight_append, weight_slashes all]
        rfl
    | cons mark marked =>
        have whole : path = kept :=
          eq_of_path_append tail (mark :: marked ++ slashes) reads.path.2
            ⟨noQuery', noFragment'⟩ start (by simpa using start'')
            (by rw [rest, parts, List.append_assoc])
        have whole' : path' = kept :=
          eq_of_path_append tail' (mark :: marked ++ ['/']) ⟨noQuery, noFragment⟩
            ⟨noQuery', noFragment'⟩ start' (by simpa using start'')
            (by rw [← split', parts, List.append_assoc])
        rw [whole, whole']

end CapabilityHub.Url
