import CapabilityHub.Providers.Http

/-! # Requests stay on their origin and route

A request of the HTTP provider keeps to the origin of its base and to the segments of its template
exactly when the template, with its arguments, is a plain path
(`CapabilityHub.Providers.keepsRoute_iff`).
-/

namespace CapabilityHub.Providers

open Url

variable {refused : List Char → Bool} (fixture : HttpApiFixture refused) (invocation : HttpInvocation)
  (arguments : Dict String Json)

/-- The segments of the base path. -/
def HttpApiFixture.segments : List (List Char) :=
  segmentsOf (fixture.parsed.path.rdropWhile (· = '/'))

/-- The path of the base that `urljoin` gets. -/
def HttpApiFixture.joinBase : List Char :=
  match urlsplit refused [] (slashed fixture.baseUrl.toList) with
  | some split => split.path
  | none => []

/-- The URL has the scheme, the host and the port of the base and, without dot segments, the segments
of the base and of the template, where each placeholder is some quoted text. -/
structure KeepsRoute (url : List Char) : Prop where
  placeholders : ∀ name, .parameter name ∈ invocation.pieces → ∃ text,
    renderPiece arguments (.parameter name) = .ok text ∧ text ≠ [] ∧
      ∀ c ∈ text, isUnreserved c = true ∨ c = '%'
  route : ∃ split, urlsplit refused [] url = some split ∧ split.scheme = fixture.parsed.scheme ∧
    split.hostinfo = fixture.parsed.hostinfo ∧
    resolve (segmentsOf split.path) = fixture.segments ++ invocation.segments arguments

/-- Whether the template is more than slashes. -/
def HttpInvocation.HasText : Prop := ∃ segment ∈ invocation.segments arguments, segment ≠ []

/-- The template with its arguments is a path that `urljoin` takes as it is. -/
structure PlainRoute : Prop where
  given : ∀ name, .parameter name ∈ invocation.pieces → arguments.get? name ≠ some (.str "")
  dots : ∀ segment ∈ fixture.segments ++ invocation.segments arguments, ¬IsDots segment
  params : ∀ last ∈ (invocation.segments arguments).getLast?, ';' ∈ last →
    ¬IsDots (cut ';' last).1 ∧ (cut ';' last).2 ≠ []
  slashes : ¬invocation.HasText arguments →
    segmentsOf fixture.joinBase = fixture.segments ++ invocation.segments arguments
  base : invocation.HasText arguments → baseSegments fixture.joinBase = fixture.segments
  inner : invocation.HasText arguments →
    ∀ segment ∈ (invocation.segments arguments).dropLast, segment ≠ []
  plain : invocation.HasText arguments → Relative (joinPath (invocation.segments arguments))

section

variable {fixture} {invocation} {arguments} {target : List Char} {texts : List (List Char)}

/-- What `_url` does before it joins the two URLs. -/
theorem url_eq_ok (done : url refused fixture.baseUrl invocation arguments = .ok target) :
    ∃ texts joined more, invocation.pieces.mapM (renderPiece arguments) = .ok texts ∧
      urljoin refused (slashed fixture.baseUrl.toList) (texts.flatten.dropWhile (· = '/')) =
        some joined ∧ target = joined ++ more ∧ ∀ c ∈ more.head?, c = '?' := by
  obtain ⟨texts, rendered, done⟩ := bind_eq_ok.mp done
  obtain ⟨fields, _, done⟩ := bind_eq_ok.mp done
  dsimp only at done
  split at done
  next => cases done
  next joined found =>
    cases done
    refine ⟨texts, joined, _, rendered, found, rfl, fun c member => ?_⟩
    rw [attach] at member
    split at member
    next => cases member
    next => exact (Option.some.inj member).symm

theorem host_ne_nil : fixture.parsed.netloc ≠ [] := by
  intro empty
  apply fixture.host
  rw [SplitResult.hostname, SplitResult.hostinfo, empty]
  rfl

theorem scheme_ne_nil : fixture.parsed.scheme ≠ [] := by
  intro empty
  rcases fixture.http with same | same <;> rw [empty] at same <;> cases same

/-- The base that `urljoin` gets is read as the base URL is, apart from the slashes at its end. -/
theorem reads_slashed : ∃ based, urlsplit refused [] (slashed fixture.baseUrl.toList) = some based ∧
    based.scheme = fixture.parsed.scheme ∧ based.netloc = fixture.parsed.netloc ∧
    based.path = fixture.joinBase ∧ weight based.path = weight fixture.parsed.path ∧
    Reads refused (sanitize (slashed fixture.baseUrl.toList)) based.scheme based.netloc based.path := by
  have reads := reads_of_urlsplit fixture.split host_ne_nil scheme_ne_nil
  obtain ⟨path, reads', same⟩ := reads.slash host_ne_nil
  obtain ⟨based, read, scheme, netloc, path'⟩ := reads'.urlsplit []
  refine ⟨based, read, scheme, netloc, ?_, by rw [path', same], ?_⟩
  · rw [HttpApiFixture.joinBase, slashed, read]
  · rw [scheme, netloc, path']
    exact reads'

theorem scalarText_eq_empty {name : String} {text : String}
    (done : scalarText arguments name = .ok text) :
    text = "" ↔ arguments.get? name = some (.str "") := by
  obtain ⟨value, argued, done⟩ := bind_eq_ok.mp done
  have found : arguments.get? name = some value := by
    rw [argument] at argued
    split at argued
    next => cases argued
    next found =>
      cases argued
      exact found
  rw [found]
  cases value with
  | str other =>
      obtain rfl := Except.ok.inj done
      simp
  | int number =>
      obtain ⟨_, _, same⟩ := bind_eq_ok.mp done
      have text' : toString number = text := Except.ok.inj same
      refine ⟨fun empty => ?_, fun same => by cases same⟩
      have digits := toList_toString_int number
      rw [text', empty] at digits
      split at digits
      · exact absurd digits.symm Nat.toDigits_ne_nil
      · cases digits
  | bool truth =>
      have text' : (if truth then "True" else "False") = text := Except.ok.inj done
      refine ⟨fun empty => ?_, fun same => by cases same⟩
      rw [empty] at text'
      cases truth <;> exact absurd text' (by decide)
  | _ => cases done

/-- The arguments of a request are quoted; only an empty text leaves nothing. -/
theorem placeholder_iff {name : String}
    (rendered : invocation.pieces.mapM (renderPiece arguments) = .ok texts)
    (member : .parameter name ∈ invocation.pieces) :
    (∃ text, renderPiece arguments (.parameter name) = .ok text ∧ text ≠ [] ∧
        ∀ c ∈ text, isUnreserved c = true ∨ c = '%') ↔ arguments.get? name ≠ some (.str "") := by
  obtain ⟨text, done⟩ := exists_mapM_eq_ok.mp ⟨texts, rendered⟩ _ member
  obtain ⟨value, scalar, same⟩ := bind_eq_ok.mp done
  have quoted : Url.quote value = text := Except.ok.inj same
  rw [ne_eq, ← scalarText_eq_empty scalar, ← quote_eq_nil, quoted]
  constructor
  · rintro ⟨other, done', present, _⟩
    rwa [← Except.ok.inj (done.symm.trans done')] at present
  · intro present
    exact ⟨text, done, present, fun c inside => mem_quote (quoted.symm ▸ inside)⟩

/-- The path of a request is a slash and the segments of its template. -/
theorem path_eq (rendered : invocation.pieces.mapM (renderPiece arguments) = .ok texts) :
    splitPath texts.flatten = [] :: invocation.segments arguments := by
  obtain ⟨rest, path⟩ : ∃ rest, invocation.path.toList = '/' :: rest := by
    have rooted := invocation.rooted
    cases text : invocation.path.toList with
    | nil => rw [text] at rooted; cases rooted
    | cons c rest =>
        rw [text] at rooted
        exact ⟨rest, by rw [Option.some.inj rooted]⟩
  have parts : invocation.pieces = .literal '/' :: pieces none rest := by
    rw [HttpInvocation.pieces, path, pieces, if_neg (by decide)]
  have split : invocation.pieces.splitOn (.literal '/') =
      [] :: (pieces none rest).splitOn (.literal '/') := by
    rw [parts, List.splitOn_cons_eq_if_modifyHead, if_pos (by simp)]
  rw [flatten_of_mapM rendered, splitPath_flatMap, HttpInvocation.segments, split]
  rfl

/-! ## The text after the first slashes -/

theorem weight_dropWhile_slash (path : List Char) : weight (path.dropWhile (· = '/')) = weight path := by
  induction path with
  | nil => rfl
  | cons c path ih =>
      by_cases slash : c = '/'
      · rw [slash, List.dropWhile_cons_of_pos (by simp), weight_slash, ih]
      · rw [List.dropWhile_cons_of_neg (by simp [slash])]

/-- Segments of slashes, and those of what comes after them. -/
theorem splitPath_dropWhile (path : List Char) : ∃ count,
    splitPath path = List.replicate count [] ++ splitPath (path.dropWhile (· = '/')) := by
  induction path with
  | nil => exact ⟨0, rfl⟩
  | cons c path ih =>
      by_cases slash : c = '/'
      · obtain ⟨count, same⟩ := ih
        refine ⟨count + 1, ?_⟩
        have step : splitPath (c :: path) = [] :: splitPath path := by
          rw [splitPath, List.splitOn_cons_eq_if_modifyHead, if_pos (by simp [slash])]
          rfl
        rw [List.dropWhile_cons_of_pos (by simp [slash]), step, same, List.replicate_succ]
        rfl
      · refine ⟨0, ?_⟩
        rw [List.dropWhile_cons_of_neg (by simp [slash])]
        rfl

theorem head?_dropWhile_slash (path : List Char) : (path.dropWhile (· = '/')).head? ≠ some '/' := by
  intro slash
  have head := List.head?_dropWhile_not (· = '/') path
  rw [slash] at head
  simp at head

theorem weight_eq_zero_of_slashes {path : List Char} (start : path.head? ≠ some '/')
    (none : weight path = 0) : path = [] := by
  cases path with
  | nil => rfl
  | cons c path =>
      have slash : c = '/' := by simpa using List.countP_eq_zero.mp none c List.mem_cons_self
      exact absurd (by rw [slash]; rfl) start

/-- The template has text exactly when something comes after its first slashes. -/
theorem hasText_iff (rendered : invocation.pieces.mapM (renderPiece arguments) = .ok texts) :
    invocation.HasText arguments ↔ texts.flatten.dropWhile (· = '/') ≠ [] := by
  have weighed := total_splitPath texts.flatten
  rw [path_eq rendered, total_cons, ← weight_dropWhile_slash] at weighed
  constructor
  · rintro ⟨segment, member, present⟩ empty
    rw [empty] at weighed
    have zero : total (invocation.segments arguments) = 0 := by simpa using weighed
    exact present (total_eq_zero.mp zero segment member)
  · intro present
    by_contra none
    apply present
    apply weight_eq_zero_of_slashes (head?_dropWhile_slash _)
    rw [← weighed]
    have zero : total (invocation.segments arguments) = 0 := by
      apply total_eq_zero.mpr
      intro segment member
      by_contra some
      exact none ⟨segment, member, some⟩
    simpa using zero

/-- The base path has the characters of its segments. -/
theorem total_segments : total fixture.segments = weight fixture.parsed.path := by
  have reads := reads_of_urlsplit fixture.split host_ne_nil scheme_ne_nil
  have whole : fixture.parsed.path.rdropWhile (· = '/') ++ fixture.parsed.path.rtakeWhile (· = '/') =
      fixture.parsed.path :=
    List.rdropWhile_append_rtakeWhile
  have slashes : weight (fixture.parsed.path.rtakeWhile (· = '/')) = 0 :=
    weight_slashes fun c member => by simpa using List.mem_rtakeWhile_imp member
  have weighed : weight fixture.parsed.path =
      weight (fixture.parsed.path.rdropWhile (· = '/')) := by
    rw [← whole, weight_append, slashes, whole]
    rfl
  rw [weighed, ← total_splitPath, HttpApiFixture.segments, segmentsOf]
  cases rest : fixture.parsed.path.rdropWhile (· = '/') with
  | nil => rfl
  | cons c rest' =>
      have slash : c = '/' := by
        apply reads.path.1
        rw [← whole, rest]
        rfl
      rw [slash, splitPath, List.splitOn_cons_eq_if_modifyHead, if_pos (by simp), List.tail_cons,
        total_cons]
      exact (Nat.zero_add _).symm

theorem head_splitPath {path : List Char} (present : path ≠ []) (start : path.head? ≠ some '/') :
    ∃ first rest, splitPath path = first :: rest ∧ first ≠ [] := by
  cases path with
  | nil => exact absurd rfl present
  | cons c path =>
      have other : ¬(c == '/') = true := by
        intro same
        rw [beq_iff_eq] at same
        exact start (by rw [same]; rfl)
      rw [splitPath, List.splitOn_cons_eq_if_modifyHead, if_neg other]
      cases parts : path.splitOn '/' with
      | nil => exact absurd parts (List.splitOn_ne_nil _ _)
      | cons first rest => exact ⟨c :: first, rest, rfl, List.cons_ne_nil _ _⟩

/-- The segments of a template with text are some empty ones and those after its first slashes. -/
theorem segments_eq (rendered : invocation.pieces.mapM (renderPiece arguments) = .ok texts)
    (present : texts.flatten.dropWhile (· = '/') ≠ []) : ∃ count, invocation.segments arguments =
      List.replicate count [] ++ splitPath (texts.flatten.dropWhile (· = '/')) := by
  obtain ⟨count, same⟩ := splitPath_dropWhile texts.flatten
  rw [path_eq rendered] at same
  cases count with
  | zero =>
      obtain ⟨first, rest, parts, some⟩ := head_splitPath present (head?_dropWhile_slash _)
      rw [parts] at same
      exact absurd (List.cons.inj same).1.symm some
  | succ count => exact ⟨count, (List.cons.inj same).2⟩

theorem total_invocation (rendered : invocation.pieces.mapM (renderPiece arguments) = .ok texts) :
    total (invocation.segments arguments) = weight (texts.flatten.dropWhile (· = '/')) := by
  have weighed := total_splitPath texts.flatten
  rw [path_eq rendered, total_cons, ← weight_dropWhile_slash] at weighed
  simpa using weighed

end

section

variable {fixture} {invocation} {arguments} {texts : List (List Char)} {relative : List Char}
  {based split : SplitResult}

theorem hostinfo_congr (same : split.netloc = based.netloc) : split.hostinfo = based.hostinfo := by
  rw [SplitResult.hostinfo, SplitResult.hostinfo, same]

theorem getLastD_of_getLast? {segments : List (List Char)} {last : List Char}
    (found : segments.getLast? = some last) : segments.getLastD [] = last := by
  rw [List.getLastD_eq_getLast?, found]
  rfl

/-- Nothing is lost of a path that follows a plain route. -/
theorem plainRoute_of_kept (present : invocation.HasText arguments)
    (given : ∀ name, .parameter name ∈ invocation.pieces → arguments.get? name ≠ some (.str ""))
    (segments : invocation.segments arguments = splitPath relative)
    (kept : Kept fixture.joinBase relative)
    (inner : ∀ segment ∈ (splitPath relative).dropLast, segment ≠ [])
    (base : baseSegments fixture.joinBase = fixture.segments) :
    PlainRoute fixture invocation arguments where
  given := given
  dots := by
    intro segment member
    rw [← base, segments] at member
    rcases List.mem_append.mp member with member | member
    · exact kept.base segment member
    · exact kept.not_isDots segment member
  params := by
    intro last found semicolon
    have whole := getLastD_of_getLast? (Option.mem_def.mp found)
    rw [segments] at whole
    have last' := kept.last
    have params := kept.params
    rw [whole] at last' params
    exact ⟨last', params semicolon⟩
  slashes := fun none => absurd present none
  base := fun _ => base
  inner := fun _ => by rwa [segments]
  plain := fun _ => by
    rw [segments, joinPath_splitPath]
    exact kept.plain

theorem kept_of_plainRoute (plain : PlainRoute fixture invocation arguments)
    (present : invocation.HasText arguments)
    (segments : invocation.segments arguments = splitPath relative) :
    Kept fixture.joinBase relative := by
  have dots (segment : List Char) (member : segment ∈ splitPath relative) : ¬IsDots segment :=
    plain.dots segment (List.mem_append_right _ (segments.symm ▸ member))
  have parts : splitPath relative ≠ [] := List.splitOn_ne_nil _ _
  obtain ⟨last, found⟩ : ∃ last, (splitPath relative).getLast? = some last :=
    ⟨_, List.getLast?_eq_some_getLast parts⟩
  have whole := getLastD_of_getLast? found
  refine ⟨?_, ?_, fun segment member => dots segment (List.dropLast_subset _ member), ?_, ?_⟩
  · have path := plain.plain present
    rwa [segments, joinPath_splitPath] at path
  · intro segment member
    rw [plain.base present] at member
    exact plain.dots segment (List.mem_append_left _ member)
  · rw [whole]
    by_cases semicolon : ';' ∈ last
    · exact (plain.params last (segments.symm ▸ found) semicolon).1
    · rw [cut_of_notMem semicolon]
      exact dots last (List.mem_of_getLast? found)
  · rw [whole]
    exact fun semicolon => (plain.params last (segments.symm ▸ found) semicolon).2

/-- The segments of a plain route are those of the base and of the template. -/
theorem routed_of_plainRoute (plain : PlainRoute fixture invocation arguments)
    (present : invocation.HasText arguments)
    (segments : invocation.segments arguments = splitPath relative) :
    routed fixture.joinBase relative = fixture.segments ++ invocation.segments arguments := by
  have parts : splitPath relative ≠ [] := List.splitOn_ne_nil _ _
  have inner := plain.inner present
  rw [segments] at inner
  rw [routed, plain.base present, segments,
    List.filter_eq_self.mpr fun segment member => decide_eq_true (inner segment member),
    List.getLastD_eq_getLast?, List.getLast?_eq_some_getLast parts]
  exact congrArg _ (List.dropLast_append_getLast parts)

/-- A template with text has no slashes of its own in front. -/
theorem segments_of_plainRoute {count : Nat} (plain : PlainRoute fixture invocation arguments)
    (present : invocation.HasText arguments)
    (segments : invocation.segments arguments =
      List.replicate count [] ++ splitPath relative) :
    invocation.segments arguments = splitPath relative := by
  cases count with
  | zero => exact segments
  | succ count =>
      have parts : splitPath relative ≠ [] := List.splitOn_ne_nil _ _
      have first : [] ∈ (invocation.segments arguments).dropLast := by
        rw [segments, List.dropLast_append_of_ne_nil parts]
        exact List.mem_append_left _ (List.mem_replicate.mpr ⟨Nat.succ_ne_zero _, rfl⟩)
      exact absurd rfl (plain.inner present [] first)

end

/-- A request keeps to its origin and to its template exactly when the template is a plain route. -/
theorem keepsRoute_iff {target : List Char}
    (done : url refused fixture.baseUrl invocation arguments = .ok target) :
    KeepsRoute fixture invocation arguments target ↔ PlainRoute fixture invocation arguments := by
  obtain ⟨texts, joined, more, rendered, join, rfl, query⟩ := url_eq_ok done
  obtain ⟨based, read, scheme, netloc, path, weighed, reads⟩ := reads_slashed
  have http : IsHttp based.scheme := scheme ▸ fixture.http
  have host : based.netloc ≠ [] := netloc ▸ host_ne_nil
  have start := head?_dropWhile_slash texts.flatten
  have text := hasText_iff rendered
  have total' := total_invocation rendered
  by_cases present : invocation.HasText arguments
  · obtain ⟨count, segments⟩ := segments_eq rendered (text.mp present)
    generalize texts.flatten.dropWhile (· = '/') = relative at join start text total' segments
    constructor
    · intro keeps
      obtain ⟨split, final, sameScheme, _, routes⟩ := keeps.route
      rw [segments] at routes
      obtain ⟨kept, none, inner, base⟩ := kept_of_routed (text.mp present) start http host read query
        join final (sameScheme.trans scheme.symm) (total_segments.trans weighed.symm) routes
      rw [none, List.replicate_zero, List.nil_append] at segments
      rw [path] at base kept
      exact plainRoute_of_kept present
        (fun name member => (placeholder_iff rendered member).mp (keeps.placeholders name member))
        segments kept inner base
    · intro plain
      have segments := segments_of_plainRoute plain present segments
      have kept := kept_of_plainRoute plain present segments
      rw [← path] at kept
      obtain ⟨final, read', scheme', netloc', route⟩ :=
        kept.route (text.mp present) start http host read query join
      refine ⟨fun name member => (placeholder_iff rendered member).mpr (plain.given name member),
        final, read', scheme'.trans scheme, hostinfo_congr (netloc'.trans netloc), ?_⟩
      rw [route, kept.resolve_routed, path]
      exact routed_of_plainRoute plain present segments
  · have empty : texts.flatten.dropWhile (· = '/') = [] := not_not.mp (mt text.mpr present)
    rw [empty] at total' join
    have joined' : slashed fixture.baseUrl.toList = joined := Option.some.inj join
    obtain ⟨final, read', scheme', netloc', path'⟩ := (reads.query query).urlsplit []
    rw [joined'] at read'
    constructor
    · intro keeps
      obtain ⟨split, found, _, _, routes⟩ := keeps.route
      obtain rfl := Option.some.inj (found.symm.trans read')
      have few := total_segmentsOf_le split.path
      have dots : ∀ segment ∈ segmentsOf split.path, ¬IsDots segment := by
        apply not_isDots_of_total
        rw [routes, total_append, total', total_segments, ← weighed]
        rw [path'] at few ⊢
        exact few
      rw [resolve_of_not_isDots dots, path', path] at routes
      rw [path', path, routes] at dots
      refine ⟨fun name member => (placeholder_iff rendered member).mp (keeps.placeholders name member),
        dots, fun last found semicolon => ?_, fun _ => routes, fun some => absurd some present,
        fun some => absurd some present, fun some => absurd some present⟩
      have blank : last = [] := by
        by_contra some
        exact present ⟨last, List.mem_of_getLast? found, some⟩
      rw [blank] at semicolon
      cases semicolon
    · intro plain
      refine ⟨fun name member => (placeholder_iff rendered member).mpr (plain.given name member),
        final, read', scheme'.trans scheme, hostinfo_congr (netloc'.trans netloc), ?_⟩
      rw [path', path, plain.slashes present]
      exact resolve_of_not_isDots plain.dots

/-- The operation of a user's items. -/
def listItems : HttpInvocation where
  method := .get
  path := "/users/{user}/items"
  rooted := by decide +kernel
  hostless := by decide +kernel
  bodiless := fun _ => rfl

def exampleFixture : HttpApiFixture fun _ => false where
  declared := ["list"]
  baseUrl := "https://api.example/v1"
  operations := Dict.ofEntries [("list", listItems)]
  parsed := ⟨"https".toList, "api.example".toList, "/v1".toList, [], []⟩
  split := by decide +kernel
  http := .inr rfl
  host := by decide +kernel
  bare := by decide +kernel
  loopback := by decide +kernel
  named := by decide +kernel

def namedUser (name : String) : Dict String Json := (∅ : Dict String Json).set "user" (.str name)

theorem keepsRoute_iff_listItems :
    url (fun _ => false) exampleFixture.baseUrl listItems (namedUser "a/b") =
        .ok "https://api.example/v1/users/a%2Fb/items".toList ∧
      (KeepsRoute exampleFixture listItems (namedUser "a/b")
          "https://api.example/v1/users/a%2Fb/items".toList ↔
        PlainRoute exampleFixture listItems (namedUser "a/b")) := by
  have done : url (fun _ => false) exampleFixture.baseUrl listItems (namedUser "a/b") =
      .ok "https://api.example/v1/users/a%2Fb/items".toList := by
    decide +kernel
  exact ⟨done, keepsRoute_iff exampleFixture listItems (namedUser "a/b") done⟩

/-- A user of two dots leads out of the template. -/
theorem not_keepsRoute : ¬∀ (refused : List Char → Bool) (fixture : HttpApiFixture refused)
    (invocation : HttpInvocation) (arguments : Dict String Json) (target : List Char),
    url refused fixture.baseUrl invocation arguments = .ok target →
      KeepsRoute fixture invocation arguments target := by
  intro claimed
  have done : url (fun _ => false) exampleFixture.baseUrl listItems (namedUser "..") =
      .ok "https://api.example/v1/items".toList := by
    decide +kernel
  obtain ⟨split, found, _, _, routes⟩ := (claimed _ _ _ _ _ done).route
  have read : urlsplit (fun _ => false) [] "https://api.example/v1/items".toList =
      some ⟨"https".toList, "api.example".toList, "/v1/items".toList, [], []⟩ := by
    decide +kernel
  obtain rfl := Option.some.inj (found.symm.trans read)
  revert routes
  decide +kernel

end CapabilityHub.Providers
