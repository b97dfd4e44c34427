import CapabilityHub.Text.Url

/-! # How much of a URL is kept

No step of `urljoin` adds a character other than a slash, so a URL that has as many of them as its two
parts has lost none: the relative part was read as a path, and no segment was resolved.
-/

namespace CapabilityHub.Url

variable {refused : List Char → Bool} {default text url path : List Char} {split : SplitResult}
  {segments resolved : List (List Char)} {segment : List Char}

/-- The characters that are not slashes. -/
def weight (text : List Char) : Nat := text.countP (· ≠ '/')

def total (segments : List (List Char)) : Nat := segments.flatten.length

@[simp] theorem weight_nil : weight [] = 0 := rfl

@[simp] theorem weight_append (first second : List Char) :
    weight (first ++ second) = weight first + weight second :=
  List.countP_append

theorem weight_cons (c : Char) (text : List Char) :
    weight (c :: text) = weight text + if c = '/' then 0 else 1 := by
  rw [weight, List.countP_cons, ← weight]
  by_cases slash : c = '/'
  · simp [slash]
  · simp [slash]

@[simp] theorem weight_slash (text : List Char) : weight ('/' :: text) = weight text := by
  rw [weight_cons, if_pos rfl]
  rfl

theorem weight_cons_of_ne {c : Char} (different : c ≠ '/') (text : List Char) :
    weight (c :: text) = weight text + 1 := by
  rw [weight_cons, if_neg different]

theorem weight_le_of_sublist {first second : List Char} (sub : first.Sublist second) :
    weight first ≤ weight second :=
  sub.countP_le

@[simp] theorem total_nil : total [] = 0 := rfl

@[simp] theorem total_cons (segment : List Char) (segments : List (List Char)) :
    total (segment :: segments) = segment.length + total segments := by
  rw [total, List.flatten_cons, List.length_append]
  rfl

@[simp] theorem total_append (first second : List (List Char)) :
    total (first ++ second) = total first + total second := by
  rw [total, List.flatten_append, List.length_append]
  rfl

theorem total_eq_zero : total segments = 0 ↔ ∀ segment ∈ segments, segment = [] := by
  induction segments with
  | nil => simp
  | cons segment segments ih =>
      rw [total_cons, Nat.add_eq_zero_iff, ih, List.length_eq_zero_iff, List.forall_mem_cons]

theorem total_dropLast_le (segments : List (List Char)) : total segments.dropLast ≤ total segments := by
  rcases List.eq_nil_or_concat segments with rfl | ⟨front, last, rfl⟩
  · rfl
  · simp

theorem total_filter (segments : List (List Char)) :
    total (segments.filter (· ≠ [])) = total segments := by
  induction segments with
  | nil => rfl
  | cons segment segments ih =>
      by_cases empty : segment = []
      · simpa [empty] using ih
      · simpa [empty] using ih

/-! ## Segments -/

theorem slash_notMem_of_mem_splitPath (member : segment ∈ splitPath path) : '/' ∉ segment := by
  induction path generalizing segment with
  | nil =>
      rw [splitPath, List.splitOn_nil, List.mem_singleton] at member
      simp [member]
  | cons c path ih =>
      rw [splitPath, List.splitOn_cons_eq_if_modifyHead] at member
      split at member
      next =>
        rcases List.mem_cons.mp member with rfl | member
        · simp
        · exact ih member
      next other =>
        cases front : path.splitOn '/' with
        | nil => exact absurd front (List.splitOn_ne_nil _ _)
        | cons first rest =>
            rw [front, List.modifyHead_cons] at member
            have parts : splitPath path = first :: rest := front
            have slashes : '/' ∉ first := ih (parts ▸ List.mem_cons_self)
            rcases List.mem_cons.mp member with rfl | member
            · have different : '/' ≠ c := fun same => other (by simp [← same])
              simp [slashes, different]
            · exact ih (parts ▸ List.mem_cons_of_mem _ member)

theorem total_splitPath (path : List Char) : total (splitPath path) = weight path := by
  induction path with
  | nil => rfl
  | cons c path ih =>
      rw [splitPath, List.splitOn_cons_eq_if_modifyHead]
      by_cases slash : c = '/'
      · rw [if_pos (by simp [slash]), total_cons, slash, weight_slash, ← ih]
        exact Nat.zero_add _
      · rw [if_neg (by simp [slash]), weight_cons_of_ne slash, ← ih, splitPath]
        cases front : path.splitOn '/' with
        | nil => exact absurd front (List.splitOn_ne_nil _ _)
        | cons first rest =>
            rw [List.modifyHead_cons, total_cons, total_cons, List.length_cons]
            omega

theorem splitPath_joinPath (clean : ∀ segment ∈ segments, '/' ∉ segment) (present : segments ≠ []) :
    splitPath (joinPath segments) = segments :=
  List.splitOn_intercalate '/' clean present

theorem joinPath_splitPath (path : List Char) : joinPath (splitPath path) = path :=
  List.intercalate_splitOn '/'

theorem weight_joinPath (clean : ∀ segment ∈ segments, '/' ∉ segment) :
    weight (joinPath segments) = total segments := by
  by_cases present : segments = []
  · rw [present]
    rfl
  · rw [← total_splitPath, splitPath_joinPath clean present]

/-- A text after the last segment. -/
theorem joinPath_concat_append (segments : List (List Char)) (last text : List Char) :
    joinPath (segments ++ [last]) ++ text = joinPath (segments ++ [last ++ text]) := by
  induction segments with
  | nil => simp [joinPath]
  | cons first rest ih =>
      have present (last : List Char) : rest ++ [last] ≠ [] := by simp
      rw [List.cons_append, joinPath, List.intercalate_cons_of_ne_nil (present _), List.cons_append,
        joinPath, List.intercalate_cons_of_ne_nil (present _)]
      rw [joinPath, joinPath] at ih
      rw [List.append_assoc, ih]

/-! ## Resolving -/

theorem total_resolveStep (resolved : List (List Char)) (segment : List Char) :
    total (resolveStep resolved segment) + (if IsDots segment then 1 else 0) ≤
      total resolved + segment.length := by
  rw [resolveStep]
  split
  next up =>
    have fewer := total_dropLast_le resolved
    rw [up, if_pos (.inr rfl)]
    simp only [List.length_cons, List.length_nil]
    omega
  next notUp =>
    split
    next here =>
      rw [here, if_pos (.inl rfl)]
      exact Nat.le_refl _
    next notHere =>
      rw [if_neg (by rintro (same | same); exacts [notHere same, notUp same])]
      simp

/-- Each dot segment costs a character. -/
theorem total_foldl_resolveStep (resolved segments : List (List Char)) :
    total (segments.foldl resolveStep resolved) + segments.countP (IsDots ·) ≤
      total resolved + total segments := by
  induction segments generalizing resolved with
  | nil => exact Nat.le_refl _
  | cons segment segments ih =>
      have step := total_resolveStep resolved segment
      have rest := ih (resolveStep resolved segment)
      rw [List.foldl_cons, List.countP_cons, total_cons]
      simp only [decide_eq_true_eq]
      omega

theorem total_resolve (segments : List (List Char)) :
    total (resolve segments) + segments.countP (IsDots ·) ≤ total segments := by
  have folded := total_foldl_resolveStep [] segments
  rw [resolve, total_append]
  have last : total (if ∃ last ∈ segments.getLast?, IsDots last then [[]] else []) = 0 := by
    split <;> rfl
  rw [last]
  simpa using folded

theorem total_resolve_le (segments : List (List Char)) : total (resolve segments) ≤ total segments :=
  (Nat.le_add_right _ _).trans (total_resolve segments)

/-- Segments that keep their characters are not dot segments. -/
theorem not_isDots_of_total (kept : total segments ≤ total (resolve segments)) :
    ∀ segment ∈ segments, ¬IsDots segment := by
  have dots := total_resolve segments
  have none : segments.countP (IsDots ·) = 0 := by omega
  intro segment member dot
  exact List.countP_eq_zero.mp none segment member (decide_eq_true dot)

theorem foldl_resolveStep_of_not_isDots (plain : ∀ segment ∈ segments, ¬IsDots segment) :
    segments.foldl resolveStep resolved = resolved ++ segments := by
  induction segments generalizing resolved with
  | nil => exact (List.append_nil _).symm
  | cons segment segments ih =>
      have dots := plain segment List.mem_cons_self
      rw [List.foldl_cons, ih fun other member => plain other (List.mem_cons_of_mem _ member),
        resolveStep, if_neg (fun up => dots (.inr up)), if_neg (fun here => dots (.inl here)),
        List.append_assoc]
      rfl

theorem resolve_of_not_isDots (plain : ∀ segment ∈ segments, ¬IsDots segment) :
    resolve segments = segments := by
  rw [resolve, foldl_resolveStep_of_not_isDots plain, List.nil_append, if_neg, List.append_nil]
  rintro ⟨last, found, dots⟩
  exact plain last (List.mem_of_getLast? found) dots

theorem mem_foldl_resolveStep (member : segment ∈ segments.foldl resolveStep resolved) :
    segment ∈ resolved ∨ segment ∈ segments := by
  induction segments generalizing resolved with
  | nil => exact .inl member
  | cons first segments ih =>
      rcases ih member with before | after
      · rw [resolveStep] at before
        split at before
        next => exact .inl (List.dropLast_subset _ before)
        next =>
          split at before
          next => exact .inl before
          next =>
            rcases List.mem_append.mp before with before | same
            · exact .inl before
            · exact .inr (List.mem_cons.mpr (.inl (List.mem_singleton.mp same)))
      · exact .inr (List.mem_cons_of_mem _ after)

theorem mem_resolve (member : segment ∈ resolve segments) : segment ∈ segments ∨ segment = [] := by
  rcases List.mem_append.mp member with folded | last
  · rcases mem_foldl_resolveStep folded with none | member
    · cases none
    · exact .inl member
  · split at last
    · exact .inr (List.mem_singleton.mp last)
    · cases last

theorem mem_squeeze (member : segment ∈ squeeze segments) : segment ∈ segments ∨ segment = [] := by
  cases segments with
  | nil => exact .inl member
  | cons first rest =>
      cases rest with
      | nil => exact .inl member
      | cons second rest =>
          rcases List.mem_cons.mp member with rfl | member
          · exact .inl List.mem_cons_self
          · rcases List.mem_append.mp member with middle | last
            · have inside := List.dropLast_subset _ (List.mem_filter.mp middle).1
              exact .inl (List.mem_cons_of_mem _ inside)
            · rw [List.mem_singleton.mp last]
              refine .inl (List.mem_cons_of_mem _ ?_)
              rw [List.getLastD_eq_getLast?, List.getLast?_eq_some_getLast (List.cons_ne_nil _ _)]
              exact List.getLast_mem _

section

variable {holds : Char → Prop}

theorem forall_joinPath (slash : holds '/') (each : ∀ segment ∈ segments, ∀ c ∈ segment, holds c) :
    ∀ c ∈ joinPath segments, holds c := by
  induction segments with
  | nil => simp [joinPath]
  | cons first rest ih =>
      have here := each first List.mem_cons_self
      have later := ih fun other member => each other (List.mem_cons_of_mem _ member)
      by_cases empty : rest = []
      · rw [empty, joinPath, List.intercalate_singleton]
        exact here
      · rw [joinPath, List.intercalate_cons_of_ne_nil empty]
        intro c member
        rcases List.mem_append.mp member with member | member
        · rcases List.mem_append.mp member with member | member
          · exact here c member
          · rw [List.mem_singleton.mp member]
            exact slash
        · exact later c member

theorem forall_splitPath (all : ∀ c ∈ path, holds c) :
    ∀ segment ∈ splitPath path, ∀ c ∈ segment, holds c := by
  induction path with
  | nil =>
      intro segment member
      rw [splitPath, List.splitOn_nil, List.mem_singleton] at member
      simp [member]
  | cons c path ih =>
      have later := ih fun other member => all other (List.mem_cons_of_mem _ member)
      intro segment member
      rw [splitPath, List.splitOn_cons_eq_if_modifyHead] at member
      split at member
      next =>
        rcases List.mem_cons.mp member with rfl | member
        · simp
        · exact later segment member
      next =>
        cases front : path.splitOn '/' with
        | nil => exact absurd front (List.splitOn_ne_nil _ _)
        | cons first rest =>
            have parts : splitPath path = first :: rest := front
            rw [front, List.modifyHead_cons] at member
            rcases List.mem_cons.mp member with rfl | member
            · intro other inside
              rcases List.mem_cons.mp inside with rfl | inside
              · exact all other List.mem_cons_self
              · exact later first (parts ▸ List.mem_cons_self) other inside
            · exact later segment (parts ▸ List.mem_cons_of_mem _ member)

/-- A joined path has the characters of its parts. -/
theorem forall_joinedPath {basePath : List Char} (slash : holds '/') (base : ∀ c ∈ basePath, holds c)
    (relative : ∀ c ∈ path, holds c) : ∀ c ∈ joinedPath basePath path, holds c := by
  rw [joinedPath]
  split
  · intro c member
    rw [List.mem_singleton.mp member]
    exact slash
  · apply forall_joinPath slash
    intro segment member
    rcases mem_resolve member with member | rfl
    · rw [joinedSegments] at member
      split at member
      · exact forall_splitPath relative segment member
      · rcases mem_squeeze member with member | rfl
        · rcases List.mem_append.mp member with member | member
          · apply forall_splitPath base segment
            rw [directory] at member
            split at member
            · exact member
            · exact List.dropLast_subset _ member
          · exact forall_splitPath relative segment member
        · simp
    · simp

end

theorem slash_notMem_of_mem_resolve (clean : ∀ segment ∈ segments, '/' ∉ segment)
    (member : segment ∈ resolve segments) : '/' ∉ segment := by
  rcases mem_resolve member with member | rfl
  · exact clean segment member
  · simp

end CapabilityHub.Url
