import CapabilityHub.Merkle.Tree

/-! # Merkle trees level by level

Hashing neighbouring digests, with an unpaired last digest carried over
unchanged, turns one level of a tree into the next. The tree hash is the same
above every level (`CapabilityHub.Merkle.treeHash_pairUp`), an audit path is the
sibling at the lowest level followed by the path one level up
(`CapabilityHub.Merkle.auditPath_pairUp`), and a consistency proof starts at the
lowest level on which the old tree ends inside a pair
(`CapabilityHub.Merkle.subproof_pairUp`, `CapabilityHub.Merkle.subproof_odd`).
-/

namespace CapabilityHub.Merkle

variable {Entry Digest : Type*}

section PairUp

variable (node : Digest → Digest → Digest)

/-- The next level of a tree. -/
def pairUp : List Digest → List Digest
  | first :: second :: rest => node first second :: pairUp rest
  | [last] => [last]
  | [] => []

@[simp] theorem length_pairUp (digests : List Digest) :
    (pairUp node digests).length = (digests.length + 1) / 2 := by
  induction digests using pairUp.induct with
  | case1 first second rest ih =>
      simp only [pairUp, List.length_cons, ih]
      omega
  | case2 last => simp [pairUp]
  | case3 => simp [pairUp]

/-- An even number of digests is paired without the following ones. -/
theorem pairUp_append (first second : List Digest) (even : first.length % 2 = 0) :
    pairUp node (first ++ second) = pairUp node first ++ pairUp node second := by
  induction first using pairUp.induct with
  | case1 left right rest ih =>
      simp only [List.length_cons] at even
      simp only [List.cons_append, pairUp, ih (by omega)]
  | case2 last => simp at even
  | case3 => rfl

/-- A full pair is hashed. -/
theorem getElem?_pairUp_of_pair {digests : List Digest} {position : Nat} {left right : Digest}
    (atLeft : digests[2 * position]? = some left)
    (atRight : digests[2 * position + 1]? = some right) :
    (pairUp node digests)[position]? = some (node left right) := by
  induction position generalizing digests with
  | zero =>
      match digests with
      | first :: second :: rest =>
          simp only [Nat.mul_zero, Nat.zero_add, List.getElem?_cons_zero,
            List.getElem?_cons_succ, Option.some.injEq] at atLeft atRight
          simp [pairUp, atLeft, atRight]
      | [_] | [] => simp at atRight
  | succ position ih =>
      match digests with
      | first :: second :: rest => exact ih atLeft atRight
      | [_] | [] => simp [Nat.mul_succ] at atLeft

/-- An unpaired last digest is carried over. -/
theorem getElem?_pairUp_of_last {digests : List Digest} {position : Nat} {last : Digest}
    (atLast : digests[2 * position]? = some last) (counted : digests.length = 2 * position + 1) :
    (pairUp node digests)[position]? = some last := by
  induction position generalizing digests with
  | zero =>
      match digests with
      | [digest] => simpa [pairUp] using atLast
      | _ :: _ :: _ | [] => simp at counted
  | succ position ih =>
      match digests with
      | first :: second :: rest =>
          exact ih atLast (by simpa [Nat.mul_succ] using counted)
      | [_] | [] => simp [Nat.mul_succ] at counted

/-- Above an unpaired last position stands its own digest. -/
theorem getElem?_of_pairUp_last {digests : List Digest} {index : Nat}
    (last : index + 1 = digests.length) (even : index % 2 = 0) :
    (pairUp node digests)[index / 2]? = digests[index]? := by
  have found := List.getElem?_eq_getElem (show index < digests.length by omega)
  rw [found]
  exact getElem?_pairUp_of_last node (by rwa [show 2 * (index / 2) = index by omega]) (by omega)

theorem take_pairUp (digests : List Digest) {half : Nat} (inside : 2 * half ≤ digests.length) :
    (pairUp node digests).take half = pairUp node (digests.take (2 * half)) := by
  have counted : (digests.take (2 * half)).length = 2 * half := by
    rw [List.length_take, Nat.min_eq_left inside]
  conv_lhs => rw [← List.take_append_drop (2 * half) digests]
  rw [pairUp_append node _ _ (by omega)]
  exact List.take_left' (by rw [length_pairUp, counted]; omega)

theorem drop_pairUp (digests : List Digest) {half : Nat} (inside : 2 * half ≤ digests.length) :
    (pairUp node digests).drop half = pairUp node (digests.drop (2 * half)) := by
  have counted : (digests.take (2 * half)).length = 2 * half := by
    rw [List.length_take, Nat.min_eq_left inside]
  conv_lhs => rw [← List.take_append_drop (2 * half) digests]
  rw [pairUp_append node _ _ (by omega)]
  exact List.drop_left' (by rw [length_pairUp, counted]; omega)

end PairUp

/-- The other digest of the pair at `index`, unless `index` is unpaired. -/
def sibling (index : Nat) (digests : List Digest) : Option Digest :=
  if index % 2 = 1 then digests[index - 1]? else digests[index + 1]?

theorem sibling_take {index half : Nat} (digests : List Digest) (below : index < 2 * half) :
    sibling index (digests.take (2 * half)) = sibling index digests := by
  unfold sibling
  split
  · rw [List.getElem?_take_of_lt (by omega)]
  · rw [List.getElem?_take_of_lt (by omega)]

theorem sibling_drop {index half : Nat} (digests : List Digest) (above : 2 * half ≤ index) :
    sibling (index - 2 * half) (digests.drop (2 * half)) = sibling index digests := by
  have parity : (index - 2 * half) % 2 = index % 2 := by omega
  unfold sibling
  rw [parity]
  split
  · rw [List.getElem?_drop]
    congr 1
    omega
  · rw [List.getElem?_drop]
    congr 1
    omega

variable (scheme : HashScheme Entry Digest)

/-- Both halves of three or more digests are paired on their own. -/
theorem pairUp_halves {digests : List Digest} (many : 3 ≤ digests.length) :
    splitPoint digests.length = 2 * splitPoint (pairUp scheme.node digests).length ∧
      (pairUp scheme.node digests).take (splitPoint (pairUp scheme.node digests).length) =
        pairUp scheme.node (digests.take (splitPoint digests.length)) ∧
      (pairUp scheme.node digests).drop (splitPoint (pairUp scheme.node digests).length) =
        pairUp scheme.node (digests.drop (splitPoint digests.length)) := by
  have shorter := splitPoint_lt (show 2 ≤ digests.length by omega)
  have double := splitPoint_eq_double many
  rw [length_pairUp]
  refine ⟨double, ?_, ?_⟩
  · rw [take_pairUp _ _ (by omega), ← double]
  · rw [drop_pairUp _ _ (by omega), ← double]

private theorem eq_pair_of_length_eq_two {digests : List Digest} (two : digests.length = 2) :
    ∃ left right, digests = [left, right] :=
  List.length_eq_two.mp two

/-- **The tree hash is the same one level up.** -/
theorem treeHash_pairUp (digests : List Digest) :
    scheme.hashed.treeHash (pairUp scheme.node digests) = scheme.hashed.treeHash digests := by
  induction digests using splitInduction with
  | small digests small =>
      match digests, small with
      | [], _ => rfl
      | [_], _ => rfl
  | split digests several left right =>
      by_cases many : 3 ≤ digests.length
      · obtain ⟨_, takes, drops⟩ := pairUp_halves scheme many
        rw [scheme.hashed.treeHash_split several,
          scheme.hashed.treeHash_split (by rw [length_pairUp]; omega), takes, drops, left, right]
      · obtain ⟨first, second, rfl⟩ :=
          eq_pair_of_length_eq_two (show digests.length = 2 by omega)
        rw [scheme.hashed.treeHash_split several]
        simp [pairUp, HashScheme.hashed]

/-- **An audit path starts with the sibling** at the lowest level, if there is
one, and continues one level up. -/
theorem auditPath_pairUp (index : Nat) (digests : List Digest) (inside : index < digests.length) :
    scheme.hashed.auditPath index digests =
      (sibling index digests).toList ++
        scheme.hashed.auditPath (index / 2) (pairUp scheme.node digests) := by
  induction digests using splitInduction generalizing index with
  | small digests small =>
      have first : index = 0 := by omega
      subst first
      match digests, small, inside with
      | [digest], small, _ =>
          simp [sibling, pairUp, scheme.hashed.auditPath_small small]
  | split digests several left right =>
      by_cases many : 3 ≤ digests.length
      · obtain ⟨double, takes, drops⟩ := pairUp_halves scheme many
        have several' : 2 ≤ (pairUp scheme.node digests).length := by rw [length_pairUp]; omega
        have shorter := splitPoint_lt several
        by_cases side : index < splitPoint digests.length
        · rw [scheme.hashed.auditPath_left several side,
            scheme.hashed.auditPath_left several' (by omega), takes, drops,
            left index (by rw [length_take_splitPoint several]; exact side), treeHash_pairUp,
            double, sibling_take digests (by omega), List.append_assoc]
        · rw [scheme.hashed.auditPath_right several (Nat.not_lt.mp side),
            scheme.hashed.auditPath_right several' (by omega), takes, drops,
            right _ (by rw [List.length_drop]; omega), treeHash_pairUp, double,
            sibling_drop digests (by omega), List.append_assoc]
          congr 3
          omega
      · obtain ⟨first, second, rfl⟩ :=
          eq_pair_of_length_eq_two (show digests.length = 2 by omega)
        have top : scheme.hashed.auditPath (index / 2) (pairUp scheme.node [first, second]) = [] :=
          scheme.hashed.auditPath_small (by simp) _
        rw [top, List.append_nil]
        rcases (show index = 0 ∨ index = 1 by simp at inside; omega) with rfl | rfl
        · rw [scheme.hashed.auditPath_left several (by simp),
            scheme.hashed.auditPath_small (by simp)]
          simp [sibling, HashScheme.hashed]
        · rw [scheme.hashed.auditPath_right several (by simp),
            scheme.hashed.auditPath_small (by simp)]
          simp [sibling, HashScheme.hashed]

/-- A consistency proof of an even number of digests is one of their pairs. -/
theorem subproof_pairUp (size : Nat) (digests : List Digest) (known : Bool) (even : size % 2 = 0)
    (several : 2 ≤ digests.length) (positive : 0 < size) (inside : size ≤ digests.length) :
    scheme.hashed.subproof size digests known =
      scheme.hashed.subproof (size / 2) (pairUp scheme.node digests) known := by
  induction digests using splitInduction generalizing size known with
  | small digests small => omega
  | split digests _ left right =>
      have shorter := splitPoint_lt several
      by_cases below : size < digests.length
      · have many : 3 ≤ digests.length := by omega
        obtain ⟨double, takes, drops⟩ := pairUp_halves scheme many
        have several' : 2 ≤ (pairUp scheme.node digests).length := by rw [length_pairUp]; omega
        have halfPositive := splitPoint_pos (pairUp scheme.node digests).length
        by_cases side : size ≤ splitPoint digests.length
        · rw [scheme.hashed.subproof_left several side,
            scheme.hashed.subproof_left several' (by omega), takes, drops, treeHash_pairUp,
            left size known even (by rw [length_take_splitPoint several]; omega) positive
              (by rw [length_take_splitPoint several]; exact side)]
        · rw [scheme.hashed.subproof_right several (Nat.not_le.mp side) below,
            scheme.hashed.subproof_right several' (by omega) (by rw [length_pairUp]; omega),
            takes, drops, treeHash_pairUp,
            right _ false (by omega) (by rw [List.length_drop]; omega) (by omega)
              (by rw [List.length_drop]; omega)]
          congr 2
          omega
      · rw [scheme.hashed.subproof_whole (by omega),
          scheme.hashed.subproof_whole (by rw [length_pairUp]; omega), treeHash_pairUp]

/-- Only a tree of two leaves has an odd split point. -/
theorem splitPoint_odd {count : Nat} (several : 2 ≤ count) (odd : splitPoint count % 2 = 1) :
    count = 2 := by
  by_cases many : 3 ≤ count
  · have double := splitPoint_eq_double many
    omega
  · omega

/-- A consistency proof of an odd number of digests, fewer than all, is the last
of them, unless the verifier holds it, and its audit path. -/
theorem subproof_odd (size : Nat) (digests : List Digest) (known : Bool) (odd : size % 2 = 1)
    (inside : size < digests.length) :
    scheme.hashed.subproof size digests known =
      (if size = 1 ∧ known then [] else digests[size - 1]?.toList) ++
        scheme.hashed.auditPath (size - 1) digests := by
  induction digests using splitInduction generalizing size known with
  | small digests small => omega
  | split digests several left right =>
      have shorter := splitPoint_lt several
      have positive := splitPoint_pos digests.length
      by_cases side : size ≤ splitPoint digests.length
      · rw [scheme.hashed.subproof_left several side,
          scheme.hashed.auditPath_left several (by omega), ← List.append_assoc]
        congr 1
        by_cases all : size = splitPoint digests.length
        · have two := splitPoint_odd several (all ▸ odd)
          obtain ⟨first, second, rfl⟩ := eq_pair_of_length_eq_two two
          have one : size = 1 := all
          subst one
          rw [scheme.hashed.subproof_whole (by simp), scheme.hashed.auditPath_small (by simp)]
          simp [HashScheme.hashed]
        · rw [left size known odd (by rw [length_take_splitPoint several]; omega),
            List.getElem?_take_of_lt (by omega)]
      · have evenSplit : splitPoint digests.length % 2 = 0 := by
          by_contra oddSplit
          have two := splitPoint_odd several (by omega)
          omega
        have position : splitPoint digests.length + (size - splitPoint digests.length - 1) =
            size - 1 := by omega
        have index : size - splitPoint digests.length - 1 =
            size - 1 - splitPoint digests.length := by omega
        rw [scheme.hashed.subproof_right several (Nat.not_le.mp side) inside,
          scheme.hashed.auditPath_right several (by omega), ← List.append_assoc,
          right _ false (by omega) (by rw [List.length_drop]; omega), List.getElem?_drop,
          if_neg (by simp), if_neg (by omega), position, index]

/-- Every pair of neighbours is hashed in the tree. -/
theorem pair_mem_nodePairs {digests : List Digest} {position : Nat} {first second : Digest}
    (atFirst : digests[2 * position]? = some first)
    (atSecond : digests[2 * position + 1]? = some second) :
    (first, second) ∈ scheme.hashed.nodePairs digests := by
  have inside : 2 * position + 1 < digests.length := (List.getElem?_eq_some_iff.mp atSecond).1
  induction digests using splitInduction generalizing position with
  | small digests small => omega
  | split digests several left right =>
      have shorter := splitPoint_lt several
      rw [scheme.hashed.nodePairs_split several]
      by_cases many : 3 ≤ digests.length
      · have double := splitPoint_eq_double many
        refine List.mem_cons_of_mem _ (List.mem_append.mpr ?_)
        by_cases side : 2 * position < splitPoint digests.length
        · refine Or.inl (@left position ?_ ?_ ?_)
          · rw [List.getElem?_take_of_lt side, atFirst]
          · rw [List.getElem?_take_of_lt (by omega), atSecond]
          · rw [length_take_splitPoint several]; omega
        · have shifted : splitPoint digests.length +
              2 * (position - splitPoint digests.length / 2) = 2 * position := by omega
          refine Or.inr (@right (position - splitPoint digests.length / 2) ?_ ?_ ?_)
          · rw [List.getElem?_drop, shifted, atFirst]
          · rw [List.getElem?_drop, ← Nat.add_assoc, shifted, atSecond]
          · rw [List.length_drop]; omega
      · obtain ⟨a, b, rfl⟩ := eq_pair_of_length_eq_two (show digests.length = 2 by omega)
        have none : position = 0 := by simp at inside; omega
        subst none
        simp only [Nat.mul_zero, Nat.zero_add, List.getElem?_cons_zero,
          List.getElem?_cons_succ, Option.some.injEq] at atFirst atSecond
        subst atFirst atSecond
        simp [HashScheme.hashed]

/-- The pairs hashed one level up are hashed in the tree. -/
theorem nodePairs_pairUp (digests : List Digest) :
    scheme.hashed.nodePairs (pairUp scheme.node digests) ⊆ scheme.hashed.nodePairs digests := by
  induction digests using splitInduction with
  | small digests small =>
      rw [scheme.hashed.nodePairs_small (by rw [length_pairUp]; omega)]
      exact List.nil_subset _
  | split digests several left right =>
      by_cases many : 3 ≤ digests.length
      · obtain ⟨_, takes, drops⟩ := pairUp_halves scheme many
        rw [scheme.hashed.nodePairs_split several,
          scheme.hashed.nodePairs_split (by rw [length_pairUp]; omega), takes, drops,
          treeHash_pairUp, treeHash_pairUp]
        refine List.cons_subset_cons _ (List.append_subset.mpr ⟨fun pair member => ?_,
          fun pair member => ?_⟩)
        · exact List.mem_append_left _ (left member)
        · exact List.mem_append_right _ (right member)
      · rw [scheme.hashed.nodePairs_small (by rw [length_pairUp]; omega)]
        exact List.nil_subset _

end CapabilityHub.Merkle
