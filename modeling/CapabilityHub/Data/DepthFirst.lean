import CapabilityHub.Data.Checks
import Mathlib.Data.List.Chain
import Mathlib.Data.List.Nodup
import Mathlib.Logic.Relation

/-! # Depth-first search for a cycle

A directed graph given by the targets of each node. `visit` follows the targets of a node,
with the nodes on the way to it in `path` and the finished ones in `visited`, and raises
the cycle when it meets a node of the path again. A search of all nodes raises exactly
when the graph has a cycle (`CapabilityHub.DepthFirst.raiseOnCycle_eq_ok_iff`), and what it
raises is one (`CapabilityHub.DepthFirst.closedWalk_of_raiseOnCycle`).
-/

namespace CapabilityHub.DepthFirst

variable {α : Type} {targets : α → List α} {nodes path visited finished cycle : List α}
  {node other : α} {fuel : Nat}

/-- No node reaches itself along the edges. -/
def Acyclic (targets : α → List α) (nodes : List α) : Prop :=
  ∀ node ∈ nodes, ¬Relation.TransGen (fun source target => target ∈ targets source) node node

/-- Every target of a node is a node. -/
def Closed (targets : α → List α) (nodes : List α) : Prop :=
  ∀ node ∈ nodes, ∀ target ∈ targets node, target ∈ nodes

/-- A walk along the edges that ends where it starts and meets no other node twice. -/
structure ClosedWalk (targets : α → List α) (walk : List α) : Prop where
  edges : walk.IsChain fun source target => target ∈ targets source
  closes : ∃ node inner, walk = node :: inner ++ [node]
  distinct : walk.dropLast.Nodup

/-- Nodes in an order in which each stands after its targets. -/
inductive Settled (targets : α → List α) : List α → Prop
  | nil : Settled targets []
  | snoc {visited : List α} {node : α} (settled : Settled targets visited)
      (below : ∀ target ∈ targets node, target ∈ visited) (fresh : node ∉ visited) :
      Settled targets (visited ++ [node])

/-- What a search from `sources` has added to `visited`: their targets and nothing of the path. -/
structure Extends (targets : α → List α) (path visited sources finished : List α) : Prop where
  settled : Settled targets finished
  kept : visited ⊆ finished
  seen : sources ⊆ finished
  avoids : ∀ other ∈ path, other ∉ visited → other ∉ finished

theorem Extends.refl (settled : Settled targets visited) : Extends targets path visited [] visited :=
  ⟨settled, List.Subset.refl _, List.nil_subset _, fun _ _ fresh => fresh⟩

theorem Extends.cons {middle sources : List α} (first : Extends targets path visited [node] middle)
    (rest : Extends targets path middle sources finished) :
    Extends targets path visited (node :: sources) finished := by
  refine ⟨rest.settled, List.Subset.trans first.kept rest.kept, List.cons_subset.mpr ⟨?_, rest.seen⟩, ?_⟩
  · exact rest.kept (first.seen (List.mem_singleton_self node))
  · exact fun other member fresh => rest.avoids other member (first.avoids other member fresh)

theorem extends_of_foldlM {search : List α → α → Except (List α) (List α)}
    (step : ∀ {visited finished : List α} {node : α}, Settled targets visited →
      search visited node = .ok finished → Extends targets path visited [node] finished)
    {sources : List α} (settled : Settled targets visited)
    (found : sources.foldlM search visited = .ok finished) :
    Extends targets path visited sources finished := by
  induction sources generalizing visited with
  | nil =>
      cases found
      exact Extends.refl settled
  | cons first sources ih =>
      rw [List.foldlM_cons, bind_eq_ok] at found
      obtain ⟨middle, found, rest⟩ := found
      have first := step settled found
      exact first.cons (ih first.settled rest)

theorem ClosedWalk.transGen {walk : List α} (closed : ClosedWalk targets walk) :
    ∃ node ∈ walk,
      Relation.TransGen (fun source target => target ∈ targets source) node node := by
  have follow {first last : α} {inner : List α}
      (edges : (first :: inner ++ [last]).IsChain fun source target => target ∈ targets source) :
      Relation.TransGen (fun source target => target ∈ targets source) first last := by
    induction inner generalizing first with
    | nil => exact .single (by simpa using edges)
    | cons second inner ih =>
        obtain ⟨edge, rest⟩ := List.isChain_cons_cons.mp edges
        exact .head edge (ih rest)
  obtain ⟨node, inner, same⟩ := closed.closes
  exact ⟨node, by simp [same], follow (same ▸ closed.edges)⟩

theorem foldlM_eq_error {search : List α → α → Except (List α) (List α)} {sources : List α}
    (found : sources.foldlM search visited = .error cycle) :
    ∃ source ∈ sources, ∃ reached, search reached source = .error cycle := by
  induction sources generalizing visited with
  | nil => cases found
  | cons first sources ih =>
      rw [List.foldlM_cons] at found
      cases step : search visited first with
      | error raised =>
          rw [step] at found
          cases found
          exact ⟨first, List.mem_cons_self, visited, step⟩
      | ok middle =>
          rw [step] at found
          obtain ⟨source, member, raised⟩ := ih found
          exact ⟨source, List.mem_cons_of_mem _ member, raised⟩

section Search

variable [DecidableEq α]

/-- `visit`. The path is bounded by the number of nodes, which `fuel` counts down. -/
def visit (targets : α → List α) (fuel : Nat) (path visited : List α) (node : α) :
    Except (List α) (List α) :=
  if node ∈ path then .error ((path.dropWhile fun other => other ≠ node) ++ [node])
  else if node ∈ visited then .ok visited
  else
    match fuel with
    | 0 => .error []
    | fuel + 1 => do
        let visited ← (targets node).foldlM (visit targets fuel (path ++ [node])) visited
        pure (visited ++ [node])

/-- `_raise_on_cycle`. -/
def raiseOnCycle (targets : α → List α) (nodes : List α) : Except (List α) (List α) :=
  nodes.foldlM (visit targets nodes.length []) []

/-! ## Searches that succeed -/

theorem Settled.position_lt (settled : Settled targets visited) (source : node ∈ visited)
    (edge : other ∈ targets node) : other ∈ visited ∧ visited.idxOf other < visited.idxOf node := by
  induction settled with
  | nil => cases source
  | @snoc visited last settled below fresh ih =>
      rcases List.mem_append.mp source with source | source
      · obtain ⟨target, before⟩ := ih source
        rw [List.idxOf_append_of_mem target, List.idxOf_append_of_mem source]
        exact ⟨List.mem_append_left _ target, before⟩
      · obtain rfl := List.mem_singleton.mp source
        have target := below other edge
        rw [List.idxOf_append_of_mem target, List.idxOf_append_of_notMem fresh]
        exact ⟨List.mem_append_left _ target,
          Nat.lt_of_lt_of_le (List.idxOf_lt_length_of_mem target) (Nat.le_add_right _ _)⟩

/-- Along the edges the position only falls. -/
theorem Settled.acyclic (settled : Settled targets visited) : Acyclic targets visited := by
  have falls {source target : α} (member : source ∈ visited)
      (walk : Relation.TransGen (fun source target => target ∈ targets source) source target) :
      target ∈ visited ∧ visited.idxOf target < visited.idxOf source := by
    induction walk with
    | single edge => exact settled.position_lt member edge
    | tail _ edge ih =>
        obtain ⟨middle, before⟩ := ih
        obtain ⟨target, lower⟩ := settled.position_lt middle edge
        exact ⟨target, Nat.lt_trans lower before⟩
  intro node member walk
  exact Nat.lt_irrefl _ (falls member walk).2

theorem visit_eq_ok (settled : Settled targets visited)
    (found : visit targets fuel path visited node = .ok finished) :
    Extends targets path visited [node] finished := by
  induction fuel generalizing path visited node finished with
  | zero =>
      rw [visit] at found
      split at found
      · cases found
      split at found
      next seen =>
        cases found
        exact ⟨settled, List.Subset.refl _, by simpa using seen, fun _ _ fresh => fresh⟩
      · cases found
  | succ fuel ih =>
      rw [visit] at found
      split at found
      · cases found
      next outside =>
        split at found
        next seen =>
          cases found
          exact ⟨settled, List.Subset.refl _, by simpa using seen, fun _ _ fresh => fresh⟩
        next fresh =>
          obtain ⟨middle, followed, last⟩ := bind_eq_ok.mp found
          obtain rfl := pure_eq_ok.mp last
          have below := extends_of_foldlM ih settled followed
          have again : node ∉ middle := below.avoids node (by simp) fresh
          refine ⟨.snoc below.settled (fun _ edge => below.seen edge) again,
            fun _ member => List.mem_append_left _ (below.kept member), by simp, ?_⟩
          intro other member unseen
          have apart : other ≠ node := fun same => outside (same ▸ member)
          have avoided := below.avoids other (List.mem_append_left _ member) unseen
          simp [avoided, apart]

/-! ## Searches that raise -/

/-- The way back to a node of the path closes a walk. -/
theorem closedWalk_of_repeat (member : node ∈ path) (inside : path ⊆ nodes) (nodup : path.Nodup)
    (walk : (path ++ [node]).IsChain fun source target => target ∈ targets source) :
    ClosedWalk targets ((path.dropWhile fun other => other ≠ node) ++ [node]) ∧
      (path.dropWhile fun other => other ≠ node) ++ [node] ⊆ nodes := by
  obtain ⟨before, after, rfl, fresh⟩ := List.eq_append_cons_of_mem member
  have skipped : ((before ++ node :: after).dropWhile fun other => other ≠ node) =
      node :: after := by
    rw [List.dropWhile_append_of_pos fun other found => by
      simpa using fun same : other = node => fresh (same ▸ found)]
    simp
  rw [skipped]
  refine ⟨⟨?_, ⟨node, after, rfl⟩, ?_⟩, ?_⟩
  · apply walk.suffix
    rw [List.append_assoc]
    exact List.suffix_append _ _
  · rw [List.dropLast_concat]
    exact (List.nodup_append.mp nodup).2.1
  · apply List.append_subset.mpr
    exact ⟨fun _ later => inside (List.mem_append_right _ later), by simpa using inside member⟩

/-- A search below a walk raises a closed walk. With `fuel` for every node outside the path
it cannot run out: the nodes of a path are distinct. -/
theorem visit_eq_error (closed : Closed targets nodes) (inside : path ⊆ nodes)
    (member : node ∈ nodes) (nodup : path.Nodup) (enough : nodes.length ≤ fuel + path.length)
    (walk : (path ++ [node]).IsChain fun source target => target ∈ targets source)
    (found : visit targets fuel path visited node = .error cycle) :
    ClosedWalk targets cycle ∧ cycle ⊆ nodes := by
  induction fuel generalizing path visited node with
  | zero =>
      rw [visit] at found
      split at found
      next again =>
        cases found
        exact closedWalk_of_repeat again inside nodup walk
      next fresh =>
        have longer : (path ++ [node]).Nodup := List.concat_eq_append ▸ nodup.concat fresh
        have within : path ++ [node] ⊆ nodes := List.append_subset.mpr ⟨inside, by simpa⟩
        have shorter := longer.length_le_of_subset within
        rw [List.length_append, List.length_singleton] at shorter
        omega
  | succ fuel ih =>
      rw [visit] at found
      split at found
      next again =>
        cases found
        exact closedWalk_of_repeat again inside nodup walk
      next fresh =>
        split at found
        · cases found
        · cases followed : (targets node).foldlM (visit targets fuel (path ++ [node])) visited with
          | ok middle => simp [followed, bind, Except.bind, pure, Except.pure] at found
          | error raised =>
              simp only [followed, bind, Except.bind, Except.error.injEq] at found
              subst found
              obtain ⟨target, edge, reached, raised⟩ := foldlM_eq_error followed
              have longer : (path ++ [node]).Nodup := List.concat_eq_append ▸ nodup.concat fresh
              have within : path ++ [node] ⊆ nodes := List.append_subset.mpr ⟨inside, by simpa⟩
              have walk' : (path ++ [node] ++ [target]).IsChain
                  fun source target => target ∈ targets source := by
                rw [List.append_assoc]
                exact List.isChain_append_cons_cons.mpr ⟨walk, edge, List.isChain_singleton _⟩
              apply ih within (closed node member target edge) longer _ walk' raised
              rw [List.length_append, List.length_singleton]
              omega

/-- What the search raises is a cycle of the graph. -/
theorem closedWalk_of_raiseOnCycle (closed : Closed targets nodes)
    (raised : raiseOnCycle targets nodes = .error cycle) :
    ClosedWalk targets cycle ∧ cycle ⊆ nodes := by
  obtain ⟨node, member, visited, raised⟩ := foldlM_eq_error raised
  exact visit_eq_error closed (List.nil_subset _) member List.nodup_nil (Nat.le_refl _)
    (List.isChain_singleton _) raised

theorem raiseOnCycle_eq_ok_iff (closed : Closed targets nodes) :
    (∃ finished, raiseOnCycle targets nodes = .ok finished) ↔ Acyclic targets nodes := by
  constructor
  · rintro ⟨finished, found⟩ node member
    have reached : Extends targets [] [] nodes finished := extends_of_foldlM visit_eq_ok .nil found
    exact reached.settled.acyclic node (reached.seen member)
  · intro acyclic
    cases found : raiseOnCycle targets nodes with
    | ok finished => exact ⟨finished, rfl⟩
    | error cycle =>
        obtain ⟨walk, inside⟩ := closedWalk_of_raiseOnCycle closed found
        obtain ⟨node, member, again⟩ := walk.transGen
        exact absurd again (acyclic node (inside member))

end Search

end CapabilityHub.DepthFirst
