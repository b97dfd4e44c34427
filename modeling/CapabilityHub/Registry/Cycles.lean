import CapabilityHub.Registry.Registry
import Mathlib.Data.Finset.Insert
import Mathlib.Data.Finset.Erase

/-! # The search for dependency cycles

`_raise_on_cycle` with the three collections that it changes on its way. It does what the depth-first
search does that is written over lists, and so it ends, raises exactly for the graphs that have a
cycle, and reports one of them (`CapabilityHub.Registry.detects_searchCycles`).
-/

namespace CapabilityHub.Registry

/-- The collections of `_raise_on_cycle`. -/
structure CycleSearch where
  visiting : Finset String := ∅
  visited : Finset String := ∅
  path : List String := []

/-- How a search ends that does not return. -/
inductive Halt where
  | raised (raised : Raised)
  | keyError
  /-- The calls of `visit` are nested deeper than the bound. -/
  | tooDeep

def cycleError (cycle : List String) : Raised :=
  dependencyError "dependency_cycle" "Dependency cycle detected." [("cycle", .texts cycle)]

variable (graph : Dict String (List String))

/-- `visit`, with a bound for how deep its calls are nested. -/
def CycleSearch.visit (depth : Nat) (search : CycleSearch) (node : String) : Except Halt CycleSearch :=
  if node ∈ search.visiting then
    .error (.raised (cycleError (search.path.drop (search.path.idxOf node) ++ [node])))
  else if node ∈ search.visited then .ok search
  else
    match depth with
    | 0 => .error .tooDeep
    | depth + 1 =>
        match graph.get? node with
        | none => .error .keyError
        | some targets => do
            let entered : CycleSearch := { search with
              visiting := insert node search.visiting
              path := search.path ++ [node] }
            let left ← targets.foldlM (CycleSearch.visit depth) entered
            pure ⟨left.visiting.erase node, insert node left.visited, left.path.dropLast⟩

/-- `_raise_on_cycle`. -/
def searchCycles (depth : Nat) : Except Halt CycleSearch :=
  (sortedBy id graph.keys).foldlM (CycleSearch.visit graph depth) {}

/-- The targets of a node. -/
def edgesOf (node : String) : List String := graph.getD node []

/-- Every target of an edge is a node. -/
def EdgesInside : Prop :=
  ∀ source targets, graph.get? source = some targets → ∀ target ∈ targets, target ∈ graph.keys

/-- What a search for cycles makes of the graph. -/
structure Detects (outcome : Except Halt CycleSearch) : Prop where
  ends : (∃ search, outcome = .ok search) ∨ ∃ cycle, outcome = .error (.raised (cycleError cycle))
  raises_iff : (∃ cycle, outcome = .error (.raised (cycleError cycle))) ↔
    ∃ node ∈ graph.keys,
      Relation.TransGen (fun source target => target ∈ edgesOf graph source) node node
  walk : ∀ cycle, outcome = .error (.raised (cycleError cycle)) →
    DepthFirst.ClosedWalk (edgesOf graph) cycle ∧ cycle ⊆ graph.keys

variable {graph} {search : CycleSearch} {path visited : List String} {node : String} {depth : Nat}

/-- The collections stand for the path and the finished nodes of the search over lists. -/
structure CycleSearch.Tracks (search : CycleSearch) (path visited : List String) : Prop where
  visiting : ∀ node, node ∈ search.visiting ↔ node ∈ path
  visited : ∀ node, node ∈ search.visited ↔ node ∈ visited
  path : search.path = path

/-- Both searches end alike. The search over lists reports an empty cycle where it gives up. -/
inductive EndsAlike (path : List String) :
    Except Halt CycleSearch → Except (List String) (List String) → Prop
  | ok {search : CycleSearch} {visited : List String} (tracks : search.Tracks path visited) :
      EndsAlike path (.ok search) (.ok visited)
  | cycle {cycle : List String} (given : cycle ≠ []) :
      EndsAlike path (.error (.raised (cycleError cycle))) (.error cycle)
  | tooDeep : EndsAlike path (.error .tooDeep) (.error [])

theorem drop_idxOf (path : List String) (node : String) :
    path.drop (path.idxOf node) = path.dropWhile fun other => other ≠ node := by
  rw [List.dropWhile_eq_drop_findIdx_not, List.idxOf]
  congr 2
  funext other
  rw [decide_not, Bool.not_not]
  rfl

theorem endsAlike_foldlM {first : CycleSearch → String → Except Halt CycleSearch}
    {second : List String → String → Except (List String) (List String)} {nodes : List String}
    (step : ∀ {search visited}, ∀ node ∈ nodes, search.Tracks path visited →
      EndsAlike path (first search node) (second visited node))
    (tracks : search.Tracks path visited) :
    EndsAlike path (nodes.foldlM first search) (nodes.foldlM second visited) := by
  induction nodes generalizing search visited with
  | nil => exact .ok tracks
  | cons node nodes ih =>
      rw [List.foldlM_cons, List.foldlM_cons]
      have here := step node List.mem_cons_self tracks
      generalize first search node = found at here
      generalize second visited node = found' at here
      cases here with
      | ok tracks' => exact ih (fun node member => step node (List.mem_cons_of_mem _ member)) tracks'
      | cycle given => exact .cycle given
      | tooDeep => exact .tooDeep

/-- A call of `visit` ends as the one of the search over lists does. -/
theorem endsAlike_visit (inside : EdgesInside graph) (member : node ∈ graph.keys)
    (tracks : search.Tracks path visited) :
    EndsAlike path (CycleSearch.visit graph depth search node)
      (DepthFirst.visit (edgesOf graph) depth path visited node) := by
  induction depth generalizing search path visited node with
  | zero =>
      rw [CycleSearch.visit, DepthFirst.visit, tracks.path, drop_idxOf]
      simp only [tracks.visiting, tracks.visited]
      split
      · exact .cycle (by simp)
      · split
        · exact .ok tracks
        · exact .tooDeep
  | succ depth ih =>
      rw [CycleSearch.visit, DepthFirst.visit, tracks.path, drop_idxOf]
      simp only [tracks.visiting, tracks.visited]
      split
      · exact .cycle (by simp)
      next outside =>
        split
        · exact .ok tracks
        · obtain ⟨targets, found⟩ := Dict.get?_isSome_iff.mpr member
          have edges : edgesOf graph node = targets := by rw [edgesOf, Dict.getD, found, Option.getD_some]
          rw [found, edges]
          dsimp only
          have entered : CycleSearch.Tracks
              ⟨insert node search.visiting, search.visited, path ++ [node]⟩ (path ++ [node]) visited := by
            refine ⟨fun other => ?_, tracks.visited, rfl⟩
            rw [Finset.mem_insert, tracks.visiting, List.mem_append, List.mem_singleton, or_comm]
          have step {search : CycleSearch} {visited : List String} (target : String)
              (edge : target ∈ targets) (tracks : search.Tracks (path ++ [node]) visited) :=
            ih (inside node targets found target edge) tracks
          have below := endsAlike_foldlM step entered
          generalize targets.foldlM (CycleSearch.visit graph depth) _ = left at below ⊢
          generalize targets.foldlM (DepthFirst.visit (edgesOf graph) depth (path ++ [node])) visited = left'
            at below ⊢
          cases below with
          | cycle given => exact .cycle given
          | tooDeep => exact .tooDeep
          | ok tracks' =>
              refine .ok ⟨fun other => ?_, fun other => ?_, ?_⟩
              · rw [Finset.mem_erase, tracks'.visiting, List.mem_append, List.mem_singleton]
                constructor
                · intro left
                  exact left.2.resolve_right left.1
                · intro member
                  exact ⟨fun same => outside (same ▸ member), .inl member⟩
              · rw [Finset.mem_insert, tracks'.visited, List.mem_append, List.mem_singleton, or_comm]
              · rw [tracks'.path, List.dropLast_concat]

/-- The search as a whole ends as the one over lists does. -/
theorem endsAlike_searchCycles (inside : EdgesInside graph) (depth : Nat) :
    EndsAlike [] (searchCycles graph depth)
      ((sortedBy id graph.keys).foldlM (DepthFirst.visit (edgesOf graph) depth []) []) := by
  apply endsAlike_foldlM
  · intro search visited node member tracks
    exact endsAlike_visit inside ((mem_sortedBy id).mp member) tracks
  · exact ⟨by simp, by simp, rfl⟩

/-- **The search for cycles.** Nested at most as deep as there are nodes, the calls of `visit` end. The
search raises exactly for the graphs with a cycle, and what it reports is a closed walk in which only
the first node comes again. -/
theorem detects_searchCycles (graph : Dict String (List String)) (inside : EdgesInside graph)
    (depth : Nat) (enough : graph.size ≤ depth) : Detects graph (searchCycles graph depth) := by
  have nodes (node : String) : node ∈ sortedBy id graph.keys ↔ node ∈ graph.keys := mem_sortedBy id
  have closed : DepthFirst.Closed (edgesOf graph) (sortedBy id graph.keys) := by
    intro source member target edge
    obtain ⟨targets, found⟩ := Dict.get?_isSome_iff.mpr ((nodes source).mp member)
    rw [edgesOf, Dict.getD, found] at edge
    exact (nodes target).mpr (inside source targets found target edge)
  have length : (sortedBy id graph.keys).length ≤ depth + ([] : List String).length := by
    rw [(perm_sortedBy id graph.keys).length_eq, Dict.length_keys]
    exact enough
  have alike := endsAlike_searchCycles inside depth
  generalize searchCycles graph depth = outcome at alike ⊢
  cases found : (sortedBy id graph.keys).foldlM (DepthFirst.visit (edgesOf graph) depth []) [] with
  | ok finished =>
      rw [found] at alike
      cases alike with
      | ok tracks =>
          have reached : DepthFirst.Extends (edgesOf graph) [] [] (sortedBy id graph.keys) finished :=
            DepthFirst.extends_of_foldlM DepthFirst.visit_eq_ok .nil found
          refine ⟨.inl ⟨_, rfl⟩, ⟨?_, ?_⟩, fun cycle same => by cases same⟩
          · rintro ⟨cycle, same⟩
            cases same
          · rintro ⟨node, member, walk⟩
            exact absurd walk
              (reached.settled.acyclic node (reached.seen ((nodes node).mpr member)))
  | error cycle =>
      obtain ⟨source, member, reached, raised⟩ := DepthFirst.foldlM_eq_error found
      have walk : DepthFirst.ClosedWalk (edgesOf graph) cycle ∧ cycle ⊆ sortedBy id graph.keys :=
        DepthFirst.visit_eq_error closed (List.nil_subset _) member List.nodup_nil length
          (List.isChain_singleton _) raised
      have inside' : cycle ⊆ graph.keys := fun node member => (nodes node).mp (walk.2 member)
      rw [found] at alike
      cases alike with
      | cycle given =>
          refine ⟨.inr ⟨cycle, rfl⟩, ⟨fun _ => ?_, fun _ => ⟨cycle, rfl⟩⟩, ?_⟩
          · obtain ⟨node, on, again⟩ := walk.1.transGen
            exact ⟨node, inside' on, again⟩
          · intro other same
            cases same
            exact ⟨walk.1, inside'⟩
      | tooDeep =>
          obtain ⟨node, inner, same⟩ := walk.1.closes
          cases same

/-- Three nodes, two of which depend on each other. -/
def knot : Dict String (List String) :=
  Dict.ofEntries [("a", ["b"]), ("b", ["c", "b"]), ("c", [])]

theorem detects_knot : Detects knot (searchCycles knot 3) := by
  have inside : ∀ entry ∈ knot.entries, ∀ target ∈ entry.2, target ∈ knot.keys := by decide
  apply detects_searchCycles knot _ 3 (by decide)
  intro source targets found target edge
  exact inside (source, targets) (Dict.mem_entries_iff.mpr found) target edge

end CapabilityHub.Registry
