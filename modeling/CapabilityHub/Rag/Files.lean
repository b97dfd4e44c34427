import CapabilityHub.Data.Checks
import CapabilityHub.Data.Order
import CapabilityHub.Errors
import CapabilityHub.Text.Lines
import CapabilityHub.Text.Unicode
import Mathlib.Data.Prod.Lex
import Mathlib.Data.String.Basic

/-! # Passages of files

`_candidates` of the local provider: the files under a root are cut into chunks of lines, and those with
a word of the query are ranked.
-/

namespace CapabilityHub.Rag

/-- What `rglob` finds below a root. -/
structure TreeEntry where
  /-- `path.as_posix()` -/
  path : String
  isFile : Bool
  suffix : String
  /-- The resolved path relative to the root; `none` where it cannot be resolved or leads outside. -/
  relative : Option String

/-- A tree of files, with what can be read under a resolved path. -/
structure FileTree where
  entries : List TreeEntry
  content : String → Option Bytes

/-- The functions on texts that a search of files takes. -/
structure FileText where
  casefold : String → String
  /-- `_WORD.findall` -/
  words : String → List String
  /-- `raw.decode("utf-8", errors="replace")` -/
  decode : Bytes → String

/-- The bounds of a scan, which are positive. -/
structure ScanBounds where
  suffixes : List String
  chunkLines : Nat
  maxFiles : Nat
  maxFileBytes : Nat
  positive : 1 ≤ chunkLines ∧ 1 ≤ maxFiles ∧ 1 ≤ maxFileBytes

structure Candidate where
  score : Nat
  relative : String
  startLine : Nat
  text : String
  deriving DecidableEq

/-- `candidates` with the number of files looked at and the readings of the clock so far. -/
structure Scan where
  visited : Nat := 0
  readings : Nat := 0
  candidates : List Candidate := []

def deadlineExceeded : Raised :=
  .hub {
    code := "rag_deadline_exceeded"
    category := .timeout
    safeMessage := "The RAG retrieval exceeded its deadline." }

/-- `text.count(sub)` for a `sub` that is not empty, with the characters of a match still to pass. -/
def countFrom (sub : List Char) : Nat → List Char → Nat
  | _, [] => 0
  | skip + 1, _ :: rest => countFrom sub skip rest
  | 0, char :: rest =>
      if sub.isPrefixOf (char :: rest) then countFrom sub (sub.length - 1) rest + 1
      else countFrom sub 0 rest

/-- `"\n".join(lines)` -/
def joinLines : List (List Char) → List Char := ['\n'].intercalate

/-- The lines of a chunk. -/
def chunkAt (chunkLines : Nat) (lines : List (List Char)) (offset : Nat) : List (List Char) :=
  (lines.drop offset).take chunkLines

/-- The text of a chunk. -/
def chunkText (chunkLines : Nat) (lines : List (List Char)) (offset : Nat) : String :=
  strip (String.ofList (joinLines (chunkAt chunkLines lines offset)))

/-- `range(0, count, step)` -/
def offsets (count step : Nat) : List Nat := (List.range ((count + step - 1) / step)).map (· * step)

/-- The lines of the content of a file. -/
def linesOf (text : FileText) (raw : Bytes) : List (List Char) := splitBreaks (text.decode raw).toList

/-- The order of candidates: the highest score first. -/
def candidateKey (candidate : Candidate) : ℕᵒᵈ ×ₗ String ×ₗ ℕ :=
  toLex (OrderDual.toDual candidate.score, toLex (candidate.relative, candidate.startLine))

section

variable (text : FileText) (bounds : ScanBounds) (overdue : Nat → Bool) (terms : List String)

/-- `score` -/
def scoreOf (passage : String) : Nat :=
  terms.foldl (fun score term => score + countFrom term.toList 0 (text.casefold passage).toList) 0

/-- One chunk of a file; `overdue` says whether a reading of the clock is after the deadline. -/
def scanChunk (relative : String) (lines : List (List Char)) (scan : Scan) (offset : Nat) :
    Except Raised Scan := do
  raiseIf (overdue scan.readings = true) deadlineExceeded
  let passage := chunkText bounds.chunkLines lines offset
  let score := scoreOf text terms passage
  pure { scan with
    readings := scan.readings + 1
    candidates :=
      if passage ≠ "" ∧ score ≠ 0 then scan.candidates ++ [⟨score, relative, offset + 1, passage⟩]
      else scan.candidates }

/-- One entry of the tree. -/
def scanEntry (content : String → Option Bytes) (scan : Scan) (entry : TreeEntry) : Except Raised Scan :=
  if entry.isFile = false ∨ text.casefold entry.suffix ∉ bounds.suffixes then .ok scan
  else
    match entry.relative with
    | none => .ok scan
    | some relative =>
        let scan := { scan with visited := scan.visited + 1 }
        match content relative with
        | none => .ok scan
        | some raw =>
            if bounds.maxFileBytes < raw.length then .ok scan
            else
              (offsets (linesOf text raw).length bounds.chunkLines).foldlM
                (scanChunk text bounds overdue terms relative (linesOf text raw)) scan

/-- The loop over the entries. -/
def scanEntries (content : String → Option Bytes) : List TreeEntry → Scan → Except Raised Scan
  | [], scan => .ok scan
  | entry :: rest, scan => do
      raiseIf (overdue scan.readings = true) deadlineExceeded
      let scan := { scan with readings := scan.readings + 1 }
      if bounds.maxFiles ≤ scan.visited then pure scan
      else
        let scanned ← scanEntry text bounds overdue terms content scan entry
        scanEntries content rest scanned

/-- `_candidates`. -/
def candidates (tree : FileTree) : Except Raised (List Candidate) := do
  let scan ← scanEntries text bounds overdue terms tree.content (sortedBy TreeEntry.path tree.entries) {}
  pure (sortedBy candidateKey scan.candidates)

end

/-! ## Where candidates come from -/

variable {text : FileText} {bounds : ScanBounds} {overdue : Nat → Bool} {terms : List String}
  {content : String → Option Bytes} {entries : List TreeEntry} {entry : TreeEntry} {scan next : Scan}
  {candidate : Candidate} {lines : List (List Char)} {relative : String} {tree : FileTree}

/-- **CutFrom**: a candidate is a chunk of a file, with the number of the first line of the chunk. -/
structure CutFrom (text : FileText) (bounds : ScanBounds) (content : String → Option Bytes)
    (candidate : Candidate) (raw : Bytes) (offset : Nat) : Prop where
  read : content candidate.relative = some raw
  cut : offset ∈ offsets (linesOf text raw).length bounds.chunkLines
  start : candidate.startLine = offset + 1
  passage : candidate.text = chunkText bounds.chunkLines (linesOf text raw) offset
  written : candidate.text ≠ ""

/-- Every candidate of a scan is a chunk of some file. -/
def Scan.Cut (text : FileText) (bounds : ScanBounds) (content : String → Option Bytes)
    (scan : Scan) : Prop :=
  ∀ candidate ∈ scan.candidates, ∃ raw offset, CutFrom text bounds content candidate raw offset

theorem scanChunk_cut {raw : Bytes} {offset : Nat} (read : content relative = some raw)
    (inside : offset ∈ offsets (linesOf text raw).length bounds.chunkLines)
    (cut : scan.Cut text bounds content)
    (done : scanChunk text bounds overdue terms relative (linesOf text raw) scan offset = .ok next) :
    next.Cut text bounds content := by
  obtain ⟨-, -, same⟩ := bind_eq_ok.mp done
  rw [pure_eq_ok] at same
  subst same
  intro candidate member
  dsimp only at member
  split at member
  next taken =>
    rcases List.mem_append.mp member with earlier | new
    · exact cut candidate earlier
    · rw [List.mem_singleton] at new
      subst new
      exact ⟨raw, offset, read, inside, rfl, rfl, taken.1⟩
  next => exact cut candidate member

theorem foldlM_scanChunk_cut {raw : Bytes} {places : List Nat} (read : content relative = some raw)
    (inside : places ⊆ offsets (linesOf text raw).length bounds.chunkLines)
    (cut : scan.Cut text bounds content)
    (done : places.foldlM (scanChunk text bounds overdue terms relative (linesOf text raw)) scan = .ok next) :
    next.Cut text bounds content := by
  induction places generalizing scan with
  | nil =>
      cases done
      exact cut
  | cons offset places ih =>
      rw [List.foldlM_cons] at done
      obtain ⟨between, first, rest⟩ := bind_eq_ok.mp done
      obtain ⟨here, others⟩ := List.cons_subset.mp inside
      exact ih others (scanChunk_cut read here cut first) rest

theorem scanEntry_cut (cut : scan.Cut text bounds content)
    (done : scanEntry text bounds overdue terms content scan entry = .ok next) :
    next.Cut text bounds content := by
  rw [scanEntry] at done
  split at done
  · cases done
    exact cut
  split at done
  · cases done
    exact cut
  next relative _ =>
    dsimp only at done
    split at done
    · cases done
      exact cut
    next raw read =>
      split at done
      · cases done
        exact cut
      · have entered : Scan.Cut text bounds content { scan with visited := scan.visited + 1 } := cut
        exact foldlM_scanChunk_cut read (List.Subset.refl _) entered done

theorem scanEntries_cut (cut : scan.Cut text bounds content)
    (done : scanEntries text bounds overdue terms content entries scan = .ok next) :
    next.Cut text bounds content := by
  induction entries generalizing scan with
  | nil =>
      cases done
      exact cut
  | cons entry entries ih =>
      rw [scanEntries] at done
      obtain ⟨-, -, done⟩ := bind_eq_ok.mp done
      dsimp only at done
      split at done
      · cases done
        exact cut
      · obtain ⟨between, first, rest⟩ := bind_eq_ok.mp done
        have entered : Scan.Cut text bounds content { scan with readings := scan.readings + 1 } := cut
        exact ih (scanEntry_cut entered first) rest

/-- Every candidate is a chunk of a file of the tree. -/
theorem candidates_cut {found : List Candidate}
    (done : candidates text bounds overdue terms tree = .ok found) (member : candidate ∈ found) :
    ∃ raw offset, CutFrom text bounds tree.content candidate raw offset := by
  obtain ⟨scan, scanned, same⟩ := bind_eq_ok.mp done
  rw [pure_eq_ok] at same
  subst same
  rw [mem_sortedBy] at member
  have start : (({} : Scan)).Cut text bounds tree.content := by
    intro candidate absurd
    cases absurd
  exact scanEntries_cut start scanned candidate member

/-! ## How a scan fails -/

variable {raised : Raised}

theorem scanChunk_error {offset : Nat}
    (failed : scanChunk text bounds overdue terms relative lines scan offset = .error raised) :
    raised = deadlineExceeded := by
  rw [scanChunk, raiseIf] at failed
  split at failed
  · cases failed
    rfl
  · cases failed

theorem foldlM_scanChunk_error {places : List Nat}
    (failed : places.foldlM (scanChunk text bounds overdue terms relative lines) scan = .error raised) :
    raised = deadlineExceeded := by
  induction places generalizing scan with
  | nil => cases failed
  | cons offset places ih =>
      rw [List.foldlM_cons] at failed
      cases first : scanChunk text bounds overdue terms relative lines scan offset with
      | error other =>
          rw [first] at failed
          cases failed
          exact scanChunk_error first
      | ok next =>
          rw [first] at failed
          exact ih failed

theorem scanEntry_error
    (failed : scanEntry text bounds overdue terms content scan entry = .error raised) :
    raised = deadlineExceeded := by
  rw [scanEntry] at failed
  split at failed
  · cases failed
  split at failed
  · cases failed
  dsimp only at failed
  split at failed
  · cases failed
  split at failed
  · cases failed
  · exact foldlM_scanChunk_error failed

theorem scanEntries_error
    (failed : scanEntries text bounds overdue terms content entries scan = .error raised) :
    raised = deadlineExceeded := by
  induction entries generalizing scan with
  | nil => cases failed
  | cons entry entries ih =>
      rw [scanEntries, raiseIf] at failed
      split at failed
      · cases failed
        rfl
      · rw [ok_bind] at failed
        dsimp only at failed
        split at failed
        · cases failed
        · cases first : scanEntry text bounds overdue terms content
              { scan with readings := scan.readings + 1 } entry with
          | error other =>
              rw [first] at failed
              cases failed
              exact scanEntry_error first
          | ok between =>
              rw [first] at failed
              exact ih failed

/-- A scan fails only at its deadline. -/
theorem candidates_error (failed : candidates text bounds overdue terms tree = .error raised) :
    raised = deadlineExceeded := by
  rw [candidates] at failed
  cases scanned : scanEntries text bounds overdue terms tree.content
      (sortedBy TreeEntry.path tree.entries) {} with
  | error other =>
      rw [scanned] at failed
      cases failed
      exact scanEntries_error scanned
  | ok scan =>
      rw [scanned] at failed
      cases failed

/-! ## Chunks -/

theorem mem_offsets {count step offset : Nat} (positive : 1 ≤ step) :
    offset ∈ offsets count step ↔ offset < count ∧ step ∣ offset := by
  rw [offsets, List.mem_map]
  constructor
  · rintro ⟨index, member, rfl⟩
    rw [List.mem_range, Nat.lt_div_iff_mul_lt positive] at member
    exact ⟨by omega, Nat.dvd_mul_left step index⟩
  · rintro ⟨inside, index, rfl⟩
    refine ⟨index, ?_, Nat.mul_comm _ _⟩
    rw [List.mem_range, Nat.lt_div_iff_mul_lt positive, Nat.mul_comm]
    omega

/-- A line of a file is in one chunk. -/
theorem existsUnique_chunk {count step line : Nat} (positive : 1 ≤ step) (inside : line < count) :
    ∃! offset, offset ∈ offsets count step ∧ offset ≤ line ∧ line < offset + step := by
  refine ⟨line / step * step, ⟨?_, ?_, ?_⟩, ?_⟩
  · rw [mem_offsets positive]
    exact ⟨(Nat.div_mul_le_self line step).trans_lt inside, Nat.dvd_mul_left step _⟩
  · exact Nat.div_mul_le_self line step
  · have rest := Nat.lt_mul_div_succ line positive
    rw [Nat.mul_succ, Nat.mul_comm] at rest
    exact rest
  · rintro offset ⟨member, before, behind⟩
    obtain ⟨-, index, rfl⟩ := (mem_offsets positive).mp member
    have same : line / step = index := by
      rw [Nat.div_eq_iff positive]
      constructor
      · rw [Nat.mul_comm]
        exact before
      · rw [Nat.mul_comm]
        omega
    rw [same, Nat.mul_comm]

end CapabilityHub.Rag
