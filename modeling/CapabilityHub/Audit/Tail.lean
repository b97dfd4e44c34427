import CapabilityHub.Text.Lines
import Mathlib.Data.List.DropRight

/-! # The last lines of a file

`_tail_lines` reads a file from its end, in pieces, until it has enough line ends. What it keeps are
whole lines (`CapabilityHub.Audit.tailContent_lines`).
-/

namespace CapabilityHub.Audit

/-- `b"\n"`. -/
def newline : UInt8 := 10

/-- What has been read of a file from its end. -/
structure TailState where
  position : Nat
  chunks : List Bytes := []
  loaded : Nat := 0
  newlines : Nat := 0

section

variable (file : Bytes) (limit maxBytes : Nat)

def chunkSize (state : TailState) : Nat := min 8192 (min state.position (maxBytes - state.loaded))

/-- One round of the loop. -/
def readChunk (state : TailState) : TailState :=
  let size := chunkSize maxBytes state
  let position := state.position - size
  let chunk := (file.drop position).take size
  { position
    chunks := state.chunks ++ [chunk]
    loaded := state.loaded + chunk.length
    newlines := state.newlines + chunk.count newline }

def readChunks (state : TailState) : TailState :=
  if state.position ≠ 0 ∧ state.loaded < maxBytes ∧ state.newlines ≤ limit then
    readChunks (readChunk file maxBytes state)
  else state
termination_by state.position
decreasing_by
  simp only [readChunk, chunkSize]
  omega

/-- The bytes after the first line end; none where there is no line end. -/
def afterNewline (content : Bytes) : Bytes := (content.dropWhile (· ≠ newline)).drop 1

/-- The bytes that `_tail_lines` decodes. -/
def tailContent : Bytes :=
  let state := readChunks file limit maxBytes { position := file.length }
  let content := state.chunks.reverse.flatten
  if state.position ≠ 0 then afterNewline content else content

/-- `content.decode("utf-8", errors="replace")`, in which `replaced` stands for the decoding of bytes
that are not UTF-8. -/
def decodeReplace (replaced : Bytes → String) (content : Bytes) : String :=
  (decodeUtf8 content).getD (replaced content)

/-- `_tail_lines`; there is no file where the path does not exist. -/
def tailLines (replaced : Bytes → String) (file : Option Bytes) (limit : Nat) : List (List Char) :=
  match file with
  | none => []
  | some file => splitBreaks (decodeReplace replaced (tailContent file limit 1048576)).toList

end

variable {file : Bytes} {limit maxBytes : Nat} {state : TailState}

/-! ## What is read -/

/-- The pieces are the end of the file from the position on. -/
structure TailState.Reading (file : Bytes) (state : TailState) : Prop where
  inside : state.position ≤ file.length
  content : state.chunks.reverse.flatten = file.drop state.position
  loaded : state.loaded = file.length - state.position
  newlines : state.newlines = (file.drop state.position).count newline

theorem reading_readChunk (reading : state.Reading file) :
    (readChunk file maxBytes state).Reading file := by
  obtain ⟨inside, content, loaded, newlines⟩ := reading
  have size : chunkSize maxBytes state ≤ state.position := by
    unfold chunkSize
    omega
  have pieces : file.drop (state.position - chunkSize maxBytes state) =
      (file.drop (state.position - chunkSize maxBytes state)).take (chunkSize maxBytes state) ++
        file.drop state.position := by
    have rest := List.take_append_drop (chunkSize maxBytes state)
      (file.drop (state.position - chunkSize maxBytes state))
    rw [List.drop_drop, Nat.sub_add_cancel size] at rest
    exact rest.symm
  refine ⟨?_, ?_, ?_, ?_⟩
  · exact Nat.le_trans (Nat.sub_le _ _) inside
  · simp only [readChunk, List.reverse_append, List.reverse_singleton, List.singleton_append,
      List.flatten_cons, content]
    exact pieces.symm
  · simp only [readChunk, loaded, List.length_take, List.length_drop]
    omega
  · have counted := congrArg (List.count newline) pieces
    rw [List.count_append] at counted
    simp only [readChunk, newlines, counted]
    exact Nat.add_comm _ _

/-- The loop ends at the start of the file, with all the bytes it may read, or with enough line ends. -/
theorem reading_readChunks (reading : state.Reading file) :
    (readChunks file limit maxBytes state).Reading file ∧
      ((readChunks file limit maxBytes state).position = 0 ∨
        maxBytes ≤ (readChunks file limit maxBytes state).loaded ∨
        limit < (readChunks file limit maxBytes state).newlines) := by
  fun_induction readChunks file limit maxBytes state with
  | case1 state more ih => exact ih (reading_readChunk reading)
  | case2 state done => exact ⟨reading, by omega⟩

theorem reading_start : TailState.Reading file { position := file.length } where
  inside := Nat.le_refl _
  content := by rw [List.drop_length]; rfl
  loaded := (Nat.sub_self _).symm
  newlines := by rw [List.drop_length]; rfl

/-! ## Whole lines -/

/-- The bytes of lines that each have a line end. -/
def linesBytes (lines : List Bytes) : Bytes := lines.flatMap (· ++ [newline])

variable {lines : List Bytes}

theorem afterNewline_line {line rest : Bytes} (single : newline ∉ line) :
    afterNewline (line ++ newline :: rest) = rest := by
  have inner : ∀ byte ∈ line, decide (byte ≠ newline) = true := fun byte member =>
    decide_eq_true fun same => single (same ▸ member)
  rw [afterNewline, List.dropWhile_append_of_pos inner,
    List.dropWhile_cons_of_neg (by simp)]
  rfl

theorem count_linesBytes (single : ∀ line ∈ lines, newline ∉ line) :
    (linesBytes lines).count newline = lines.length := by
  induction lines with
  | nil => rfl
  | cons line lines ih =>
      obtain ⟨here, others⟩ := List.forall_mem_cons.mp single
      rw [linesBytes, List.flatMap_cons, List.count_append, List.count_append,
        List.count_eq_zero.mpr here, List.count_singleton_self]
      rw [linesBytes] at ih
      rw [ih others, List.length_cons]
      omega

/-- From a place in a file, after the next line end, there are whole lines: one less than there are
line ends. -/
theorem afterNewline_drop (single : ∀ line ∈ lines, newline ∉ line) {position : Nat}
    (inside : position ≤ (linesBytes lines).length) :
    ((linesBytes lines).drop position).count newline ≤ lines.length ∧
    afterNewline ((linesBytes lines).drop position) =
      linesBytes (lines.drop
        (lines.length - (((linesBytes lines).drop position).count newline - 1))) := by
  induction lines generalizing position with
  | nil => simp [linesBytes, afterNewline]
  | cons line lines ih =>
      obtain ⟨here, others⟩ := List.forall_mem_cons.mp single
      have split : linesBytes (line :: lines) = line ++ newline :: linesBytes lines := by
        simp [linesBytes]
      rw [split] at inside ⊢
      by_cases early : position ≤ line.length
      · have rest : (line ++ newline :: linesBytes lines).drop position =
            line.drop position ++ newline :: linesBytes lines := List.drop_append_of_le_length early
        have inner : newline ∉ line.drop position := fun member => here (List.mem_of_mem_drop member)
        have count : ((line ++ newline :: linesBytes lines).drop position).count newline =
            lines.length + 1 := by
          rw [rest, List.count_append, List.count_eq_zero.mpr inner, List.count_cons_self,
            count_linesBytes others, Nat.zero_add]
        rw [count, rest, afterNewline_line inner, List.length_cons]
        refine ⟨Nat.le_refl _, ?_⟩
        rw [show lines.length + 1 - (lines.length + 1 - 1) = 1 by omega]
        rfl
      · have rest : (line ++ newline :: linesBytes lines).drop position =
            (linesBytes lines).drop (position - line.length - 1) := by
          have past : position - line.length = (position - line.length - 1) + 1 := by omega
          rw [List.drop_append, List.drop_eq_nil_of_le (Nat.le_of_not_le early), List.nil_append,
            past, List.drop_succ_cons, ← past]
        rw [List.length_append, List.length_cons] at inside
        have within' : position - line.length - 1 ≤ (linesBytes lines).length := by omega
        obtain ⟨bound, kept⟩ := ih others within'
        rw [rest, kept, List.length_cons]
        refine ⟨Nat.le_succ_of_le bound, ?_⟩
        rw [show lines.length + 1 - (((linesBytes lines).drop (position - line.length - 1)).count
          newline - 1) = lines.length - (((linesBytes lines).drop
            (position - line.length - 1)).count newline - 1) + 1 by omega, List.drop_succ_cons]

/-- The last lines that the limit asks for, and one before them, are not more than may be read. -/
def TailFits (lines : List Bytes) (limit maxBytes : Nat) : Prop :=
  (linesBytes (lines.rtake (limit + 1))).length ≤ maxBytes

/-- What is decoded is whole lines from the end of the file, as many as the limit asks for. -/
theorem tailContent_lines (single : ∀ line ∈ lines, newline ∉ line)
    (fits : TailFits lines limit maxBytes) :
    ∃ count, min limit lines.length ≤ count ∧ count ≤ lines.length ∧
      tailContent (linesBytes lines) limit maxBytes =
        linesBytes (lines.rtake count) := by
  obtain ⟨reading, ended⟩ := @reading_readChunks _ limit maxBytes _
    (@reading_start (linesBytes lines))
  rw [tailContent]
  generalize readChunks (linesBytes lines) limit maxBytes
    { position := (linesBytes lines).length } = state at reading ended
  obtain ⟨inside, content, loaded, newlines⟩ := reading
  simp only [content]
  by_cases start : state.position = 0
  · rw [if_neg (not_not.mpr start), start, List.drop_zero]
    refine ⟨lines.length, Nat.min_le_right _ _, Nat.le_refl _, ?_⟩
    rw [List.rtake, Nat.sub_self, List.drop_zero]
  · rw [if_pos start]
    obtain ⟨bound, kept⟩ := afterNewline_drop single inside
    rw [← newlines] at bound kept
    refine ⟨state.newlines - 1, ?_, by omega, kept⟩
    rcases ended with zero | full | enough
    · exact absurd zero start
    · -- all that may be read holds the last lines and the one before them
      have longer : limit + 1 ≤ lines.length := by
        by_contra fewer
        rw [TailFits, List.rtake, Nat.sub_eq_zero_of_le (by omega), List.drop_zero] at fits
        omega
      have suffix : linesBytes lines = linesBytes (lines.take (lines.length - (limit + 1))) ++
          linesBytes (lines.drop (lines.length - (limit + 1))) := by
        rw [linesBytes, linesBytes, linesBytes, ← List.flatMap_append, List.take_append_drop]
      have sum := congrArg List.length suffix
      rw [List.length_append] at sum
      rw [TailFits, List.rtake] at fits
      have held : (linesBytes (lines.drop (lines.length - (limit + 1)))).Sublist
          ((linesBytes lines).drop state.position) := by
        conv => rhs; rw [suffix]
        rw [List.drop_append_of_le_length (by omega)]
        exact List.sublist_append_right _ _
      have counted := held.count_le newline
      rw [← newlines, count_linesBytes fun line member => single line (List.mem_of_mem_drop member),
        List.length_drop] at counted
      omega
    · omega

end CapabilityHub.Audit
