import CapabilityHub.Audit.Chain
import CapabilityHub.Audit.Tail
import CapabilityHub.Data.JsonSize

/-! # The audit log read back

`audit.py`. Events are written as JSON, one to a line, and the last ones are read back. They come back
as they were written if no text of theirs has a line break beyond ASCII, which JSON does not escape and
at which the reader ends a line (`CapabilityHub.Audit.readJsonlAudit_eq_iff`).
-/

namespace CapabilityHub.Audit

/-! ## Writing -/

/-- `asdict`. -/
def eventFields (event : AuditEvent) : Fields :=
  [("event_id", .str event.eventId),
    ("sequence", .int event.sequence),
    ("task_id", .str event.taskId),
    ("event_type", .str event.eventType),
    ("capability_revision", (event.capabilityRevision.map Json.str).getD .null),
    ("outcome", .str event.outcome),
    ("portable_tokens", .int event.portableTokens),
    ("payload_bytes", .int event.payloadBytes),
    ("reason_codes", .arr (event.reasonCodes.map Json.str)),
    ("metadata", (event.metadata.map fun metadata => Json.obj metadata.entries).getD .null)]

/-- The line of an event, without its end. -/
def eventText (event : AuditEvent) : String := canonicalJson (.obj (eventFields event))

/-- `JsonlAuditSink.emit`; there is no file before the first event. -/
def JsonlAuditSink.emit (file : Option Bytes) (event : AuditEvent) : Except Raised (Option Bytes) := do
  raiseIf (!(Json.obj (eventFields event)).printable) .valueError
  pure (some (file.getD [] ++ (encodeUtf8 (eventText event) ++ [newline])))

/-! ## Reading -/

/-- An `AuditEvent` as it is read, with the types that the file has. -/
structure ReadEvent where
  eventId : Json
  sequence : Json
  taskId : Json
  eventType : Json
  capabilityRevision : Json
  outcome : Json
  portableTokens : Json
  payloadBytes : Json
  reasonCodes : List Json
  metadata : Json

/-- `tuple(...)`; not everything can be iterated. -/
def tupleOf : Json → Option (List Json)
  | .arr items => some items
  | .str text => some (text.toList.map fun char => .str (String.singleton char))
  | .obj fields => some (fields.map fun field => .str field.1)
  | .null => none
  | .bool _ => none
  | .int _ => none

/-- `AuditEvent(...)` of the members of a line. -/
def readMembers (data : Fields) : Option ReadEvent := do
  let eventId ← mappingGet data "event_id"
  let sequence ← mappingGet data "sequence"
  let taskId ← mappingGet data "task_id"
  let eventType ← mappingGet data "event_type"
  let outcome ← mappingGet data "outcome"
  let reasonCodes ← tupleOf ((mappingGet data "reason_codes").getD (.arr []))
  pure {
    eventId, sequence, taskId, eventType
    capabilityRevision := (mappingGet data "capability_revision").getD .null
    outcome
    portableTokens := (mappingGet data "portable_tokens").getD (.int 0)
    payloadBytes := (mappingGet data "payload_bytes").getD (.int 0)
    reasonCodes
    metadata := (mappingGet data "metadata").getD .null }

/-- `isinstance(value, str)` -/
def isStr : Json → Bool
  | .str _ => true
  | _ => false

/-- `isinstance(value, int)` -/
def isInt : Json → Bool
  | .int _ => true
  | .bool _ => true
  | _ => false

/-- The event of a line; none where the loop goes on without one. -/
def readLine (line : List Char) : Option ReadEvent :=
  match loadsPrintable line with
  | some (.obj data) => (readMembers data).filter fun event => isStr event.eventId && isInt event.sequence
  | _ => none

/-- The loop over the lines, with what it has collected. -/
def readEvents (limit : Nat) : List (List Char) → List ReadEvent → List ReadEvent
  | [], events => events
  | line :: lines, events =>
      match readLine line with
      | none => readEvents limit lines events
      | some event =>
          if events.length + 1 = limit then events ++ [event]
          else readEvents limit lines (events ++ [event])

/-- `read_jsonl_audit`. -/
def readJsonlAudit (replaced : Bytes → String) (file : Option Bytes) (limit : Nat) :
    Except Raised (List ReadEvent) := do
  raiseIf (!(decide (1 ≤ limit) && decide (limit ≤ 500))) .valueError
  pure (readEvents limit (tailLines replaced file limit).reverse []).reverse

/-- An event as it is read from its own line. The metadata is the same mapping with its keys in
order. -/
def ReadEvent.ofEvent (event : AuditEvent) : ReadEvent where
  eventId := .str event.eventId
  sequence := .int event.sequence
  taskId := .str event.taskId
  eventType := .str event.eventType
  capabilityRevision := (event.capabilityRevision.map Json.str).getD .null
  outcome := .str event.outcome
  portableTokens := .int event.portableTokens
  payloadBytes := .int event.payloadBytes
  reasonCodes := event.reasonCodes.map Json.str
  metadata := (event.metadata.map fun metadata => (Json.obj metadata.entries).sorted).getD .null

/-- The line breaks of `str.splitlines` that `json.dumps` leaves as they are: next line, and the
separators of lines and of paragraphs. -/
def wideBreaks : List Char := ['\u0085', '\u2028', '\u2029']

/-- No text of an event has one of those line breaks. -/
def Unbroken (event : AuditEvent) : Prop :=
  ∀ letter ∈ (Json.obj (eventFields event)).letters, letter ∉ wideBreaks

variable {event : AuditEvent} {events : List AuditEvent} {file : Option Bytes} {limit : Nat}
variable {line : List Char} {lines : List (List Char)} {found : ReadEvent} {data : Fields}

/-! ## The file -/

/-- The bytes of an event in the file. -/
def eventBytes (event : AuditEvent) : Bytes := encodeUtf8 (eventText event)

theorem encodeUtf8_ofList (chars : List Char) :
    encodeUtf8 (String.ofList chars) = chars.flatMap String.utf8EncodeChar := by
  rw [encodeUtf8]
  change (String.ofList chars).toByteArray.data.toList = _
  rw [String.toByteArray_ofList, List.utf8Encode]
  simp

theorem newline_mem_utf8EncodeChar {char : Char} (member : newline ∈ String.utf8EncodeChar char) :
    char = '\n' := by
  have byte {value : Nat} (below : value < 256) : newline = UInt8.ofNat value → value = 10 := by
    intro same
    have number := congrArg UInt8.toNat same
    rw [UInt8.toNat_ofNat_of_lt' below] at number
    exact number.symm
  simp only [String.utf8EncodeChar] at member
  by_cases ascii : char.val.toNat ≤ 0x7f
  · rw [if_pos ascii, List.mem_singleton] at member
    exact Char.ext (UInt32.toNat_inj.mp (byte (by omega) member))
  · -- the bytes of the other characters are 128 and more
    rw [if_neg ascii] at member
    have larger : ∃ value, 128 ≤ value ∧ value < 256 ∧ newline = UInt8.ofNat value := by
      split at member
      · rcases List.mem_cons.mp member with same | member
        · exact ⟨_, by omega, by omega, same⟩
        · exact ⟨_, by omega, by omega, List.mem_singleton.mp member⟩
      split at member
      · simp only [List.mem_cons, List.not_mem_nil, or_false] at member
        rcases member with same | same | same
        all_goals exact ⟨_, by omega, by omega, same⟩
      · simp only [List.mem_cons, List.not_mem_nil, or_false] at member
        rcases member with same | same | same | same
        all_goals exact ⟨_, by omega, by omega, same⟩
    obtain ⟨value, large, below, same⟩ := larger
    rw [byte below same] at large
    exact absurd large (by decide)
theorem newline_notMem_eventBytes (event : AuditEvent) : newline ∉ eventBytes event := by
  intro member
  rw [eventBytes, ← String.ofList_toList (s := eventText event), encodeUtf8_ofList] at member
  obtain ⟨char, among, byte⟩ := List.mem_flatMap.mp member
  rw [newline_mem_utf8EncodeChar byte] at among
  exact newline_notMem_canonicalJson _ among

theorem JsonlAuditSink.emit_eq_ok (printable : (Json.obj (eventFields event)).printable = true) :
    JsonlAuditSink.emit file event = .ok (some (file.getD [] ++ (eventBytes event ++ [newline]))) := by
  rw [JsonlAuditSink.emit, printable]
  rfl

/-- A file of events is their lines, and there is one unless there are no events. -/
theorem emit_run (start : Option Bytes) (written : events.foldlM JsonlAuditSink.emit start = .ok file) :
    file.getD [] = start.getD [] ++ linesBytes (events.map eventBytes) ∧
      (∀ event ∈ events, (Json.obj (eventFields event)).printable = true) ∧
      (file = none → events = []) := by
  induction events generalizing start with
  | nil =>
      obtain rfl := Except.ok.inj written
      exact ⟨(List.append_nil _).symm, fun event member => absurd member List.not_mem_nil, fun _ => rfl⟩
  | cons event events ih =>
      rw [List.foldlM_cons, bind_eq_ok] at written
      obtain ⟨next, emitted, rest⟩ := written
      rw [JsonlAuditSink.emit, bind_eq_ok] at emitted
      obtain ⟨_, printable, same⟩ := emitted
      obtain rfl := Except.ok.inj same
      rw [raiseIf_eq_ok, Bool.not_eq_true', Bool.not_eq_false] at printable
      obtain ⟨content, others, none⟩ := ih _ rest
      refine ⟨?_, List.forall_mem_cons.mpr ⟨printable, others⟩, fun missing => ?_⟩
      · rw [content, Option.getD_some, List.append_assoc]
        rfl
      · rw [none missing] at rest
        rw [missing] at rest
        cases rest

/-- The text of the lines of events. -/
def eventsText (events : List AuditEvent) : List Char :=
  events.flatMap fun event => lineOf (eventText event)

theorem decodeUtf8_linesBytes (events : List AuditEvent) :
    decodeUtf8 (linesBytes (events.map eventBytes)) = some (String.ofList (eventsText events)) := by
  have bytes : linesBytes (events.map eventBytes) = encodeUtf8 (String.ofList (eventsText events)) := by
    rw [encodeUtf8_ofList, eventsText, List.flatMap_assoc, linesBytes, List.flatMap_map]
    refine congrArg (List.flatMap · events) (funext fun event => ?_)
    rw [lineOf, List.flatMap_append, ← encodeUtf8_ofList, String.ofList_toList]
    rfl
  rw [bytes, References.decodeUtf8_encodeUtf8]

/-! ## The lines -/

theorem splitBreaks_eventsText (events : List AuditEvent) :
    splitBreaks (eventsText events) = events.flatMap fun event => splitBreaks (lineOf (eventText event)) := by
  induction events with
  | nil => rfl
  | cons event events ih =>
      have single : '\r' ∉ (eventText event).toList := fun member =>
        absurd (printed_canonicalJson _ _ member) (by decide)
      obtain ⟨head, tail, _, split⟩ := splitBreaks_line single
      rw [eventsText, List.flatMap_cons, List.flatMap_cons, ← ih, lineOf, List.append_assoc,
        List.singleton_append, split, split, splitBreaks, List.append_nil, List.cons_append]
      rfl

/-! ## An event -/

theorem nodup_eventFields : ((eventFields event).map Prod.fst).Nodup := by
  simp [eventFields]

theorem sorted_getD {value : Option α} {write : α → Json} :
    ((value.map write).getD .null).sorted = (value.map fun given => (write given).sorted).getD .null := by
  cases value <;> rfl

/-- An event is read from its own line. -/
theorem readLine_eventText (loaded : (Json.obj (eventFields event)).Loaded) :
    readLine (eventText event).toList = some (ReadEvent.ofEvent event) := by
  have member (name : String) := @mappingGet_sortedMembers (eventFields event) name nodup_eventFields
  have codes : sortedItems (event.reasonCodes.map Json.str) = event.reasonCodes.map Json.str := by
    have sorted := Json.sorted_arr (event.reasonCodes.map Json.str)
    rw [List.map_map, Json.sorted] at sorted
    exact Json.arr.inj sorted
  have read : readMembers (sortedMembers (eventFields event)) = some (ReadEvent.ofEvent event) := by
    simp only [readMembers, member]
    simp only [eventFields, mappingGet_cons]
    simp only [String.reduceEq, if_true, if_false, Option.map_some, Option.getD_some, Json.sorted,
      tupleOf, codes, sorted_getD]
    rfl
  rw [readLine, eventText, loadsPrintable_canonicalJson loaded, Json.sorted_obj]
  dsimp only
  rw [read]
  rfl

/-- The letters of what is read. -/
def ReadEvent.letters (found : ReadEvent) : List Char :=
  lettersItems [found.eventId, found.sequence, found.taskId, found.eventType, found.capabilityRevision,
    found.outcome, found.portableTokens, found.payloadBytes, .arr found.reasonCodes, found.metadata]

theorem letters_mappingGet {name : String} {value : Json} (member : mappingGet data name = some value) :
    value.letters ⊆ lettersFields data := fun _ letter =>
  mem_lettersFields.mpr ⟨_, mem_of_mappingGet member, .inr letter⟩

theorem letters_getD {name : String} {value : Json} (plain : value.letters = []) :
    ((mappingGet data name).getD value).letters ⊆ lettersFields data := by
  cases member : mappingGet data name with
  | none =>
      rw [Option.getD_none, plain]
      exact List.nil_subset _
  | some value => exact letters_mappingGet member

theorem letters_tupleOf {value : Json} {items : List Json} (given : tupleOf value = some items) :
    (Json.arr items).letters ⊆ value.letters := by
  intro char letter
  rw [Json.letters, mem_lettersItems] at letter
  obtain ⟨item, among, letter⟩ := letter
  cases value with
  | arr items' =>
      obtain rfl := Option.some.inj given
      exact mem_lettersItems.mpr ⟨item, among, letter⟩
  | str text =>
      obtain rfl := Option.some.inj given
      obtain ⟨char', among', rfl⟩ := List.mem_map.mp among
      rw [Json.letters, String.toList_singleton, List.mem_singleton] at letter
      exact letter ▸ among'
  | obj fields =>
      obtain rfl := Option.some.inj given
      obtain ⟨field, among', rfl⟩ := List.mem_map.mp among
      exact mem_lettersFields.mpr ⟨field, among', .inl letter⟩
  | null => cases given
  | bool _ => cases given
  | int _ => cases given

theorem letters_readMembers (read : readMembers data = some found) :
    found.letters ⊆ lettersFields data := by
  simp only [readMembers, Option.bind_eq_bind, Option.bind_eq_some_iff] at read
  obtain ⟨eventId, first, sequence, second, taskId, third, eventType, fourth, outcome, fifth,
    reasonCodes, sixth, same⟩ := read
  obtain rfl := Option.some.inj same
  intro char letter
  rw [ReadEvent.letters, mem_lettersItems] at letter
  obtain ⟨item, among, letter⟩ := letter
  simp only [List.mem_cons, List.not_mem_nil, or_false] at among
  rcases among with rfl | rfl | rfl | rfl | rfl | rfl | rfl | rfl | rfl | rfl
  · exact letters_mappingGet first letter
  · exact letters_mappingGet second letter
  · exact letters_mappingGet third letter
  · exact letters_mappingGet fourth letter
  · exact letters_getD rfl letter
  · exact letters_mappingGet fifth letter
  · exact letters_getD rfl letter
  · exact letters_getD rfl letter
  · exact letters_getD rfl (letters_tupleOf sixth letter)
  · exact letters_getD rfl letter

/-- What is read of an event has the letters of the event, as far as they are beyond ASCII. -/
theorem mem_letters_ofEvent {char : Char} (wide : 128 ≤ char.toNat) :
    char ∈ (ReadEvent.ofEvent event).letters ↔ char ∈ (Json.obj (eventFields event)).letters := by
  have keys : ((eventFields event).map Prod.fst).all
      (fun key => key.toList.all fun char => char.toNat < 128) = true := by
    simp [eventFields]
  have values : (∃ field ∈ eventFields event, char ∈ field.1.toList ∨ char ∈ field.2.letters) ↔
      ∃ field ∈ eventFields event, char ∈ field.2.letters := by
    refine exists_congr fun field => and_congr_right fun member => or_iff_right ?_
    exact notMem_of_ascii wide (List.all_eq_true.mp keys _ (List.mem_map_of_mem member))
  rw [Json.letters, mem_lettersFields, values, ReadEvent.letters, mem_lettersItems]
  simp only [ReadEvent.ofEvent, eventFields, List.exists_mem_cons_iff, ← sorted_getD, mem_letters_sorted]
  simp only [List.not_mem_nil, false_and, exists_false]

theorem readLine_letters (read : readLine line = some found) :
    ∃ value, loads line = some value ∧ found.letters ⊆ value.letters := by
  rw [readLine] at read
  split at read
  next data loaded =>
    obtain ⟨members, _⟩ := Option.filter_eq_some_iff.mp read
    exact ⟨.obj data, (Option.filter_eq_some_iff.mp loaded).1, letters_readMembers members⟩
  next => cases read

/-! ## The events of a line -/

/-- What is read of the line of an event. -/
def readPieces (event : AuditEvent) : List ReadEvent :=
  (splitBreaks (lineOf (eventText event))).filterMap readLine

/-- The characters beyond ASCII of the text of an event are those of its letters. -/
theorem mem_eventText_wide {char : Char} (wide : 128 ≤ char.toNat) :
    char ∈ (eventText event).toList ↔ char ∈ (Json.obj (eventFields event)).letters := by
  rw [eventText, canonicalJson, String.toList_ofList, mem_render_wide wide, mem_letters_sorted]

theorem mem_wideBreaks {char : Char} :
    char ∈ wideBreaks ↔ isLineBreak char = true ∧ 128 ≤ char.toNat := by
  have number (mark : Char) : char = mark ↔ char.toNat = mark.toNat :=
    ⟨fun same => same ▸ rfl, fun same => Char.toNat_inj.mp same⟩
  simp only [wideBreaks, isLineBreak, List.mem_cons, List.not_mem_nil, or_false, number,
    List.contains_cons, List.contains_nil, Bool.or_false, Bool.or_eq_true, beq_iff_eq]
  have marks : '\u0085'.toNat = 0x85 ∧ '\u2028'.toNat = 0x2028 ∧ '\u2029'.toNat = 0x2029 := by decide
  omega

theorem unbroken_iff :
    Unbroken event ↔ ∀ char ∈ (eventText event).toList, isLineBreak char = false := by
  constructor
  · intro whole char member
    by_contra breaks
    rw [Bool.not_eq_false] at breaks
    have wide := wide_of_isLineBreak breaks (printed_canonicalJson _ char member)
    exact whole char ((mem_eventText_wide wide).mp member) (mem_wideBreaks.mpr ⟨breaks, wide⟩)
  · intro whole letter member among
    obtain ⟨breaks, wide⟩ := mem_wideBreaks.mp among
    rw [whole letter ((mem_eventText_wide wide).mpr member)] at breaks
    cases breaks

theorem splitBreaks_eventText (event : AuditEvent) : ∃ head tail,
    Pieces (eventText event).toList head tail ∧
      splitBreaks (lineOf (eventText event)) = head :: tail := by
  have single : '\r' ∉ (eventText event).toList := fun member =>
    absurd (printed_canonicalJson _ _ member) (by decide)
  obtain ⟨head, tail, pieces, split⟩ := splitBreaks_line single
  refine ⟨head, tail, pieces, ?_⟩
  rw [lineOf, split, splitBreaks, List.append_nil]

theorem readPieces_unbroken (loaded : (Json.obj (eventFields event)).Loaded) (whole : Unbroken event) :
    readPieces event = [ReadEvent.ofEvent event] := by
  obtain ⟨head, tail, pieces, split⟩ := splitBreaks_eventText event
  obtain ⟨same, none⟩ := pieces.whole (unbroken_iff.mp whole)
  rw [readPieces, split, same, none, List.filterMap_cons_some (readLine_eventText loaded),
    List.filterMap_nil]

/-- Of the line of an event with a line break nothing is read but ASCII. -/
theorem letters_readPieces (broken : ¬Unbroken event) (member : found ∈ readPieces event) :
    ∀ letter ∈ found.letters, letter.toNat < 128 := by
  obtain ⟨head, tail, pieces, split⟩ := splitBreaks_eventText event
  rw [readPieces, split, List.mem_filterMap] at member
  obtain ⟨piece, among, read⟩ := member
  have marked : ∃ char ∈ (eventText event).toList, isLineBreak char = true := by
    rw [unbroken_iff] at broken
    push Not at broken
    obtain ⟨char, member, breaks⟩ := broken
    exact ⟨char, member, by simpa using breaks⟩
  have scanned : scanQuotes false (eventText event).toList = some false := by
    rw [eventText, canonicalJson, String.toList_ofList]
    exact scanQuotes_render quotes_escapeRaw _
  obtain ⟨value, loaded, letters⟩ := readLine_letters read
  exact fun letter member =>
    pieces.letters (printed_canonicalJson _) scanned marked among loaded letter (letters member)

/-! ## Reading back -/

theorem length_rtake (items : List α) (count : Nat) :
    (items.rtake count).length = min count items.length := by
  rw [List.rtake, List.length_drop]
  omega

/-- The last items are the last of more last items. -/
theorem rtake_split (items : List α) {count : Nat} (enough : min limit items.length ≤ count)
    (fewer : count ≤ items.length) :
    items.rtake count = (items.rtake count).rdrop limit ++ items.rtake limit := by
  have place : items.length - count + (count - limit) = items.length - limit := by omega
  have split := List.take_append_drop (count - limit) (items.rtake count)
  rw [List.rtake, List.drop_drop, place, ← List.rtake, ← List.rtake] at split
  rw [List.rdrop, length_rtake, Nat.min_eq_left fewer]
  exact split.symm

theorem rtake_append {first last : List α}
    (last_items : last.length = limit ∨ first = [] ∧ last.length ≤ limit) :
    (first ++ last).rtake limit = last := by
  rw [List.rtake, List.length_append]
  rcases last_items with whole | ⟨none, fewer⟩
  · rw [whole, Nat.add_sub_cancel, List.drop_left]
  · rw [none, List.length_nil, Nat.zero_add, Nat.sub_eq_zero_of_le fewer, List.nil_append, List.drop_zero]

theorem readEvents_eq {events : List ReadEvent} (fewer : events.length < limit) :
    readEvents limit lines events =
      events ++ (lines.filterMap readLine).take (limit - events.length) := by
  induction lines generalizing events with
  | nil => simp [readEvents]
  | cons line lines ih =>
      rw [readEvents]
      cases read : readLine line with
      | none => rw [List.filterMap_cons_none read, ih fewer]
      | some event =>
          have room : limit - events.length = (limit - (events.length + 1)) + 1 := by omega
          rw [List.filterMap_cons_some read, room, List.take_succ_cons]
          dsimp only
          split
          next full => rw [full, Nat.sub_self, List.take_zero]
          next more =>
            have fewer' : (events ++ [event]).length < limit := by
              rw [List.length_append, List.length_singleton]
              omega
            rw [ih fewer', List.length_append, List.length_singleton, List.append_assoc,
              List.singleton_append]

variable {replaced : Bytes → String}

theorem readJsonlAudit_eq (atLeast : 1 ≤ limit) (atMost : limit ≤ 500) :
    readJsonlAudit replaced file limit =
      .ok (((tailLines replaced file limit).filterMap readLine).rtake limit) := by
  have inside : ¬(!(decide (1 ≤ limit) && decide (limit ≤ 500))) = true := by simp [atLeast, atMost]
  rw [readJsonlAudit, raiseIf, if_neg inside]
  change Except.ok _ = _
  rw [readEvents_eq (by exact atLeast), List.nil_append, List.length_nil, Nat.sub_zero,
    List.filterMap_reverse, List.rtake_eq_reverse_take_reverse]

/-- The last lines are those of the last events, of as many as the limit asks for or more. -/
theorem tailLines_events (written : events.foldlM JsonlAuditSink.emit none = .ok file)
    (fits : TailFits (events.map eventBytes) limit 1048576) :
    ∃ count, min limit events.length ≤ count ∧ count ≤ events.length ∧
      (tailLines replaced file limit).filterMap readLine = (events.rtake count).flatMap readPieces := by
  obtain ⟨content, _, missing⟩ := emit_run none written
  cases file with
  | none =>
      obtain rfl := missing rfl
      exact ⟨0, Nat.min_le_right _ _, Nat.le_refl _, rfl⟩
  | some file =>
      rw [Option.getD_some, Option.getD_none, List.nil_append] at content
      obtain ⟨count, enough, fewer, tail⟩ := tailContent_lines
        (List.forall_mem_map.mpr fun event _ => newline_notMem_eventBytes event) fits
      rw [List.length_map] at enough fewer
      refine ⟨count, enough, fewer, ?_⟩
      have kept : (events.map eventBytes).rtake count = (events.rtake count).map eventBytes := by
        rw [List.rtake, List.rtake, List.length_map, List.map_drop]
      rw [tailLines, content, tail, kept, decodeReplace, decodeUtf8_linesBytes, Option.getD_some,
        String.toList_ofList, splitBreaks_eventsText, List.filterMap_flatMap]
      rfl

section

variable (replaced : Bytes → String)
  (distinct : ∀ event ∈ events, (Json.obj (eventFields event)).Distinct)
  (written : events.foldlM JsonlAuditSink.emit none = .ok file)
  (atLeast : 1 ≤ limit) (atMost : limit ≤ 500)
  (fits : TailFits (events.map eventBytes) limit 1048576)

include distinct written

theorem loaded_written : ∀ event ∈ events, (Json.obj (eventFields event)).Loaded := fun event member =>
  ⟨distinct event member, (emit_run none written).2.1 event member⟩

include atLeast atMost fits

theorem readBack_of_unbroken (whole : ∀ event ∈ events.rtake limit, Unbroken event) :
    readJsonlAudit replaced file limit = .ok ((events.rtake limit).map ReadEvent.ofEvent) := by
  obtain ⟨count, enough, fewer, tail⟩ := @tailLines_events _ _ _ replaced written fits
  have read : (events.rtake limit).flatMap readPieces =
      (events.rtake limit).map ReadEvent.ofEvent := by
    rw [List.map_eq_flatMap]
    refine List.flatMap_congr fun event member => ?_
    exact readPieces_unbroken
      (loaded_written distinct written event (List.mem_of_mem_drop member)) (whole event member)
  rw [readJsonlAudit_eq atLeast atMost, tail, rtake_split events enough fewer, List.flatMap_append, read]
  refine congrArg Except.ok (rtake_append ?_)
  rw [List.length_map, length_rtake]
  by_cases longer : limit ≤ events.length
  · exact .inl (by omega)
  · refine .inr ⟨?_, by omega⟩
    rw [List.rdrop, length_rtake, Nat.sub_eq_zero_of_le (by omega), List.take_zero]
    rfl

theorem unbroken_of_readBack
    (same : readJsonlAudit replaced file limit = .ok ((events.rtake limit).map ReadEvent.ofEvent)) :
    ∀ event ∈ events.rtake limit, Unbroken event := by
  obtain ⟨count, enough, fewer, tail⟩ := @tailLines_events _ _ _ replaced written fits
  rw [readJsonlAudit_eq atLeast atMost, tail, Except.ok.injEq] at same
  intro event member letter among breaks
  have wide := (mem_wideBreaks.mp breaks).2
  have kept := List.mem_map_of_mem (f := ReadEvent.ofEvent) member
  rw [← same, List.rtake] at kept
  obtain ⟨other, found, read⟩ := List.mem_flatMap.mp (List.mem_of_mem_drop kept)
  -- the letter is read of some line, which then has it and is not split
  have letter' := (mem_letters_ofEvent wide).mpr among
  by_cases whole : Unbroken other
  · have loaded := loaded_written distinct written other (List.mem_of_mem_drop found)
    rw [readPieces_unbroken loaded whole, List.mem_singleton] at read
    rw [read] at letter'
    exact whole letter ((mem_letters_ofEvent wide).mp letter') breaks
  · exact absurd wide (letters_readPieces whole read letter letter').not_ge

/-- The last events are read back exactly if no text in them has a line break beyond ASCII. -/
theorem readJsonlAudit_eq_iff :
    readJsonlAudit replaced file limit = .ok ((events.rtake limit).map ReadEvent.ofEvent) ↔
      ∀ event ∈ events.rtake limit, Unbroken event :=
  ⟨unbroken_of_readBack replaced distinct written atLeast atMost fits,
    readBack_of_unbroken replaced distinct written atLeast atMost fits⟩

end

/-! ### Two tasks -/

/-- An event of a task. -/
def taskEvent (taskId : String) : AuditEvent where
  eventId := "audit-0"
  sequence := 0
  taskId := taskId
  eventType := "search"
  capabilityRevision := none
  outcome := "ok"

/-- The file with that event. -/
def taskFile (taskId : String) : Bytes := encodeUtf8 (eventText (taskEvent taskId)) ++ [newline]

theorem loaded_taskEvent (taskId : String) : (Json.obj (eventFields (taskEvent taskId))).Loaded := by
  refine Json.loaded_obj.mpr ⟨nodup_eventFields, ?_⟩
  simp [eventFields, taskEvent]

theorem distinct_taskEvent (taskId : String) :
    ∀ event ∈ [taskEvent taskId], (Json.obj (eventFields event)).Distinct := by
  intro event member
  rw [List.mem_singleton.mp member]
  exact (loaded_taskEvent taskId).distinct

theorem written_taskEvent (taskId : String) :
    [taskEvent taskId].foldlM JsonlAuditSink.emit none = .ok (some (taskFile taskId)) := by
  rw [List.foldlM_cons, JsonlAuditSink.emit_eq_ok (loaded_taskEvent taskId).printable,
    Option.getD_none, List.nil_append]
  rfl

theorem fits_taskEvent {taskId : String} (small : quotedSize taskId ≤ 1000) :
    TailFits ([taskEvent taskId].map eventBytes) 1 1048576 := by
  have size : (Json.obj (eventFields (taskEvent taskId))).size ≤ quotedSize taskId + 1000 := by
    have shared : fieldsSize (eventFields (taskEvent taskId)) + quotedSize "" =
        fieldsSize (eventFields (taskEvent "")) + quotedSize taskId := by
      simp only [eventFields, taskEvent, fieldsSize, size_str]
      omega
    have others : fieldsSize (eventFields (taskEvent "")) ≤ 900 := by decide +kernel
    rw [size_obj]
    omega
  have whole : ([taskEvent taskId].map eventBytes).rtake (1 + 1) = [eventBytes (taskEvent taskId)] := rfl
  rw [TailFits, whole, linesBytes, List.flatMap_singleton, List.length_append, List.length_singleton,
    eventBytes, eventText, length_canonicalJson]
  omega

theorem task_readJsonlAudit_eq_iff :
    readJsonlAudit (fun _ => "") (some (taskFile "task")) 1 =
        .ok (([taskEvent "task"].rtake 1).map ReadEvent.ofEvent) ↔
      ∀ event ∈ [taskEvent "task"].rtake 1, Unbroken event :=
  readJsonlAudit_eq_iff _ (distinct_taskEvent "task") (written_taskEvent "task") (by decide) (by decide)
    (fits_taskEvent (by decide +kernel))

/-- An event of a task with a line separator in its name is written and not read back. -/
theorem separator_not_readBack : ¬∀ (events : List AuditEvent) (file : Option Bytes) (limit : Nat),
    (∀ event ∈ events, (Json.obj (eventFields event)).Distinct) →
    events.foldlM JsonlAuditSink.emit none = .ok file → 1 ≤ limit → limit ≤ 500 →
    TailFits (events.map eventBytes) limit 1048576 →
    readJsonlAudit (fun _ => "") file limit = .ok ((events.rtake limit).map ReadEvent.ofEvent) := by
  intro always
  have same := always [taskEvent "a\u2028b"] (some (taskFile "a\u2028b")) 1
    (distinct_taskEvent _) (written_taskEvent _) (by decide) (by decide)
    (fits_taskEvent (by decide +kernel))
  have whole := unbroken_of_readBack _ (distinct_taskEvent _) (written_taskEvent _) (by decide)
    (by decide) (fits_taskEvent (by decide +kernel)) same
  refine whole _ List.mem_cons_self '\u2028' ?_ (by decide)
  exact mem_lettersFields.mpr ⟨("task_id", .str "a\u2028b"), by simp [eventFields, taskEvent],
    .inr (by decide +kernel)⟩

end CapabilityHub.Audit
