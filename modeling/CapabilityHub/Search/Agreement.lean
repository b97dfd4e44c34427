import CapabilityHub.Data.Agree
import CapabilityHub.Search.Packing

/-! # Searches that agree

Two searches that rank the same manifests give the same response, apart from the references that they
issue, where these have the same sizes (`CapabilityHub.Search.agree_packAll`).
-/

namespace CapabilityHub.Search

-- How the references of two searches are related; those that are related have the same sizes
variable {rel : String → String → Prop} {first second : SearchCard} {cards cards' : List SearchCard} {envelope : Envelope}
  {limits : SearchLimits} {issueAt issueAt' : Nat → String → Except Raised String}
  {ranked : List Ranked}

/-- Cards that differ in their references only. -/
structure SameCard (rel : String → String → Prop) (first second : SearchCard) : Prop where
  fields : second = { first with capabilityRef := second.capabilityRef }
  references : rel first.capabilityRef second.capabilityRef

/-- Responses whose cards differ in their references only. -/
structure SameResponse (rel : String → String → Prop) (first second : SearchResponse) : Prop where
  cards : List.Forall₂ (SameCard rel) first.cards second.cards
  truncated : first.truncated = second.truncated
  totalMatches : first.totalMatches = second.totalMatches
  kindCounts : first.kindCounts = second.kindCounts
  inventory : first.inventory = second.inventory
  portableTokens : first.portableTokens = second.portableTokens
  payloadBytes : first.payloadBytes = second.payloadBytes

/-! ## Sizes -/

theorem size_cardDict (sized : ∀ reference reference', rel reference reference' →
      quotedSize reference = quotedSize reference') (same : SameCard rel first second) :
    (cardDict first).size = (cardDict second).size := by
  rw [same.fields, cardDict, cardDict, size_obj, size_obj]
  simp only [fieldsSize, size_str, sized _ _ same.references]

theorem printable_cardDict (same : SameCard rel first second) :
    (cardDict first).printable = (cardDict second).printable := by
  rw [same.fields]
  rfl

theorem size_cards (sized : ∀ reference reference', rel reference reference' →
      quotedSize reference = quotedSize reference') (same : List.Forall₂ (SameCard rel) cards cards') :
    itemsSize (cards.map cardDict) = itemsSize (cards'.map cardDict) := by
  induction same with
  | nil => rfl
  | cons here _ ih => rw [List.map_cons, List.map_cons, itemsSize, itemsSize, size_cardDict sized here, ih]

theorem printable_cards (same : List.Forall₂ (SameCard rel) cards cards') :
    printableItems (cards.map cardDict) = printableItems (cards'.map cardDict) := by
  induction same with
  | nil => rfl
  | cons here _ ih =>
      rw [List.map_cons, List.map_cons, printableItems, printableItems, printable_cardDict here, ih]

/-- Values of one size are measured alike. -/
theorem measureJson_congr {value value' : Json} (size : value.size = value'.size)
    (printable : value.printable = value'.printable) : measureJson value = measureJson value' := by
  rw [measureJson, measureJson, printable, measureText_canonicalJson, measureText_canonicalJson, size]

theorem measureJson_payload (sized : ∀ reference reference', rel reference reference' →
      quotedSize reference = quotedSize reference') (same : List.Forall₂ (SameCard rel) cards cards')
    (known : PayloadMeasurement) :
    measureJson ({ envelope with cards := cards }.payload known) =
      measureJson ({ envelope with cards := cards' }.payload known) := by
  apply measureJson_congr
  · simp only [Envelope.payload, List.cons_append, size_obj, fieldsSize, size_arr, size_cards sized same]
  · simp only [Envelope.payload, List.cons_append, Json.printable, printableFields, printable_cards same]

/-- Responses with the same cards agree. -/
theorem agree_response (sized : ∀ reference reference', rel reference reference' →
      quotedSize reference = quotedSize reference') (same : List.Forall₂ (SameCard rel) cards cards') :
    Agree (SameResponse rel) (response { envelope with cards := cards })
      (response { envelope with cards := cards' }) := by
  have measures : (fun known => measureJson ({ envelope with cards := cards }.payload known)) =
      fun known => measureJson ({ envelope with cards := cards' }.payload known) :=
    funext fun known => measureJson_payload sized same known
  rw [response, response, measures]
  exact Agree.after fun known => .ok ⟨same, rfl, rfl, rfl, rfl, rfl, rfl⟩

/-! ## Packing -/

/-- References that are related, or the same errors. -/
def SameReferences (rel : String → String → Prop)
    (issueAt issueAt' : Nat → String → Except Raised String) : Prop :=
  ∀ round revision, Agree rel (issueAt round revision) (issueAt' round revision)

/-- States of the packing that differ in references only. -/
structure SamePacked (rel : String → String → Prop) (first second : Packed) : Prop where
  cards : List.Forall₂ (SameCard rel) first.cards second.cards
  truncated : first.truncated = second.truncated
  omitted : first.omitted = second.omitted

theorem sameCard_cardOf {entry : Ranked} {reference reference' : String}
    (related : rel reference reference') :
    SameCard rel (cardOf entry reference) (cardOf entry reference') := ⟨rfl, related⟩

/-- **One round after the other.** The packing takes the same decisions. -/
theorem agree_pack (sized : ∀ reference reference', rel reference reference' →
      quotedSize reference = quotedSize reference') (references : SameReferences rel issueAt issueAt')
    {round : Nat} {packed packed' : Packed} (same : SamePacked rel packed packed') :
    Agree (SamePacked rel) (pack issueAt limits envelope round packed ranked)
      (pack issueAt' limits envelope round packed' ranked) := by
  induction ranked generalizing round packed packed' with
  | nil => exact .ok same
  | cons entry rest ih =>
      have lengths := same.cards.length_eq
      rw [pack, pack, lengths]
      by_cases full : packed'.cards.length = limits.limit
      · rw [if_pos full, if_pos full]
        exact .ok ⟨same.cards, rfl, same.omitted⟩
      · rw [if_neg full, if_neg full]
        apply Agree.bind (references round entry.manifest.identity.revision)
        intro reference reference' related
        have card := @sameCard_cardOf rel entry _ _ related
        have measures : measureJson (cardDict (cardOf entry reference)) =
            measureJson (cardDict (cardOf entry reference')) :=
          measureJson_congr (size_cardDict sized card) (printable_cardDict card)
        dsimp only
        rw [measures]
        apply Agree.after
        intro measured
        have cards := List.rel_append same.cards (List.Forall₂.cons card List.Forall₂.nil)
        by_cases large : limits.maxCardBytes < measured.utf8Bytes
        · rw [if_pos large, if_pos large]
          exact ih ⟨same.cards, same.truncated, rfl⟩
        · rw [if_neg large, if_neg large]
          refine Agree.bind (@agree_response rel _ _ { envelope with truncated := !rest.isEmpty } sized cards) ?_
          intro candidate candidate' alike
          rw [alike.portableTokens, alike.payloadBytes]
          split
          · exact .ok ⟨same.cards, rfl, same.omitted⟩
          · exact ih ⟨cards, same.truncated, same.omitted⟩

/-- **Searches that agree.** What is ranked alike is answered alike. -/
theorem agree_packAll (sized : ∀ reference reference', rel reference reference' →
      quotedSize reference = quotedSize reference') (references : SameReferences rel issueAt issueAt') :
    Agree (SameResponse rel) (packAll issueAt limits envelope ranked)
      (packAll issueAt' limits envelope ranked) := by
  rw [packAll, packAll]
  apply Agree.bind (agree_pack sized references ⟨List.Forall₂.nil, rfl, rfl⟩)
  intro packed packed' same
  rw [same.truncated, same.omitted]
  refine Agree.bind (@agree_response rel _ _
    { envelope with truncated := packed'.truncated || packed'.omitted } sized same.cards) ?_
  intro answer answer' alike
  rw [alike.portableTokens, alike.payloadBytes]
  apply Agree.after
  intro _
  apply Agree.after
  intro _
  exact .ok alike

/-- Searches that check and rank alike are answered alike. -/
theorem agree_search {text : WordText} {engine engine' : LexicalCapabilitySearch}
    {request request' : SearchRequest} (checks : checkRequest request = checkRequest request')
    (limits : request.toSearchLimits = request'.toSearchLimits) (query : request.query = request'.query)
    (inventory : request.inventory = request'.inventory)
    (ranks : ∀ selectedKinds queryTerms, rankAll text engine request selectedKinds queryTerms =
      rankAll text engine' request' selectedKinds queryTerms)
    (sized : ∀ reference reference', rel reference reference' →
      quotedSize reference = quotedSize reference') (references : SameReferences rel issueAt issueAt') :
    Agree (SameResponse rel) (engine.search text issueAt request)
      (engine'.search text issueAt' request') := by
  rw [LexicalCapabilitySearch.search, LexicalCapabilitySearch.search, checks, limits, query, inventory]
  refine Agree.after fun selectedKinds => ?_
  rw [ranks]
  exact Agree.after fun ranked => agree_packAll sized references

end CapabilityHub.Search
