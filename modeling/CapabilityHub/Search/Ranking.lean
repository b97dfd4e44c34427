import CapabilityHub.Search.Cards

/-! # Ranking

What `search.py` makes of the words of a query, and which manifests may be shown at all.
-/

namespace CapabilityHub.Search

/-- The characters of words without the underscore, and `str.casefold`, of the Unicode character database. -/
structure WordText where
  letter : Char → Bool
  casefold : String → String

/-! ## Words -/

/-- What is open as `_WORD` scans a text: nothing, a word, or a word and a joining character after it. -/
inductive OpenWord where
  | nothing
  | word (chars : List Char)
  | joined (chars : List Char) (joiner : Char)

/-- The word that is open, if there is one. -/
def OpenWord.close : OpenWord → List (List Char)
  | .nothing => []
  | .word chars => [chars]
  | .joined chars _ => [chars]

section

variable (text : WordText)

/-- `_WORD.finditer`. -/
def scanWords (letter : Char → Bool) : OpenWord → List Char → List (List Char)
  | opened, [] => opened.close
  | opened, char :: rest =>
      if letter char then
        match opened with
        | .nothing => scanWords letter (.word [char]) rest
        | .word chars => scanWords letter (.word (chars ++ [char])) rest
        | .joined chars joiner => scanWords letter (.word (chars ++ [joiner, char])) rest
      else
        match opened with
        | .word chars =>
            if char = '_' ∨ char = '-' then scanWords letter (.joined chars char) rest
            else chars :: scanWords letter .nothing rest
        | _ => opened.close ++ scanWords letter .nothing rest

/-- `_tokens`. -/
def tokens (value : String) : List String :=
  (scanWords text.letter .nothing value.toList).map fun word => text.casefold (String.ofList word)

example : scanWords Char.isAlpha .nothing "-ab_c--d".toList = ["ab_c".toList, "d".toList] := by decide

end

/-! ## Configuration -/

/-- The weights of the fields of a manifest. -/
structure SearchWeights where
  name : Nat := 12
  coordinate : Nat := 8
  aliases : Nat := 7
  tag : Nat := 7
  operation : Nat := 6
  summary : Nat := 4
  kind : Nat := 2
  exactName : Nat := 20
  exactAlias : Nat := 18

/-- `SearchRankingConfig`. -/
structure SearchRankingConfig where
  weights : SearchWeights := {}
  allowedTrustTiers : Option (List String) := none
  maxCostMicrousd : Option Nat := none
  maxLatencyMs : Option Nat := none

structure SearchEligibility where
  authorized : Bool := true
  available : Bool := true
  trusted : Bool := true
  withinCost : Bool := true
  withinLatency : Bool := true

/-- `eligible`. -/
def SearchEligibility.eligible (decision : SearchEligibility) : Bool :=
  decision.authorized && decision.available && decision.trusted && decision.withinCost &&
    decision.withinLatency

/-- `_combine_eligibility`. -/
def combineEligibility (first second : SearchEligibility) : SearchEligibility where
  authorized := first.authorized && second.authorized
  available := first.available && second.available
  trusted := first.trusted && second.trusted
  withinCost := first.withinCost && second.withinCost
  withinLatency := first.withinLatency && second.withinLatency

/-- `_metadata_counter`; `none` where the value is not valid. -/
def metadataCounter (manifest : CapabilityManifest) (name : String) : Option (Option Nat) :=
  match mappingGet manifest.metadata name with
  | none | some .null => some none
  | some (.int value) => if value < 0 then none else some (some value.toNat)
  | some _ => none

/-- Whether a counter is valid and not above a limit. -/
def withinLimit (limit : Option Nat) : Option (Option Nat) → Bool
  | none => false
  | some none => true
  | some (some value) => limit.all fun most => value ≤ most

/-- `_metadata_eligibility`. -/
def metadataEligibility (manifest : CapabilityManifest) (config : SearchRankingConfig) :
    SearchEligibility where
  available := match mappingGet manifest.metadata "available" with
    | none | some (.bool true) => true
    | some _ => false
  trusted := config.allowedTrustTiers.all fun tiers => manifest.trustTier ∈ tiers
  withinCost := withinLimit config.maxCostMicrousd (metadataCounter manifest "estimatedCostMicrousd")
  withinLatency := withinLimit config.maxLatencyMs (metadataCounter manifest "estimatedLatencyMs")

/-! ## Scores -/

/-- The texts of values that are all texts and not empty. -/
def fullTexts : List Json → Option (List String)
  | [] => some []
  | .str text :: rest => if text = "" then none else (fullTexts rest).map (text :: ·)
  | _ => none

/-- `_aliases`. -/
def aliases (manifest : CapabilityManifest) : List String :=
  match mappingGet manifest.metadata "aliases" with
  | some (.arr items) => (fullTexts items).getD []
  | _ => []

/-- The fields that `_score` compares, with their weights and words. -/
def scoredFields (text : WordText) (weights : SearchWeights) (manifest : CapabilityManifest) :
    List (String × Nat × List String) := [
  ("name", weights.name, tokens text manifest.identity.name),
  ("coordinate", weights.coordinate, tokens text manifest.identity.coordinate),
  ("alias", weights.aliases, (aliases manifest).flatMap (tokens text)),
  ("tag", weights.tag, manifest.tags.flatMap (tokens text)),
  ("operation", weights.operation, manifest.operations.flatMap fun operation => tokens text operation.name),
  ("summary", weights.summary, tokens text manifest.summary),
  ("kind", weights.kind, [manifest.kind.value])]

/-- Whether two lists have the same elements. -/
def sameWords (first second : List String) : Bool := first ⊆ second && second ⊆ first

/-- `_score`, of a query without a word twice. -/
def scoreOf (text : WordText) (weights : SearchWeights) (manifest : CapabilityManifest)
    (queryTerms : List String) : Nat × List String :=
  if queryTerms = [] then (0, ["active_catalog"])
  else
    let matched := (scoredFields text weights manifest).map fun field =>
      (field.1, field.2.1, (queryTerms.filter (· ∈ field.2.2)).length)
    let score := matched.foldl (fun score field => score + field.2.1 * field.2.2) 0
    let reasons := (matched.filter fun field => 0 < field.2.2).map Prod.fst
    let name := tokens text manifest.identity.name
    let exactName := name ≠ [] ∧ sameWords name queryTerms
    let exactAlias := (aliases manifest).any fun entry => sameWords (tokens text entry) queryTerms
    (score + (if exactName then weights.exactName else 0) + (if exactAlias then weights.exactAlias else 0),
      (if exactAlias then ["exact_alias"] else []) ++ (if exactName then ["exact_name"] else []) ++ reasons)

end CapabilityHub.Search
