import Mathlib.Data.PNat.Defs
import VirtualContributor.Lib.TextTables
import VirtualContributor.Retrieval.KnowledgeStore

/-!
# Document blocks

`prompts_shared`: a retrieved passage is rendered as a labelled block, and the
size of a block is charged against the budget of the context.
-/

namespace VirtualContributor.Retrieval

open Lib

/-! ## Labels -/

section

variable (T : UnicodeText)

/-- `" ".join(text.split())`. -/
def joinWords (text : String) : String := " ".intercalate (words text)

/-- `text.translate(_LABEL_UNSAFE_CHARACTERS)`. -/
def removeUnsafe (text : String) : String :=
  String.ofList (text.toList.filter fun c => c ≠ '[' && c ≠ ']' && c ≠ '·')

/-- `_METADATA_VALUE_LIMITS.get(key)`. -/
def metadataValueLimit : String → Option Nat
  | "title" => some 200
  | "type" => some 200
  | "uri" => some 300
  | "source" => some 300
  | _ => none

/-- `str(metadata.get(key))`, unless there is no value or it is `None`. -/
def metadataText (metadata : Metadata) (key : String) : Option String :=
  match metadata.lookup key with
  | none | some .null => none
  | some value => some (T.str value)

/-- `_legacy_metadata_text`. -/
def legacyMetadataText (metadata : Metadata) (key : String) : String :=
  match metadataText T metadata key with
  | none => ""
  | some value =>
    let text := joinWords (removeUnsafe (joinWords value))
    if T.casefold text = "none" then ""
    else
      match metadataValueLimit key with
      | some limit => String.ofList (text.toList.take limit)
      | none => text

/-- `_stable_hierarchy_ids`. -/
def stableHierarchyIds (metadata : Metadata) : List String :=
  (["spaceId", "subspaceId"].filterMap fun key => (metadataText T metadata key).map strip).filter
    (· ≠ "")

/-- `_carries_stable_hierarchy_id`. -/
def carriesStableHierarchyId (text : String) (stableIds : List String) : Bool :=
  if text = "" then false
  else if "space:".toList.isPrefixOf text.toList && "space:".length < text.length then true
  else stableIds.contains text

/-- `_legacy_alias_text`. -/
def legacyAliasText (metadata : Metadata) (key : String) (stableIds : List String) : String :=
  let text := legacyMetadataText T metadata key
  if carriesStableHierarchyId text stableIds then "" else text

/-- The longest prefix of at most `limit` bytes. -/
def utf8Prefix : Nat → List Char → List Char
  | _, [] => []
  | limit, c :: rest =>
    if limit < c.utf8Size then [] else c :: utf8Prefix (limit - c.utf8Size) rest

/-- `_hierarchy_name`. -/
def hierarchyName (metadata : Metadata) (key : String) : String :=
  match metadataText T metadata key with
  | none => ""
  | some value =>
    let characters := value.toList.flatMap fun c =>
      if T.isFormat c then []
      else if isControl c then if isPythonSpace c then [' '] else []
      else [c]
    let text := joinWords (removeUnsafe (joinWords (String.ofList characters)))
    if T.casefold text = "none" then "" else String.ofList (utf8Prefix 200 text.toList)

/-- The parts of the label of a block. -/
def labelParts (number : ℕ+) (metadata : Metadata) (hierarchy : Bool) : List String :=
  let stableIds := stableHierarchyIds T metadata
  let title := legacyAliasText T metadata "title" stableIds
  let uri := legacyAliasText T metadata "uri" stableIds
  let source := legacyAliasText T metadata "source" stableIds
  let kind := legacyAliasText T metadata "type" stableIds
  let origin := if uri = "" then source else uri
  let identity := ([title, uri, source].find? (· ≠ "")).getD "Untitled"
  let space := if hierarchy then hierarchyName T metadata "spaceName" else ""
  let subspace := if hierarchy then hierarchyName T metadata "subspaceName" else ""
  [s!"Document {(number : Nat)}"] ++
    (if space = "" then [] else [s!"Space: {space}"]) ++
    (if subspace = "" then [] else [s!"Subspace: {subspace}"]) ++
    [identity] ++
    (if kind = "" then [] else [kind]) ++
    (if origin = "" then [] else [s!"origin: {origin}"])

/-- `render_document_block`.  Document numbers are 1-based. -/
def renderDocumentBlock (number : ℕ+) (content : String) (metadata : Metadata)
    (hierarchy : Bool) : String :=
  let label := " · ".intercalate (labelParts T number metadata hierarchy)
  s!"[{label}]\n{content}"

end

/-! ## Sizes -/

def INTER_BLOCK_SEPARATOR : String := "\n\n"

/-- `inter_block_budget_size`. -/
def interBlockBudgetSize (blockCount : Nat) : Nat :=
  (blockCount - 1) * INTER_BLOCK_SEPARATOR.utf8ByteSize

/-- `text.removesuffix(suffix)`. -/
def removeSuffix (text suffix : String) : String :=
  if endsWith text suffix then String.ofList (text.toList.take (text.length - suffix.length))
  else text

/-- `rendered_document_budget_size`. -/
def renderedDocumentBudgetSize (renderedBlock content : String) : Nat :=
  content.length + (removeSuffix renderedBlock content).utf8ByteSize

/-! ## The context of an answer -/

def EMPTY_CONTEXT_SENTINEL : String := "No relevant context found."

/-- `join_document_blocks`. -/
def joinDocumentBlocks (blocks : List String) : String :=
  if blocks.isEmpty then EMPTY_CONTEXT_SENTINEL else INTER_BLOCK_SEPARATOR.intercalate blocks

def EMPTY_CONTEXT_DECLINE_INSTRUCTIONS : String :=
  "State plainly that you do not have information on the topic. Do not answer " ++
  "from general knowledge and do not cite a document."

/-- `empty_context_instruction`. -/
def emptyContextInstruction (hasContext : Bool) : String :=
  if hasContext then "" else EMPTY_CONTEXT_DECLINE_INSTRUCTIONS

/-- `citation_scope_instruction`. -/
def citationScopeInstruction (documentCount : Nat) : String :=
  if documentCount < 1 then
    "No documents were supplied for this answer. Do not cite any document number."
  else if documentCount = 1 then
    "Exactly one document was supplied for this answer: [Document 1]. " ++
    "It is the only citable label; any other document number is invalid."
  else
    s!"{documentCount} documents were supplied for this answer, numbered " ++
    s!"[Document 1] through [Document {documentCount}]. Those are the only " ++
    "citable labels; any document number outside that range is invalid."

end VirtualContributor.Retrieval
