import VirtualContributor.Lib.FailStop
import VirtualContributor.Retrieval.RuleClassifier
import VirtualContributor.Web.Exception

/-!
# The space tree reader

`plugins/ingest_space/space_reader.py` from the tree on that a query gave.  A
link's body is fetched by a call.

A field that is read with `.get` and `or` has one value for absent, null and
empty.  The id of a post, a whiteboard or a link is read with `[...]`, which
tells these apart.
-/

namespace VirtualContributor.Plugins.SpaceReader

open Lib Program Regex Retrieval

/-! ## The tree -/

/-- A field that is read with `node["id"]`. -/
inductive IdField where
  | absent
  | null
  | text (value : String)
deriving DecidableEq

namespace IdField

/-- `node["id"]` -/
def read : IdField → Except Exc (Option String)
  | absent => .error { typeName := "KeyError", text := "'id'" }
  | null => .ok none
  | text value => .ok (some value)

/-- `node.get("id")` -/
def get : IdField → Option String
  | text value => some value
  | _ => none

end IdField

structure Profile where
  displayName : Option String := none
  description : Option String := none
  url : Option String := none

structure Post where
  id : IdField
  profile : Option Profile := none

structure Whiteboard where
  id : IdField
  profile : Option Profile := none
  content : Option String := none

structure Link where
  id : IdField
  profile : Option Profile := none
  uri : Option String := none

structure Contribution where
  post : Option Post := none
  whiteboard : Option Whiteboard := none
  link : Option Link := none

structure Framing where
  profile : Option Profile := none

structure Callout where
  id : Option String
  framing : Option Framing := none
  contributions : Option (List Contribution) := none

structure CalloutsSet where
  callouts : Option (List Callout) := none

structure Collaboration where
  calloutsSet : Option CalloutsSet := none

/-- A space with its subspaces. -/
inductive Space where
  | mk (id : Option String) (profile : Option Profile) (collaboration : Option Collaboration)
    (subspaces : List Space)

/-- A knowledge base has no subspaces. -/
structure KnowledgeBase where
  id : Option String
  profile : Option Profile := none
  calloutsSet : Option CalloutsSet := none

namespace Space

def id : Space → Option String
  | mk id _ _ _ => id

def profile : Space → Option Profile
  | mk _ profile _ _ => profile

def collaboration : Space → Option Collaboration
  | mk _ _ collaboration _ => collaboration

def subspaces : Space → List Space
  | mk _ _ _ subspaces => subspaces

/-- `((space.get("collaboration") or {}).get("calloutsSet") or {}).get("callouts") or []` -/
def callouts (space : Space) : List Callout :=
  (((space.collaboration.getD {}).calloutsSet.getD {}).callouts).getD []

end Space

/-! ## Texts -/

/-- What the reader takes from libraries: the lower case of a text, `html.unescape`,
the digest of a text and `extract_text`. -/
structure ReaderLib where
  lower : String → String
  unescape : String → String
  sha256 : String → String
  extractText : List UInt8 → String → Option String

/-- The spots where a match of a pattern without `\b` may end. -/
def matchEnds (pattern : Regex) : Spot → List Spot := ends (fun _ => false) pattern

/-- A character of `[^>]`. -/
def notClosing : Regex := .chars (· ≠ '>')

/-- Whether two letters are the same for a group that is matched again with
`re.IGNORECASE`. -/
def sameLetter (c d : Char) : Bool :=
  let lower (c : Char) := if c = 'İ' then 'i' else c.toLower
  lower c = lower d

/-- `_SCRIPT_STYLE_RE`.  The name of the element is matched again at its end. -/
def SCRIPT_STYLE_RE (spot : Spot) : List Spot := do
  let begun ← matchEnds (literal "<") spot
  let named ← matchEnds (literal "script" + literal "style") begun
  let name := begun.rest.take (begun.rest.length - named.rest.length)
  matchEnds (many notClosing * literal ">" * .star false (.chars fun _ => true) * literal "</" *
    spelled sameLetter name * literal ">") named

/-- `_BLOCK_TAGS_RE` -/
def BLOCK_TAGS_RE : Regex :=
  literal "<" * opt (literal "/") *
    anyOf [literal "br", literal "p", literal "div", literal "li", literal "tr",
      literal "h" * .chars (fun c => '1' ≤ c && c ≤ '6'), literal "hr", literal "blockquote",
      literal "pre"] *
    opt (.chars isPythonSpace * many notClosing) * opt (literal "/") * literal ">"

/-- `_TAG_RE` -/
def TAG_RE : Regex := literal "<" * some' notClosing * literal ">"

/-- A character of `[ \t]`. -/
def horizontal : Regex := .chars fun c => c = ' ' || c = '\t'

/-- `_HORIZONTAL_WS_RE` -/
def HORIZONTAL_WS_RE : Regex := some' horizontal

/-- `_EXCESS_NEWLINES_RE` -/
def EXCESS_NEWLINES_RE : Regex :=
  literal "\n" * many horizontal * literal "\n" * many horizontal * some' (literal "\n")

section Texts

variable (L : ReaderLib)

/-- Strip HTML tags and decode entities, preserving paragraph breaks. -/
def stripHtml (text : String) : String :=
  if text = "" then text
  else
    let text := sub SCRIPT_STYLE_RE "" text
    let text := sub (matchEnds BLOCK_TAGS_RE) "\n" text
    let text := sub (matchEnds TAG_RE) "" text
    let text := L.unescape text
    let text := sub (matchEnds HORIZONTAL_WS_RE) " " text
    let text := sub (matchEnds EXCESS_NEWLINES_RE) "\n\n" text
    strip text

/-- Whitespace-insensitive hash used for deduplication. -/
def contentKey (content : String) : String :=
  L.sha256 (L.lower (strip (sub (matchEnds gap) " " content)))

/-- `text[:n]` -/
def firstChars (n : Nat) (text : String) : String := String.ofList (text.toList.take n)

def NAME_MAX_CHARS : Nat := 200

/-- HTML-strip and cap a display name; blank becomes unknown. -/
def cleanName (raw : String) : Option String :=
  if raw = "" then none
  else
    let cleaned := strip (stripHtml L (stripHtml L raw))
    if cleaned = "" then none else some (firstChars NAME_MAX_CHARS cleaned)

end Texts

/-! ## Positions -/

def CONTRIBUTION_DEPTH : Nat := 3

/-- Where a document sits in the space tree. -/
structure Position where
  spaceId : Option String := none
  spaceName : Option String := none
  subspaceId : Option String := none
  subspaceName : Option String := none
  calloutId : Option String := none
  depth : Nat := 0
deriving DecidableEq

/-- `value or None` -/
def orNone (value : Option String) : Option String := value.filter (· ≠ "")

namespace Position

/-- Descend to a tree node: the root sets space, deeper sets subspace. -/
def forNode (L : ReaderLib) (position : Position) (nodeId : Option String) (nodeName : String)
    (depth : Nat) : Position :=
  let name := cleanName L nodeName
  if depth = 0 then { position with spaceId := orNone nodeId, spaceName := name, depth := 0 }
  else { position with subspaceId := orNone nodeId, subspaceName := name, depth := depth }

/-- A callout keeps its owner's tier and names itself. -/
def forCallout (position : Position) (calloutId : Option String) : Position :=
  { position with calloutId := orNone calloutId }

/-- A contribution keeps its callout and drops to the leaf tier. -/
def forContribution (position : Position) : Position :=
  { position with depth := CONTRIBUTION_DEPTH }

end Position

/-! ## `_append_unique` -/

/-- A document of the tree.  A contribution whose id is null has no document id. -/
structure SpaceDocument where
  content : String
  documentId : Option String
  source : String
  type : String
  title : String
  uri : Option String
  position : Position
deriving DecidableEq

/-- `documents` and `seen`. -/
structure ReaderState where
  documents : List SpaceDocument := []
  seen : List String := []

/-- The arguments of `_append_unique`; the id and the source are those of a node of
some kind. -/
structure Offer where
  id : IdField
  kind : String
  content : String
  type : String
  title : String
  uri : Option String
  position : Position

section Append

variable (L : ReaderLib)

/-- The document of the arguments, for the id that was read. -/
def Offer.document (offer : Offer) (documentId : Option String) : SpaceDocument where
  content := stripHtml L offer.content
  documentId := documentId
  source := offer.kind ++ ":" ++ documentId.getD "None"
  type := offer.type
  title := if stripHtml L offer.title = "" then offer.title else stripHtml L offer.title
  uri := orNone offer.uri
  position := offer.position

/-- The key under which an offer is seen. -/
def Offer.key (offer : Offer) : String := contentKey L (stripHtml L offer.content)

/-- Append a document if its stripped content is non-empty and new. -/
def appendUnique (st : ReaderState) (offer : Offer) (documentId : Option String) : ReaderState :=
  if stripHtml L offer.content = "" then st
  else if offer.key L ∈ st.seen then st
  else
    { documents := st.documents ++ [offer.document L documentId], seen := offer.key L :: st.seen }

/-- A call of `_append_unique`, whose arguments read the id. -/
def append (st : ReaderState) (offer : Offer) : Except Exc ReaderState := do
  let documentId ← offer.id.read
  return appendUnique L st offer documentId

end Append

/-! ## Calls -/

/-- `graphql_client.fetch_url(url, link_id=...)`, which never raises. -/
inductive ReadCall where
  | fetchUrl (url : String) (linkId : Option String)

abbrev readSignature : Signature where
  Call := ReadCall
  Answer := fun _ => Option (List UInt8 × String)

/-- Programs of the reader. -/
abbrev Reading := ExceptT Exc (Program readSignature)

def fetchUrl (url : String) (linkId : Option String) : Reading (Option (List UInt8 × String)) :=
  ExceptT.lift (request (S := readSignature) (.fetchUrl url linkId))

/-! ## Contributions -/

/-- `profile.get("displayName", "") or ""` -/
def Profile.name (profile : Profile) : String := profile.displayName.getD ""

/-- `profile.get("description", "") or ""` -/
def Profile.text (profile : Profile) : String := profile.description.getD ""

/-- The text, if there is any. -/
def part (text : String) : List String := if text = "" then [] else [text]

/-- `# title`, if there is a title. -/
def heading (title : String) : List String := if title = "" then [] else [s!"# {title}"]

def enriched (context title content : String) : String :=
  "\n\n".intercalate (part context ++ heading title ++ [content])

section Nodes

variable (L : ReaderLib)

/-- What a post offers below a callout with the context. -/
def Post.offer (post : Post) (context : String) (position : Position) : Option Offer :=
  let profile := post.profile.getD {}
  if profile.text = "" then none
  else
    some
      { id := post.id
        kind := "post"
        content := enriched context profile.name profile.text
        type := "post"
        title := profile.name
        uri := profile.url
        position := position }

def Whiteboard.offer (whiteboard : Whiteboard) (context : String) (position : Position) :
    Option Offer :=
  let content := whiteboard.content.getD ""
  let profile := whiteboard.profile.getD {}
  if content = "" then none
  else
    some
      { id := whiteboard.id
        kind := "whiteboard"
        content := enriched context profile.name content
        type := "whiteboard"
        title := profile.name
        uri := profile.url
        position := position }

/-- The text of a link: what was fetched, or else what is known of it. -/
def linkContent (context title description uri : String) (fetchedText : Option String) : String :=
  let parts :=
    match fetchedText.filter (· ≠ "") with
    | some text => heading title ++ part description ++ [text]
    | none =>
      part context ++ heading title ++ part description ++
        (if uri = "" then [] else [s!"URL: {uri}"])
  "\n\n".intercalate (parts.filter (· ≠ ""))

def Link.offer (link : Link) (context : String) (position : Position)
    (fetchedText : Option String) : Option Offer :=
  let uri := link.uri.getD ""
  let profile := link.profile.getD {}
  if uri = "" ∧ profile.name = "" ∧ profile.text = "" then none
  else
    some
      { id := link.id
        kind := "link"
        content := linkContent context profile.name profile.text uri fetchedText
        type := "link"
        title := profile.name
        uri := if uri = "" then profile.url else some uri
        position := position }

/-- What is offered is appended. -/
def appendOffer (st : ReaderState) (offer : Option Offer) : Except Exc ReaderState :=
  match offer with
  | none => .ok st
  | some offer => append L st offer

/-- The text of a link's body, when there is a URL to fetch. -/
def fetchText (link : Link) : Reading (Option String) :=
  let uri := link.uri.getD ""
  if uri = "" then pure none
  else do
    match ← fetchUrl uri link.id.get with
    | none => return none
    | some (body, contentType) => return L.extractText body contentType

def processLink (context : String) (position : Position) (st : ReaderState) (link : Link) :
    Reading ReaderState := do
  let fetchedText ← fetchText L link
  appendOffer L st (link.offer context position fetchedText)

/-- One turn of the loop over the contributions of a callout. -/
def processContribution (context : String) (position : Position) (st : ReaderState)
    (contrib : Contribution) : Reading ReaderState := do
  let st ← appendOffer L st (contrib.post.bind (·.offer context position))
  let st ← appendOffer L st (contrib.whiteboard.bind (·.offer context position))
  match contrib.link with
  | none => pure st
  | some link => processLink L context position st link

/-! ## Callouts -/

/-- `(callout.get("framing") or {}).get("profile") or {}` -/
def Callout.profile (callout : Callout) : Profile :=
  (callout.framing.getD {}).profile.getD {}

/-- What is put in front of the contributions of a callout. -/
def Callout.context (callout : Callout) : String :=
  let shortDesc :=
    if callout.profile.text = "" then "" else firstChars 400 (stripHtml L callout.profile.text)
  "\n\n".intercalate (part callout.profile.name ++ part shortDesc)

def Callout.offer (callout : Callout) (calloutId : String) (position : Position) :
    Option Offer :=
  let profile := callout.profile
  if profile.text = "" then none
  else
    some
      { id := .text calloutId
        kind := "callout"
        content := s!"{profile.name}\n\n{profile.text}"
        type := "callout"
        title := profile.name
        uri := profile.url
        position := position }

/-- Process a callout and its contributions. -/
def processCallout (position : Position) (st : ReaderState) (callout : Callout) :
    Reading ReaderState :=
  match orNone callout.id with
  | none => pure st
  | some calloutId => do
    let calloutPosition := position.forCallout (some calloutId)
    let st ← appendOffer L st (callout.offer calloutId calloutPosition)
    (callout.contributions.getD []).foldlM
      (processContribution L (callout.context L) calloutPosition.forContribution) st

/-! ## Spaces -/

def Space.offer (space : Space) (spaceId : String) (topDocType : Option String) (depth : Nat)
    (position : Position) : Option Offer :=
  let profile := space.profile.getD {}
  if profile.text = "" then none
  else
    some
      { id := .text spaceId
        kind := "space"
        content := s!"{profile.name}\n\n{profile.text}"
        type := if depth = 0 then topDocType.getD "space" else "subspace"
        title := profile.name
        uri := profile.url
        position := position }

mutual

/-- Process a space node and its children recursively. -/
def processSpace (topDocType : Option String) (depth : Nat) (position : Position) :
    Space → ReaderState → Reading ReaderState
  | .mk id profile collaboration subspaces, st =>
    match orNone id with
    | none => pure st
    | some spaceId => do
      let space := Space.mk id profile collaboration subspaces
      let nodePosition := position.forNode L (some spaceId) (profile.getD {}).name depth
      let st ← appendOffer L st (space.offer spaceId topDocType depth nodePosition)
      let st ← space.callouts.foldlM (processCallout L nodePosition) st
      processSubspaces (depth + 1) nodePosition subspaces st

/-- The recursion into subspaces. -/
def processSubspaces (depth : Nat) (position : Position) :
    List Space → ReaderState → Reading ReaderState
  | [], st => pure st
  | space :: rest, st => do
    let st ← processSpace none depth position space st
    processSubspaces depth position rest st

end

/-! ## Trees -/

/-- The documents of a tree, if there is one. -/
def readTree (topDocType : Option String) : Option Space → Reading (List SpaceDocument)
  | none => pure []
  | some space => do
    let st ← processSpace L topDocType 0 {} space {}
    return st.documents

/-- Read the full space tree and convert to documents. -/
def readSpaceTree (space : Option Space) : Reading (List SpaceDocument) := readTree L none space

/-- The layout that `processSpace` expects. -/
def KnowledgeBase.spaceShaped (kb : KnowledgeBase) : Space :=
  .mk kb.id kb.profile (some ⟨kb.calloutsSet⟩) []

/-- Read a knowledge base and convert its callouts to documents. -/
def readKnowledgeBaseTree (kb : Option KnowledgeBase) : Reading (List SpaceDocument) :=
  readTree L (some "knowledge") (kb.map KnowledgeBase.spaceShaped)

end Nodes

end VirtualContributor.Plugins.SpaceReader
