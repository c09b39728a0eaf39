import VirtualContributor.Lib.JsonText
import VirtualContributor.Lib.PythonText
import VirtualContributor.Lib.Regex

/-!
# The JSON of an answer

`GuidancePlugin._parse_json_sources` looks for JSON in a code fence and then for
the first block of braces.
-/

namespace VirtualContributor.Plugins

open Lib

/-- A value that is `None` or not. -/
def orNone : Json → Option Json
  | .null => none
  | value => some value

namespace GuidancePlugin

/-! ## The fence -/

def exactly (word : String) : Regex := .spelled (· == ·) word.toList

/-- `\s` -/
def space : Regex := .chars isPythonSpace

/-- The group of `re.search` with ```` ```(?:json)?\s*\n(.*?)\n\s*``` ````. -/
def fenceGroup (text : String) : Option String :=
  Regex.capture (fun _ => false)
    (exactly "```" * .opt (exactly "json") * .many space * exactly "\n")
    (.star false (.chars fun _ => true))
    (exactly "\n" * .many space * exactly "```") text

/-! ## The braces -/

/-- The loop over the text from the first brace on: the candidate that ends
where the depth is back at zero. -/
def matchingBrace : Int → List Char → Option (List Char)
  | _, [] => none
  | depth, c :: rest =>
    if c = '{' then (matchingBrace (depth + 1) rest).map (c :: ·)
    else if c = '}' then
      if depth - 1 = 0 then some [c] else (matchingBrace (depth - 1) rest).map (c :: ·)
    else (matchingBrace depth rest).map (c :: ·)

/-- The first block of braces. -/
def braceCandidate (text : String) : Option String :=
  (matchingBrace 0 (text.toList.dropWhile (· ≠ '{'))).map String.ofList

/-! ## Parsing -/

variable (F : JsonFloats)

/-- `return json.loads(text)`, with what follows a `JSONDecodeError`. -/
def loadsOr (text : String) (otherwise : Except LoadError (Option Json)) :
    Except LoadError (Option Json) :=
  match loads F text with
  | .ok value => .ok (orNone value)
  | .error .decode => otherwise
  | .error error => .error error

/-- `_parse_json_sources`, from the braces on. -/
def parseBareObject (text : String) : Except LoadError (Option Json) :=
  match braceCandidate text with
  | none => .ok none
  | some candidate => loadsOr F candidate (.ok none)

/-- `_parse_json_sources` -/
def parseJsonSources (text : String) : Except LoadError (Option Json) :=
  if isBlank text then .ok none
  else
    match fenceGroup text with
    | some group => loadsOr F (strip group) (parseBareObject F text)
    | none => parseBareObject F text

end GuidancePlugin

end VirtualContributor.Plugins
