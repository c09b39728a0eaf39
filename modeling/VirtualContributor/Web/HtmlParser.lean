import Mathlib.Data.Rat.Defs
import Mathlib.Algebra.Order.Ring.Rat
import VirtualContributor.Lib.Containers
import VirtualContributor.Lib.PythonText

/-!
# Page texts

`plugins/ingest_website/html_parser.py`.  What is read off the parse tree of a
page is a parameter; the removal of paragraphs that many pages share is not.
-/

namespace VirtualContributor.Web

open Lib

/-- What the HTML parser gives of a page. -/
structure HtmlLib where
  /-- `extract_text`. -/
  extractText : String → String
  /-- `extract_title`. -/
  extractTitle : String → String
  /-- The `href` of each link, in order. -/
  hrefs : String → List String
  /-- `body.decode("utf-8", errors="replace")`. -/
  decode : List UInt8 → String

section Boilerplate

variable (lower : String → String)

/-- `_normalize` of a paragraph. -/
def normalizeParagraph (paragraph : String) : String := lower (" ".intercalate (words paragraph))

/-- The normalized paragraphs of one page that are long enough to count. -/
def pageKeys (text : String) : OrderedSet String :=
  .ofList (((splitOn text "\n\n").map (normalizeParagraph lower)).filter (20 ≤ ·.length))

/-- Count one page. -/
def countPage (counts : OrderedDict String Nat) (text : String) : OrderedDict String Nat :=
  (pageKeys lower text).toList.foldl (fun d key => d.set key ((d.get? key).getD 0 + 1)) counts

/-- The paragraphs on more than the given fraction of the pages. -/
def boilerplateKeys (threshold : Rat) (texts : List String) : List String :=
  let counts := texts.foldl (countPage lower) .empty
  (counts.entries.filter fun e => (e.2 : Rat) > threshold * texts.length).map Prod.fst

/-- Remove paragraphs that appear on many pages. -/
def removeCrossPageBoilerplate (texts : List String) (threshold : Rat := 1 / 2)
    (minPages : Nat := 4) : List String :=
  if texts.length < minPages then texts
  else
    let boilerplate := boilerplateKeys lower threshold texts
    if boilerplate.isEmpty then texts
    else
      texts.map fun text =>
        "\n\n".intercalate
          ((splitOn text "\n\n").filter fun p => normalizeParagraph lower p ∉ boilerplate)

end Boilerplate

end VirtualContributor.Web
