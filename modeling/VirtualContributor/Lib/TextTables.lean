import VirtualContributor.Lib.Json
import VirtualContributor.Lib.PythonText

/-!
# Text functions that read a table

What Python takes from the Unicode database, and the printing of values, as
parameters.  `PythonText` has the functions that prompt graphs use and
`UnicodeText` those of retrieval besides.
-/

namespace VirtualContributor.Lib

/-- The text functions of Python that depend on the Unicode tables or on the
printing of JSON values. -/
structure PythonText where
  repr : Json → String
  lower : String → String
  xidStart : Char → Bool
  xidContinue : Char → Bool

namespace PythonText

variable (T : PythonText)

/-- `str(value)`. -/
def str : Json → String
  | .str value => value
  | value => T.repr value

/-- `name.isidentifier()`. -/
def isidentifier (name : String) : Bool :=
  match name.toList with
  | [] => false
  | c :: rest =>
    (if c.toNat < 128 then c.isAlpha || c = '_' else T.xidStart c) &&
      rest.all fun c => if c.toNat < 128 then c.isAlphanum || c = '_' else T.xidContinue c

theorem isidentifier_empty : T.isidentifier "" = false := rfl

end PythonText

/-- Text functions that know no character beyond ASCII. -/
def asciiText : PythonText where
  repr _ := ""
  lower := asciiLower
  xidStart _ := false
  xidContinue _ := false

/-- The tables of one version of Unicode: the full case folding of a
character, the characters that `\w` matches, those that `str.isdigit` and
`str.isalpha` accept, and those of the category `Cf`. -/
structure UnicodeText extends PythonText where
  foldChar : Char → List Char
  isWord : Char → Bool
  isDigit : Char → Bool
  isAlpha : Char → Bool
  isFormat : Char → Bool

/-- `text.casefold()`. -/
def UnicodeText.casefold (T : UnicodeText) (text : String) : String :=
  String.ofList (text.toList.flatMap T.foldChar)

/-- The tables that know no character beyond ASCII. -/
def asciiUnicode : UnicodeText where
  toPythonText := asciiText
  foldChar c := [c.toLower]
  isWord c := c.isAlphanum || c = '_'
  isDigit := Char.isDigit
  isAlpha := Char.isAlpha
  isFormat _ := false

/-- Whether a character is of the category `Cc`. -/
def isControl (c : Char) : Bool := c.toNat < 32 || (127 ≤ c.toNat && c.toNat < 160)

end VirtualContributor.Lib
