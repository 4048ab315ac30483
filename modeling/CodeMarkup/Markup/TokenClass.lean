/-!
# Token classes

The kinds of tokens that markup tells apart. Each has a bare name, and its name in markup is the
bare name after a lead that the page chooses.
-/

namespace CodeMarkup

/-- The kind of a token. -/
inductive TokenClass where
  /-- An opening or closing delimiter of embedded code. -/
  | tag
  /-- A comment. -/
  | comment
  /-- A string literal. -/
  | string
  /-- A variable or an expansion. -/
  | var
  /-- An operator. -/
  | op
  /-- A numeric literal. -/
  | number
  /-- A reserved word. -/
  | keyword
  /-- A long option of a command. -/
  | flag
  /-- The name of a command or a function. -/
  | func
  deriving DecidableEq, Repr

namespace TokenClass

/-- Every token class, in order. -/
def all : List TokenClass := [tag, comment, string, var, op, number, keyword, flag, func]

/-- The bare name of a token class. -/
def name : TokenClass → String
  | tag => "tag"
  | comment => "comment"
  | string => "string"
  | var => "var"
  | op => "op"
  | number => "number"
  | keyword => "keyword"
  | flag => "flag"
  | func => "func"

/-- The token class with a bare name. -/
def ofName? (name : String) : Option TokenClass := all.find? fun c => c.name == name

/-- The position of a token class in `all`. -/
def index (c : TokenClass) : Nat := all.idxOf c

/-- The name of a token class in markup. -/
def cssClass (c : TokenClass) (lead : List Char) : List Char := lead ++ c.name.toList

/-- The lead of class names where a page does not choose one. -/
def defaultLead : List Char := "tok-".toList

end TokenClass

end CodeMarkup
