import CodeMarkup.Markup.TokenClass
import CodeMarkup.PathTarget
import CodeMarkup.Text.Blank
import CodeMarkup.Text.Lowercase
import CodeMarkup.Toml.Reader

/-!
# Settings

The settings say whether code is highlighted and which lead the class names in markup have. They
are kept in a TOML file in the home directory. A value that is missing or has no meaning leaves the
setting at its default, and so does a lead that could break out of a class attribute.

* `Settings.ofToml?` reads settings and `Settings.toToml` writes them.
* `Settings.ofFile` reads the settings file, and `Settings.load` never fails.
* `Settings.save` writes the settings file.
-/

namespace CodeMarkup

/-- The settings of a user. -/
structure Settings where
  /-- Whether code is highlighted. -/
  highlight : Bool := true
  /-- The lead of class names in markup. -/
  lead : List Char := TokenClass.defaultLead
  deriving DecidableEq, Repr

/-- Why the settings file cannot be used. -/
inductive SettingsError where
  /-- It is not a TOML document. -/
  | malformed
  /-- It cannot be read. -/
  | unreadable (cause : ReadError)
  deriving DecidableEq, Repr

namespace Settings

/-- The name of the settings file in the home directory. -/
def fileName : String := ".dochl.toml"

/-! ## Reading -/

/-- Whether a character would end a class name or a class attribute. -/
def isReserved (c : Char) : Bool := isBlank c || ['<', '>', '&', '"', '\''].contains c

/-- Whether a lead can stand in a class attribute: it is not empty, and none of its characters is
reserved. -/
def isValidLead (lead : List Char) : Bool := !lead.isEmpty && !lead.any isReserved

/-- The truth value that a word stands for, in any letter case. -/
def boolOfWord? (word : List Char) : Option Bool :=
  let lower := String.ofList (lowercase word)
  if ["true", "yes", "on", "1"].contains lower then some true
  else if ["false", "no", "off", "0"].contains lower then some false
  else none

/-- The truth value that an item stands for: itself, whether an integer differs from zero, or the
meaning of a word. -/
def boolOfItem? : Toml.Item → Option Bool
  | .boolean b => some b
  | .integer n => some (n != 0)
  | .string word => boolOfWord? word
  | _ => none

/-- The lead that an item holds, if it is valid. -/
def leadOfItem? : Toml.Item → Option (List Char)
  | .string lead => if isValidLead lead then some lead else none
  | _ => none

/-- The settings that a table holds. -/
def ofTable (entries : Toml.Table) : Settings where
  highlight :=
    ((Toml.Table.get? "highlight".toList entries).bind boolOfItem?).getD true
  lead :=
    ((Toml.Table.get? "class-prefix".toList entries).bind leadOfItem?).getD TokenClass.defaultLead

/-- Reads settings from the text of a settings file. -/
def ofToml? (text : List Char) : Option Settings := (Toml.read? text).map ofTable

/-- Reads settings from the settings file. If there is none, the defaults hold. -/
def ofFile (file : PathTarget) : Except SettingsError Settings :=
  match file.readText with
  | .error .notFound => .ok {}
  | .error cause => .error (.unreadable cause)
  | .ok text =>
    match ofToml? text with
    | some settings => .ok settings
    | none => .error .malformed

/-- The settings in force, where `file?` is the settings file if there is a home directory. The
defaults hold if the file cannot be used. -/
def load (file? : Option PathTarget) : Settings :=
  match file? with
  | none => {}
  | some file =>
    match ofFile file with
    | .ok settings => settings
    | .error _ => {}

/-! ## Writing -/

/-- What stands above the settings in a settings file. -/
def heading : List Char := "# dochl configuration\n\n".toList

/-- The text of a settings file: a line for each setting, in the order of their keys. -/
def toToml (settings : Settings) : List Char :=
  heading ++
    (Toml.pairLine "class-prefix".toList (Toml.Quoted.write settings.lead) ++
      Toml.pairLine "highlight".toList (if settings.highlight then "true" else "false").toList)

/-- The settings file after settings have been saved, where `file?` is the one before if there is a
home directory. Without one nothing is written. -/
def save (settings : Settings) (file? : Option PathTarget) :
    Except WriteError (Option PathTarget) :=
  match file? with
  | none => .ok none
  | some file => (file.writeText settings.toToml).map some

end Settings

end CodeMarkup
