import BorderCss.Document.Json
import BorderCss.Document.Yaml.Expansion
import BorderCss.Theme.Basic

/-!
# Loading themes

A theme is written as JSON or YAML. `Theme.ofDocument?` reads it off a document tree: the fields
`colors` and `radius` are each optional and may stand once, and other fields are passed over.
`Theme.load` chooses the format by a file's extension and says what is wrong otherwise.
-/

namespace BorderCss

/-- The two formats of a theme. They differ in whether a sequence of the two fields is a theme, and
in how deeply mappings may be nested. -/
inductive ThemeFormat where
  | json
  | yaml
deriving DecidableEq, Repr

namespace ThemeFormat

/-- A sequence of colours and radii is a theme. -/
def takesSequence : ThemeFormat → Bool
  | .json => true
  | .yaml => false

/-- How many containers may be open inside one another. -/
def depthLimit : ThemeFormat → Nat
  | .json => 127
  | .yaml => 128

/-- The format of a file extension, in any case. -/
def ofExtension? (extension : List Char) : Option ThemeFormat :=
  let extension := String.ofList (extension.map Char.toLower)
  if extension = "json" then some .json
  else if extension = "yaml" ∨ extension = "yml" then some .yaml
  else none

end ThemeFormat

mutual

/-- A colour entry, inside which mappings may be nested `depth` deep. Keys and values must be
strings. -/
def ThemeNode.ofDocument? (depth : Nat) : Document → Option ThemeNode
  | .scalar written => if written.isString then some (.value written.text) else none
  | .mapping entries =>
    match depth with
    | 0 => none
    | depth + 1 =>
      (ThemeNode.ofEntries? depth entries).map fun entries => .scale (entriesOfList entries)
  | _ => none

/-- The entries of a scale, in the order they were written. -/
def ThemeNode.ofEntries? (depth : Nat) :
    List (Document × Document) → Option (List (String × ThemeNode))
  | [] => some []
  | (key, item) :: rest =>
    match key.string?, ThemeNode.ofDocument? depth item, ThemeNode.ofEntries? depth rest with
    | some key, some node, some nodes => some ((key, node) :: nodes)
    | _, _, _ => none

end

/-- The named colours of a document, which may be nested `depth` deep. A name is the text of any
scalar. -/
def colorsOf? (depth : Nat) (document : Document) : Option (List (String × ThemeNode)) := do
  let entries ← document.entries?
  let colors ← entries.mapM fun (key, value) => do
    some (← key.text?, ← ThemeNode.ofDocument? depth value)
  some (entriesOfList colors)

/-- The named radii of a document; names and radii are the texts of any scalars. -/
def radiiOf? (document : Document) : Option (List (String × String)) := do
  let entries ← document.entries?
  let radii ← entries.mapM fun (key, value) => do some (← key.text?, ← value.text?)
  some (entriesOfList radii)

/-- The values of the fields of a given name. Every name must be a scalar. -/
def fieldsOf? (entries : List (Document × Document)) : Option (List (String × Document)) :=
  entries.mapM fun (key, value) => key.text?.map (·, value)

/-- The only value of a field, `.blank` if it is missing, and none if it stands twice. -/
def soleField? (name : String) (fields : List (String × Document)) : Option Document :=
  match fields.filter (·.1 == name) with
  | [] => some .blank
  | [(_, value)] => some value
  | _ => none

namespace Theme

/-- The theme of two documents, the colours and the radii. -/
def ofFields? (format : ThemeFormat) (colors radii : Document) : Option Theme := do
  some { colors := ← colorsOf? (format.depthLimit - 2) colors, radii := ← radiiOf? radii }

/-- The theme that a document writes. -/
def ofDocument? (format : ThemeFormat) : Document → Option Theme
  | .sequence items =>
    if format.takesSequence then
      match items with
      | [] => some {}
      | [colors] => ofFields? format colors .blank
      | [colors, radii] => ofFields? format colors radii
      | _ => none
    else none
  | document => do
    let fields ← fieldsOf? (← document.entries?)
    ofFields? format (← soleField? "colors" fields) (← soleField? "radius" fields)

/-- The theme that a text writes in a format. -/
def read? (format : ThemeFormat) (text : String) : Option Theme :=
  let document? :=
    match format with
    | .json => readJson? text
    | .yaml => Yaml.readYaml? ["colors", "radius"] format.depthLimit text
  document?.bind (ofDocument? format)

end Theme

/-- Why a theme cannot be loaded. -/
inductive LoadError where
  /-- The text is no theme in its format. -/
  | malformed (format : ThemeFormat)
  | unsupportedFormat (file : String)
  | missing (file : String)
  /-- The file is no UTF-8 text. -/
  | notText (file : String)
deriving DecidableEq, Repr

/-- What went wrong, in words; nothing more is said about a malformed text. -/
def LoadError.message? : LoadError → Option String
  | .malformed _ => none
  | .unsupportedFormat file =>
    some ("unsupported theme format for " ++ file ++ ": expected .json, .yaml or .yml")
  | .missing file =>
    some ("failed to read theme file " ++ file ++ ": No such file or directory (os error 2)")
  | .notText file =>
    some ("failed to read theme file " ++ file ++ ": stream did not contain valid UTF-8")

/-- The extension of a path's last component: what follows its last full stop, unless that is the
first character. -/
def extensionOf? (path : String) : Option (List Char) :=
  let name := ((pieces '/' path.toList).filter (!·.isEmpty)).getLastD []
  match (pieces '.' name).reverse with
  | extension :: stem :: others =>
    if name = ['.', '.'] ∨ (others.isEmpty ∧ stem.isEmpty) then none else some extension
  | _ => none

namespace Theme

/-- The theme of a text in a format. -/
def read (format : ThemeFormat) (text : String) : Except LoadError Theme :=
  match read? format text with
  | some theme => .ok theme
  | none => .error (.malformed format)

/-- The theme of a file, whose bytes are none if it does not exist. -/
def load (file : String) (bytes : Option ByteArray) : Except LoadError Theme :=
  match (extensionOf? file).bind ThemeFormat.ofExtension? with
  | none => .error (.unsupportedFormat file)
  | some format =>
    match bytes with
    | none => .error (.missing file)
    | some bytes =>
      match String.fromUTF8? bytes with
      | some text => read format text
      | none => .error (.notText file)

end Theme

end BorderCss
