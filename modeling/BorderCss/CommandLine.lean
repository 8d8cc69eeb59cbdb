import BorderCss.Stylesheet
import BorderCss.Theme.Loading
import BorderCss.Theme.Preset

/-!
# The command line

`Invocation.read` makes out what the arguments ask for and `Invocation.report` answers it, as a
`Report` of the exit code and the two texts to print. Reading the theme file is left to the caller.
-/

namespace BorderCss

/-- Arguments that cannot be followed. -/
inductive WrongUsage where
  | unknownOption (argument : String)
  | missingValue (option : String)
  | unexpectedValue (option : String)
  | repeated (option : String)
  | noTokens
deriving DecidableEq, Repr

/-- What is wrong, in words. -/
def WrongUsage.message : WrongUsage → String
  | .unknownOption argument => "error: unexpected argument '" ++ argument ++ "' found"
  | .missingValue option =>
    "error: a value is required for '" ++ option ++ "' but none was supplied"
  | .unexpectedValue option => "error: unexpected value for '" ++ option ++ "' found"
  | .repeated option => "error: the argument '" ++ option ++ "' cannot be used multiple times"
  | .noTokens => "error: the following required arguments were not provided:\n  <TOKENS>..."

/-- What the arguments set. -/
structure Settings where
  tokens : List String := []
  theme : Option String := none
  rootBlock : Bool := false
  hints : Bool := false
deriving DecidableEq, Repr

/-- What the arguments ask for. -/
inductive Invocation where
  | resolve (settings : Settings)
  | listHints
  | version
  | help
deriving DecidableEq, Repr

namespace Settings

/-- The settings with a theme file, whose name may not be empty and may be given once. -/
def setTheme (settings : Settings) (file : String) : Except WrongUsage Settings :=
  if settings.theme.isSome then .error (.repeated "--theme <FILE>")
  else if file = "" then .error (.missingValue "--theme <FILE>")
  else .ok { settings with theme := some file }

/-- The settings with a switch turned on, which may be done once. -/
def turnOn (settings : Settings) (switch : String) : Except WrongUsage Settings :=
  if switch = "--vars" then
    if settings.rootBlock then .error (.repeated switch)
    else .ok { settings with rootBlock := true }
  else if settings.hints then .error (.repeated switch)
  else .ok { settings with hints := true }

/-- The settings with more tokens. -/
def addTokens (settings : Settings) (tokens : List String) : Settings :=
  { settings with tokens := settings.tokens ++ tokens }

/-- What the settings ask for: the hints, or the tokens, of which there must be one. -/
def invocation (settings : Settings) : Except WrongUsage Invocation :=
  if settings.hints then .ok .listHints
  else if settings.tokens.isEmpty then .error .noTokens
  else .ok (.resolve settings)

end Settings

/-- An argument starts like an option: with a hyphen that is not all of it. -/
def looksLikeOption (argument : String) : Bool :=
  match argument.toList with
  | '-' :: _ :: _ => true
  | _ => false

/-- The name of a long option and the value attached to it with an equals sign. -/
def splitOption (argument : String) : String × Option String :=
  match cutFirst? '=' argument.toList with
  | some (name, value) => (String.ofList name, some (String.ofList value))
  | none => (argument, none)

namespace Invocation

/-- What the arguments ask for when some were read already. An option that asks for the version or
for help settles it at once, and after two hyphens everything is a token. -/
def readFrom (settings : Settings) : List String → Except WrongUsage Invocation
  | [] => settings.invocation
  | argument :: rest =>
    if !looksLikeOption argument then readFrom (settings.addTokens [argument]) rest
    else if argument = "--" then (settings.addTokens rest).invocation
    else
      match splitOption argument with
      | ("--theme", some file) => do readFrom (← settings.setTheme file) rest
      | ("--theme", none) =>
        match rest with
        | file :: rest =>
          if looksLikeOption file then .error (.missingValue "--theme <FILE>")
          else do readFrom (← settings.setTheme file) rest
        | [] => .error (.missingValue "--theme <FILE>")
      | (option, value) =>
        if option = "--vars" ∨ option = "--hints" then
          if value.isSome then .error (.unexpectedValue option)
          else do readFrom (← settings.turnOn option) rest
        else if option = "--version" ∨ option = "--help" then
          if value.isSome then .error (.unexpectedValue option)
          else .ok (if option = "--version" then .version else .help)
        else
          match argument.toList with
          | '-' :: 'V' :: _ => .ok .version
          | '-' :: 'h' :: _ => .ok .help
          | _ => .error (.unknownOption argument)

/-- What the arguments ask for. -/
def read (arguments : List String) : Except WrongUsage Invocation :=
  readFrom {} arguments

/-- The theme file to read first, if any. -/
def file? : Invocation → Option String
  | .resolve settings => settings.theme
  | _ => none

end Invocation

/-- The exit code of a run, and what it prints to the standard streams. -/
structure Report where
  code : Nat
  out : String := ""
  err : String := ""
deriving DecidableEq, Repr

/-- Texts as lines. -/
def asLines (texts : List String) : String :=
  String.join (texts.map (· ++ "\n"))

/-- The name of the program and its version. -/
def versionText : String := "windrules 0.1.0\n"

/-- How the program is used. -/
def helpText : String :=
  asLines [
    "Resolve border utility tokens to CSS",
    "",
    "Usage: windrules [OPTIONS] [TOKENS]...",
    "",
    "Arguments:",
    "  [TOKENS]...  Utility tokens to resolve",
    "",
    "Options:",
    "      --theme <FILE>  Theme file (.json, .yaml or .yml); the built-in preset is used " ++
      "otherwise",
    "      --vars          Also print `:root` variables for the theme keys the tokens used",
    "      --hints         List the autocomplete hints of the rule table and exit",
    "  -h, --help          Print help",
    "  -V, --version       Print version"]

/-- The stylesheet of the tokens of some settings, after the variables it uses if they are asked
for; tokens without a rule are warned about. -/
def Settings.report (settings : Settings) (theme : Theme) : Report :=
  let (sheet, pass) := Pass.generate { theme } settings.tokens
  let block := if settings.rootBlock then pass.rootBlock else ""
  { code := 0
    out := asLines ([block, sheet.css].filter (· ≠ ""))
    err := asLines (sheet.unmatched.map fun token =>
      "warning: no rule matched `" ++ token ++ "`") }

/-- The report that a theme file cannot be loaded. -/
def LoadError.report (error : LoadError) (file : String) : Report where
  code := 1
  err := asLines (("Error: failed to load theme from " ++ file) ::
    match error.message? with
    | some message => ["", "Caused by:", "    " ++ message]
    | none => [])

/-- The report of wrong usage. -/
def WrongUsage.report (wrong : WrongUsage) : Report where
  code := 2
  err := asLines [wrong.message]

/-- The report of an invocation, given the bytes of the theme file, none if it does not exist. -/
def Invocation.report (invocation : Invocation) (bytes : Option ByteArray) : Report :=
  match invocation with
  | .resolve settings =>
    match settings.theme with
    | none => settings.report .preset
    | some file =>
      match Theme.load file bytes with
      | .ok theme => settings.report theme
      | .error error => error.report file
  | .listHints => { code := 0, out := asLines (ruleHints borderRules) }
  | .version => { code := 0, out := versionText }
  | .help => { code := 0, out := helpText }

end BorderCss
