import BorderCss.Color.Basic
import BorderCss.Value.Bracket
import BorderCss.Value.Conversion
import BorderCss.Value.Keyword

/-!
# Reading colours

`readColor?` reads the colour part of a token: `name`, `name-shade` or a literal, each with an
optional `/alpha`. Literals are hexadecimal colours, custom properties and bracket escapes; a name
is looked up in the theme by `themeColor?`. A number is no colour.
-/

namespace BorderCss

/-- The text before the first slash outside brackets, and the text after it if there is one.
`depth` counts the brackets open at the start, negative when more were closed. -/
def splitSlash (depth : Int) : List Char → List Char × Option (List Char)
  | [] => ([], none)
  | c :: rest =>
    if c = '/' ∧ depth = 0 then ([], some rest)
    else
      let inner := if c = '[' then depth + 1 else if c = ']' then depth - 1 else depth
      let (main, alpha) := splitSlash inner rest
      (c :: main, alpha)

/-- The colour and the alpha of a colour part, neither of them empty. -/
def splitAlpha? (body : String) : Option (String × Option String) :=
  match splitSlash 0 body.toList with
  | ([], _) => none
  | (_, some []) => none
  | (main, alpha) => some (String.ofList main, alpha.map String.ofList)

/-- The alpha that an alpha part stands for: a bracket escape, a custom property or a percentage. -/
def readAlpha? (text : String) : Option String :=
  ((bracket? text).map percentageToFraction).or <| (customProperty? text).or <| fraction? text

/-- A hyphen before each digit that a lower-case letter precedes. `afterLower` says that the
character before the text is one. -/
def hyphenated (afterLower : Bool) : List Char → List Char
  | [] => []
  | c :: rest =>
    let rest := hyphenated c.isLower rest
    if afterLower && c.isDigit then '-' :: c :: rest else c :: rest

/-- The segments of a colour name: it is cut at hyphens and between a letter and a number. -/
def segments (name : String) : List String :=
  (pieces '-' (hyphenated false name.toList)).map String.ofList

/-- The name that a colour part gives to its colour. -/
def firstSegment (name : String) : String :=
  (segments name).headD ""

/-- A theme colour: its key path, its CSS value and the shade it was found by. -/
structure ThemeColor where
  keys : List String
  value : String
  shade : Option String
deriving DecidableEq, Repr

/-- The value of the entry itself, if it is no scale. -/
def entryColor? (hit : ThemeHit) : Option ThemeColor :=
  hit.node.value?.map fun value => ⟨hit.keys, value, none⟩

/-- The shade of a scale. -/
def shadeColor? (hit : ThemeHit) (shade : String) : Option ThemeColor :=
  ((hit.node.get? shade).bind ThemeNode.value?).map fun value =>
    ⟨hit.keys ++ [shade], value, some shade⟩

/-- The colour of an entry named without a shade: its value, or the default of a scale, which is
known by the name of the scale. -/
def bareColor? (hit : ThemeHit) : Option ThemeColor :=
  match hit.node with
  | .value value => some ⟨hit.keys, value, none⟩
  | .scale _ =>
    ((hit.node.get? defaultKey).bind ThemeNode.value?).map fun value => ⟨hit.keys, value, none⟩

/-- The colour of an entry named with a shade, which may be the default by its own name. -/
def shadedColor? (hit : ThemeHit) (shade : String) : Option ThemeColor :=
  (shadeColor? hit shade).map fun color =>
    if shade = defaultKey then { color with keys := hit.keys } else color

/-- The theme colour of a name by its segments: a last segment of digits is a shade; otherwise all
segments name the entry or, failing that, the second is a shade of the first. -/
def segmentedColor? (theme : Theme) (segments : List String) : Option ThemeColor :=
  match segments.getLast? with
  | none => none
  | some last =>
    if 1 < segments.length ∧ last.toList.all Char.isDigit then
      (theme.color? segments.dropLast).bind fun hit => shadeColor? hit last
    else
      match theme.color? segments with
      | some hit => bareColor? hit
      | none =>
        match segments with
        | [first] => (theme.color? [first]).bind bareColor?
        | [first, second] => (theme.color? [first]).bind fun hit => shadedColor? hit second
        | _ => none

/-- The theme colour of a name: the entry of that very name if it is a value, or else the colour of
its segments. A name with an empty first segment is none. -/
def themeColor? (theme : Theme) (name : String) : Option ThemeColor :=
  if firstSegment name = "" then none
  else ((theme.color? [name]).bind entryColor?).or (segmentedColor? theme (segments name))

/-- The hexadecimal colour that a text writes with a hash, or with `hex-` for it. -/
def hexColor? (text : List Char) : Option (List Char) :=
  match text with
  | '#' :: digits => if !digits.isEmpty && digits.all isHexLike then some text else none
  | _ =>
    if (text.take 4).map foldLatin = "hex-".toList then
      let digits := text.drop 4
      if !digits.isEmpty && digits.all isHexLike then some ('#' :: digits) else none
    else none

/-- The literal colour of a text whose bracket content, if it has one, is `bracketed`. -/
def literalColor? (text : String) (bracketed : Option String) : Option String :=
  match hexColor? (bracketed.getD text).toList with
  | some css => some (String.ofList css)
  | none => if "$".toList.isPrefixOf text.toList then customProperty? text else bracketed

/-- The colour of a colour part without an alpha, given the alpha it will have. -/
def readMain? (theme : Theme) (main : String) (alpha : Option String) : Option Color :=
  match SpecialColor.read? main with
  | some keyword => some ⟨main, none, .special keyword, none⟩
  | none =>
    let bracketed := colorBracket? main
    if (readQuantity? (bracketed.getD main)).isSome then none
    else
      match literalColor? main bracketed with
      | some css => some ⟨main, none, .literal css, alpha⟩
      | none =>
        (themeColor? theme main).map fun color =>
          ⟨firstSegment main, color.shade, .theme color.keys color.value, alpha⟩

/-- The colour that a colour part stands for. -/
def readColor? (theme : Theme) (body : String) : Option Color :=
  match splitAlpha? body with
  | none => none
  | some (main, none) => readMain? theme main none
  | some (main, some text) =>
    match readAlpha? text with
    | none => none
    | some alpha => readMain? theme main (some alpha)

end BorderCss
