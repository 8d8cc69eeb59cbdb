/-!
# Underscores for spaces

Inside a bracket a space is written `_` and an underscore `\_`. `spaced` reads that notation and
`underscored` writes it; `spacedOutsideUrls` leaves every `url(…)` as it stands.
-/

namespace BorderCss

/-- `_` is a space and `\_` an underscore. -/
def spaced : List Char → List Char
  | '\\' :: '_' :: rest => '_' :: spaced rest
  | c :: rest => (if c = '_' then ' ' else c) :: spaced rest
  | [] => []

/-- A space is `_` and an underscore `\_`. -/
def underscored : List Char → List Char
  | [] => []
  | c :: rest =>
    if c = ' ' then '_' :: underscored rest
    else if c = '_' then '\\' :: '_' :: underscored rest
    else c :: underscored rest

/-- How the next character is read: as part of the notation, as itself once, or as part of a
`url(…)`. -/
inductive UnderscoreScan where
  | notated
  | escaped
  | url
deriving DecidableEq, Repr

/-- `spaced`, but each `url(` is copied through the next closing parenthesis. -/
def spacedFrom : UnderscoreScan → List Char → List Char
  | _, [] => []
  | .escaped, c :: rest => c :: spacedFrom .notated rest
  | .url, c :: rest => c :: spacedFrom (if c = ')' then .notated else .url) rest
  | .notated, c :: rest =>
    if "url(".toList.isPrefixOf (c :: rest) then c :: spacedFrom .url rest
    else if c = '\\' ∧ rest.head? = some '_' then spacedFrom .escaped rest
    else (if c = '_' then ' ' else c) :: spacedFrom .notated rest

/-- `spaced` outside every `url(…)`, which stays as it is up to its first closing parenthesis, or
to the end. -/
def spacedOutsideUrls (text : List Char) : List Char :=
  spacedFrom .notated text

end BorderCss
