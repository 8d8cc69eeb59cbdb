import BorderCss.Theme.Basic

/-!
# The built-in theme

`Theme.preset` has a radius scale in root ems and a small palette.
-/

namespace BorderCss

/-- A scale of values by shade. -/
def shades (values : List (String × String)) : ThemeNode :=
  .scale (entriesOfList (values.map fun (shade, css) => (shade, .value css)))

/-- The theme in use when none is given. -/
def Theme.preset : Theme where
  radii := entriesOfList [
    ("DEFAULT", "0.25rem"),
    ("none", "0"),
    ("xs", "0.125rem"),
    ("sm", "0.25rem"),
    ("md", "0.375rem"),
    ("lg", "0.5rem"),
    ("xl", "0.75rem"),
    ("2xl", "1rem"),
    ("3xl", "1.5rem"),
    ("4xl", "2rem")]
  colors := entriesOfList [
    ("black", .value "#000"),
    ("white", .value "#fff"),
    ("gray", shades [
      ("100", "#f3f4f6"),
      ("300", "#d1d5db"),
      ("500", "#6b7280"),
      ("700", "#374151"),
      ("900", "#111827")]),
    ("red", shades [
      ("DEFAULT", "#ef4444"),
      ("100", "#fee2e2"),
      ("300", "#fca5a5"),
      ("500", "#ef4444"),
      ("700", "#b91c1c"),
      ("900", "#7f1d1d")]),
    ("green", shades [
      ("100", "#dcfce7"),
      ("300", "#86efac"),
      ("500", "#22c55e"),
      ("700", "#15803d"),
      ("900", "#14532d")]),
    ("blue", shades [
      ("100", "#dbeafe"),
      ("300", "#93c5fd"),
      ("500", "#3b82f6"),
      ("700", "#1d4ed8"),
      ("900", "#1e3a8a")]),
    ("lightBlue", shades [
      ("300", "#7dd3fc"),
      ("500", "#0ea5e9")])]

end BorderCss
