import BlockChart.Text.Blank

namespace BlockChart

/-!
# Theme colours

The named colours that the colour picker offers besides raw values.  Names are
compared without case, ASCII letters only, and without the white space around them.
-/

/-- Names and values of the theme colours. -/
def themeColors : List (String × String) :=
  [("blue", "#003764"), ("light blue", "#BBE0E3"), ("green", "#98CB00"),
    ("purple", "#800080"), ("red", "#EC0000"), ("yellow", "#FCC000")]

/-- **The value of a theme colour.** -/
def themeColor? (name : String) : Option String :=
  let sought := (trimChars name.toList).map Char.toLower
  (themeColors.find? fun (known, _) => known.toList == sought).map Prod.snd

/-- A colour as it is drawn: the value of a theme colour, any other text itself. -/
def resolveColor (color : String) : String :=
  (themeColor? color).getD color

end BlockChart
