import StoryTape.Text.Search

/-!
# Styles

How the player's screen tells stories, menus and messages apart. A styled text stands between an
escape sequence that sets the style and one that resets it; where a text resets the style itself,
the style is set again after it.
-/

namespace StoryTape

open Text

/-- A color of the screen. -/
inductive Color where
  /-- A color by its red, green and blue. -/
  | rgb (red green blue : Nat)
  /-- The terminal's bright yellow. -/
  | brightYellow
  deriving DecidableEq, Repr

/-- The code of a color. -/
def Color.code : Color → String
  | .rgb r g b => s!"38;2;{r};{g};{b}"
  | .brightYellow => "93"

/-- The looks of a text. -/
structure Style where
  bold : Bool := false
  dim : Bool := false
  italic : Bool := false
  underline : Bool := false
  color : Option Color := none
  deriving DecidableEq, Repr

namespace Style

/-- Lines of the story. -/
def story : Style := { italic := true, color := some (.rgb 102 208 250) }

/-- Actions of a menu. -/
def action : Style := { color := some (.rgb 220 180 40) }

/-- Choices of a menu. -/
def choice : Style := { underline := true, color := some (.rgb 13 130 60) }

/-- Numbers of a menu and commands. -/
def index : Style := { bold := true, color := some (.rgb 230 80 80) }

/-- Names of scenes. -/
def scene : Style := { underline := true, color := some (.rgb 223 77 10) }

/-- Signals. -/
def signal : Style := { dim := true, color := some (.rgb 80 80 230) }

/-- Operations and remarks. -/
def operation : Style := { dim := true, italic := true }

/-- Errors. -/
def error : Style := { color := some (.rgb 230 30 30) }

/-- Headings, which stand in brackets. -/
def heading : Style := { color := some (.rgb 75 80 75) }

/-- The label of the tape. -/
def title : Style := { underline := true, color := some .brightYellow }

/-- The codes of a style, in the order they are set. -/
def codes (s : Style) : List String :=
  (if s.bold then ["1"] else []) ++ (if s.dim then ["2"] else []) ++
    (if s.italic then ["3"] else []) ++ (if s.underline then ["4"] else []) ++
    (s.color.map Color.code).toList

/-- The escape sequence that sets a style. -/
def opening (s : Style) : String := "\x1b[" ++ ";".intercalate s.codes ++ "m"

/-- The escape sequence that resets the style. -/
def reset : String := "\x1b[0m"

/-- A text in a style; without colors the text alone. -/
def paint (s : Style) (colors : Bool) (text : String) : String :=
  if colors then
    let pieces := splitEvery reset.toList text.toList
    let inner := String.ofList (join (reset ++ s.opening).toList pieces)
    s.opening ++ inner ++ reset
  else text

end Style

end StoryTape
