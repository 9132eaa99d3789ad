import StoryTape.Text.Letter
import StoryTape.Text.Printable
import StoryTape.Text.Search

/-!
# Filling lines

A paragraph is broken into lines so that the total cost is least. Every line costs, an overfull
line costs by the column, any other line but the last costs the square of the columns it leaves
empty, and a last line of one short word costs a little. Of two ways with the same cost, the one
whose later lines start earlier is taken.
-/

namespace StoryTape.Text

/-- A word that is kept together, and the spaces after it. -/
structure Word where
  /-- The characters of the word. -/
  chars : List Char
  /-- The spaces after it. -/
  gap : List Char
  deriving DecidableEq, Repr

/-- The columns that a text takes: one per character, none for one that extends another. -/
def columns (s : List Char) : Nat := (s.filter fun c => !isExtender c).length

/-- The words of a line: each goes up to the end of the spaces after it. Spaces in front of the
first word belong to an empty word. -/
def splitWords : List Char → List Word
  | [] => []
  | ' ' :: s =>
    match splitWords s with
    | ⟨[], gap⟩ :: words => ⟨[], ' ' :: gap⟩ :: words
    | words => ⟨[], [' ']⟩ :: words
  | c :: s =>
    match splitWords s with
    | ⟨chars, gap⟩ :: words => ⟨c :: chars, gap⟩ :: words
    | [] => [⟨[c], []⟩]

/-- Whether a hyphen joins a character to the rest of its word. -/
def joinsHyphen (c : Char) : Bool := isLetter c || isNumber c

/-- Break a word after every hyphen between letters or numbers. -/
def splitHyphens (before : Bool) : List Char → List (List Char)
  | [] => [[]]
  | '-' :: c :: s =>
    if before && joinsHyphen c then ['-'] :: splitHyphens false (c :: s)
    else consPiece '-' (splitHyphens false (c :: s))
  | c :: s => consPiece c (splitHyphens (joinsHyphen c) s)

/-- Cut a text into pieces of at most `width` columns; the piece being filled, last character
first, takes `used` columns. -/
def chopFrom (width : Nat) (piece : List Char) (used : Nat) : List Char → List (List Char)
  | [] => [piece.reverse]
  | c :: s =>
    let wide := columns [c]
    if used + wide > width && !piece.isEmpty then piece.reverse :: chopFrom width [c] wide s
    else chopFrom width (c :: piece) (used + wide) s

/-- Cut a text into pieces of at most `width` columns. -/
def chop (width : Nat) (s : List Char) : List (List Char) := chopFrom width [] 0 s

/-- The pieces of a word, the last of which keeps the spaces after it. -/
def Word.spread (w : Word) : List (List Char) → List Word
  | [] => [w]
  | [piece] => [⟨piece, w.gap⟩]
  | piece :: pieces => ⟨piece, []⟩ :: Word.spread w pieces

/-- The words of a line with every possible break, none wider than the line. -/
def fragments (width : Nat) (line : List Char) : List Word :=
  let words := (splitWords line).flatMap fun w => w.spread (splitHyphens false w.chars)
  words.flatMap fun w =>
    if columns w.chars > width then w.spread (chop width w.chars) else [w]

/-- The cost of every line. -/
def lineCost : Nat := 1000

/-- The cost of a column too many. -/
def overflowCost : Nat := 2500

/-- The cost of a last line of one short word. -/
def shortLastCost : Nat := 25

/-- A word with the columns it takes, which are counted once. -/
structure Measured where
  /-- The word. -/
  word : Word
  /-- Its columns, the spaces after it aside. -/
  columns : Nat
  counted : columns = Text.columns word.chars := by rfl

/-- A word, measured. -/
def Word.measure (w : Word) : Measured := ⟨w, columns w.chars, rfl⟩

/-- The cost of one line of so many columns, and whether it is a single word. -/
def costOfLine (width : Nat) (last single : Bool) (used : Nat) : Nat :=
  lineCost +
    if used > width then (used - width) * overflowCost
    else if !last then (width - used) * (width - used)
    else if single && 4 * used < width then shortLastCost
    else 0

/-- A cheapest way to break the first words into lines. -/
structure Breaking where
  /-- Its total cost. -/
  cost : Nat
  /-- Its lines, the last one first. -/
  lines : List (List Word)

/-- The cheapest way to break the words so far: `earlier` has the cheapest ways for fewer words,
longest first, and `line` the words after the first of these, which take `used` columns. Of equals
the earlier start wins, which is the later one in `earlier`. A line that is too long costs the more
the earlier it starts, so one that costs more than the best way ends the search. -/
def cheapest (width : Nat) (last : Bool) : List Breaking → List Word → Nat → List Measured →
    Breaking → Breaking
  | [], _, _, _, best => best
  | b :: earlier, line, used, before, best =>
    let own := costOfLine width last line.tail.isEmpty used
    if used > width && own > best.cost then best
    else
      let best := if b.cost + own ≤ best.cost then ⟨b.cost + own, line :: b.lines⟩ else best
      match before with
      | [] => best
      | w :: before =>
        cheapest width last earlier (w.word :: line) (w.columns + w.word.gap.length + used) before
          best

/-- The cheapest ways to break ever more words; `before` holds the words so far, last one
first. -/
def breakings (width : Nat) : List Measured → List Measured → List Breaking → List Breaking
  | [], _, found => found
  | w :: ws, before, found =>
    let last := ws.isEmpty
    let first : Breaking := match found with
      | b :: _ => ⟨b.cost + costOfLine width last true w.columns, [w.word] :: b.lines⟩
      | [] => ⟨0, []⟩
    breakings width ws (w :: before) (cheapest width last found [w.word] w.columns before first ::
      found)

/-- The characters of a line, the spaces at its end aside. -/
def lineText : List Word → List Char
  | [] => []
  | [w] => w.chars
  | w :: ws => w.chars ++ w.gap ++ lineText ws

/-- The number of bytes a text takes in UTF-8. -/
def byteSize (s : List Char) : Nat := s.foldl (fun size c => size + c.utf8Size) 0

/-- A text without the spaces it ends with. -/
def dropSpaces (s : List Char) : List Char :=
  (s.reverse.dropWhile (· == ' ')).reverse

/-- Break one line; a line of fewer bytes than columns is left as it is. -/
def fillLine (width : Nat) (line : List Char) : List (List Char) :=
  if byteSize line < width then [dropSpaces line]
  else
    match breakings width ((fragments width line).map Word.measure) [] [⟨0, []⟩] with
    | best :: _ => best.lines.reverse.map lineText
    | [] => []

/-- Break every line of a text that is too long. -/
def fill (width : Nat) (text : List Char) : List Char :=
  join ['\n'] ((splitChar '\n' text).flatMap (fillLine width))

end StoryTape.Text
