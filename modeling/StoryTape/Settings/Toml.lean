import StoryTape.Text.Hex
import StoryTape.Text.Search

/-!
# Settings files

A settings file is written in TOML: one `key = value` per line, with comments after a number sign.
Values are whole numbers, `true`, `false` and quoted texts. The parts of TOML that no setting has,
such as tables, lists, fractions and dates, are refused.
-/

namespace StoryTape.Toml

open Text

/-- A value of a settings file. -/
inductive Value where
  | number (value : Int)
  | flag (value : Bool)
  | text (value : String)
  deriving DecidableEq, Repr

/-- A space or a tab. -/
def isSpace (c : Char) : Bool := c == ' ' || c == '\t'

/-- A text without the spaces and tabs it starts with. -/
def skip (s : List Char) : List Char := s.dropWhile isSpace

/-- A character that comments and quoted texts may hold: no control character but the tab. -/
def isPlain (c : Char) : Bool := c == '\t' || (0x20 ≤ c.toNat && c.toNat != 0x7F)

/-! ### Quoted texts -/

/-- The quote of texts without escapes. -/
def singleQuote : Char := '\x27'

/-- How a quoted text is being read. -/
inductive QuoteMode where
  /-- On one line, up to the next quote. -/
  | short
  /-- Over lines, up to three quotes in a row. -/
  | long
  /-- As `long`, after a hidden line end, which hides the blanks and line ends that follow. -/
  | hidden
  deriving DecidableEq, Repr

/-- The mode after a character that is shown. -/
def QuoteMode.shown : QuoteMode → QuoteMode
  | .short => .short
  | _ => .long

/-- The character of a simple escape. -/
def simpleEscape : Char → Option Char
  | '"' => some '"'
  | '\\' => some '\\'
  | 'b' => some '\x08'
  | 'f' => some '\x0c'
  | 'n' => some '\n'
  | 'r' => some '\r'
  | 't' => some '\t'
  | _ => none

/-- A character in front of a text that is being read. -/
def consChar (c : Char) : Option (List Char × List Char) → Option (List Char × List Char)
  | some (cs, rest) => some (c :: cs, rest)
  | none => none

/-- A long text closed by three quotes. One or two quotes right after them belong to the text. -/
def closeLong (quote : Char) (s : List Char) : List Char × List Char :=
  let more := (s.take 2).takeWhile (· == quote)
  (more, s.drop more.length)

/-- Whether nothing but blanks is left on a line that does not end the text. -/
def hidesBreak (s : List Char) : Bool :=
  match skip s with
  | '\n' :: _ => true
  | '\r' :: '\n' :: _ => true
  | _ => false

/-- The rest of a text after its opening quote or quotes, in which a backslash escapes: its
characters and what follows the closing quotes. -/
def readEscaped (m : QuoteMode) : List Char → Option (List Char × List Char)
  | [] => none
  | '\r' :: '\n' :: s =>
    match m with
    | .short => none
    | .long => consChar '\n' (readEscaped .long s)
    | .hidden => readEscaped .hidden s
  | '\n' :: s =>
    match m with
    | .short => none
    | .long => consChar '\n' (readEscaped .long s)
    | .hidden => readEscaped .hidden s
  | '"' :: '"' :: '"' :: s =>
    some (if m = .short then ([], '"' :: '"' :: s) else closeLong '"' s)
  | '"' :: s => if m = .short then some ([], s) else consChar '"' (readEscaped .long s)
  | '\\' :: 'u' :: a :: b :: c :: d :: s =>
    match (hexNumber [a, b, c, d]).bind charOf? with
    | some ch => consChar ch (readEscaped m.shown s)
    | none => none
  | '\\' :: 'U' :: a :: b :: c :: d :: e :: f :: g :: h :: s =>
    match (hexNumber [a, b, c, d, e, f, g, h]).bind charOf? with
    | some ch => consChar ch (readEscaped m.shown s)
    | none => none
  | '\\' :: e :: s =>
    match simpleEscape e with
    | some c => consChar c (readEscaped m.shown s)
    | none => if m ≠ .short ∧ hidesBreak (e :: s) then readEscaped .hidden s else none
  | c :: s =>
    if m = .hidden ∧ isSpace c then readEscaped .hidden s
    else if c ≠ '\\' ∧ isPlain c then consChar c (readEscaped m.shown s)
    else none

/-- The rest of a text after its opening quote or quotes, in which nothing escapes: its characters
and what follows the closing quotes. -/
def readVerbatim (long : Bool) : List Char → Option (List Char × List Char)
  | [] => none
  | '\r' :: '\n' :: s => if long then consChar '\n' (readVerbatim long s) else none
  | '\n' :: s => if long then consChar '\n' (readVerbatim long s) else none
  | '\x27' :: '\x27' :: '\x27' :: s =>
    some (if long then closeLong singleQuote s else ([], singleQuote :: singleQuote :: s))
  | c :: s =>
    if c = singleQuote ∧ !long then some ([], s)
    else if isPlain c then consChar c (readVerbatim long s)
    else none

/-- A long text may start with a line end, which is not part of it. -/
def dropBreak : List Char → List Char
  | '\n' :: s => s
  | '\r' :: '\n' :: s => s
  | s => s

/-- Read a quoted text on one line. -/
def readShort : List Char → Option (List Char × List Char)
  | '"' :: s => readEscaped .short s
  | '\x27' :: s => readVerbatim false s
  | _ => none

/-- Read a quoted text. -/
def readText : List Char → Option (List Char × List Char)
  | '"' :: '"' :: '"' :: s => readEscaped .long (dropBreak s)
  | '\x27' :: '\x27' :: '\x27' :: s => readVerbatim true (dropBreak s)
  | s => readShort s

/-! ### Numbers -/

/-- Digits without the underscores between them. -/
def ungroup (s : List Char) : Option (List Char) :=
  let groups := splitChar '_' s
  if groups.any List.isEmpty then none else some groups.flatten

/-- A numeral of digits below a base. -/
def readBase (base : Nat) (s : List Char) : Option Nat := do
  let digits ← ungroup s
  digits.foldlM (fun n c => (hexValue c).bind fun d =>
    if d < base then some (base * n + d) else none) 0

/-- A decimal numeral without superfluous zeros. -/
def readDecimal (s : List Char) : Option Nat :=
  match s with
  | ['0'] => some 0
  | '0' :: _ => none
  | _ => readBase 10 s

/-- A whole number of 64 bits, decimal with an optional sign or in base 16, 8 or 2. -/
def readNumber (s : List Char) : Option Int :=
  let number : Option Int := match s with
    | '0' :: 'x' :: s => (readBase 16 s).map fun n => (n : Int)
    | '0' :: 'o' :: s => (readBase 8 s).map fun n => (n : Int)
    | '0' :: 'b' :: s => (readBase 2 s).map fun n => (n : Int)
    | '-' :: s => (readDecimal s).map fun n => -(n : Int)
    | '+' :: s => (readDecimal s).map fun n => (n : Int)
    | s => (readDecimal s).map fun n => (n : Int)
  number.filter fun n => -9223372036854775808 ≤ n && n ≤ 9223372036854775807

/-! ### Lines -/

/-- A character of keys and numbers. -/
def isBare (c : Char) : Bool := c.isAlphanum || c == '-' || c == '_'

/-- A character of values that are not quoted. -/
def isWord (c : Char) : Bool := isBare c || c == '+' || c == '.' || c == ':'

/-- Read a value. -/
def readValue (s : List Char) : Option (Value × List Char) :=
  match s with
  | [] => none
  | c :: _ =>
    if c = '"' || c = singleQuote then
      (readText s).map fun (cs, rest) => (.text (String.ofList cs), rest)
    else
      let word := s.takeWhile isWord
      let rest := s.dropWhile isWord
      if word = "true".toList then some (.flag true, rest)
      else if word = "false".toList then some (.flag false, rest)
      else (readNumber word).map fun n => (.number n, rest)

/-- Read a key, bare or quoted on one line. -/
def readKey (s : List Char) : Option (String × List Char) :=
  let bare := s.takeWhile isBare
  let key := if bare.isEmpty then readShort s else some (bare, s.drop bare.length)
  key.map fun (cs, rest) => (String.ofList cs, rest)

/-- What follows the end of a line, at which a comment may stand. -/
def endLine (s : List Char) : Option (List Char) :=
  let s := skip s
  let s := if ['#'].isPrefixOf s then (s.drop 1).dropWhile isPlain else s
  match s with
  | [] => some []
  | '\n' :: s => some s
  | '\r' :: '\n' :: s => some s
  | _ => none

/-- Read the key and the value of a line, with what follows the line. -/
def readEntry (s : List Char) : Option ((String × Value) × List Char) := do
  let (key, s) ← readKey s
  match skip s with
  | '=' :: s =>
    let (value, s) ← readValue (skip s)
    return ((key, value), ← endLine s)
  | _ => none

/-- Read line by line. The first argument bounds the lines and is never used up by `parse?`. -/
def readLines : Nat → List Char → Option (List (String × Value))
  | 0, _ => none
  | lines + 1, s =>
    if s.isEmpty then some []
    else
      match endLine s with
      | some s => readLines lines s
      | none => do
        let (entry, s) ← readEntry (skip s)
        return entry :: (← readLines lines s)

/-- Read a settings file; a byte order mark may stand in front. -/
def parse? (text : String) : Option (List (String × Value)) :=
  let s := match text.toList with
    | '\uFEFF' :: s => s
    | s => s
  readLines (s.length + 1) s

end StoryTape.Toml
