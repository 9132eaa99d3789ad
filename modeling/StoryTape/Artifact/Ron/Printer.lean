import StoryTape.Artifact.Datum
import StoryTape.Text.Numeral
import StoryTape.Text.Printable

/-!
# Writing RON

RON is an object notation that tells records from maps and marks the optional values that are
there. The written form is indented by four spaces per level, a comma follows every element, and a
text escapes what cannot be shown.
-/

namespace StoryTape.Artifact.Ron

open Text

/-- The hexadecimal digits of a code point. -/
def hexDigits (n : Nat) : List Char := Nat.toDigits 16 n

/-- A character as it is written inside quotes. -/
def escapeChar (c : Char) : List Char :=
  if c = '"' then ['\\', '"']
  else if c = '\'' then ['\\', '\'']
  else if c = '\\' then ['\\', '\\']
  else if c = '\n' then ['\\', 'n']
  else if c = '\r' then ['\\', 'r']
  else if c = '\t' then ['\\', 't']
  else if c.toNat = 0 then ['\\', '0']
  else if isExtender c || isFiller c || !isPrintable c then
    ['\\', 'u', '\x7b'] ++ hexDigits c.toNat ++ ['\x7d']
  else [c]

/-- A text between quotes. -/
def quote (s : String) : String :=
  String.ofList ('"' :: s.toList.flatMap escapeChar ++ ['"'])

mutual

/-- Data as RON; lines after the first are indented by `indent`. -/
def write (indent : String) : Datum → String
  | .nothing => "None"
  | .flag b => if b then "true" else "false"
  | .number n => countText n
  | .text s => quote s
  | .array [] => "[]"
  | .array (x :: xs) => "[\n" ++ writeItems (indent ++ "    ") (x :: xs) ++ indent ++ "]"
  | .object [] => "\x7b\x7d"
  | .object (e :: es) =>
    "\x7b\n" ++ writeEntries (indent ++ "    ") (e :: es) ++ indent ++ "\x7d"
  | .record [] => "()"
  | .record (e :: es) => "(\n" ++ writeFields (indent ++ "    ") (e :: es) ++ indent ++ ")"
  | .present d => "Some(" ++ write indent d ++ ")"

/-- Data one per line, each followed by a comma. -/
def writeItems (indent : String) : List Datum → String
  | [] => ""
  | x :: xs => indent ++ write indent x ++ ",\n" ++ writeItems indent xs

/-- Map entries one per line, each followed by a comma. -/
def writeEntries (indent : String) : List (String × Datum) → String
  | [] => ""
  | (name, x) :: es =>
    indent ++ quote name ++ ": " ++ write indent x ++ ",\n" ++ writeEntries indent es

/-- Fields one per line, each followed by a comma. -/
def writeFields (indent : String) : List (String × Datum) → String
  | [] => ""
  | (name, x) :: es =>
    indent ++ name ++ ": " ++ write indent x ++ ",\n" ++ writeFields indent es

end

/-- Data as a RON text. -/
def render (d : Datum) : String := write "" d

end StoryTape.Artifact.Ron
