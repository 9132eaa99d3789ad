import StoryTape.Artifact.Datum
import StoryTape.Text.Numeral

/-!
# Writing JSON

The written form is indented by two spaces per level, and a text is escaped only where JSON demands
it. A record is an object, and a value that may be missing is written like any other.
-/

namespace StoryTape.Artifact.Json

open Text

/-- A character as it is written inside quotes. -/
def escapeChar (c : Char) : List Char :=
  if c = '"' then ['\\', '"']
  else if c = '\\' then ['\\', '\\']
  else if c = '\n' then ['\\', 'n']
  else if c = '\r' then ['\\', 'r']
  else if c = '\t' then ['\\', 't']
  else if c.toNat = 0x08 then ['\\', 'b']
  else if c.toNat = 0x0C then ['\\', 'f']
  else if c.toNat < 0x20 then
    ['\\', 'u', '0', '0', Nat.digitChar (c.toNat / 16), Nat.digitChar (c.toNat % 16)]
  else [c]

/-- A text between quotes. -/
def quote (s : String) : String :=
  String.ofList ('"' :: s.toList.flatMap escapeChar ++ ['"'])

mutual

/-- Data as JSON; lines after the first are indented by `indent`. -/
def write (indent : String) : Datum → String
  | .nothing => "null"
  | .flag b => if b then "true" else "false"
  | .number n => countText n
  | .text s => quote s
  | .array [] => "[]"
  | .array (x :: xs) => "[\n" ++ writeItems (indent ++ "  ") (x :: xs) ++ "\n" ++ indent ++ "]"
  | .object [] => "\x7b\x7d"
  | .object (e :: es) =>
    "\x7b\n" ++ writeEntries (indent ++ "  ") (e :: es) ++ "\n" ++ indent ++ "\x7d"
  | .record [] => "\x7b\x7d"
  | .record (e :: es) =>
    "\x7b\n" ++ writeEntries (indent ++ "  ") (e :: es) ++ "\n" ++ indent ++ "\x7d"
  | .present d => write indent d

/-- Data one per line, with commas between them. -/
def writeItems (indent : String) : List Datum → String
  | [] => ""
  | x :: xs =>
    indent ++ write indent x ++ (if xs.isEmpty then "" else ",\n" ++ writeItems indent xs)

/-- Named data one per line, with commas between them. -/
def writeEntries (indent : String) : List (String × Datum) → String
  | [] => ""
  | (name, x) :: es =>
    indent ++ quote name ++ ": " ++ write indent x ++
      (if es.isEmpty then "" else ",\n" ++ writeEntries indent es)

end

/-- Data as a JSON text. -/
def render (d : Datum) : String := write "" d

end StoryTape.Artifact.Json
