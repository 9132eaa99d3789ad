import StoryTape.Artifact.Shape
import StoryTape.Text.Hex
import StoryTape.Text.Numeral

/-!
# Reading JSON

A text is read for a shape: what the shape asks for has to be there, and the values of entries that
it does not ask for are passed over. A record may also be written as the list of its fields' values
in order. Every reader gives what it has read and the text after it.
-/

namespace StoryTape.Artifact.Json

open Text

/-- Whether a character is white space of JSON. -/
def isSpace (c : Char) : Bool := c == ' ' || c == '\t' || c == '\n' || c == '\r'

/-- A text without the white space it starts with. -/
def skip (s : List Char) : List Char := s.dropWhile isSpace

/-! ### Texts -/

/-- The character of a simple escape. -/
def simpleEscape : Char → Option Char
  | '"' => some '"'
  | '\\' => some '\\'
  | '/' => some '/'
  | 'b' => some '\x08'
  | 'f' => some '\x0c'
  | 'n' => some '\n'
  | 'r' => some '\r'
  | 't' => some '\t'
  | _ => none

/-- Whether a number is the first half of a character written as two escapes. -/
def isHighHalf (n : Nat) : Bool := 0xD800 ≤ n && n < 0xDC00

/-- Whether a number is the second half of a character written as two escapes. -/
def isLowHalf (n : Nat) : Bool := 0xDC00 ≤ n && n < 0xE000

/-- The character of two halves. -/
def joinHalves (high low : Nat) : Char :=
  Char.ofNat (0x10000 + (high - 0xD800) * 0x400 + (low - 0xDC00))

/-- The rest of a text after its opening quote, behind the characters read so far, last one
first. -/
def readText (found : List Char) : List Char → Option (List Char × List Char)
  | [] => none
  | '"' :: rest => some (found.reverse, rest)
  | '\\' :: 'u' :: a :: b :: c :: d :: s =>
    match hexNumber [a, b, c, d] with
    | none => none
    | some n =>
      if isHighHalf n then
        match s with
        | '\\' :: 'u' :: e :: f :: g :: h :: s =>
          match hexNumber [e, f, g, h] with
          | none => none
          | some low => if isLowHalf low then readText (joinHalves n low :: found) s else none
        | _ => none
      else
        match charOf? n with
        | some ch => readText (ch :: found) s
        | none => none
  | '\\' :: e :: s =>
    match simpleEscape e with
    | some c => readText (c :: found) s
    | none => none
  | c :: s => if c.toNat < 0x20 then none else readText (c :: found) s

/-- A text between quotes. -/
def readQuoted : List Char → Option (List Char × List Char)
  | '"' :: s => readText [] s
  | _ => none

/-- What follows a text whose opening quote is passed. Its escapes need not stand for
characters. -/
def skipText : List Char → Option (List Char)
  | [] => none
  | '"' :: rest => some rest
  | '\\' :: 'u' :: a :: b :: c :: d :: s =>
    if (hexNumber [a, b, c, d]).isSome then skipText s else none
  | '\\' :: e :: s => if (simpleEscape e).isSome then skipText s else none
  | c :: s => if c.toNat < 0x20 then none else skipText s

/-! ### Numbers -/

/-- The digits of a whole number, which has no superfluous zeros. -/
def readWhole (s : List Char) : Option (List Char × List Char) :=
  let digits := s.takeWhile Char.isDigit
  if digits.isEmpty || (digits.length > 1 && digits.head? == some '0') then none
  else some (digits, s.dropWhile Char.isDigit)

/-- What follows digits, at least one. -/
def skipDigits (s : List Char) : Option (List Char) :=
  if (s.takeWhile Char.isDigit).isEmpty then none else some (s.dropWhile Char.isDigit)

/-- What follows the fraction that a number may have. -/
def skipFraction : List Char → Option (List Char)
  | '.' :: s => skipDigits s
  | s => some s

/-- Whether a character opens the exponent of a number. -/
def opensExponent (c : Char) : Bool := c == 'e' || c == 'E'

/-- What follows the exponent that a number may have. -/
def skipExponent : List Char → Option (List Char)
  | [] => some []
  | c :: s =>
    if opensExponent c then
      match s with
      | '+' :: s => skipDigits s
      | '-' :: s => skipDigits s
      | s => skipDigits s
    else some (c :: s)

/-- What follows a number. -/
def skipNumber (s : List Char) : Option (List Char) :=
  let s := match s with
    | '-' :: s => s
    | s => s
  (readWhole s).bind fun (_, s) => (skipFraction s).bind skipExponent

/-- A count: a whole number below `2 ^ 64`, without fraction and exponent. -/
def readCount (s : List Char) : Option (Nat × List Char) :=
  (readWhole s).bind fun (digits, rest) =>
    let goesOn := rest.head?.any fun c => c == '.' || opensExponent c
    if goesOn || digitsValue digits ≥ wordSize then none else some (digitsValue digits, rest)

/-! ### Values that are passed over -/

/-- What a bracket that is still open encloses. -/
inductive Enclosure where
  | array
  | object

/-- What follows the name of an entry and its colon. -/
def skipName (s : List Char) : Option (List Char) :=
  match skip s with
  | '"' :: s =>
    (skipText s).bind fun s =>
      match skip s with
      | ':' :: s => some s
      | _ => none
  | _ => none

/-- What follows a value that is not bracketed. -/
def skipPlain : List Char → Option (List Char)
  | '"' :: s => skipText s
  | 'n' :: 'u' :: 'l' :: 'l' :: s => some s
  | 't' :: 'r' :: 'u' :: 'e' :: s => some s
  | 'f' :: 'a' :: 'l' :: 's' :: 'e' :: s => some s
  | s => skipNumber s

/-- What follows the value that is being passed over, with the brackets that are open, the last one
first, and whether the next thing is a value or what comes after one. Every round takes a
character but the last. -/
def skipRounds : Nat → Bool → List Enclosure → List Char → Option (List Char)
  | 0, _, _, _ => none
  | _ + 1, false, [], s => some s
  | rounds + 1, false, .array :: outer, s =>
    match skip s with
    | ']' :: s => skipRounds rounds false outer s
    | ',' :: s => skipRounds rounds true (.array :: outer) s
    | _ => none
  | rounds + 1, false, .object :: outer, s =>
    match skip s with
    | '\x7d' :: s => skipRounds rounds false outer s
    | ',' :: s =>
      match skipName s with
      | some s => skipRounds rounds true (.object :: outer) s
      | none => none
    | _ => none
  | rounds + 1, true, outer, s =>
    match skip s with
    | '[' :: s =>
      match skip s with
      | ']' :: s => skipRounds rounds false outer s
      | s => skipRounds rounds true (.array :: outer) s
    | '\x7b' :: s =>
      match skip s with
      | '\x7d' :: s => skipRounds rounds false outer s
      | s =>
        match skipName s with
        | some s => skipRounds rounds true (.object :: outer) s
        | none => none
    | s =>
      match skipPlain s with
      | some s => skipRounds rounds false outer s
      | none => none

/-- What follows a value; `size` bounds the length of the text. -/
def skipValue (size : Nat) (s : List Char) : Option (List Char) := skipRounds (size + 2) true [] s

/-! ### Values that are wanted -/

/-- Elements with commas between them, up to a closing bracket, behind those read so far, last one
first. As many rounds as characters suffice. -/
def readElements {α : Type} (element : List Char → Option (α × List Char)) (closing : Char) :
    Nat → List α → List Char → Option (List α × List Char)
  | 0, _, _ => none
  | rounds + 1, found, s =>
    match element s with
    | none => none
    | some (a, s) =>
      match skip s with
      | [] => none
      | c :: s =>
        if c = closing then some ((a :: found).reverse, s)
        else if c = ',' then readElements element closing rounds (a :: found) (skip s)
        else none

/-- What stands between brackets, the opening one of which is passed. -/
def readEnclosed {α : Type} (element : List Char → Option (α × List Char)) (closing : Char)
    (size : Nat) (s : List Char) : Option (List α × List Char) :=
  match skip s with
  | [] => none
  | c :: s => if c = closing then some ([], s) else readElements element closing size [] (c :: s)

/-- An entry of an object; how its value is read may depend on its name. -/
def readEntry {α : Type} (value : String → List Char → Option (α × List Char)) (s : List Char) :
    Option ((String × α) × List Char) :=
  (readQuoted s).bind fun (name, s) =>
    match skip s with
    | ':' :: s =>
      let name := String.ofList name
      (value name (skip s)).map fun (a, s) => ((name, a), s)
    | _ => none

mutual

/-- Read data of a shape from a text that starts with no white space; `size` bounds the length of
the text. -/
def read (size : Nat) : Shape → List Char → Option (Datum × List Char)
  | .text, s => (readQuoted s).map fun (cs, rest) => (.text (String.ofList cs), rest)
  | .flag, s =>
    match s with
    | 't' :: 'r' :: 'u' :: 'e' :: rest => some (.flag true, rest)
    | 'f' :: 'a' :: 'l' :: 's' :: 'e' :: rest => some (.flag false, rest)
    | _ => none
  | .count, s => (readCount s).map fun (n, rest) => (.number n, rest)
  | .optional value, s =>
    match s with
    | 'n' :: 'u' :: 'l' :: 'l' :: rest => some (.nothing, rest)
    | s => (read size value s).map fun (d, rest) => (.present d, rest)
  | .list item, s =>
    match s with
    | '[' :: s => (readEnclosed (read size item) ']' size s).map fun (ds, rest) => (.array ds, rest)
    | _ => none
  | .dict value, s =>
    match s with
    | '\x7b' :: s =>
      (readEnclosed (readEntry fun _ => read size value) '\x7d' size s).map
        fun (entries, rest) => (.object entries, rest)
    | _ => none
  | .record _ fields, s =>
    match s with
    | '\x7b' :: s =>
      (readEnclosed (readEntry (readField size fields)) '\x7d' size s).bind
        fun (entries, rest) => (knownFields entries).map fun known => (.record known, rest)
    | '[' :: s => (readRow size true fields s).map fun (known, rest) => (.record known, rest)
    | _ => none

/-- Read the value of the field of a name; what is no field is passed over. -/
def readField (size : Nat) :
    List (String × Shape) → String → List Char → Option (Option Datum × List Char)
  | [], _, s => (skipValue size s).map fun rest => (none, rest)
  | (field, shape) :: fields, name, s =>
    if field = name then (read size shape s).map fun (d, rest) => (some d, rest)
    else readField size fields name s

/-- Read the values of fields in order, up to the closing bracket. Fields at the end may be left
out. -/
def readRow (size : Nat) (first : Bool) :
    List (String × Shape) → List Char → Option (List (String × Datum) × List Char)
  | [], s =>
    match skip s with
    | ']' :: rest => some ([], rest)
    | _ => none
  | (field, shape) :: fields, s =>
    let more := match skip s with
      | ',' :: s => if first then none else some (skip s)
      | s => if first then some s else none
    match skip s, more with
    | ']' :: rest, _ => some ([], rest)
    | _, some s =>
      (read size shape s).bind fun (d, s) =>
        (readRow size false fields s).map fun (known, rest) => ((field, d) :: known, rest)
    | _, none => none

end

/-- Read a text of the given shape. -/
def parse? (shape : Shape) (text : String) : Option Datum :=
  let s := text.toList
  match read s.length shape (skip s) with
  | some (d, rest) => if (skip rest).isEmpty then some d else none
  | none => none

end StoryTape.Artifact.Json
