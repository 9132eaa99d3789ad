import StoryTape.Text.Hex
import StoryTape.Text.Identifier

/-!
# Lexemes of RON

White space and comments, words and identifiers, and quoted texts. A reader takes the text from
where a lexeme starts and gives the lexeme and what follows it.
-/

namespace StoryTape.Artifact.Ron

open Text

/-! ### White space -/

/-- Whether a character is white space of RON. -/
def isSpace (c : Char) : Bool :=
  let n := c.toNat
  (0x09 ≤ n && n ≤ 0x0D) || n == 0x20 || n == 0x85 || n == 0x200E || n == 0x200F || n == 0x2028 ||
    n == 0x2029

/-- Where white space is being passed over. -/
inductive Blank where
  /-- Outside of comments. -/
  | plain
  /-- In a comment up to the end of the line. -/
  | line
  /-- In a comment between marks, with so many comments around it. -/
  | block (outer : Nat)

/-- A text without the white space and comments it starts with. A comment that is not closed leaves
a text that no lexeme starts with. -/
def skipFrom : Blank → List Char → List Char
  | .plain, [] => []
  | .plain, '/' :: '/' :: s => skipFrom .line s
  | .plain, '/' :: '*' :: s => skipFrom (.block 0) s
  | .plain, c :: s => if isSpace c then skipFrom .plain s else c :: s
  | .line, [] => []
  | .line, c :: s => skipFrom (if c = '\n' then .plain else .line) s
  | .block _, [] => ['/']
  | .block outer, '/' :: '*' :: s => skipFrom (.block (outer + 1)) s
  | .block 0, '*' :: '/' :: s => skipFrom .plain s
  | .block (outer + 1), '*' :: '/' :: s => skipFrom (.block outer) s
  | .block outer, _ :: s => skipFrom (.block outer) s

/-- A text without the white space and comments it starts with. -/
def skip (s : List Char) : List Char := skipFrom .plain s

/-! ### Words and identifiers -/

/-- What follows a mark that a text starts with. -/
def mark? (mark : String) (s : List Char) : Option (List Char) :=
  let mark := mark.toList
  if mark.isPrefixOf s then some (s.drop mark.length) else none

/-- What follows a word that a text starts with; the word ends there. -/
def word? (word : String) (s : List Char) : Option (List Char) :=
  (mark? word s).filter fun rest => !rest.head?.any isIdentPart

/-- Whether an identifier may start with a character. -/
def opensIdent (c : Char) : Bool := c == '_' || isIdentStart c

/-- Whether an identifier after `r#` may go on with a character. -/
def isRawPart (c : Char) : Bool := isIdentPart c || c == '.' || c == '+' || c == '-'

/-- What quoted texts other than the plain ones start with. -/
def quoteMarks : List String := ["b\"", "b'", "br#", "br\"", "r\"", "r#\"", "r##"]

/-- An identifier, after `r#` also one with points and signs in it. -/
def looseIdent? (s : List Char) : Option (List Char × List Char) :=
  if quoteMarks.any fun mark => (mark? mark s).isSome then none
  else
    match s with
    | 'r' :: '#' :: s =>
      if (s.takeWhile isRawPart).isEmpty then none
      else some (s.takeWhile isRawPart, s.dropWhile isRawPart)
    | c :: s =>
      if opensIdent c then some (c :: s.takeWhile isIdentPart, s.dropWhile isIdentPart) else none
    | [] => none

/-- An identifier that no point and no sign follows. -/
def identifier? (s : List Char) : Option (List Char × List Char) :=
  (looseIdent? s).filter fun (_, rest) => !rest.head?.any isRawPart

/-! ### Quoted texts -/

/-- The character of a simple escape. -/
def simpleEscape : Char → Option Char
  | '"' => some '"'
  | '\'' => some '\''
  | '\\' => some '\\'
  | 'n' => some '\n'
  | 'r' => some '\r'
  | 't' => some '\t'
  | '0' => some '\x00'
  | _ => none

/-- The character that bytes make up, if it is exactly one. -/
def charOfBytes? (bytes : List Nat) : Option Char :=
  match (String.fromUTF8? ⟨(bytes.map UInt8.ofNat).toArray⟩).map String.toList with
  | some [c] => some c
  | _ => none

/-- The character that the escaped bytes so far make up together with at most `more` others. -/
def byteChar? : Nat → List Nat → List Char → Option (Char × List Char)
  | more, bytes, s =>
    match charOfBytes? bytes with
    | some c => some (c, s)
    | none =>
      match more, s with
      | more + 1, '\\' :: 'x' :: a :: b :: s =>
        (hexNumber [a, b]).bind fun byte => byteChar? more (bytes ++ [byte]) s
      | _, _ => none

/-- The character of an escape by code point, after its opening brace: one to six digits and a
closing brace. -/
def codeEscape? (s : List Char) : Option (Char × List Char) :=
  let digits := (s.take 7).takeWhile (· != '\x7d')
  match s.drop digits.length with
  | '\x7d' :: rest =>
    if digits.isEmpty || digits.length > 6 then none
    else ((hexNumber digits).bind charOf?).map fun c => (c, rest)
  | _ => none

/-- The character of an escape in a text, after the backslash. Escaped bytes may make up a
character together. -/
def escape? : List Char → Option (Char × List Char)
  | 'u' :: '\x7b' :: s => codeEscape? s
  | 'x' :: a :: b :: s => (hexNumber [a, b]).bind fun byte => byteChar? 3 [byte] s
  | e :: s => (simpleEscape e).map fun c => (c, s)
  | [] => none

/-- The character of an escape that stands alone, after the backslash: an escaped byte is a
character of ASCII. -/
def charEscape? : List Char → Option (Char × List Char)
  | 'x' :: a :: b :: s => (hexNumber [a, b]).bind fun byte => byteChar? 0 [byte] s
  | s => escape? s

/-- The byte of an escape among bytes, after the backslash; a code point stands for its bytes. -/
def byteEscape? : List Char → Option (Char × List Char)
  | 'x' :: a :: b :: s => (hexNumber [a, b]).map fun byte => (Char.ofNat byte, s)
  | s => escape? s

/-- The rest of a text after its opening quote, behind the characters read so far, last one first.
As many rounds as characters suffice. -/
def escaped? (escape : List Char → Option (Char × List Char)) :
    Nat → List Char → List Char → Option (List Char × List Char)
  | 0, _, _ => none
  | _, _, [] => none
  | _ + 1, found, '"' :: rest => some (found.reverse, rest)
  | rounds + 1, found, '\\' :: s =>
    match escape s with
    | some (c, s) => escaped? escape rounds (c :: found) s
    | none => none
  | rounds + 1, found, c :: s => escaped? escape rounds (c :: found) s

/-- The text before and after the first occurrence of a mark, behind the characters read so far,
last one first. -/
def upTo? (mark found : List Char) : List Char → Option (List Char × List Char)
  | [] => none
  | c :: s =>
    if mark.isPrefixOf (c :: s) then some (found.reverse, (c :: s).drop mark.length)
    else upTo? mark (c :: found) s

/-- A text without escapes: it ends with a quote and as many number signs as it starts with. -/
def raw? (s : List Char) : Option (List Char × List Char) :=
  let signs := s.takeWhile (· == '#')
  match s.drop signs.length with
  | '"' :: s => upTo? ('"' :: signs) [] s
  | _ => none

/-- A text; `size` bounds the length of what is read. -/
def text? (size : Nat) : List Char → Option (List Char × List Char)
  | '"' :: s => escaped? escape? (size + 1) [] s
  | 'r' :: s => raw? s
  | _ => none

/-- A string of bytes. -/
def bytes? (size : Nat) : List Char → Option (List Char × List Char)
  | 'b' :: '"' :: s => escaped? byteEscape? (size + 1) [] s
  | 'b' :: 'r' :: s => raw? s
  | _ => none

/-- A single character between quotes. -/
def char? : List Char → Option (Char × List Char)
  | '\'' :: '\\' :: s =>
    match charEscape? s with
    | some (c, '\'' :: rest) => some (c, rest)
    | _ => none
  | '\'' :: c :: '\'' :: rest => some (c, rest)
  | _ => none

/-- A single byte between quotes: a character of ASCII, or an escape that names no code point. -/
def byte? : List Char → Option (Char × List Char)
  | 'b' :: '\'' :: '\\' :: s =>
    match s.head? == some 'u', byteEscape? s with
    | false, some (c, '\'' :: rest) => some (c, rest)
    | _, _ => none
  | 'b' :: '\'' :: c :: '\'' :: rest => if c.toNat < 0x80 then some (c, rest) else none
  | _ => none

end StoryTape.Artifact.Ron
