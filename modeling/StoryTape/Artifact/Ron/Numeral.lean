import StoryTape.Artifact.Ron.Lexeme

/-!
# Numerals of RON

Whole numbers may be written in four bases, with low lines between the digits and the name of a
fixed-width type behind them; other numbers are decimal, or one of the words for what is no finite
number.
-/

namespace StoryTape.Artifact.Ron

open Text

/-- A sign that a numeral may start with: whether it is negative, and what follows. -/
def readSign : List Char → Bool × List Char
  | '-' :: s => (true, s)
  | '+' :: s => (false, s)
  | s => (false, s)

/-! ### Whole numbers -/

/-- A type of whole numbers. -/
structure IntegerType where
  /-- Whether it has negative numbers. -/
  signed : Bool
  /-- The bits of its numbers. -/
  bits : Nat
  deriving DecidableEq

/-- The type of counts. -/
def IntegerType.count : IntegerType := ⟨false, 64⟩

/-- The types that can be named behind a number. -/
def integerTypes : List (String × IntegerType) := [
  ("i8", ⟨true, 8⟩), ("i16", ⟨true, 16⟩), ("i32", ⟨true, 32⟩), ("i64", ⟨true, 64⟩),
  ("u8", ⟨false, 8⟩), ("u16", ⟨false, 16⟩), ("u32", ⟨false, 32⟩), ("u64", .count)]

/-- Whether a type has a number. -/
def IntegerType.has (t : IntegerType) (negative : Bool) (n : Nat) : Bool :=
  match t.signed, negative with
  | true, true => n ≤ Nat.pow 2 (t.bits - 1)
  | true, false => n < Nat.pow 2 (t.bits - 1)
  | false, true => n == 0
  | false, false => n < Nat.pow 2 t.bits

/-- Whether a character may stand among the digits of a whole number. -/
def isDigitPart (c : Char) : Bool := (hexValue c).isSome || c == '_'

/-- The value of digits of a base with low lines between them. -/
def digitsIn? (base : Nat) (digits : List Char) : Option Nat :=
  (digits.filter (· != '_')).foldlM (fun n c =>
    (hexValue c).bind fun d => if d < base then some (base * n + d) else none) 0

/-- A whole number without sign: its value and what follows its digits. -/
def readMagnitude (s : List Char) : Option (Nat × List Char) :=
  let (base, s) := match s with
    | '0' :: 'x' :: s => (16, s)
    | '0' :: 'o' :: s => (8, s)
    | '0' :: 'b' :: s => (2, s)
    | s => (10, s)
  let digits := s.takeWhile isDigitPart
  if digits.isEmpty || digits.head? == some '_' then none
  else (digitsIn? base digits).map fun n => (n, s.dropWhile isDigitPart)

/-- The type named behind the digits a text starts with. -/
def namedType? (s : List Char) : Option (IntegerType × List Char) :=
  let rest := s.dropWhile isDigitPart
  integerTypes.findSome? fun (name, type) => (word? name rest).map fun rest => (type, rest)

/-- A whole number that its type has: the type named behind it, or else the one for its sign. -/
def readInteger (types : Bool → IntegerType) (s : List Char) :
    Option (IntegerType × Nat × List Char) :=
  let (negative, s) := readSign s
  match readMagnitude s with
  | none => none
  | some (n, rest) =>
    let (type, rest) := (namedType? s).getD (types negative, rest)
    if type.has negative n then some (type, n, rest) else none

/-- A count. -/
def readCount (s : List Char) : Option (Nat × List Char) :=
  match readInteger (fun _ => .count) s with
  | some (type, n, rest) => if type = .count then some (n, rest) else none
  | none => none

/-! ### Other numbers -/

/-- Whether a character may stand in a decimal number. -/
def isDecimalPart (c : Char) : Bool :=
  c.isDigit || c == '.' || c == 'e' || c == 'E' || c == '+' || c == '-' || c == '_'

/-- A decimal number without the low lines in it. A low line follows a digit, the exponent's mark or
another low line, with no point between; `after` says whether one may come next. -/
def dropLowLines (after : Bool) : List Char → Option (List Char)
  | [] => some []
  | '_' :: s => if after then dropLowLines after s else none
  | c :: s =>
    let after := (after || c.isDigit || c == 'e' || c == 'E') && c != '.'
    (dropLowLines after s).map (c :: ·)

/-- Whether the exponent that a decimal number may have is complete. -/
def isExponent : List Char → Bool
  | [] => true
  | c :: s =>
    let digits := (readSign s).2
    (c == 'e' || c == 'E') && !digits.isEmpty && digits.all Char.isDigit

/-- Whether a text is a decimal number. -/
def isDecimal (s : List Char) : Bool :=
  let s := (readSign s).2
  let whole := s.takeWhile Char.isDigit
  match s.dropWhile Char.isDigit with
  | '.' :: s =>
    let fraction := s.takeWhile Char.isDigit
    !(whole.isEmpty && fraction.isEmpty) && isExponent (s.dropWhile Char.isDigit)
  | s => !whole.isEmpty && isExponent s

/-- The words for what is no finite number. -/
def specialWords : List String :=
  ["inf", "inff32", "inff64", "NaN", "NaNf32", "NaNf64"]

/-- What follows one of the words for what is no finite number. -/
def skipSpecial (s : List Char) : Option (List Char) :=
  specialWords.findSome? fun word => word? word s

/-- What follows a decimal number, with the name of its type, or a word for what is no finite
number. -/
def skipDecimal (s : List Char) : Option (List Char) :=
  match skipSpecial (readSign s).2 with
  | some rest => some rest
  | none =>
    let rest := s.dropWhile isDecimalPart
    if ((dropLowLines false (s.takeWhile isDecimalPart)).map isDecimal).getD false then
      some (((word? "f32" rest) <|> (word? "f64" rest)).getD rest)
    else none

/-- Whether a text goes on longer as a decimal number than as a whole one. -/
def looksDecimal (s : List Char) : Bool :=
  let s := (readSign s).2
  (s.takeWhile isDigitPart).length < (s.takeWhile isDecimalPart).length

/-- What follows a number of any kind. A whole number that no type holds is a decimal one. -/
def skipNumber (s : List Char) : Option (List Char) :=
  if looksDecimal s then skipDecimal s
  else
    let types := fun negative => if negative then ⟨true, 64⟩ else IntegerType.count
    ((readInteger types s).map fun (_, _, rest) => rest) <|> skipDecimal s

end StoryTape.Artifact.Ron
