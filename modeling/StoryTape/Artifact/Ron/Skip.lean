import StoryTape.Artifact.Ron.Numeral

/-!
# RON values that are passed over

A value nobody asked for still has to be well-formed RON. Brackets may be nested so deep only:
every enclosed list takes a level, and every element of it another.
-/

namespace StoryTape.Artifact.Ron

open Text

/-- What a RON text allows beyond the plain notation. -/
structure Extensions where
  /-- An optional value need not be marked as being there. -/
  implicitSome : Bool := false
  /-- What is marked as being there may be a record or tuple without its parentheses. -/
  unwrapVariants : Bool := false
  /-- A record carries the name of its type. -/
  explicitNames : Bool := false
  deriving DecidableEq, Repr

/-! ### Elements -/

/-- Elements with commas between them and perhaps after the last, behind those read so far, last one
first. What is left starts with the closing bracket. As many rounds as characters suffice. -/
def elements {α : Type} (element : List Char → Option (α × List Char)) (closing : Char) :
    Nat → List α → List Char → Option (List α × List Char)
  | 0, _, _ => none
  | rounds + 1, found, s =>
    let s := skip s
    if s.head? = some closing then some (found.reverse, s)
    else
      match element s with
      | none => none
      | some (a, s) =>
        match skip s with
        | ',' :: s => elements element closing rounds (a :: found) s
        | s => if s.head? = some closing then some ((a :: found).reverse, s) else none

/-- What stands between brackets, the opening one of which is passed. -/
def enclosed {α : Type} (element : List Char → Option (α × List Char)) (closing : Char)
    (size : Nat) (s : List Char) : Option (List α × List Char) :=
  (elements element closing (size + 1) [] s).map fun (found, s) => (found, s.tail)

/-- A key, a colon and a value, the reading of which may depend on the key. -/
def entry {κ α : Type} (key : List Char → Option (κ × List Char))
    (value : κ → List Char → Option (α × List Char)) (s : List Char) :
    Option ((κ × α) × List Char) :=
  match key s with
  | none => none
  | some (k, s) =>
    match skip s with
    | ':' :: s => (value k (skip s)).map fun (a, s) => ((k, a), s)
    | _ => none

/-- What follows the parenthesis that ends a marked value; a comma may stand before it. -/
def closeMarked (s : List Char) : Option (List Char) :=
  let s := match skip s with
    | ',' :: s => skip s
    | s => s
  match s with
  | ')' :: rest => some rest
  | _ => none

/-! ### Values -/

/-- Passes over a value and gives what follows it. -/
abbrev Skipper := List Char → Option (List Char)

/-- A skipper as a reader of nothing. -/
def Skipper.element (skipper : Skipper) (s : List Char) : Option (Unit × List Char) :=
  (skipper s).map fun rest => ((), rest)

/-- Whether what stands between parentheses has names: it starts with one and a colon. -/
def startsNamed (s : List Char) : Bool :=
  match looseIdent? s with
  | some (_, rest) => (skip rest).head? == some ':'
  | none => false

/-- The entries or elements up to a closing bracket; what is left starts with it. There are none
when no level is left for them. -/
def skipContent (size : Nat) (item : Option Skipper) (named : Bool) (closing : Char)
    (s : List Char) : Option (List Char) :=
  let item : Skipper := fun s => item.bind fun skipper => skipper s
  let element := if named then
    fun s => (entry item.element (fun _ => item.element) s).map fun (_, s) => ((), s)
  else item.element
  (elements element closing (size + 1) [] s).map fun (_, s) => s

/-- How the parts of a value are passed over, for as many levels as there are. -/
structure Levels where
  /-- A part one level deeper. It may stand in the parentheses of a marked value, where a record or
  tuple goes without its own. -/
  one : Option (Bool → Skipper)
  /-- A part two levels deeper. -/
  two : Option Skipper

/-- Pass over brackets and what they enclose. -/
def skipBracketed (size : Nat) (levels : Levels) (named : Bool) (closing : Char) : Skipper :=
  fun s =>
    if levels.one.isNone then none
    else (skipContent size levels.two named closing s).map List.tail

/-- Pass over what may follow the name of a record or tuple: its parentheses. -/
def skipRecord (size : Nat) (levels : Levels) : Skipper
  | '(' :: s => skipBracketed size levels (startsNamed (skip s)) ')' s
  | s => some s

/-- Pass over a value that starts with the letters of `Some`. -/
def skipMarked (x : Extensions) (levels : Levels) (s : List Char) : Option (List Char) :=
  let implicit := fun s =>
    if x.implicitSome then levels.one.bind fun skipper => skipper false s else none
  match word? "Some" s with
  | none => implicit s
  | some s =>
    match skip s with
    | '(' :: s =>
      (levels.one.bind fun skipper => skipper x.unwrapVariants (skip s)).bind closeMarked
    | s => implicit s

/-- Pass over a value that starts with an identifier, which `rest` follows. -/
def skipWord (x : Extensions) (size : Nat) (levels : Levels) (s rest : List Char) :
    Option (List Char) :=
  match (["true", "false", "None"] ++ specialWords).findSome? fun word => word? word s with
  | some rest => some rest
  | none =>
    if (mark? "Some" s).isSome then skipMarked x levels s else skipRecord size levels (skip rest)

/-- Pass over a value that starts with no identifier. -/
def skipWordless (size : Nat) (levels : Levels) : Skipper
  | '(' :: ')' :: rest => some rest
  | '(' :: s => skipRecord size levels ('(' :: s)
  | '[' :: s => skipBracketed size levels false ']' s
  | '\x7b' :: s => skipBracketed size levels true '\x7d' s
  | 'b' :: '\'' :: s => (byte? ('b' :: '\'' :: s)).map Prod.snd
  | 'b' :: s => (bytes? size ('b' :: s)).map Prod.snd
  | '\'' :: s => (char? ('\'' :: s)).map Prod.snd
  | s => ((text? size s).map Prod.snd) <|> skipNumber s

/-- Pass over a value that stands on its own. -/
def skipWhole (x : Extensions) (size : Nat) (levels : Levels) (s : List Char) :
    Option (List Char) :=
  match looseIdent? s with
  | some (_, rest) => skipWord x size levels s rest
  | none => skipWordless size levels s

/-- Pass over a value in the parentheses of a marked one. It may be missing, and a record or tuple
may go without its own parentheses. -/
def skipInner (x : Extensions) (size : Nat) (levels : Levels) (s : List Char) :
    Option (List Char) :=
  if s.head? = some ')' then some s
  else if startsNamed s then
    if levels.one.isNone then none else skipContent size levels.two true ')' s
  else
    match skipWhole x size levels s with
    | none => none
    | some rest =>
      match skip rest with
      | ',' :: s =>
        if (skip s).head? = some ')' then some rest
        else if levels.one.isNone then none
        else skipContent size levels.two false ')' s
      | _ => some rest

/-- Pass over a value with so many levels left, which may be in the parentheses of a marked one;
`size` bounds the length of the text. -/
def skipValue (x : Extensions) (size : Nat) : Nat → Bool → Skipper
  | 0, inner => pass ⟨none, none⟩ inner
  | 1, inner => pass ⟨some (skipValue x size 0), none⟩ inner
  | depth + 2, inner =>
    pass ⟨some (skipValue x size (depth + 1)), some (skipValue x size depth false)⟩ inner
where
  /-- Pass over a value with the given levels below it. -/
  pass (levels : Levels) (inner : Bool) : Skipper :=
    if inner then skipInner x size levels else skipWhole x size levels

end StoryTape.Artifact.Ron
