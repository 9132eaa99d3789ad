import StoryTape.Artifact.Ron.Skip
import StoryTape.Artifact.Shape

/-!
# Reading RON

Attributes in front of a text say which extensions of the notation it uses. The value after them is
read for a shape: what the shape asks for has to be there, and the values of fields that it does not
ask for are passed over.
-/

namespace StoryTape.Artifact.Ron

open Text

/-! ### Attributes -/

/-- What follows a mark and the white space after it. -/
def token? (mark : String) (s : List Char) : Option (List Char) := (mark? mark s).map skip

/-- The extensions together with the one of a name. -/
def Extensions.enable? (x : Extensions) (name : List Char) : Option Extensions :=
  match String.ofList name with
  | "implicit_some" => some { x with implicitSome := true }
  | "unwrap_variant_newtypes" => some { x with unwrapVariants := true }
  | "explicit_struct_names" => some { x with explicitNames := true }
  | "unwrap_newtypes" => some x
  | _ => none

/-- The names of extensions, at least one, with commas between them and perhaps after the last. -/
def extensionNames? : Nat → Extensions → List Char → Option (Extensions × List Char)
  | 0, _, _ => none
  | rounds + 1, x, s =>
    (identifier? s).bind fun (name, s) =>
      (x.enable? name).bind fun x =>
        match skip s with
        | ',' :: s =>
          let s := skip s
          if s.head?.any opensIdent then extensionNames? rounds x s else some (x, s)
        | s => some (x, s)

/-- The attributes that a text starts with, and what follows them and the white space after them;
`size` bounds the length of the text. -/
def attributes? (size : Nat) : Nat → Extensions → List Char → Option (Extensions × List Char)
  | rounds + 1, x, '#' :: s =>
    (["!", "[", "enable", "("].foldlM (fun s mark => token? mark s) (skip s)).bind fun s =>
      (extensionNames? (size + 1) x s).bind fun (x, s) =>
        ([")", "]"].foldlM (fun s mark => token? mark s) s).bind fun s =>
          attributes? size rounds x s
  | _, x, s => some (x, s)

/-! ### Values -/

/-- What follows the name that a record may carry. -/
def recordName? (x : Extensions) (type : String) (s : List Char) : Option (List Char) :=
  if s.head?.any isIdentPart then
    (identifier? s).bind fun (name, rest) => if String.ofList name = type then some rest else none
  else if x.explicitNames then none
  else some s

/-- The key of a record's field. -/
def fieldName? (s : List Char) : Option (String × List Char) :=
  (identifier? s).map fun (name, s) => (String.ofList name, s)

/-- The key of a map. -/
def keyText? (size : Nat) (s : List Char) : Option (String × List Char) :=
  (text? size s).map fun (cs, s) => (String.ofList cs, s)

/-- A value that is marked as being there. -/
def marked? (x : Extensions) (value : List Char → Option (Datum × List Char)) (s : List Char) :
    Option (Datum × List Char) :=
  let implicit := fun s => if x.implicitSome then value s else none
  match word? "Some" s with
  | none => implicit s
  | some s =>
    match skip s with
    | '(' :: s =>
      (value (skip s)).bind fun (d, s) => (closeMarked s).map fun rest => (d, rest)
    | s => implicit s

mutual

/-- Read data of a shape from a text that starts with no white space. The levels are those left for
values that are passed over, and `size` bounds the length of the text. -/
def read (x : Extensions) (size : Nat) : Shape → Nat → List Char → Option (Datum × List Char)
  | .text, _, s => (text? size s).map fun (cs, rest) => (.text (String.ofList cs), rest)
  | .flag, _, s =>
    match word? "true" s with
    | some rest => some (.flag true, rest)
    | none => (word? "false" s).map fun rest => (.flag false, rest)
  | .count, _, s => (readCount s).map fun (n, rest) => (.number n, rest)
  | .optional value, levels, s =>
    match word? "None" s with
    | some rest => some (.nothing, rest)
    | none => (marked? x (read x size value (levels - 1)) s).map fun (d, rest) => (.present d, rest)
  | .list item, levels, s =>
    match s with
    | '[' :: s =>
      (enclosed (read x size item (levels - 2)) ']' size s).map
        fun (ds, rest) => (.array ds, rest)
    | _ => none
  | .dict value, levels, s =>
    match s with
    | '\x7b' :: s =>
      (enclosed (entry (keyText? size) fun _ => read x size value (levels - 2)) '\x7d' size s).map
        fun (entries, rest) => (.object entries, rest)
    | _ => none
  | .record type fields, levels, s =>
    match (recordName? x type s).map skip with
    | some ('(' :: s) =>
      (enclosed (entry fieldName? (readField x size fields (levels - 2))) ')' size s).bind
        fun (entries, rest) => (knownFields entries).map fun known => (.record known, rest)
    | _ => none

/-- Read the value of the field of a name; what is no field is passed over. -/
def readField (x : Extensions) (size : Nat) :
    List (String × Shape) → Nat → String → List Char → Option (Option Datum × List Char)
  | [], levels, _, s => (skipValue x size levels false s).map fun rest => (none, rest)
  | (field, shape) :: fields, levels, name, s =>
    if field = name then (read x size shape levels s).map fun (d, rest) => (some d, rest)
    else readField x size fields levels name s

end

/-- How deep values may be nested. -/
def maxLevels : Nat := 128

/-- Read a text of the given shape. -/
def parse? (shape : Shape) (text : String) : Option Datum :=
  let s := text.toList
  let size := s.length
  match attributes? size (size + 1) {} (skip s) with
  | none => none
  | some (x, s) =>
    match read x size shape maxLevels s with
    | some (d, rest) => if (skip rest).isEmpty then some d else none
    | none => none

end StoryTape.Artifact.Ron
