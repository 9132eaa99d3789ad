import StoryTape.FileContent
import StoryTape.Text.Search

/-!
# Disks

A disk in memory, on which command lines run without touching any file. A path is walked name by
name from the working folder or, when it starts with a slash, from the root; every name but the
last has to be a folder.
-/

namespace StoryTape.CommandLine

open Text

/-- Folders and files by the names on the way from the root. -/
structure Disk where
  /-- The folders, the root aside. -/
  folders : List (List String) := []
  /-- The files with what reading them gives. -/
  files : List (List String × FileContent) := []
  /-- The working folder. -/
  here : List String := []

/-- What a path leads to. -/
inductive Place where
  | folder (path : List String)
  | file (path : List String) (content : FileContent)
  /-- A name that is free, in a folder that is there. -/
  | free (path : List String)
  /-- A folder on the way is missing. -/
  | astray
  /-- A file stands where a folder is wanted. -/
  | blocked

/-- The most bytes a name has. -/
def maxNameBytes : Nat := 255

/-- The most bytes a path has. -/
def maxPathBytes : Nat := 4095

/-- The names of a path. -/
def pathNames (path : String) : List String := (splitChar '/' path.toList).map String.ofList

namespace Disk

/-- Whether there is a folder. The root always is. -/
def hasFolder (d : Disk) (path : List String) : Bool := path.isEmpty || d.folders.contains path

/-- The folder from which a path is walked. -/
def startOf (d : Disk) (path : String) : List String :=
  if ['/'].isPrefixOf path.toList then [] else d.here

/-- Walk names from a folder. -/
def walk (d : Disk) (folder : List String) : List String → Place
  | [] => .folder folder
  | name :: names =>
    if name = "" ∨ name = "." then d.walk folder names
    else if name = ".." then d.walk folder.dropLast names
    else if name.utf8ByteSize > maxNameBytes then .blocked
    else
      let path := folder ++ [name]
      if d.hasFolder path then d.walk path names
      else
        match d.files.lookup path with
        | some content => if names.isEmpty then .file path content else .blocked
        | none => if names.isEmpty then .free path else .astray

/-- Whether a disk takes a path: no name holds a zero character, and its length is bounded. -/
def takesPath (path : String) : Bool :=
  !path.toList.contains '\x00' && path.utf8ByteSize ≤ maxPathBytes

/-- What a path leads to. The empty path leads nowhere. -/
def place (d : Disk) (path : String) : Place :=
  if path.isEmpty then .astray
  else if takesPath path then d.walk (d.startOf path) (pathNames path)
  else .blocked

/-- Read a file. -/
def read (d : Disk) (path : String) : FileContent :=
  match d.place path with
  | .file _ content => content
  | .free _ | .astray => .missing
  | .folder _ | .blocked => .unreadable

/-- Write a file, if there is a folder for it. -/
def write? (d : Disk) (path text : String) : Option Disk :=
  match d.place path with
  | .file p _ =>
    some { d with files := d.files.map fun f => if f.1 = p then (p, .text text) else f }
  | .free p => some { d with files := d.files ++ [(p, .text text)] }
  | _ => none

/-- Make the one folder that names, last one first, lead to; it may be there already. -/
def makeFolder? (d : Disk) (start names : List String) : Option Disk :=
  match d.walk start names.reverse with
  | .folder _ => some d
  | .free path => some { d with folders := d.folders ++ [path] }
  | _ => none

/-- Make the folder that names, last one first, lead to, after those it lies in when they are
missing. Names that stay where they are name no folder of their own. -/
def makeUnder (start : List String) : List String → Disk → Option Disk
  | [], d => some d
  | name :: outer, d =>
    if name = "" ∨ name = "." then makeUnder start outer d
    else
      d.makeFolder? start (name :: outer) <|>
        (makeUnder start outer d).bind fun d => d.makeFolder? start (name :: outer)

/-- Make a folder and those it lies in. A path that ends in a point leads into its folder, which
has to be there. -/
def makeFolders? (d : Disk) (path : String) : Option Disk :=
  if path.isEmpty then some d
  else if takesPath path then
    let start := d.startOf path
    let names := (pathNames path).reverse.dropWhile (· == "")
    let outer := (names.dropWhile fun name => name == "" || name == ".").tail
    d.makeFolder? start names <|> (makeUnder start outer d).bind (·.makeFolder? start names)
  else none

/-- Put a file into the working folder, with the folders it lies in. -/
def put (d : Disk) (path : String) (content : FileContent) : Disk :=
  let names := d.here ++ pathNames path
  { d with
    folders := d.folders ++ (List.range names.length).map names.take
    files := d.files ++ [(names, content)] }

/-- A disk whose working folder holds the given files, and on which `/dev/null` is an empty file. -/
def ofFiles (files : List (String × FileContent)) : Disk :=
  let here := ["working folder"]
  let devices := ["dev"]
  let bare : Disk :=
    { folders := [here, devices], files := [(devices ++ ["null"], .text "")], here }
  files.foldl (fun d f => d.put f.1 f.2) bare

/-- The texts of the files in the working folder that an earlier disk has not, by their paths. -/
def newFiles (d earlier : Disk) : List (String × String) :=
  d.files.filterMap fun (path, content) =>
    match content with
    | .text text =>
      if d.here.isPrefixOf path && (earlier.files.lookup path).isNone then
        some ("/".intercalate (path.drop d.here.length), text)
      else none
    | _ => none

end Disk

end StoryTape.CommandLine
