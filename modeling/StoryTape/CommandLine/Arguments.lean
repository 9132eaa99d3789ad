import StoryTape.Text.Search

/-!
# Arguments

The words of a command line: options with a value, written `--name value` or `--name=value`, and
one plain word that names a file. After `--` all words are plain. Words are read from left to right,
and the first that asks for help or cannot be right settles what is answered.
-/

namespace StoryTape.CommandLine

open Text

/-- What the programs say about themselves when they are asked for their version. -/
def versionText : String := "Story Tape 0.1.0"

/-- An option that takes a value. -/
structure OptionForm where
  /-- Its name. -/
  name : String
  /-- Whether it takes a value. -/
  takes : String → Bool

/-- An option for a path, which is not empty. -/
def OptionForm.path (name : String) : OptionForm := ⟨name, fun value => !value.isEmpty⟩

/-- An option for any text. -/
def OptionForm.text (name : String) : OptionForm := ⟨name, fun _ => true⟩

/-- An option for one of some words. -/
def OptionForm.choice (name : String) (words : List String) : OptionForm := ⟨name, words.contains⟩

/-- The words of a command line that have been read. -/
structure Arguments where
  /-- The plain word. -/
  file : Option String := none
  /-- The values of the options, the last one first. -/
  options : List (String × String) := []
  deriving DecidableEq, Repr

/-- What a command line comes to. -/
inductive Reading (α : Type) where
  /-- It asks how to call the program. -/
  | help
  /-- It asks which program this is. -/
  | version
  /-- It cannot be understood. -/
  | misuse
  /-- It asks for this. -/
  | request (a : α)

/-- Read on with what is asked for. -/
def Reading.bind {α β : Type} (r : Reading α) (next : α → Reading β) : Reading β :=
  match r with
  | help => .help
  | version => .version
  | misuse => .misuse
  | request a => next a

/-- What is asked for; nothing is a misuse. -/
def Reading.ofOption {α : Type} : Option α → Reading α
  | some a => .request a
  | none => .misuse

/-- Whether a word reads as an option; a single hyphen does not. -/
def isOption (word : String) : Bool := ['-'].isPrefixOf word.toList && word != "-"

/-- The option a word asks for: the name of a long option with the value written to it, or the
letter of a short one, which may be followed by anything. -/
inductive OptionWord where
  | long (name : String) (value : Option String)
  | short (letter : Option Char)

/-- The option of a word that reads as one. -/
def OptionWord.ofWord (word : String) : OptionWord :=
  match word.toList with
  | '-' :: '-' :: s =>
    match splitFirst ['='] s with
    | some (name, value) => .long (String.ofList name) (some (String.ofList value))
    | none => .long (String.ofList s) none
  | s => .short s[1]?

namespace Arguments

/-- Take a plain word. There is only one, and it is not empty. -/
def takePlain (a : Arguments) (word : String) : Reading Arguments :=
  if a.file.isNone && !word.isEmpty then .request { a with file := some word } else .misuse

/-- Take the value of an option, which is given once. -/
def takeOption (forms : List OptionForm) (a : Arguments) (name value : String) :
    Reading Arguments :=
  match forms.find? fun form => form.name == name with
  | some form =>
    if form.takes value && (a.options.lookup name).isNone then
      .request { a with options := (name, value) :: a.options }
    else .misuse
  | none => .misuse

/-- Take words that are all plain. -/
def readPlain (a : Arguments) : List String → Reading Arguments
  | [] => .request a
  | word :: words => (a.takePlain word).bind fun a => a.readPlain words

/-- Take words. A value that stands alone does not read as an option. -/
def readFrom (forms : List OptionForm) (versioned : Bool) (a : Arguments) :
    List String → Reading Arguments
  | [] => .request a
  | word :: words =>
    if word = "--" then a.readPlain words
    else if !isOption word then (a.takePlain word).bind fun a => a.readFrom forms versioned words
    else
      match OptionWord.ofWord word, words with
      | .short (some 'h'), _ => .help
      | .short letter, _ => if versioned && letter == some 'V' then .version else .misuse
      | .long name (some value), words =>
        (a.takeOption forms name value).bind fun a => a.readFrom forms versioned words
      | .long "help" none, _ => .help
      | .long name none, words =>
        if versioned && name == "version" then .version
        else
          match words with
          | value :: words =>
            if isOption value then .misuse
            else (a.takeOption forms name value).bind fun a => a.readFrom forms versioned words
          | [] => .misuse

/-- Read a command line with the given options, and whether it may ask for the version. -/
def read (forms : List OptionForm) (versioned : Bool) (words : List String) : Reading Arguments :=
  readFrom forms versioned {} words

/-- The value of an option. -/
def option? (a : Arguments) (name : String) : Option String := a.options.lookup name

end Arguments

end StoryTape.CommandLine
