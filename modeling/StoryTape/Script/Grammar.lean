import StoryTape.Text.Blank
import StoryTape.Text.Letter
import StoryTape.Text.Search
import StoryTape.TagSet

/-!
# The grammar of tags in lines

Lines are read from left to right: every reader takes the longest piece it can and gives the rest.
Spaces and tabs may stand between tokens, never inside one. A reader that succeeds consumes what it
read and nothing else (`eq_append_of_readToken`).
-/

namespace StoryTape.Script

open Text

/-- Whether a character may stand in a word: letters, numbers and the underscore. -/
def isWordChar (c : Char) : Bool := isLetter c || isNumber c || c == '_'

/-- Whether a character may stand in an identifier. -/
def isIdentChar (c : Char) : Bool :=
  isWordChar c || c == '.' || c == '-' || c == '+' || c == '*'

/-- Whether a character may stand in the name of a text. -/
def isNameChar (c : Char) : Bool := isWordChar c || c == '-'

/-- Whether a character may separate tokens. -/
def isGap (c : Char) : Bool := c == ' ' || c == '\t'

/-- A text without the gap it starts with. -/
def skipGap (s : List Char) : List Char := s.dropWhile isGap

/-- The body of a tag: identifier characters and the marks `<=` and `>=`. -/
def readBody : List Char → List Char × List Char
  | [] => ([], [])
  | '<' :: '=' :: s => let (body, rest) := readBody s; ('<' :: '=' :: body, rest)
  | '>' :: '=' :: s => let (body, rest) := readBody s; ('>' :: '=' :: body, rest)
  | c :: s =>
    if isIdentChar c then let (body, rest) := readBody s; (c :: body, rest) else ([], c :: s)

/-- The location of a tag in angle brackets; nothing is read when there is none. -/
def readQualifier : List Char → List Char × List Char
  | '<' :: s =>
    let name := s.takeWhile isIdentChar
    match s.dropWhile isIdentChar with
    | '>' :: rest => if name.isEmpty then ([], '<' :: s) else ('<' :: name ++ ['>'], rest)
    | _ => ([], '<' :: s)
  | s => ([], s)

/-- The sign of a tag; nothing is read when there is none. -/
def readSign : List Char → List Char × List Char
  | '?' :: s => (['?'], s)
  | '!' :: s => (['!'], s)
  | s => ([], s)

/-- A tag: sign, nonempty body, location. -/
def readToken (s : List Char) : Option (List Char × List Char) :=
  let (sign, s) := readSign s
  let (body, s) := readBody s
  if body.isEmpty then none
  else
    let (place, rest) := readQualifier s
    some (sign ++ body ++ place, rest)

/-- A body and the text behind it make up the text. -/
theorem append_readBody (s : List Char) : (readBody s).1 ++ (readBody s).2 = s := by
  fun_induction readBody s <;> simp_all

/-- A sign and the text behind it make up the text. -/
theorem append_readSign (s : List Char) : (readSign s).1 ++ (readSign s).2 = s := by
  unfold readSign; split <;> rfl

/-- A location and the text behind it make up the text. -/
theorem append_readQualifier (s : List Char) :
    (readQualifier s).1 ++ (readQualifier s).2 = s := by
  unfold readQualifier
  split
  · next s =>
    split
    · next rest h =>
      dsimp only
      split
      · rfl
      · simpa [h] using List.takeWhile_append_dropWhile (p := isIdentChar) (l := s)
    · rfl
  · rfl

/-- A token and the rest make up the text. -/
theorem eq_append_of_readToken {s token rest : List Char} (h : readToken s = some (token, rest)) :
    s = token ++ rest ∧ token ≠ [] := by
  simp only [readToken] at h
  split at h
  · simp at h
  · next hbody =>
    simp only [Option.some.injEq, Prod.mk.injEq] at h
    obtain ⟨rfl, rfl⟩ := h
    refine ⟨?_, by simp_all⟩
    rw [List.append_assoc, append_readQualifier, List.append_assoc, append_readBody,
      append_readSign]

/-- A text is no longer once the gap in front of it is skipped. -/
theorem length_skipGap_le (s : List Char) : (skipGap s).length ≤ s.length := by
  unfold skipGap
  induction s with
  | nil => simp
  | cons c s ih => by_cases h : isGap c <;> simp [h]; omega

/-- More tags, each after a semicolon; a last semicolon may follow. -/
def readMoreTokens (s : List Char) : List (List Char) × List Char :=
  match _hs : skipGap s with
  | ';' :: s' =>
    match _ht : readToken (skipGap s') with
    | some (token, rest) => let (tokens, rest) := readMoreTokens rest; (token :: tokens, rest)
    | none => ([], s')
  | _ => ([], s)
termination_by s.length
decreasing_by
  have h1 := length_skipGap_le s
  have h2 := length_skipGap_le s'
  have h3 := congrArg List.length (eq_append_of_readToken _ht).1
  simp only [_hs, List.length_cons, List.length_append] at h1 h3
  omega

/-- Tags separated by semicolons, possibly none. -/
def readTokens (s : List Char) : List (List Char) × List Char :=
  match readToken (skipGap s) with
  | some (token, rest) => let (tokens, rest) := readMoreTokens rest; (token :: tokens, rest)
  | none => ([], s)

/-- Tags between two brackets. -/
def readGroup (opening closing : Char) (s : List Char) :
    Option (List (List Char) × List Char) :=
  match skipGap s with
  | [] => none
  | c :: s =>
    if c = opening then
      let (tokens, s) := readTokens s
      match skipGap s with
      | [] => none
      | d :: rest => if d = closing then some (tokens, rest) else none
    else none

/-- Tags between parentheses. -/
def readParens : List Char → Option (List (List Char) × List Char) := readGroup '(' ')'

/-- Tags between braces. -/
def readBraces : List Char → Option (List (List Char) × List Char) := readGroup '\x7b' '\x7d'

/-- Whether nothing but a gap is left. -/
def atEnd (s : List Char) : Bool := (skipGap s).isEmpty

/-- The name of a text. -/
def readName (s : List Char) : Option (List Char × List Char) :=
  let s := skipGap s
  let name := s.takeWhile isNameChar
  if name.isEmpty then none else some (name, s.dropWhile isNameChar)

/-- A sentence: all that stands up to a barred character, at least one character. A gap in front
belongs to no sentence. -/
def readSentence (barred : List Char) (s : List Char) : Option (List Char × List Char) :=
  let s := skipGap s
  let sentence := s.takeWhile (!barred.contains ·)
  if sentence.isEmpty then none else some (sentence, s.dropWhile (!barred.contains ·))

/-- More sentences, each after a separator. A separator that no sentence follows is left. Each takes
at least one character, so as many rounds as there are characters suffice. -/
def readMoreSentences (separator : Char) (barred : List Char) :
    Nat → List Char → List (List Char) × List Char
  | 0, s => ([], s)
  | rounds + 1, s =>
    match skipGap s with
    | [] => ([], s)
    | c :: s' =>
      if c = separator then
        match readSentence barred s' with
        | none => ([], s)
        | some (sentence, rest) =>
          let (sentences, rest) := readMoreSentences separator barred rounds rest
          (sentence :: sentences, rest)
      else ([], s)

/-- One sentence and more after separators. -/
def readSentences (separator : Char) (barred : List Char) (s : List Char) :
    Option (List (List Char) × List Char) :=
  match readSentence barred s with
  | none => none
  | some (sentence, rest) =>
    let (sentences, rest) := readMoreSentences separator barred rest.length rest
    some (sentence :: sentences, rest)

/-- Sentences as they are shown. -/
def trimSentences (sentences : List (List Char)) : List String :=
  sentences.map fun sentence => String.ofList (trim sentence)

/-- Sentences separated by `|` up to the end of the line. -/
def readLoop (s : List Char) : Option (List String) :=
  match readSentences '|' ['|'] s with
  | some (sentences, rest) => if atEnd rest then some (trimSentences sentences) else none
  | none => none

/-- The error of a line that has not the shape of its kind. -/
def malformed (phase : Phase) (source : List Char) : ScriptError :=
  { cause := .malformed (String.ofList (trim source)), phase }

/-- The tag set of tokens. -/
def setOfTokens (phase : Phase) (tokens : List (List Char)) : Checked TagSet :=
  (TagSet.ofRaws (tokens.map String.ofList)).inPhase phase

/-- Read a text that is one group of tags in parentheses or braces. -/
def parseGroup (phase : Phase) (source : String) : Checked TagSet :=
  match (readParens source.toList).or (readBraces source.toList) with
  | some (tokens, rest) =>
    if atEnd rest then setOfTokens phase tokens else .error (malformed phase source.toList)
  | none => .error (malformed phase source.toList)

end StoryTape.Script
