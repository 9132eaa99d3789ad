import StoryTape.Artifact.Tape
import StoryTape.CommandLine.Arguments
import StoryTape.CommandLine.Plan
import StoryTape.Script.Compile
import StoryTape.Tape.Problem

/-!
# The compiler's command line

`compile SCRIPT` writes one artifact per tape, and the tag identifiers when they are asked for;
`check SCRIPT` lists the problems of the tapes.
-/

namespace StoryTape.CommandLine

open Text Artifact

/-- What the compiler is asked to do. -/
inductive CompilerRequest where
  /-- Write the tapes of a script to a folder, and the tag identifiers to a file. -/
  | compile (script folder : String) (format : Format) (tags : Option String)
  /-- List the problems of a script. -/
  | check (script : String)
  /-- Tell how to call it. -/
  | help
  /-- Tell which program it is. -/
  | version
  deriving DecidableEq, Repr

namespace CompilerRequest

/-- How the compiler is called. -/
def usage : String :=
  "Usage:\n" ++
  "  compile SCRIPT [--out-dir DIR] [--format json|ron] [--tags FILE]\n" ++
  "  check SCRIPT\n" ++
  "  help [COMMAND]"

/-- What a reading asks for. -/
def ofReading? : Reading CompilerRequest → Option CompilerRequest
  | .help => some help
  | .version => some version
  | .misuse => none
  | .request r => some r

/-- The format of a name. -/
def formatOfName? (name : String) : Option Format :=
  [Format.json, .ron].find? fun f => f.extension == name

/-- The request that the arguments of `compile` make. -/
def ofCompile? (a : Arguments) : Option CompilerRequest := do
  let script ← a.file
  let format ← formatOfName? ((a.option? "format").getD "json")
  return compile script ((a.option? "out-dir").getD ".") format (a.option? "tags")

/-- Read the arguments of `compile`. -/
def readCompile (words : List String) : Reading CompilerRequest :=
  let forms := [.path "out-dir", .choice "format" ["json", "ron"], .path "tags"]
  (Arguments.read forms false words).bind fun a => .ofOption (ofCompile? a)

/-- Read the arguments of `check`. -/
def readCheck (words : List String) : Reading CompilerRequest :=
  (Arguments.read [] false words).bind fun a => .ofOption (a.file.map check)

/-- Whether `help` has something to tell about the words after it: nothing, or one command. -/
def isHelpTopic (words : List String) : Bool :=
  [[], ["compile"], ["check"], ["help"]].contains words

/-- Read a command line. -/
def parse? : List String → Option CompilerRequest
  | "help" :: words => if isHelpTopic words then some help else none
  | "compile" :: words => ofReading? (readCompile words)
  | "check" :: words => ofReading? (readCheck words)
  | word :: _ =>
    if isOption word then ofReading? ((Arguments.read [] true [word]).bind fun _ => .misuse)
    else none
  | [] => none

/-- The script that is wanted. -/
def script? : CompilerRequest → Option String
  | compile script .. | check script => some script
  | help | version => none

end CompilerRequest

/-- A path in a folder. An absolute path stays as it is. -/
def joinPath (folder name : String) : String :=
  if ['/'].isPrefixOf name.toList then name
  else if folder.isEmpty || ['/'].isSuffixOf folder.toList then folder ++ name
  else folder ++ "/" ++ name

/-- Where the artifact of a tape is written: its label and the extension of the format, in a
folder. -/
def artifactPath (folder : String) (format : Format) (t : Tape) : String :=
  joinPath folder (t.label ++ "." ++ format.extension)

/-- Write the artifact of a tape and tell about it. -/
def artifactSteps (codecs : Codecs) (folder : String) (format : Format) (t : Tape) : List Step :=
  let path := artifactPath folder format t
  [.writeFile path (codecs.encode format t), .say (t.label ++ " -> " ++ path)]

/-- The tag identifiers as a JSON list. -/
def tagListText (codecs : Codecs) (index : Script.TagIndex) : String :=
  (codecs.codec .json).render (ofTexts index.listing)

/-- Write the artifacts of a script. -/
def compilePlan (codecs : Codecs) (c : Script.CompiledScript) (folder : String)
    (format : Format) (tags : Option String) : Plan :=
  { steps := .makeFolders folder :: c.tapes.flatMap (artifactSteps codecs folder format) ++
      tags.toList.map fun file => .writeFile file (tagListText codecs c.index) }

/-- List the problems of a script. -/
def checkPlan (c : Script.CompiledScript) (script : String) : Plan :=
  let problems := c.tapes.flatMap fun t => t.problems.map fun p => t.label ++ ": " ++ p.message
  if problems.isEmpty then
    let tapes := countText c.tapes.length
    let rules := countText (c.tapes.foldl (fun count t => count + t.rules.length) 0)
    { steps := [.say s!"ok: {tapes} tape(s), {rules} rule(s)"] }
  else
    let count := countText problems.length
    { steps := problems.map .say ++ [.say s!"{count} problem(s) in {script}"], ending := .faulty }

/-- Read and compile a script, then go on with it. -/
def withScript (path : String) (content : FileContent) (next : Script.CompiledScript → Plan) :
    Plan :=
  match content with
  | .text text =>
    match Script.compile text with
    | .ok compiled => next compiled
    | .error _ => { ending := .failed s!"compiling {path}" }
  | _ => { ending := .failed s!"reading {path}" }

/-- What the compiler does with the given codecs, after what reading the script comes to. -/
def CompilerRequest.plan (request : CompilerRequest) (codecs : Codecs) (content : FileContent) :
    Plan :=
  match request with
  | .help => { steps := [.say usage] }
  | .version => { steps := [.say versionText] }
  | .check script => withScript script content fun c => checkPlan c script
  | .compile script folder format tags =>
    withScript script content fun c => compilePlan codecs c folder format tags

/-- What the compiler does when it is called with the given words. -/
def compilerPlan (words : List String) (read : String → FileContent) : Plan :=
  match CompilerRequest.parse? words with
  | none => { ending := .misuse }
  | some request => request.plan .standard ((request.script?.map read).getD .missing)

/-- Run the compiler on a disk in memory. -/
def runCompiler (words : List String) (d : Disk) : Outcome := (compilerPlan words d.read).run d

end StoryTape.CommandLine
