import StoryTape.Artifact.Json.Printer
import StoryTape.Artifact.Json.Reader
import StoryTape.Artifact.Ron.Printer
import StoryTape.Artifact.Ron.Reader

/-!
# Codecs

A codec writes data as text and reads it back. Whatever writes or loads artifacts is given a codec
for every format; the programs use the standard ones.
-/

namespace StoryTape.Artifact

/-- A way to write data as text and to read it back. -/
structure Codec where
  /-- The text of a datum. -/
  render : Datum → String
  /-- Read a text for a shape. -/
  parse? : Shape → String → Option Datum

/-- A codec for every format. -/
structure Codecs where
  /-- The codec of a format. -/
  codec : Format → Codec

/-- The codecs of the programs. -/
def Codecs.standard : Codecs where
  codec
    | .json => ⟨Json.render, Json.parse?⟩
    | .ron => ⟨Ron.render, Ron.parse?⟩

end StoryTape.Artifact
