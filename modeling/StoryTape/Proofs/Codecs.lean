import StoryTape.Artifact.Load
import StoryTape.Proofs.JsonRoundTrip
import StoryTape.Proofs.RonRoundTrip
import StoryTape.Proofs.TapeData

/-!
# Faithful codecs

Written by a codec that reads data back as it was, the text of a tape is read back as the very tape,
and a loader that looks for a list of tapes first is not misled by a single one.
-/

namespace StoryTape.Artifact

/-! ### Faithful codecs -/

/-- What is asked of a codec: data is read back for its shape, and no record is read as a list. -/
structure Codec.Faithful (codec : Codec) : Prop where
  parse?_render {shape : Shape} {d : Datum} (h : shape.Admits d) :
    codec.parse? shape (codec.render d) = some d
  parse?_list_render_record (item : Shape) (fields : List (String × Datum)) :
    codec.parse? (.list item) (codec.render (.record fields)) = none

/-- The programs write and read both formats faithfully. -/
theorem Codecs.standard_faithful (f : Format) : (Codecs.standard.codec f).Faithful :=
  match f with
  | .json => ⟨Json.parse?_render, Json.parse?_list_render_record⟩
  | .ron => ⟨Ron.parse?_render, Ron.parse?_list_render_record⟩

namespace Codecs

/-! ### Texts -/

/-- A list of tapes as the text of an artifact. -/
def encodeAll (codecs : Codecs) (f : Format) (ts : List Tape) : String :=
  (codecs.codec f).render (.array (ts.map ofTape))

variable {codecs : Codecs} {f : Format} (hcodec : (codecs.codec f).Faithful)

include hcodec

/-- The text of a tape is read back as the tape. -/
theorem decode?_encode {t : Tape} (h : tapeShape.Admits (ofTape t)) :
    codecs.decode? f (codecs.encode f t) = some t := by
  rw [decode?, encode, hcodec.parse?_render h]
  exact toTape?_ofTape t

/-- The text of a tape is no list of tapes. -/
theorem decodeAll?_encode (t : Tape) : codecs.decodeAll? f (codecs.encode f t) = none := by
  rw [decodeAll?, encode, ofTape, hcodec.parse?_list_render_record]
  rfl

/-- The text of a list of tapes is read back as the list. -/
theorem decodeAll?_encodeAll {ts : List Tape} (h : ∀ t ∈ ts, tapeShape.Admits (ofTape t)) :
    codecs.decodeAll? f (codecs.encodeAll f ts) = some ts := by
  rw [decodeAll?, encodeAll, hcodec.parse?_render (admits_array h)]
  exact toList?_array fun t _ => toTape?_ofTape t

/-- Different tapes have different texts. -/
theorem encode_inj {t t' : Tape} (h : tapeShape.Admits (ofTape t))
    (h' : tapeShape.Admits (ofTape t'))
    (heq : codecs.encode f t = codecs.encode f t') : t = t' := by
  have hread := decode?_encode hcodec h
  rw [heq, decode?_encode hcodec h'] at hread
  exact (Option.some.inj hread).symm

/-! ### Files -/

variable {path : String} (hpath : formatOf? path = some f)

include hpath

/-- A file that holds one tape is loaded as that tape alone. -/
theorem load_encode {t : Tape} (h : tapeShape.Admits (ofTape t)) :
    codecs.load path (.text (codecs.encode f t)) = .ok [t] := by
  have htapes : codecs.tapesOf path (codecs.encode f t) = .ok [t] := by
    simp only [tapesOf, hpath, decodeAll?_encode hcodec, decode?_encode hcodec h]
  simp only [load, htapes]

/-- A file that holds a list of tapes is loaded as that list. -/
theorem load_encodeAll {ts : List Tape} (hts : ts ≠ [])
    (h : ∀ t ∈ ts, tapeShape.Admits (ofTape t)) :
    codecs.load path (.text (codecs.encodeAll f ts)) = .ok ts := by
  have htapes : codecs.tapesOf path (codecs.encodeAll f ts) = .ok ts := by
    simp only [tapesOf, hpath, decodeAll?_encodeAll hcodec h]
  simp only [load, htapes]

end Codecs

end StoryTape.Artifact
