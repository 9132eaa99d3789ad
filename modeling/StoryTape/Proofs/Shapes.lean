import Mathlib.Data.List.Forall2
import StoryTape.Artifact.Shape
import StoryTape.Text.Numeral

/-!
# Data of a shape

What a reader that expects a shape can be given: counts are machine words, and a record lists some
of its fields, in their order, under names that are plain words. Data of a shape is what both
formats write so that it is read back.
-/

namespace StoryTape.Artifact

open Text

/-- Whether a name is a word of small letters and low lines. -/
def isFieldName (name : String) : Bool :=
  !name.toList.isEmpty && name.toList.all fun c => c.isLower || c == '_'

/-- The fields of a record, none for other shapes. -/
def Shape.fields : Shape → List (String × Shape)
  | .record _ fields => fields
  | _ => []

/-- The datum has the shape. -/
inductive Shape.Admits : Shape → Datum → Prop
  | text (s : String) : Admits .text (.text s)
  | flag (b : Bool) : Admits .flag (.flag b)
  | count {n : Nat} (h : n < wordSize) : Admits .count (.number n)
  | nothing {value : Shape} : Admits (.optional value) .nothing
  | present (s : String) : Admits (.optional .text) (.present (.text s))
  | list {item : Shape} {items : List Datum} (h : ∀ d ∈ items, Admits item d) :
      Admits (.list item) (.array items)
  | dict {value : Shape} {entries : List (String × Datum)} (h : ∀ e ∈ entries, Admits value e.2) :
      Admits (.dict value) (.object entries)
  | record {type : String} {fields : List (String × Shape)} {entries : List (String × Datum)}
      (hnames : ∀ field ∈ fields, isFieldName field.1 = true)
      (hdistinct : (fields.map Prod.fst).Nodup)
      (horder : (entries.map Prod.fst).Sublist (fields.map Prod.fst))
      (h : ∀ e ∈ entries, ∀ shape, fields.lookup e.1 = some shape → Admits shape e.2) :
      Admits (.record type fields) (.record entries)

section Records

variable {fields : List (String × Shape)} {entries : List (String × Datum)}

/-- A field among the names has a shape. -/
theorem exists_lookup_of_mem {name : String} (h : name ∈ fields.map Prod.fst) :
    ∃ shape, fields.lookup name = some shape := by
  induction fields with
  | nil => cases h
  | cons field fields ih =>
    rw [List.lookup_cons]
    split
    · exact ⟨field.2, rfl⟩
    · next hname =>
      rcases List.mem_cons.mp h with rfl | h
      · simp at hname
      · exact ih h

/-- Every entry of a record is one of its fields. -/
theorem exists_lookup_of_entry (horder : (entries.map Prod.fst).Sublist (fields.map Prod.fst))
    {e : String × Datum} (he : e ∈ entries) : ∃ shape, fields.lookup e.1 = some shape :=
  exists_lookup_of_mem (horder.subset (List.mem_map_of_mem he))

end Records

/-! ### Fields that may be left out -/

/-- The entries of a record whose fields have these values, if any. -/
def givenFields (values : List (String × Option Datum)) : List (String × Datum) :=
  values.filterMap fun (name, value) => value.map fun d => (name, d)

section GivenFields

variable {fields : List (String × Shape)} {values : List (String × Option Datum)}

/-- A value that is there makes an entry. -/
theorem givenFields_cons_some (name : String) (d : Datum) :
    givenFields ((name, some d) :: values) = (name, d) :: givenFields values := rfl

/-- A value that is not there is left out. -/
theorem givenFields_cons_none (name : String) :
    givenFields ((name, none) :: values) = givenFields values := rfl

/-- The entries of fields are those of the first and those of the others. -/
theorem givenFields_cons_cons (value value' : String × Option Datum) :
    givenFields (value :: value' :: values) =
      givenFields [value] ++ givenFields (value' :: values) :=
  List.filterMap_append (l := [value])

/-- The fields of a record are known when nothing was passed over. -/
theorem knownFields_given {entries : List (String × Datum)}
    (hdistinct : (fields.map Prod.fst).Nodup)
    (horder : (entries.map Prod.fst).Sublist (fields.map Prod.fst)) :
    knownFields (entries.map fun e => (e.1, some e.2)) = some entries := by
  have hgiven : givenFields (entries.map fun e => (e.1, some e.2)) = entries := by
    rw [givenFields, List.filterMap_map]
    exact List.filterMap_some
  have hnodup := horder.nodup hdistinct
  rw [← hgiven] at hnodup
  exact (if_pos hnodup).trans (congrArg some hgiven)

/-- The entries are in the order of the fields. -/
theorem names_givenFields_sublist (values : List (String × Option Datum)) :
    ((givenFields values).map Prod.fst).Sublist (values.map Prod.fst) := by
  induction values with
  | nil => exact .slnil
  | cons value values ih =>
    obtain ⟨name, _ | d⟩ := value
    · exact ih.cons name
    · exact ih.cons_cons name

/-- An entry is found exactly if its field has a value. -/
theorem lookup_givenFields (hdistinct : (values.map Prod.fst).Nodup) (name : String) :
    (givenFields values).lookup name = (values.lookup name).join := by
  induction values with
  | nil => rfl
  | cons value values ih =>
    obtain ⟨name', value⟩ := value
    obtain ⟨hnew, hdistinct⟩ := List.nodup_cons.mp hdistinct
    have hrest := ih hdistinct
    rw [List.lookup_cons]
    split
    · next hname =>
      obtain rfl := eq_of_beq hname
      cases value with
      | some d => rw [givenFields_cons_some, List.lookup_cons_self, Option.join_some]
      | none =>
        rw [givenFields_cons_none, Option.join_some, List.lookup_eq_none_iff]
        intro e he
        have hmem := (names_givenFields_sublist values).subset (List.mem_map_of_mem he)
        exact bne_iff_ne.mpr fun heq => hnew (heq ▸ hmem)
    · next hname =>
      cases value with
      | some d => rw [givenFields_cons_some, List.lookup_cons, hname, hrest]
      | none => rw [givenFields_cons_none, hrest]

/-- The value of every field has its shape, if it is given. -/
def FieldsAdmit : List (String × Shape) → List (String × Option Datum) → Prop :=
  List.Forall₂ fun field value => value.1 = field.1 ∧ ∀ d, value.2 = some d → field.2.Admits d

/-- Fields with values of their shapes have the names of the record. -/
theorem FieldsAdmit.names_eq (h : FieldsAdmit fields values) :
    values.map Prod.fst = fields.map Prod.fst := by
  induction h with
  | nil => rfl
  | cons hvalue _ ih => rw [List.map_cons, List.map_cons, hvalue.1, ih]

/-- Every entry has the shape of its field. -/
theorem FieldsAdmit.admits_of_mem (h : FieldsAdmit fields values)
    (hdistinct : (fields.map Prod.fst).Nodup) {e : String × Datum} (he : e ∈ givenFields values)
    {shape : Shape} (hshape : fields.lookup e.1 = some shape) : shape.Admits e.2 := by
  induction h with
  | nil => cases he
  | @cons field value fields values hvalue hvalues ih =>
    obtain ⟨name, value⟩ := value
    obtain ⟨rfl, hvalue⟩ := hvalue
    obtain ⟨hnew, hdistinct⟩ := List.nodup_cons.mp hdistinct
    have hrest (he : e ∈ givenFields values) : shape.Admits e.2 := by
      have hmem := (names_givenFields_sublist values).subset (List.mem_map_of_mem he)
      have hname : e.1 ≠ field.1 := fun heq => hnew (heq ▸ FieldsAdmit.names_eq hvalues ▸ hmem)
      rw [List.lookup_cons, beq_eq_false_iff_ne.mpr hname] at hshape
      exact ih hdistinct he hshape
    cases value with
    | none => exact hrest he
    | some d =>
      rcases List.mem_cons.mp he with rfl | he
      · rw [List.lookup_cons_self] at hshape
        exact Option.some.inj hshape ▸ hvalue d rfl
      · exact hrest he

/-- A record has its shape if every value that is given has the shape of its field. -/
theorem FieldsAdmit.admits_record (h : FieldsAdmit fields values) (type : String)
    (hnames : ∀ field ∈ fields, isFieldName field.1 = true)
    (hdistinct : (fields.map Prod.fst).Nodup) :
    (Shape.record type fields).Admits (.record (givenFields values)) :=
  .record hnames hdistinct (h.names_eq ▸ names_givenFields_sublist values) fun _ he _ hshape =>
    h.admits_of_mem hdistinct he hshape

end GivenFields

end StoryTape.Artifact
