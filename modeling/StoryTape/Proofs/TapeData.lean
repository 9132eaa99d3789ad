import StoryTape.Artifact.Tape
import StoryTape.Proofs.AscendingLists
import StoryTape.Proofs.Shapes
import StoryTape.Proofs.StoredLines

/-!
# Tapes as data and back

Every tape becomes data of the shape of a tape, and that data is read as the tape it was. A field
that is left out had its default, a tag set is determined by its texts and a dictionary by its
entries.
-/

namespace StoryTape.Artifact

open Text

/-! ### Lists -/

/-- A run that changes no element of a list gives the list. -/
theorem mapM_eq_some_self {α : Type} {f : α → Option α} {xs : List α}
    (h : ∀ x ∈ xs, f x = some x) : xs.mapM f = some xs := by
  induction xs with
  | nil => rfl
  | cons x xs ih =>
    rw [List.mapM_cons, h x List.mem_cons_self, ih fun y hy => h y (List.mem_cons_of_mem x hy)]
    rfl

/-- What is written element by element is read element by element. -/
theorem toList?_array {α : Type} {write : α → Datum} {read : Datum → Option α} {xs : List α}
    (h : ∀ x ∈ xs, read (write x) = some x) : toList? read (.array (xs.map write)) = some xs := by
  rw [toList?, List.mapM_map]
  exact mapM_eq_some_self h

/-- Texts are read back. -/
theorem toList?_ofTexts (texts : List String) : toList? toText? (ofTexts texts) = some texts :=
  toList?_array fun _ _ => rfl

/-- A tag is read from its text. -/
theorem toTag?_text (t : Tag) : toTag? (.text t.raw) = some t := by
  rw [toTag?, toText?, Option.bind_some, Tag.parse_raw]
  rfl

/-- A tag set is read from the texts of its members. -/
theorem toTagSet?_ofTagSet (s : TagSet) : toTagSet? (ofTagSet s) = some s := by
  have htags : toList? toTag? (ofTagSet s) = some s.tags := by
    have htexts : ofTagSet s = .array (s.tags.map fun t => .text t.raw) := by
      rw [ofTagSet, ofTexts, TagSet.raws, List.map_map]
      rfl
    rw [htexts]
    exact toList?_array fun t _ => toTag?_text t
  rw [toTagSet?, htags, Option.map_some, TagSet.ofList_tags]

/-- A dictionary is read from its entries. -/
theorem toDict?_ofDict {α : Type} {write : α → Datum} {read : Datum → Option α} {d : Dict α}
    (h : ∀ e ∈ d.entries, read (write e.2) = some e.2) :
    toDict? read (ofDict write d) = some d := by
  have hentries : (d.entries.map fun e => (e.1, write e.2)).mapM
      (fun entry => (read entry.2).map fun a => (entry.1, a)) = some d.entries := by
    rw [List.mapM_map]
    exact mapM_eq_some_self fun e he => by simp [h e he]
  have hread : toDict? read (ofDict write d) = (some d.entries).map Dict.ofList :=
    congrArg (Option.map Dict.ofList) hentries
  rw [hread, Option.map_some, Dict.ofList_entries]

/-! ### Fields -/

/-- An empty tag set is left out. -/
def setValue (s : TagSet) : Option Datum := if s.isEmpty then none else some (ofTagSet s)

/-- An empty dictionary is left out. -/
def dictValue {α : Type} (write : α → Datum) (d : Dict α) : Option Datum :=
  if d.isEmpty then none else some (ofDict write d)

/-- A text that there is not is left out. -/
def textValue (text : Option String) : Option Datum := text.map fun s => .present (.text s)

/-- The field of a set is left out for an empty set. -/
theorem setField_eq (name : String) (s : TagSet) :
    setField name s = givenFields [(name, setValue s)] := by
  rw [setField, setValue]
  split <;> rfl

/-- The field of a dictionary is left out for an empty one. -/
theorem dictField_eq {α : Type} (name : String) (write : α → Datum) (d : Dict α) :
    dictField name write d = givenFields [(name, dictValue write d)] := by
  rw [dictField, dictValue]
  split <;> rfl

/-- The field of a text is left out when there is none. -/
theorem optionalField_eq (name : String) (text : Option String) :
    optionalField name text = givenFields [(name, textValue text)] := by
  cases text <;> rfl

section Fields

variable {α : Type} {values : List (String × Option Datum)} {read : Datum → Option α} {a : α}

/-- A field that is there is read. -/
theorem need?_eq_some (hdistinct : (values.map Prod.fst).Nodup) (name : String) {d : Datum}
    (hvalue : values.lookup name = some (some d)) (hread : read d = some a) :
    need? (givenFields values) name read = some a := by
  rw [need?, lookup_givenFields hdistinct, hvalue]
  exact hread

/-- A field that is left out has its default. -/
theorem needOr?_eq_some (hdistinct : (values.map Prod.fst).Nodup) (name : String) {default : α}
    {value : Option Datum} (hvalue : values.lookup name = some value)
    (hread : value.elim (some default) read = some a) :
    needOr? default (givenFields values) name read = some a := by
  rw [needOr?, lookup_givenFields hdistinct, hvalue]
  cases value <;> exact hread

end Fields

/-- A set is read back, the empty one where it is left out. -/
theorem toTagSet?_setValue (s : TagSet) : (setValue s).elim (some .empty) toTagSet? = some s := by
  rw [setValue]
  split
  · next hempty => exact congrArg some (TagSet.ext_tags (List.isEmpty_iff.mp hempty).symm)
  · exact toTagSet?_ofTagSet s

/-- A dictionary is read back if its values are. -/
theorem toDict?_dictValue {α : Type} {write : α → Datum} {read : Datum → Option α} {d : Dict α}
    (h : ∀ e ∈ d.entries, read (write e.2) = some e.2) :
    (dictValue write d).elim (some .empty) (toDict? read) = some d := by
  rw [dictValue]
  split
  · next hempty => exact congrArg some (Dict.ext_entries (List.isEmpty_iff.mp hempty).symm)
  · exact toDict?_ofDict h

/-- A text is read back, or none where it is left out. -/
theorem toOptionalText?_textValue (text : Option String) :
    (textValue text).elim (some none) toOptionalText? = some text := by
  cases text <;> rfl

/-! ### Rules -/

/-- The fields of a rule. -/
def ruleValues (r : Rule) : List (String × Option Datum) :=
  [("match", some (.text r.target.raw)), ("context", setValue r.context),
    ("cost", setValue r.cost), ("payload", setValue r.payload), ("gain", setValue r.gain),
    ("drag", if r.drag then none else some (.flag false)), ("text", textValue r.text)]

/-- A rule is written as a record of its fields. -/
theorem ofRule_eq (r : Rule) : ofRule r = .record (givenFields (ruleValues r)) := by
  have hdrag : (if r.drag then [] else [("drag", Datum.flag false)]) =
      givenFields [("drag", if r.drag then none else some (.flag false))] := by
    split <;> rfl
  simp only [ofRule, ruleValues, setField_eq, optionalField_eq, hdrag, givenFields_cons_cons,
    List.append_assoc]
  rfl

/-- A rule is read back. -/
theorem toRule?_ofRule (r : Rule) : toRule? (ofRule r) = some r := by
  have hdistinct : ((ruleValues r).map Prod.fst).Nodup :=
    (by decide : (ruleShape.fields.map Prod.fst).Nodup)
  have htarget := need?_eq_some hdistinct "match" rfl (toTag?_text r.target)
  have hcontext := needOr?_eq_some hdistinct "context" rfl (toTagSet?_setValue r.context)
  have hcost := needOr?_eq_some hdistinct "cost" rfl (toTagSet?_setValue r.cost)
  have hpayload := needOr?_eq_some hdistinct "payload" rfl (toTagSet?_setValue r.payload)
  have hgain := needOr?_eq_some hdistinct "gain" rfl (toTagSet?_setValue r.gain)
  have hdrag : (if r.drag then none else some (Datum.flag false)).elim (some true) toFlag? =
      some r.drag := by
    cases r.drag <;> rfl
  have hdrag := needOr?_eq_some hdistinct "drag" rfl hdrag
  have htext := needOr?_eq_some hdistinct "text" rfl (toOptionalText?_textValue r.text)
  rw [ofRule_eq, toRule?, toFields?]
  simp only [bind, Option.bind_some, htarget, hcontext, hcost, hpayload, hgain, hdrag, htext]
  rfl

/-! ### Worlds -/

/-- The fields of a location. -/
def locationValues (l : Location) : List (String × Option Datum) :=
  [("name", some (.text l.name)), ("tags", some (ofTagSet l.tags))]

/-- A location is read back. -/
theorem toLocation?_ofLocation (l : Location) : toLocation? (ofLocation l) = some l := by
  have hdistinct : ((locationValues l).map Prod.fst).Nodup :=
    (by decide : (locationShape.fields.map Prod.fst).Nodup)
  have hname : need? _ _ toText? = some l.name := need?_eq_some hdistinct "name" rfl rfl
  have htags := need?_eq_some hdistinct "tags" rfl (toTagSet?_ofTagSet l.tags)
  have hrecord : ofLocation l = .record (givenFields (locationValues l)) := rfl
  rw [hrecord, toLocation?, toFields?]
  simp only [bind, Option.bind_some, hname, htags]
  rfl

/-- A world is read back. -/
theorem toWorld?_ofWorld (w : World) : toWorld? (ofWorld w) = some w := by
  rw [toWorld?, ofWorld, toList?_array fun l _ => toLocation?_ofLocation l]
  rfl

/-! ### Dialogues -/

/-- The fields of a choice. -/
def choiceValues (c : Choice) : List (String × Option Datum) :=
  [("choice", some (.text c.label)), ("next", some (.text c.next)),
    ("context", setValue c.context), ("cost", setValue c.cost), ("payload", setValue c.payload),
    ("gain", setValue c.gain)]

/-- A choice is written as a record of its fields. -/
theorem ofChoice_eq (c : Choice) : ofChoice c = .record (givenFields (choiceValues c)) := by
  simp only [ofChoice, choiceValues, setField_eq, givenFields_cons_cons, List.append_assoc]
  rfl

/-- A choice is read back. -/
theorem toChoice?_ofChoice (c : Choice) : toChoice? (ofChoice c) = some c := by
  have hdistinct : ((choiceValues c).map Prod.fst).Nodup :=
    (by decide : (choiceShape.fields.map Prod.fst).Nodup)
  have hlabel : need? _ _ toText? = some c.label :=
    need?_eq_some hdistinct "choice" rfl rfl
  have hnext : need? _ _ toText? = some c.next := need?_eq_some hdistinct "next" rfl rfl
  have hcontext := needOr?_eq_some hdistinct "context" rfl (toTagSet?_setValue c.context)
  have hcost := needOr?_eq_some hdistinct "cost" rfl (toTagSet?_setValue c.cost)
  have hpayload := needOr?_eq_some hdistinct "payload" rfl (toTagSet?_setValue c.payload)
  have hgain := needOr?_eq_some hdistinct "gain" rfl (toTagSet?_setValue c.gain)
  rw [ofChoice_eq, toChoice?, toFields?]
  simp only [bind, Option.bind_some, hlabel, hnext, hcontext, hcost, hpayload, hgain]
  rfl

/-- The fields of a dialogue node. -/
def nodeValues (n : DialogueNode) : List (String × Option Datum) :=
  [("text", some (ofTexts n.text)),
    ("flow", if n.choices.isEmpty then none else some (.array (n.choices.map ofChoice))),
    ("goto", textValue n.goto)]

/-- A node is written as a record of its fields. -/
theorem ofNode_eq (n : DialogueNode) : ofNode n = .record (givenFields (nodeValues n)) := by
  have hflow : (if n.choices.isEmpty then [] else [("flow", .array (n.choices.map ofChoice))]) =
      givenFields
        [("flow", if n.choices.isEmpty then none else some (.array (n.choices.map ofChoice)))] := by
    split <;> rfl
  simp only [ofNode, nodeValues, hflow, optionalField_eq, givenFields_cons_cons, List.append_assoc]
  rfl

/-- A node is read back. -/
theorem toNode?_ofNode (n : DialogueNode) : toNode? (ofNode n) = some n := by
  have hdistinct : ((nodeValues n).map Prod.fst).Nodup :=
    (by decide : (nodeShape.fields.map Prod.fst).Nodup)
  have htext := need?_eq_some hdistinct "text" rfl (toList?_ofTexts n.text)
  have hflow : (if n.choices.isEmpty then none else some (.array (n.choices.map ofChoice))).elim
      (some []) (toList? toChoice?) = some n.choices := by
    split
    · next hempty => exact congrArg some (List.isEmpty_iff.mp hempty).symm
    · exact toList?_array fun c _ => toChoice?_ofChoice c
  have hflow := needOr?_eq_some hdistinct "flow" rfl hflow
  have hgoto := needOr?_eq_some hdistinct "goto" rfl (toOptionalText?_textValue n.goto)
  rw [ofNode_eq, toNode?, toFields?]
  simp only [bind, Option.bind_some, htext, hflow, hgoto]
  rfl

/-! ### Text books -/

/-- The fields of a range of lines. -/
def rangeValues (r : LineRange) : List (String × Option Datum) :=
  [("start", some (.number r.start)), ("end", some (.number r.stop))]

/-- A range is read back. -/
theorem toRange?_ofRange (r : LineRange) : toRange? (ofRange r) = some r := by
  have hdistinct : ((rangeValues r).map Prod.fst).Nodup :=
    (by decide : (rangeShape.fields.map Prod.fst).Nodup)
  have hstart : need? _ _ toCount? = some r.start :=
    need?_eq_some hdistinct "start" rfl rfl
  have hstop : need? _ _ toCount? = some r.stop := need?_eq_some hdistinct "end" rfl rfl
  have hrecord : ofRange r = .record (givenFields (rangeValues r)) := rfl
  rw [hrecord, toRange?, toFields?]
  simp only [bind, Option.bind_some, hstart, hstop]
  rfl

/-- A list of ranges. -/
def ofRanges (rs : List LineRange) : Datum := .array (rs.map ofRange)

/-- The fields of a text book. -/
def bookValues (b : TextBook) : List (String × Option Datum) :=
  [("lines", some (ofDict ofTexts b.lines)), ("ranges", dictValue ofRanges b.ranges),
    ("routes", dictValue ofNode b.routes)]

/-- A text book is written as a record of its fields. -/
theorem ofBook_eq (b : TextBook) : ofBook b = .record (givenFields (bookValues b)) := by
  simp only [ofBook, bookValues, dictField_eq, givenFields_cons_cons, List.append_assoc]
  rfl

/-- A text book is read back. -/
theorem toBook?_ofBook (b : TextBook) : toBook? (ofBook b) = some b := by
  have hdistinct : ((bookValues b).map Prod.fst).Nodup :=
    (by decide : (bookShape.fields.map Prod.fst).Nodup)
  have hlines : needOr? .empty _ _ (toDict? (toList? toText?)) = some b.lines :=
    needOr?_eq_some hdistinct "lines" rfl (toDict?_ofDict fun e _ => toList?_ofTexts e.2)
  have hranges := needOr?_eq_some hdistinct "ranges" rfl
    (toDict?_dictValue fun e _ => toList?_array fun r _ => toRange?_ofRange r)
  have hroutes := needOr?_eq_some hdistinct "routes" rfl
    (toDict?_dictValue fun e _ => toNode?_ofNode e.2)
  rw [ofBook_eq, toBook?, toFields?]
  simp only [bind, Option.bind_some, hlines, hranges, hroutes]
  rfl

/-! ### Tapes -/

/-- The fields of a tape. -/
def tapeValues (t : Tape) : List (String × Option Datum) :=
  [("label", some (.text t.label)), ("initial_state", some (ofWorld t.world)),
    ("rules", some (.array (t.rules.map ofRule))), ("text", some (ofBook t.text))]

/-- Every tape is read back as it was. -/
theorem toTape?_ofTape (t : Tape) : toTape? (ofTape t) = some t := by
  have hdistinct : ((tapeValues t).map Prod.fst).Nodup :=
    (by decide : (tapeShape.fields.map Prod.fst).Nodup)
  have hlabel : need? _ _ toText? = some t.label :=
    need?_eq_some hdistinct "label" rfl rfl
  have hworld := need?_eq_some hdistinct "initial_state" rfl (toWorld?_ofWorld t.world)
  have hrules : needOr? [] _ _ (toList? toRule?) = some t.rules :=
    needOr?_eq_some hdistinct "rules" rfl (toList?_array fun r _ => toRule?_ofRule r)
  have htext : needOr? {} _ _ toBook? = some t.text :=
    needOr?_eq_some hdistinct "text" rfl (toBook?_ofBook t.text)
  have hrecord : ofTape t = .record (givenFields (tapeValues t)) := rfl
  rw [hrecord, toTape?, toFields?]
  simp only [bind, Option.bind_some, hlabel, hworld, hrules, htext]
  rfl

/-! ### The shape of a tape -/

section Admits

variable {shape : Shape} {d : Datum}

/-- A value that is given has the shape it was shown to have. -/
theorem admits_of_eq_some (h : shape.Admits d) : ∀ d', some d = some d' → shape.Admits d' := by
  rintro _ ⟨⟩
  exact h

/-- A value that is left out sometimes has its shape when it is given. -/
theorem admits_of_ite_eq_some {p : Prop} [Decidable p] (h : shape.Admits d) :
    ∀ d', (if p then none else some d) = some d' → shape.Admits d' := by
  intro d' hd'
  split at hd'
  · cases hd'
  · exact admits_of_eq_some h d' hd'

/-- What is written element by element has the shape of a list. -/
theorem admits_array {α : Type} {write : α → Datum} {xs : List α}
    (h : ∀ x ∈ xs, shape.Admits (write x)) : (Shape.list shape).Admits (.array (xs.map write)) :=
  .list (List.forall_mem_map.mpr h)

/-- A dictionary has its shape if its values have theirs. -/
theorem admits_ofDict {α : Type} {write : α → Datum} {d : Dict α}
    (h : ∀ e ∈ d.entries, shape.Admits (write e.2)) : (Shape.dict shape).Admits (ofDict write d) :=
  .dict (List.forall_mem_map.mpr h)

end Admits

/-- Texts have the shape of a list of texts. -/
theorem admits_ofTexts (texts : List String) : (Shape.list .text).Admits (ofTexts texts) :=
  admits_array fun s _ => .text s

/-- A text has its shape when it is given. -/
theorem admits_textValue (text : Option String) :
    ∀ d, textValue text = some d → (Shape.optional .text).Admits d := by
  cases text with
  | none => exact nofun
  | some s => exact admits_of_eq_some (.present s)

/-- A set has its shape when it is given. -/
theorem admits_setValue (s : TagSet) : ∀ d, setValue s = some d → tagSetShape.Admits d :=
  admits_of_ite_eq_some (admits_ofTexts s.raws)

/-- A rule has the shape of one. -/
theorem admits_ofRule (r : Rule) : ruleShape.Admits (ofRule r) := by
  have hvalues : FieldsAdmit ruleShape.fields (ruleValues r) :=
    .cons ⟨rfl, admits_of_eq_some (.text _)⟩ <| .cons ⟨rfl, admits_setValue r.context⟩ <|
    .cons ⟨rfl, admits_setValue r.cost⟩ <| .cons ⟨rfl, admits_setValue r.payload⟩ <|
    .cons ⟨rfl, admits_setValue r.gain⟩ <| .cons ⟨rfl, admits_of_ite_eq_some (.flag _)⟩ <|
    .cons ⟨rfl, admits_textValue r.text⟩ .nil
  rw [ofRule_eq]
  exact hvalues.admits_record "Rule" (by decide) (by decide)

/-- A location has the shape of one. -/
theorem admits_ofLocation (l : Location) : locationShape.Admits (ofLocation l) := by
  have hvalues : FieldsAdmit locationShape.fields (locationValues l) :=
    .cons ⟨rfl, admits_of_eq_some (.text _)⟩ <|
    .cons ⟨rfl, admits_of_eq_some (admits_ofTexts l.tags.raws)⟩ .nil
  exact hvalues.admits_record "Location" (by decide) (by decide)

/-- A choice has the shape of one. -/
theorem admits_ofChoice (c : Choice) : choiceShape.Admits (ofChoice c) := by
  have hvalues : FieldsAdmit choiceShape.fields (choiceValues c) :=
    .cons ⟨rfl, admits_of_eq_some (.text _)⟩ <| .cons ⟨rfl, admits_of_eq_some (.text _)⟩ <|
    .cons ⟨rfl, admits_setValue c.context⟩ <| .cons ⟨rfl, admits_setValue c.cost⟩ <|
    .cons ⟨rfl, admits_setValue c.payload⟩ <| .cons ⟨rfl, admits_setValue c.gain⟩ .nil
  rw [ofChoice_eq]
  exact hvalues.admits_record "Stitch" (by decide) (by decide)

/-- A node has the shape of one. -/
theorem admits_ofNode (n : DialogueNode) : nodeShape.Admits (ofNode n) := by
  have hflow : (Shape.list choiceShape).Admits (.array (n.choices.map ofChoice)) :=
    admits_array fun c _ => admits_ofChoice c
  have hvalues : FieldsAdmit nodeShape.fields (nodeValues n) :=
    .cons ⟨rfl, admits_of_eq_some (admits_ofTexts n.text)⟩ <|
    .cons ⟨rfl, admits_of_ite_eq_some hflow⟩ <| .cons ⟨rfl, admits_textValue n.goto⟩ .nil
  rw [ofNode_eq]
  exact hvalues.admits_record "RouteNode" (by decide) (by decide)

/-- A range has the shape of one if its ends fit into machine words. -/
theorem admits_ofRange {r : LineRange} (hstart : r.start < wordSize) (hstop : r.stop < wordSize) :
    rangeShape.Admits (ofRange r) := by
  have hvalues : FieldsAdmit rangeShape.fields (rangeValues r) :=
    .cons ⟨rfl, admits_of_eq_some (.count hstart)⟩ <|
    .cons ⟨rfl, admits_of_eq_some (.count hstop)⟩ .nil
  exact hvalues.admits_record "LineRange" (by decide) (by decide)

/-- Ranges that lie within lines a machine word can count are counts themselves. -/
theorem admits_ofBook {b : TextBook} (hranged : b.Ranged)
    (hwords : ∀ name, b.lineCount name < wordSize) : bookShape.Admits (ofBook b) := by
  have hranges (e) (he : e ∈ b.ranges.entries) : (Shape.list rangeShape).Admits (ofRanges e.2) := by
    refine admits_array fun r hr => ?_
    have hentry : b.rangesOf e.1 = e.2 := by
      rw [TextBook.rangesOf, Dict.get?_eq_some_iff.mpr he, Option.getD_some]
    obtain ⟨hstart, hstop⟩ := hranged e.1 r (hentry ▸ hr)
    have hstop := Nat.lt_of_le_of_lt hstop (hwords e.1)
    exact admits_ofRange (Nat.lt_of_le_of_lt hstart hstop) hstop
  have hvalues : FieldsAdmit bookShape.fields (bookValues b) :=
    .cons ⟨rfl, admits_of_eq_some (admits_ofDict fun e _ => admits_ofTexts e.2)⟩ <|
    .cons ⟨rfl, admits_of_ite_eq_some (admits_ofDict hranges)⟩ <|
    .cons ⟨rfl, admits_of_ite_eq_some (admits_ofDict fun e _ => admits_ofNode e.2)⟩ .nil
  rw [ofBook_eq]
  exact hvalues.admits_record "TextBook" (by decide) (by decide)

/-- A tape has the shape of one if its ranges lie within its lines and these can be counted. -/
theorem admits_ofTape {t : Tape} (hranged : t.text.Ranged)
    (hwords : ∀ name, t.text.lineCount name < wordSize) : tapeShape.Admits (ofTape t) := by
  have hworld : (Shape.list locationShape).Admits (ofWorld t.world) :=
    admits_array fun l _ => admits_ofLocation l
  have hrules : (Shape.list ruleShape).Admits (.array (t.rules.map ofRule)) :=
    admits_array fun r _ => admits_ofRule r
  have hvalues : FieldsAdmit tapeShape.fields (tapeValues t) :=
    .cons ⟨rfl, admits_of_eq_some (.text _)⟩ <| .cons ⟨rfl, admits_of_eq_some hworld⟩ <|
    .cons ⟨rfl, admits_of_eq_some hrules⟩ <|
    .cons ⟨rfl, admits_of_eq_some (admits_ofBook hranged hwords)⟩ .nil
  exact hvalues.admits_record "Tape" (by decide) (by decide)

end StoryTape.Artifact
