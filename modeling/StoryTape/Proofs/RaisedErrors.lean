import StoryTape.Proofs.CompilationSteps

/-!
# Errors as they are raised

Whatever is wrong with a tag, a line or a tape, the error that says so is blamed on no line when it
is raised, and its wording opens otherwise than that of an error that is blamed on one. This holds
of every function that the compilation of a script calls, from tags up to the content of a line.
-/

namespace StoryTape

open Text

/-! ### Wordings -/

/-- A text opens with a character, and with another one than the given. -/
def OpensOtherThan (c : Char) (s : String) : Prop := ∃ d, s.toList.head? = some d ∧ d ≠ c

/-- What opens a text opens it whatever stands behind. -/
theorem OpensOtherThan.append {c : Char} {s : String} (h : OpensOtherThan c s) (t : String) :
    OpensOtherThan c (s ++ t) := by
  obtain ⟨d, hd, hne⟩ := h
  refine ⟨d, ?_, hne⟩
  rw [String.toList_append, List.head?_append, hd]
  rfl

/-- The wording of a cause opens otherwise than the mark of a line. -/
def Cause.Plain (c : Cause) : Prop := OpensOtherThan 'l' c.message

/-- Only a line that stands before the first tape is named at the beginning of the wording. -/
theorem Cause.plain_of_ne {c : Cause} (h : ∀ what, c ≠ .beforeTapes what) : c.Plain := by
  rw [Plain]
  cases c
  case beforeTapes what => exact absurd rfl (h what)
  all_goals
    dsimp only [Cause.message]
    repeat refine OpensOtherThan.append ?_ _
    exact ⟨_, rfl, by decide⟩

/-- An error as it is raised: blamed on no line, and not worded like one that is. -/
structure ScriptError.Raised (e : ScriptError) : Prop where
  lines_eq_nil : e.lines = []
  plain : e.cause.Plain

/-- An error is as it is raised unless it tells of a line before the first tape. -/
theorem ScriptError.raised {cause : Cause} (phase : Phase) (h : ∀ what, cause ≠ .beforeTapes what) :
    ScriptError.Raised { cause, phase } :=
  ⟨rfl, Cause.plain_of_ne h⟩

/-- Naming the phase blames no line. -/
theorem FailsWith.inPhase {α : Type} {r : Checked α} (h : FailsWith ScriptError.Raised r)
    (phase : Phase) : FailsWith ScriptError.Raised (r.inPhase phase) :=
  h.mapError fun _ he => ⟨he.lines_eq_nil, he.plain⟩

/-! ### Tags -/

/-- A refused step of a tag is worded otherwise than the mark of a line. -/
theorem failsWith_readStep (tag : String) (marker rest : List Char) :
    FailsWith Cause.Plain (readStep tag marker rest) := by
  rw [readStep]
  split
  · exact failsWith_ok _
  · split
    · exact failsWith_ok _
    · exact failsWith_error (Cause.plain_of_ne nofun)

/-- A refused meter of a tag is worded otherwise than the mark of a line. -/
theorem failsWith_splitMeter (tag : String) (body : List Char) :
    FailsWith Cause.Plain (splitMeter tag body) := by
  have hstep (marker rest : List Char) := failsWith_readStep tag marker rest
  unfold splitMeter
  split
  · split
    · exact failsWith_ok _
    · dsimp only
      split <;> exact failsWith_ok _
  split
  · exact (hstep _ _).bind fun _ _ => failsWith_ok _
  split
  · refine (hstep _ _).bind fun step _ => ?_
    split
    · exact failsWith_error (Cause.plain_of_ne nofun)
    · exact failsWith_ok _
  split
  · exact (hstep _ _).bind fun _ _ => failsWith_ok _
  split
  · exact (hstep _ _).bind fun _ _ => failsWith_ok _
  · dsimp only
    split <;> exact failsWith_ok _

/-- A refused tag is worded otherwise than the mark of a line. -/
theorem failsWith_readParts (raw : String) : FailsWith Cause.Plain (TagParts.read raw) := by
  unfold TagParts.read
  dsimp only
  split
  · exact failsWith_error (Cause.plain_of_ne nofun)
  · refine (failsWith_splitMeter _ _).bind fun parts _ => ?_
    split
    · exact failsWith_error (Cause.plain_of_ne nofun)
    · exact failsWith_ok _

/-- A tag is refused without blaming a line. -/
theorem failsWith_parse (text : String) : FailsWith ScriptError.Raised (Tag.parse text) := by
  unfold Tag.parse
  dsimp only
  split
  · exact failsWith_ok _
  · next cause hread => exact failsWith_error ⟨rfl, failsWith_readParts _ cause hread⟩

/-- The texts of a set are refused without blaming a line. -/
theorem failsWith_ofRaws (raws : List String) : FailsWith ScriptError.Raised (TagSet.ofRaws raws) :=
  (failsWith_mapM fun raw _ => failsWith_parse raw).bind fun _ _ => failsWith_ok _

namespace Script

/-! ### Lines -/

/-- The tokens of a set are refused without blaming a line. -/
theorem failsWith_setOfTokens (phase : Phase) (tokens : List (List Char)) :
    FailsWith ScriptError.Raised (setOfTokens phase tokens) :=
  (failsWith_ofRaws _).inPhase phase

/-- A malformed line is reported without blaming it. -/
theorem raised_malformed (phase : Phase) (source : List Char) : (malformed phase source).Raised :=
  ScriptError.raised phase nofun

/-- A state line is refused without blaming it. -/
theorem failsWith_parseStateLine (source : String) :
    FailsWith ScriptError.Raised (parseStateLine source) := by
  unfold parseStateLine
  dsimp only
  split
  · exact failsWith_error (ScriptError.raised .tape nofun)
  · split
    · exact failsWith_error (raised_malformed .state _)
    · refine FailsWith.bind (failsWith_mapM fun shape _ => ?_) fun _ _ => failsWith_ok _
      exact (failsWith_setOfTokens .state shape.2).bind fun _ _ => failsWith_ok _

/-- A rule line is refused without blaming it. -/
theorem failsWith_parseRuleLine (source : String) :
    FailsWith ScriptError.Raised (parseRuleLine source) := by
  rw [parseRuleLine]
  split
  · exact failsWith_error (raised_malformed .rule _)
  · refine (failsWith_setOfTokens .rule _).bind fun context _ => ?_
    refine (failsWith_setOfTokens .rule _).bind fun cost _ => ?_
    refine ((failsWith_parse _).inPhase .rule).bind fun target _ => ?_
    refine (failsWith_setOfTokens .rule _).bind fun payload _ => ?_
    refine (failsWith_setOfTokens .rule _).bind fun gain _ => ?_
    dsimp only
    split
    · exact failsWith_error (ScriptError.raised .rule nofun)
    · exact failsWith_ok _

/-- A text line is refused without blaming it. -/
theorem failsWith_parseTextLine (source : String) :
    FailsWith ScriptError.Raised (parseTextLine source) := by
  rw [parseTextLine]
  split
  · exact failsWith_error (raised_malformed .text _)
  · split
    · exact failsWith_ok _
    · split
      · exact failsWith_ok _
      · exact failsWith_error (raised_malformed .text _)

/-! ### Stored texts -/

namespace LineStore

/-- A plain text is refused without blaming a line. -/
theorem failsWith_addPlain (s : LineStore) (name : String) (text : List Char) :
    FailsWith ScriptError.Raised (s.addPlain name text).2 := by
  rw [addPlain]
  dsimp only
  split
  · exact failsWith_error (ScriptError.raised .text nofun)
  · exact failsWith_ok _

section Parts

variable {add : LineStore → List Char → LineStore × Checked (List String)}

/-- Parts are refused without blaming a line if each of them is. -/
theorem failsWith_addParts (hadd : ∀ s text, FailsWith ScriptError.Raised (add s text).2)
    (s : LineStore) (parts : List (List Char)) :
    FailsWith ScriptError.Raised (addParts add s parts).2 := by
  induction parts generalizing s with
  | nil => exact failsWith_ok ()
  | cons part parts ih =>
    rw [addParts]
    split
    · next s' _ _ => exact ih s'
    · next s' e hfailed => exact failsWith_error (hadd s part e (congrArg Prod.snd hfailed))

/-- A sequence is refused without blaming a line if its parts are. -/
theorem failsWith_addSequenceWith (hadd : ∀ s text, FailsWith ScriptError.Raised (add s text).2)
    (s : LineStore) (name : String) (parts : List (List Char)) (kind : SequenceKind) :
    FailsWith ScriptError.Raised (s.addSequenceWith add name parts kind).2 := by
  rw [addSequenceWith]
  split
  · exact failsWith_error (ScriptError.raised .text nofun)
  · split
    · exact failsWith_ok _
    · next s' e hfailed =>
      exact failsWith_error (failsWith_addParts hadd s parts e (congrArg Prod.snd hfailed))

end Parts

/-- A text is refused without blaming a line, however deep its sequences are nested. -/
theorem failsWith_addWithin (name : String) (depth : Nat) (s : LineStore) (text : List Char) :
    FailsWith ScriptError.Raised (addWithin name depth s text).2 := by
  induction depth generalizing s text with
  | zero => exact s.failsWith_addPlain name _
  | succ depth ih =>
    rw [addWithin]
    split
    · exact s.failsWith_addPlain name _
    · exact failsWith_error (ScriptError.raised .text nofun)
    · exact failsWith_addSequenceWith ih s name _ _

/-- A text is refused without blaming a line. -/
theorem failsWith_add (s : LineStore) (name : String) (text : List Char) :
    FailsWith ScriptError.Raised (s.add name text).2 :=
  failsWith_addWithin name _ s text

/-- A sequence is refused without blaming a line. -/
theorem failsWith_addSequence (s : LineStore) (name : String) (parts : List (List Char))
    (kind : SequenceKind) : FailsWith ScriptError.Raised (s.addSequence name parts kind).2 :=
  failsWith_addSequenceWith (fun s part => s.failsWith_add name part) s name parts kind

end LineStore

/-! ### Dialogues -/

/-- The cursor of a dialogue refuses a depth without blaming a line. -/
theorem Cursor.failsWith_advance (c : Cursor) (depth : Nat) (deadEnd : Bool) :
    FailsWith ScriptError.Raised (c.advance depth deadEnd).2 := by
  have hjump : FailsWith ScriptError.Raised
      (.error { cause := .depthJump c.root depth c.depth, phase := .route } : Checked Unit) :=
    failsWith_error (ScriptError.raised .route nofun)
  unfold advance
  dsimp only
  split
  · split
    · exact hjump
    · exact failsWith_ok _
  · split
    · exact failsWith_ok _
    · split
      · exact hjump
      · exact failsWith_ok _

namespace Outline

/-- The text of a choice is refused without blaming a line. -/
theorem failsWith_storeChoice (name : String) (text : List Char) (store : LineStore) :
    FailsWith ScriptError.Raised (storeChoice name text store).2 := by
  rw [storeChoice]
  split
  · exact failsWith_error (ScriptError.raised .route nofun)
  · next label full _ =>
    split
    · exact failsWith_error (ScriptError.raised .route nofun)
    · split
      · next store' e hfailed =>
        exact failsWith_error (store.failsWith_add _ label e (congrArg Prod.snd hfailed))
      · next store' _ _ => exact store'.failsWith_add name full

/-- The text of an answer is refused without blaming a line. -/
theorem failsWith_storeAnswer (name : String) (text : List Char) (store : LineStore) :
    FailsWith ScriptError.Raised (storeAnswer name text store).2 := by
  rw [storeAnswer]
  split
  · exact store.failsWith_addSequence name _ .loop
  · exact store.failsWith_add name text

/-- The content of a line of dialogue is refused without blaming it. -/
theorem failsWith_readContent (cursor : Cursor) (depth : Nat) (deadEnd : Bool)
    (content : List Char) (store : LineStore) :
    FailsWith ScriptError.Raised (readContent cursor depth deadEnd content store).2 := by
  simp only [readContent]
  split
  · exact failsWith_ok _
  · split
    · exact (failsWith_storeChoice _ _ store).map _
    · exact (failsWith_storeAnswer _ content store).map _

/-- A dialogue refuses a line without blaming it. -/
theorem failsWith_addLine (o : Outline) (line : List Char) (store : LineStore) :
    FailsWith ScriptError.Raised (o.addLine line store).2.2 := by
  simp only [addLine]
  split
  · exact failsWith_error (ScriptError.raised .route nofun)
  · next depth deadEnd content _ =>
    split
    · next cursor e hfailed =>
      have hjump := o.cursor.failsWith_advance depth deadEnd
      exact failsWith_error (hjump e (congrArg Prod.snd hfailed))
    · next cursor _ _ =>
      split
      · next store' e hfailed =>
        have hcontent := failsWith_readContent cursor depth deadEnd content store
        exact failsWith_error (hcontent e (congrArg Prod.snd hfailed))
      · exact failsWith_ok _

/-- The nodes of a dialogue are refused without blaming a line. -/
theorem failsWith_nodes (o : Outline) : FailsWith ScriptError.Raised o.nodes := by
  unfold nodes
  dsimp only
  -- with or without a first line
  split
  all_goals
    split
    · exact failsWith_error (ScriptError.raised .route nofun)
    · exact failsWith_ok _

end Outline

/-! ### Tapes -/

/-- The counters of a tape are refused without blaming a line. -/
theorem failsWith_addCounters (name : String) (counters : List String) (w : World) :
    FailsWith ScriptError.Raised (addCounters name counters w) := by
  rw [addCounters]
  split
  · exact failsWith_ok _
  · exact ((failsWith_ofRaws counters).inPhase .text).bind fun _ _ => failsWith_ok _

/-- A tape is refused without blaming a line. -/
theorem Draft.failsWith_seal (d : Draft) : FailsWith ScriptError.Raised d.seal := by
  rw [Draft.seal]
  refine (failsWith_addCounters _ _ _).bind fun w _ => ?_
  exact (failsWith_addCounters _ _ w).bind fun _ _ => failsWith_ok _

namespace Compilation

variable (c : Compilation) (l : ScriptLine)

/-- The sorts of lines that need an open tape are not lines by name. -/
theorem failsWith_draftFor {what : String} (h : OpensOtherThan 'l' what) :
    FailsWith ScriptError.Raised (c.draftFor what) := by
  rw [draftFor]
  split
  · exact failsWith_ok _
  · exact failsWith_error ⟨rfl, h.append _⟩

/-- A dialogue before the first tape is refused without blaming a line. -/
theorem failsWith_draftFor_route : FailsWith ScriptError.Raised (c.draftFor "route") :=
  c.failsWith_draftFor ⟨'r', rfl, by decide⟩

/-- A node is refused without blaming a line. -/
theorem failsWith_addNode (node : String × DialogueNode) :
    FailsWith ScriptError.Raised (c.addNode node) := by
  unfold addNode
  refine c.failsWith_draftFor_route.bind fun d _ => ?_
  dsimp only
  split
  · exact failsWith_error (ScriptError.raised .route nofun)
  · exact failsWith_ok _

/-- A dialogue is refused without blaming a line. -/
theorem failsWith_addOutline (o : Outline) : FailsWith ScriptError.Raised (c.addOutline o) := by
  unfold addOutline
  refine FailsWith.bind (c.failsWith_draftFor_route.map _) fun _ _ => ?_
  dsimp only
  split
  · exact failsWith_error (ScriptError.raised .route nofun)
  · refine o.failsWith_nodes.bind fun nodes _ => ?_
    exact failsWith_foldlM (I := fun _ => True) trivial fun node _ c _ =>
      ⟨c.failsWith_addNode node, fun _ _ => trivial⟩

/-- Sealing the open tape fails without blaming a line. -/
theorem failsWith_sealDraft : FailsWith ScriptError.Raised c.sealDraft := by
  rw [sealDraft]
  split
  · exact failsWith_ok _
  · next d _ => exact d.failsWith_seal.bind fun _ _ => failsWith_ok _

/-- The compilation refuses a state line without blaming it. -/
theorem failsWith_readState : FailsWith ScriptError.Raised (c.readState l) := by
  unfold readState
  refine c.failsWith_sealDraft.bind fun _ _ => ?_
  refine (failsWith_parseStateLine _).bind fun _ _ => ?_
  dsimp only
  split
  · exact failsWith_error (ScriptError.raised .tape nofun)
  · exact failsWith_ok _

/-- Sentences are refused without blaming a line. -/
theorem failsWith_storeSentences (store : LineStore) (name : String) (sentences : List String) :
    FailsWith ScriptError.Raised (storeSentences store name sentences) := by
  induction sentences generalizing store with
  | nil => exact failsWith_ok store
  | cons sentence sentences ih =>
    rw [storeSentences]
    split
    · next store' _ _ => exact ih store'
    · next e hfailed =>
      exact failsWith_error (store.failsWith_add name _ e (congrArg Prod.snd hfailed))

/-- The compilation refuses a rule line without blaming it. -/
theorem failsWith_readRule : FailsWith ScriptError.Raised (c.readRule l) := by
  unfold readRule
  refine (c.failsWith_draftFor ⟨'r', rfl, by decide⟩).bind fun d _ => ?_
  refine (failsWith_parseRuleLine _).bind fun line _ => ?_
  dsimp only
  split
  · exact failsWith_ok _
  · exact (failsWith_storeSentences _ _ _).bind fun _ _ => failsWith_ok _

/-- The compilation refuses a line of dialogue without blaming it. -/
theorem failsWith_readRoute : FailsWith ScriptError.Raised (c.readRoute l) := by
  unfold readRoute
  refine c.failsWith_draftFor_route.bind fun d _ => ?_
  split
  next c₁ start o _ =>
  split
  · next o' store e hfailed =>
    have hline := o.failsWith_addLine l.content d.store
    exact failsWith_error (hline e (congrArg (·.2.2) hfailed))
  · exact failsWith_ok _

/-- What a text line stores is refused without blaming it. -/
theorem failsWith_storeTextLine (store : LineStore) (line : TextLine) :
    FailsWith ScriptError.Raised (storeTextLine store line).2 := by
  unfold storeTextLine
  split
  · exact store.failsWith_add line.name _
  · exact store.failsWith_addSequence line.name _ _

/-- The compilation refuses a text line without blaming it. -/
theorem failsWith_readText : FailsWith ScriptError.Raised (c.readText l) := by
  unfold readText
  refine (c.failsWith_draftFor ⟨'t', rfl, by decide⟩).bind fun d _ => ?_
  refine (failsWith_parseTextLine _).bind fun line _ => ?_
  dsimp only
  split
  · next store e hfailed =>
    have hline := failsWith_storeTextLine d.store line
    exact failsWith_error (hline e (congrArg Prod.snd hfailed))
  · exact failsWith_ok _

/-- The content of a line fails with an error as it is raised. -/
theorem failsWith_readContent : FailsWith ScriptError.Raised (c.readContent l) := by
  rw [readContent]
  split
  · exact c.failsWith_readState l
  · exact c.failsWith_readRule l
  · exact c.failsWith_readRoute l
  · exact c.failsWith_readText l
  all_goals exact failsWith_ok _

end Compilation

end Script

end StoryTape
