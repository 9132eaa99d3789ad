import StoryTape.Proofs.Runs
import StoryTape.Proofs.Sentences
import StoryTape.Proofs.Texts
import StoryTape.Script.Line
import StoryTape.Script.LineStore
import StoryTape.Script.Outline
import StoryTape.Script.RuleLine
import StoryTape.Script.TextLine

/-!
# The size of pieces

What a text is cut into is no longer than the text. Readers give back an end of what they read, the
sentences of a line lie in the line side by side, and a text has at most as many lines as it has
characters. This bounds what a script can store.
-/

namespace StoryTape

namespace Text

/-- The length of texts put together. -/
def totalLength (pieces : List (List Char)) : Nat := total List.length pieces

/-- No texts have no length. -/
@[simp] theorem totalLength_nil : totalLength [] = 0 := rfl

/-- The length of texts is that of the first and of the others. -/
@[simp] theorem totalLength_cons (piece : List Char) (pieces : List (List Char)) :
    totalLength (piece :: pieces) = piece.length + totalLength pieces := rfl

/-- A character put in front of the first piece counts once. -/
theorem totalLength_consPiece (c : Char) (pieces : List (List Char)) :
    totalLength (consPiece c pieces) = totalLength pieces + 1 := by
  cases pieces with
  | nil => rfl
  | cons piece pieces =>
    rw [consPiece, totalLength_cons, totalLength_cons, List.length_cons]
    omega

/-- Texts that get no longer one by one get no longer together. -/
theorem totalLength_map_le {f : List Char → List Char} (h : ∀ s, (f s).length ≤ s.length)
    (pieces : List (List Char)) : totalLength (pieces.map f) ≤ totalLength pieces := by
  induction pieces with
  | nil => exact Nat.le_refl _
  | cons piece pieces ih =>
    rw [List.map_cons, totalLength_cons, totalLength_cons]
    exact Nat.add_le_add (h piece) ih

/-- Trimming makes no text longer. -/
theorem length_trim_le (s : List Char) : (trim s).length ≤ s.length := (trim_within s).length_le

/-- Trimming the end makes no text longer. -/
theorem length_trimEnd_le (s : List Char) : (trimEnd s).length ≤ s.length :=
  (trimEnd_opens s).length_le

/-- Each cut takes one character away. -/
theorem totalLength_splitChar (c : Char) (s : List Char) :
    totalLength (splitChar c s) + (splitChar c s).length = s.length + 1 := by
  induction s with
  | nil => rfl
  | cons d s ih =>
    rw [splitChar]
    split
    · rw [totalLength_cons, List.length_cons, List.length_nil, List.length_cons]
      omega
    · rw [totalLength_consPiece, List.length_cons]
      cases hpieces : splitChar c s with
      | nil =>
        rw [hpieces] at ih
        cases ih
      | cons piece pieces =>
        rw [hpieces, List.length_cons] at ih
        rw [consPiece, List.length_cons]
        omega

/-- A text is split into at least one piece. -/
theorem splitChar_ne_nil (c : Char) (s : List Char) : splitChar c s ≠ [] := by
  intro hnil
  have hlength := totalLength_splitChar c s
  rw [hnil] at hlength
  simp [totalLength, total] at hlength

/-- The pieces between separators are no longer than the text. -/
theorem totalLength_splitChar_le (c : Char) (s : List Char) :
    totalLength (splitChar c s) ≤ s.length := by
  have hlength := totalLength_splitChar c s
  cases hpieces : splitChar c s with
  | nil => exact Nat.zero_le _
  | cons piece pieces =>
    rw [hpieces, List.length_cons] at hlength
    omega

/-- The pieces behind skipped characters are no longer than the text. -/
theorem totalLength_splitEveryFrom_le (marker : List Char) (skip : Nat) (s : List Char) :
    totalLength (splitEveryFrom marker skip s) ≤ s.length := by
  fun_induction splitEveryFrom marker skip s with
  | case1 => exact Nat.le_refl _
  | case2 skip c s ih => exact Nat.le_succ_of_le ih
  | case3 c s _ ih =>
    rw [totalLength_cons, List.length_nil, List.length_cons]
    omega
  | case4 c s _ ih =>
    rw [totalLength_consPiece, List.length_cons]
    omega

/-- The pieces between markers are no longer than the text. -/
theorem totalLength_splitEvery_le (marker s : List Char) :
    totalLength (splitEvery marker s) ≤ s.length :=
  totalLength_splitEveryFrom_le marker 0 s

end Text

namespace Script

open Text

/-! ### Lines of a text -/

/-- A piece gives no more lines than it has characters. -/
theorem length_trimmedPiece_le (text : List Char) : (trimmedPiece text).length ≤ text.length := by
  rw [trimmedPiece]
  split
  · exact Nat.zero_le _
  · next hblank =>
    have hpos : 0 < (trim text).length := List.length_pos_iff.mpr (mt List.isEmpty_iff.mpr hblank)
    exact Nat.le_trans hpos (length_trim_le text)

/-- Split at its signals, a text has no more lines than characters. -/
theorem length_splitSignals_le (text : List Char) : (splitSignals text).length ≤ text.length := by
  fun_induction splitSignals text with
  | case1 text _ => exact length_trimmedPiece_le text
  | case2 text _ _ _ _ => exact length_trimmedPiece_le text
  | case3 text before inside hopen name rest hclose ih =>
    have hbefore := length_trimmedPiece_le before
    rw [eq_append_of_splitFirst hopen, eq_append_of_splitFirst hclose]
    simp only [List.length_append, List.length_cons, List.length_nil]
    omega

/-- A text has at most as many lines as characters. -/
theorem length_splitPieces_le (text : List Char) : (splitPieces text).length ≤ text.length := by
  have hpieces (pieces : List (List Char)) :
      (pieces.flatMap splitSignals).length ≤ totalLength pieces := by
    induction pieces with
    | nil => exact Nat.le_refl _
    | cons piece pieces ih =>
      rw [List.flatMap_cons, List.length_append, totalLength_cons]
      exact Nat.add_le_add (length_splitSignals_le piece) ih
  rw [splitPieces, List.length_map]
  exact Nat.le_trans (hpieces _) (totalLength_splitEvery_le _ text)

/-- A text that declares a sequence is in parentheses, with the parts in between. -/
theorem parts_of_sequenceLiteral {text : List Char} {kind : SequenceKind}
    {parts : List (List Char)} (h : sequenceLiteral? text = some (some (kind, parts))) :
    ['('] <+: text ∧
      parts = splitEvery ['>', '<'] ((text.drop 3).take (text.length - 5)) := by
  rw [sequenceLiteral?] at h
  split at h
  · next hliteral =>
    have hopen := (Bool.and_eq_true_iff.mp hliteral).1
    refine ⟨List.isPrefixOf_iff_prefix.mp hopen, ?_⟩
    split at h
    · cases h
      rfl
    · split at h
      · cases h
        rfl
      · cases h
  · cases h

/-- The parts of a sequence lie in its text side by side. -/
theorem totalLength_sequenceLiteral {text : List Char} {kind : SequenceKind}
    {parts : List (List Char)} (h : sequenceLiteral? text = some (some (kind, parts))) :
    totalLength parts ≤ text.length := by
  obtain ⟨-, rfl⟩ := parts_of_sequenceLiteral h
  refine Nat.le_trans (totalLength_splitEvery_le _ _) ?_
  rw [List.length_take, List.length_drop]
  omega

/-! ### Readers -/

/-- Behind a gap stands the end of the text. -/
theorem skipGap_suffix (s : List Char) : skipGap s <:+ s := List.dropWhile_suffix _

/-- Behind a token stands the end of the text. -/
theorem suffix_of_readToken {s token rest : List Char} (h : readToken s = some (token, rest)) :
    rest <:+ s := ⟨token, (eq_append_of_readToken h).1.symm⟩

/-- What is left behind a character is an end of the text that started with it. -/
theorem suffix_of_skipGap_eq_cons {c : Char} {s rest : List Char} (h : skipGap s = c :: rest) :
    rest <:+ s :=
  (List.suffix_cons c rest).trans (h ▸ skipGap_suffix s)

/-- Behind further tokens stands the end of the text. -/
theorem readMoreTokens_suffix (s : List Char) : (readMoreTokens s).2 <:+ s := by
  fun_induction readMoreTokens s with
  | case1 s s' hs token rest ht tokens rest' hmore ih =>
    rw [hmore] at ih
    have hrest := (suffix_of_readToken ht).trans (skipGap_suffix s')
    exact (ih.trans hrest).trans (suffix_of_skipGap_eq_cons hs)
  | case2 s s' hs _ => exact suffix_of_skipGap_eq_cons hs
  | case3 s _ => exact List.suffix_refl s

/-- Behind tokens stands the end of the text. -/
theorem readTokens_suffix (s : List Char) : (readTokens s).2 <:+ s := by
  rw [readTokens]
  split
  · next token rest htoken =>
    have hrest := (suffix_of_readToken htoken).trans (skipGap_suffix s)
    exact (readMoreTokens_suffix rest).trans hrest
  · exact List.suffix_refl s

/-- Behind a group stands the end of the text. -/
theorem suffix_of_readGroup {opening closing : Char} {s rest : List Char}
    {tokens : List (List Char)} (h : readGroup opening closing s = some (tokens, rest)) :
    rest <:+ s := by
  rw [readGroup] at h
  split at h
  · cases h
  · next c s' hopen =>
    split at h
    · dsimp only at h
      split at h
      · cases h
      · next d rest' hclose =>
        split at h
        · cases h
          have hrest := (suffix_of_skipGap_eq_cons hclose).trans (readTokens_suffix s')
          exact hrest.trans (suffix_of_skipGap_eq_cons hopen)
        · cases h
    · cases h

/-- Behind a group that may be left out stands the end of the text. -/
theorem readOptional_suffix (opening closing : Char) (s : List Char) :
    (readOptional (readGroup opening closing) s).2 <:+ s := by
  rw [readOptional]
  cases h : readGroup opening closing s with
  | none => exact List.suffix_refl s
  | some group => exact suffix_of_readGroup h

/-- Behind a cost stands the end of the text. -/
theorem suffix_of_readCost {s rest : List Char} {tokens : List (List Char)} {drag : Bool}
    (h : readCost s = some (tokens, drag, rest)) : rest <:+ s := by
  rw [readCost] at h
  split at h
  · next tokens' s' hbraces =>
    split at h
    · next rest' hhyphen =>
      cases h
      exact (suffix_of_skipGap_eq_cons hhyphen).trans (suffix_of_readGroup hbraces)
    · cases h
  · split at h
    · next s' hhyphen =>
      have hs' := suffix_of_skipGap_eq_cons hhyphen
      split at h
      · next tokens' rest' hbraces =>
        cases h
        exact (suffix_of_readGroup hbraces).trans hs'
      · cases h
        exact hs'
    · cases h

/-- Behind a target stands the end of the text. -/
theorem suffix_of_readTarget {s token rest : List Char} (h : readTarget s = some (token, rest)) :
    rest <:+ s := by
  simp only [readTarget, bind, pure] at h
  split at h
  · next s' hopen =>
    obtain ⟨⟨token', s''⟩, htoken, h⟩ := Option.bind_eq_some_iff.mp h
    have hs'' := (suffix_of_readToken htoken).trans (skipGap_suffix s')
    dsimp only at h
    split at h
    · next close hclose =>
      split at h
      · next rest' harrow =>
        cases h
        have hrest : rest <:+ '-' :: '>' :: rest := ⟨['-', '>'], rfl⟩
        have hrest := hrest.trans (harrow ▸ skipGap_suffix close)
        have hrest := hrest.trans (suffix_of_skipGap_eq_cons hclose)
        exact (hrest.trans hs'').trans (suffix_of_skipGap_eq_cons hopen)
      · cases h
    · cases h
  · cases h

/-- Behind a name stands the end of the text. -/
theorem suffix_of_readName {s name rest : List Char} (h : readName s = some (name, rest)) :
    rest <:+ s := by
  simp only [readName] at h
  split at h
  · cases h
  · cases h
    exact (List.dropWhile_suffix _).trans (skipGap_suffix s)

/-! ### Sentences -/

/-- The length of sentences put together. -/
def sentencesLength (sentences : List String) : Nat := totalLength (sentences.map String.toList)

/-- The sentences of a line lie in it side by side. -/
theorem sentencesLength_trimSentences (separator : Char) (s : List Char) :
    sentencesLength (trimSentences (splitChar separator s)) ≤ s.length := by
  have htrim : (trimSentences (splitChar separator s)).map String.toList =
      (splitChar separator s).map trim := by
    rw [trimSentences, List.map_map]
    exact List.map_congr_left fun piece _ => String.toList_ofList
  rw [sentencesLength, htrim]
  exact Nat.le_trans (totalLength_map_le length_trim_le _) (totalLength_splitChar_le separator s)

/-- The sentences of a text line are no longer than the line. -/
theorem sentencesLength_parseTextLine {source : String} {line : TextLine}
    (h : parseTextLine source = .ok line) : sentencesLength line.sentences ≤ source.length := by
  obtain ⟨name, rest, hname, -, hsentences⟩ := parseTextLine_eq_ok_iff.mp h
  have hrest : rest.length ≤ source.length := (suffix_of_readName hname).length_le
  rcases hsentences with ⟨-, honce⟩ | ⟨-, -, hloop⟩
  · rw [(readOnce_eq_some_iff.mp honce).2]
    exact Nat.le_trans (sentencesLength_trimSentences '&' rest) hrest
  · rw [(readLoop_eq_some_iff.mp hloop).2]
    exact Nat.le_trans (sentencesLength_trimSentences '|' rest) hrest

/-- The sentences of a rule are no longer than what they are read off. -/
theorem sentencesLength_readRuleText {s : List Char} {text : RuleText}
    (h : readRuleText s = some (some text)) : sentencesLength text.sentences ≤ s.length := by
  rw [readRuleText] at h
  split at h
  · cases h
  · next s' hsign =>
    obtain ⟨⟨name, rest⟩, hname, h⟩ := Option.bind_eq_some_iff.mp h
    have hrest := ((suffix_of_readName hname).trans (suffix_of_skipGap_eq_cons hsign)).length_le
    dsimp only at h
    split at h
    · cases h
      exact Nat.zero_le _
    · obtain ⟨sentences, hsentences, h⟩ := Option.bind_eq_some_iff.mp h
      cases h
      rw [(readLoop_eq_some_iff.mp hsentences).2]
      exact Nat.le_trans (sentencesLength_trimSentences '|' rest) hrest
  · cases h

/-- What a rule line that is read consists of. -/
theorem parseRuleLine_eq_ok {source : String} {line : RuleLine}
    (h : parseRuleLine source = .ok line) :
    gainInCost? line.rule.gain line.rule.cost = none ∧
      ∃ shape, readRuleShape source.toList = some shape ∧ line.text = shape.text := by
  rw [parseRuleLine] at h
  split at h
  · cases h
  · next shape hshape =>
    obtain ⟨context, -, h⟩ := bind_eq_ok_iff.mp h
    obtain ⟨cost, -, h⟩ := bind_eq_ok_iff.mp h
    obtain ⟨target, -, h⟩ := bind_eq_ok_iff.mp h
    obtain ⟨payload, -, h⟩ := bind_eq_ok_iff.mp h
    obtain ⟨gain, -, h⟩ := bind_eq_ok_iff.mp h
    dsimp only at h
    split at h
    · cases h
    · next hnone =>
      cases h
      exact ⟨Option.eq_none_iff_forall_ne_some.mpr hnone, shape, hshape, rfl⟩

/-- The sentences of a rule line are no longer than the line. -/
theorem sentencesLength_parseRuleLine {source : String} {line : RuleLine} {text : RuleText}
    (h : parseRuleLine source = .ok line) (htext : line.text = some text) :
    sentencesLength text.sentences ≤ source.length := by
  obtain ⟨-, shape, hshape, hline⟩ := parseRuleLine_eq_ok h
  simp only [readRuleShape, bind, Option.bind_eq_some_iff] at hshape
  obtain ⟨⟨cost, drag, rest⟩, hcost, ⟨target, rest'⟩, htarget, text', hread, hshape⟩ := hshape
  cases hshape
  obtain rfl : text' = some text := hline.symm.trans htext
  have hgain := readOptional_suffix '\x7b' '\x7d' (readOptional readParens rest').2
  have hpayload := hgain.trans (readOptional_suffix '(' ')' rest')
  have htext := (hpayload.trans (suffix_of_readTarget htarget)).trans (suffix_of_readCost hcost)
  have hsource := htext.trans (readOptional_suffix '(' ')' source.toList)
  exact Nat.le_trans (sentencesLength_readRuleText hread) hsource.length_le

/-! ### Dialogues -/

/-- Behind a group taken off stands the end of the text. -/
theorem takeGroup_suffix (opening closing : Char) (text : List Char) :
    (takeGroup opening closing text).2 <:+ text := by
  unfold takeGroup
  split
  · exact List.suffix_refl _
  · split
    · split
      · exact List.suffix_refl _
      · next inside rest hclose =>
        split
        · rw [eq_append_of_splitFirst hclose]
          exact (List.dropWhile_suffix _).trans (List.suffix_append _ _)
        · exact List.suffix_refl _
    · exact List.suffix_refl _

/-- Behind the groups of a choice stands the end of the text. -/
theorem takeGroups_suffix (text : List Char) : (takeGroups text).2.2 <:+ text :=
  (takeGroup_suffix '\x7b' '\x7d' _).trans (takeGroup_suffix '(' ')' text)

/-- The label and the text of a choice share what stands before the brackets; neither is longer than
the choice. -/
theorem length_splitChoice {text label full : List Char}
    (h : splitChoice text = some (label, full)) :
    label.length ≤ text.length ∧ full.length ≤ text.length := by
  rw [splitChoice] at h
  split at h
  · cases h
  · next before rest hopen =>
    split at h
    · cases h
    · split at h
      · cases h
      · next inside after hclose =>
        cases h
        have hlabel := length_trim_le (before ++ inside)
        have hfull := length_trim_le (before ++ after)
        rw [eq_append_of_splitFirst hopen, eq_append_of_splitFirst hclose]
        simp only [List.length_append, List.length_cons, List.length_nil] at hlabel hfull ⊢
        omega

/-- The content behind the hyphens is no longer than the line. -/
theorem length_splitHyphens {line content : List Char} {depth : Nat} {deadEnd : Bool}
    (h : splitHyphens line = some (depth, deadEnd, content)) : content.length ≤ line.length := by
  rw [splitHyphens] at h
  have hrest : line.dropWhile (· == '-') <:+ line := List.dropWhile_suffix _
  split at h
  · cases h
  · split at h
    · next rest hmark =>
      cases h
      have hrest := (List.suffix_cons '>' rest).trans (hmark ▸ hrest)
      exact Nat.le_trans (length_trim_le rest) hrest.length_le
    · cases h
      exact Nat.le_trans (length_trim_le _) hrest.length_le

/-! ### Lines of a script -/

/-- The length of the declarations of a script put together. -/
def contentsLength (lines : List ScriptLine) : Nat := totalLength (lines.map ScriptLine.content)

/-- Twice the content of each line is twice the content of all. -/
theorem total_two_mul_contents (lines : List ScriptLine) :
    total (fun l => 2 * l.content.length) lines = 2 * contentsLength lines := by
  induction lines with
  | nil => rfl
  | cons l ls ih =>
    simp only [contentsLength, List.map_cons, total, totalLength_cons] at ih ⊢
    omega

/-- The contents of declarations put together add up. -/
theorem contentsLength_append (lines lines' : List ScriptLine) :
    contentsLength (lines ++ lines') = contentsLength lines + contentsLength lines' := by
  induction lines with
  | nil => exact (Nat.zero_add _).symm
  | cons l ls ih =>
    simp only [contentsLength, List.cons_append, List.map_cons, totalLength_cons] at ih ⊢
    omega

/-- Going on with a declaration adds a line and its break at most. -/
theorem contentsLength_extendLast_le (line : List Char) (lines : List ScriptLine) :
    contentsLength (extendLast line lines) ≤ contentsLength lines + (line.length + 1) := by
  fun_induction extendLast line lines with
  | case1 => exact Nat.zero_le _
  | case2 l =>
    simp only [contentsLength, List.map_cons, List.map_nil, totalLength_cons, totalLength_nil,
      ScriptLine.extend]
    split
    · omega
    · rw [List.length_append, List.length_cons]
      omega
  | case3 l ls _ ih =>
    simp only [contentsLength, List.map_cons, totalLength_cons] at ih ⊢
    omega

/-- Going on with a declaration makes no new one. -/
theorem length_extendLast (line : List Char) (lines : List ScriptLine) :
    (extendLast line lines).length = lines.length := by
  fun_induction extendLast line lines with
  | case1 => rfl
  | case2 l => rfl
  | case3 l ls _ ih => rw [List.length_cons, List.length_cons, ih]

/-- A declaration is no longer than its line. -/
theorem length_content_ofLine_le (number : Nat) (kind : LineKind) (line : List Char) :
    (ScriptLine.ofLine number kind line).content.length ≤ line.length := by
  refine Nat.le_trans (length_trim_le _) ?_
  split
  · exact Nat.le_refl _
  · rw [List.length_drop]
    exact Nat.sub_le _ _

/-- One more line makes the declarations longer by no more than the line, when every declaration and
every line count for one more than they are long. -/
theorem contentsLength_readLine {lines lines' : List ScriptLine} {line : Nat × List Char} {n : Nat}
    (hn : contentsLength lines + lines.length ≤ n) (h : readLine lines line = .ok lines') :
    contentsLength lines' + lines'.length ≤ n + (line.2.length + 1) := by
  simp only [readLine] at h
  split at h
  · cases h
    omega
  · split at h
    · next kind _ =>
      cases h
      have hline := length_content_ofLine_le line.1 kind line.2
      rw [contentsLength_append, List.length_append]
      simp only [contentsLength, List.map_cons, List.map_nil, totalLength_cons, totalLength_nil,
        List.length_cons, List.length_nil] at hn ⊢
      omega
    · split at h
      · cases h
      · cases h
        have hextend := contentsLength_extendLast_le (trim line.2) lines
        have hline := length_trim_le line.2
        rw [length_extendLast]
        omega

/-- The lines of a text, each with the end of line behind it, are at most one longer than the
text. -/
theorem length_numberedLines_le (source : List Char) :
    total (fun line => line.2.length + 1) (numberedLines source) ≤ source.length + 1 := by
  have hlines : (numberedLines source).map Prod.snd = (splitChar '\n' source).map trimEnd := by
    conv_rhs => rw [← List.zipIdx_map_fst 0 (splitChar '\n' source), List.map_map]
    rw [numberedLines, List.map_map]
    rfl
  have htotal (lines : List (Nat × List Char)) :
      total (fun line => line.2.length + 1) lines =
        totalLength (lines.map Prod.snd) + lines.length := by
    induction lines with
    | nil => rfl
    | cons line lines ih =>
      rw [total, ih, List.map_cons, totalLength_cons, List.length_cons]
      omega
  have hnumber : (numberedLines source).length = (splitChar '\n' source).length := by
    rw [numberedLines, List.length_map, List.length_zipIdx]
  have hsplit := totalLength_splitChar '\n' source
  have htrim := totalLength_map_le length_trimEnd_le (splitChar '\n' source)
  rw [htotal, hlines, hnumber]
  omega

/-- The declarations of a script are together no longer than the script. -/
theorem contentsLength_splitScript {source : String} {lines : List ScriptLine}
    (h : splitScript source = .ok lines) : contentsLength lines ≤ source.length := by
  have hlines := foldlM_ok_cost
    (P := fun n lines => contentsLength lines + lines.length ≤ n) (n := 0)
    (fun line => line.2.length + 1) h (Nat.le_refl _)
    fun line _ n lines lines' hn h => contentsLength_readLine hn h
  have hsource := length_numberedLines_le source.toList
  cases lines with
  | nil => exact Nat.zero_le _
  | cons l ls =>
    rw [List.length_cons] at hlines
    rw [String.length_toList] at hsource
    omega

end Script

end StoryTape
