import StoryTape.Proofs.WrittenGroups

/-!
# Heads of rules as they are written

The head of a rule that was read off a line is read as the same rule again, but for its text, which
a head does not carry. Only an empty cost is always read as one paid in hand, so the head of a rule
that drops nothing from the scene loses that mark.
-/

namespace StoryTape

/-! ### Heads group by group -/

namespace Rule

/-- The context of a head, or nothing where the cost shows that there is none. -/
def frontText (r : Rule) : String :=
  if r.context.isEmpty && r.drag && !r.cost.isEmpty then "" else inParens r.context

/-- The cost of a head without what stands in front of it. -/
def payText (r : Rule) : String :=
  if r.cost.isEmpty then "-"
  else if r.drag then inBraces r.cost ++ "-" else "-" ++ inBraces r.cost

/-- The payload of a head, or nothing where the gain shows that there is none. -/
def payloadText (r : Rule) : String :=
  if r.payload.isEmpty && !r.gain.isEmpty then "" else inParens r.payload

/-- The gain of a head. -/
def gainText (r : Rule) : String := if r.gain.isEmpty then "" else inBraces r.gain

/-- The parentheses of an empty set are empty. -/
theorem inParens_of_isEmpty {s : TagSet} (h : s.isEmpty = true) : inParens s = "()" := by
  obtain rfl : s = .empty := TagSet.ext_tags (List.isEmpty_iff.mp h)
  rfl

/-- A head is written group by group. -/
theorem head_eq (r : Rule) :
    r.head = r.frontText ++ r.payText ++ "[" ++ r.target.raw ++ "]->" ++
      (r.payloadText ++ r.gainText) := by
  have hfront : r.contextText ++ r.costText = r.frontText ++ r.payText := by
    rw [contextText, costText, frontText, payText]
    cases hcontext : r.context.isEmpty <;> cases r.drag <;> cases r.cost.isEmpty <;>
      simp [hcontext, inParens_of_isEmpty]
  have hback : r.outcomeText = r.payloadText ++ r.gainText := by
    rw [outcomeText, payloadText, gainText]
    cases hpayload : r.payload.isEmpty <;> cases r.gain.isEmpty <;>
      simp [hpayload, inParens_of_isEmpty]
  rw [head, hfront, hback]

end Rule

namespace Script

open Text

/-- A rule whose tags have the texts of tokens. -/
structure RuleOfTokens (r : Rule) : Prop where
  target : IsToken r.target.raw.toList
  context : OfTokens r.context
  cost : OfTokens r.cost
  payload : OfTokens r.payload
  gain : OfTokens r.gain

/-! ### Reading a head -/

section Reading

variable {s : TagSet} {r : Rule}

/-- A set between parentheses is read back. -/
theorem readParens_inParens (h : OfTokens s) (rest : List Char) :
    readParens ((Rule.inParens s).toList ++ rest) = some (s.raws.map String.toList, rest) := by
  have htext : (Rule.inParens s).toList ++ rest = '(' :: (s.render.toList ++ ')' :: rest) := by
    simp [Rule.inParens]
  rw [htext]
  exact readGroup_render h rfl (by decide) rest

/-- A set between braces is read back. -/
theorem readBraces_inBraces (h : OfTokens s) (rest : List Char) :
    readBraces ((Rule.inBraces s).toList ++ rest) = some (s.raws.map String.toList, rest) := by
  have htext : (Rule.inBraces s).toList ++ rest =
      '\x7b' :: (s.render.toList ++ '\x7d' :: rest) := by
    simp [Rule.inBraces]
  rw [htext]
  exact readGroup_render h rfl (by decide) rest

/-- An empty set has no texts. -/
theorem raws_of_isEmpty (h : s.isEmpty = true) : s.raws.map String.toList = [] := by
  obtain rfl : s = .empty := TagSet.ext_tags (List.isEmpty_iff.mp h)
  rfl

/-- The context is read in front of the cost, also where it is not written. -/
theorem readOptional_frontText (h : OfTokens r.context) (rest : List Char) :
    readOptional readParens (r.frontText.toList ++ (r.payText.toList ++ rest)) =
      (r.context.raws.map String.toList, r.payText.toList ++ rest) := by
  rw [Rule.frontText]
  split
  · next hnone =>
    simp only [Bool.and_eq_true, Bool.not_eq_true'] at hnone
    obtain ⟨⟨hcontext, hdrag⟩, hcost⟩ := hnone
    have hpay : r.payText.toList ++ rest =
        '\x7b' :: (r.cost.render.toList ++ ('\x7d' :: '-' :: rest)) := by
      simp [Rule.payText, hdrag, hcost, Rule.inBraces]
    have hread : readParens (r.payText.toList ++ rest) = none := by
      rw [hpay]
      exact readGroup_of_ne rfl (by decide) _
    rw [String.toList_empty, List.nil_append, readOptional, hread, raws_of_isEmpty hcontext]
    rfl
  · rw [readOptional, readParens_inParens h]
    rfl

/-- An empty cost is read as one paid in hand. -/
theorem readCost_payText (h : OfTokens r.cost) (rest : List Char) :
    readCost (r.payText.toList ++ '[' :: rest) =
      some (r.cost.raws.map String.toList, r.drag || r.cost.isEmpty, '[' :: rest) := by
  have hminus (s : List Char) : readBraces ('-' :: s) = none := readGroup_of_ne rfl (by decide) s
  have hbracket : readBraces ('[' :: rest) = none := readGroup_of_ne rfl (by decide) rest
  have hskip (s : List Char) : skipGap ('-' :: s) = '-' :: s := skipGap_cons rfl s
  rw [Rule.payText]
  cases hcost : r.cost.isEmpty with
  | true =>
    have htext : "-".toList ++ '[' :: rest = '-' :: '[' :: rest := rfl
    rw [if_pos rfl, htext, readCost, hminus]
    simp only [hskip, hbracket, raws_of_isEmpty hcost, Bool.or_true]
  | false =>
    rw [if_neg Bool.false_ne_true]
    cases r.drag with
    | true =>
      have htext : (Rule.inBraces r.cost ++ "-").toList ++ '[' :: rest =
          (Rule.inBraces r.cost).toList ++ '-' :: '[' :: rest := by simp
      rw [if_pos rfl, htext, readCost, readBraces_inBraces h]
      simp only [hskip, Bool.true_or]
    | false =>
      have htext : ("-" ++ Rule.inBraces r.cost).toList ++ '[' :: rest =
          '-' :: ((Rule.inBraces r.cost).toList ++ '[' :: rest) := by simp
      rw [if_neg Bool.false_ne_true, htext, readCost, hminus]
      simp only [hskip, readBraces_inBraces h, Bool.or_false]

/-- A target between brackets is read back, with the arrow behind it. -/
theorem readTarget_append {token : List Char} (h : IsToken token) (rest : List Char) :
    readTarget ('[' :: (token ++ ']' :: '-' :: '>' :: rest)) = some (token, rest) := by
  have hopen (s : List Char) : skipGap ('[' :: s) = '[' :: s := skipGap_cons rfl s
  have hclose (s : List Char) : skipGap (']' :: s) = ']' :: s := skipGap_cons rfl s
  have harrow : skipGap ('-' :: '>' :: rest) = '-' :: '>' :: rest := skipGap_cons rfl _
  have hstops : Stops (']' :: '-' :: '>' :: rest) := stops_cons (by decide) _
  simp [readTarget, hopen, hclose, harrow, h.skipGap_append, h.readToken_append hstops]

/-- Payload and gain are read to the end of a head. -/
theorem readOptional_outcome (hpayload : OfTokens r.payload) (hgain : OfTokens r.gain) :
    readOptional readParens (r.payloadText.toList ++ r.gainText.toList) =
        (r.payload.raws.map String.toList, r.gainText.toList) ∧
      readOptional readBraces r.gainText.toList = (r.gain.raws.map String.toList, []) := by
  constructor
  · rw [Rule.payloadText]
    split
    · next hnone =>
      simp only [Bool.and_eq_true, Bool.not_eq_true'] at hnone
      have hbrace : r.gainText.toList = '\x7b' :: (r.gain.render.toList ++ ['\x7d']) := by
        simp [Rule.gainText, hnone.2, Rule.inBraces]
      have hread : readParens r.gainText.toList = none := by
        rw [hbrace]
        exact readGroup_of_ne rfl (by decide) _
      rw [String.toList_empty, List.nil_append, readOptional, hread, raws_of_isEmpty hnone.1]
      rfl
    · rw [readOptional, readParens_inParens hpayload]
      rfl
  · rw [Rule.gainText]
    split
    · next hnone =>
      rw [raws_of_isEmpty hnone]
      rfl
    · have hread := readBraces_inBraces hgain []
      rw [List.append_nil] at hread
      rw [readOptional, hread]
      rfl

/-- The shape of a head: the texts of its tags, and no text of its own. -/
theorem readRuleShape_head (h : RuleOfTokens r) :
    readRuleShape r.head.toList = some
      { context := r.context.raws.map String.toList, cost := r.cost.raws.map String.toList
        drag := r.drag || r.cost.isEmpty, target := r.target.raw.toList
        payload := r.payload.raws.map String.toList, gain := r.gain.raws.map String.toList
        text := none } := by
  obtain ⟨hpayload, hgain⟩ := readOptional_outcome h.payload h.gain
  have htext : r.head.toList = r.frontText.toList ++ (r.payText.toList ++ '[' ::
      (r.target.raw.toList ++ ']' :: '-' :: '>' ::
        (r.payloadText.toList ++ r.gainText.toList))) := by
    simp [Rule.head_eq]
  rw [htext, readRuleShape, readOptional_frontText h.context]
  simp only [readCost_payText h.cost, bind, Option.bind_some, readTarget_append h.target, hpayload,
    hgain]
  rfl

end Reading

/-! ### Rules of rule lines -/

/-- What is read off a group that may be left out are tokens. -/
theorem isToken_of_mem_readOptional {opening closing : Char} {s token : List Char}
    (h : token ∈ (readOptional (readGroup opening closing) s).1) : IsToken token := by
  rw [readOptional] at h
  cases hread : readGroup opening closing s with
  | none =>
    rw [hread] at h
    cases h
  | some group =>
    rw [hread] at h
    exact isToken_of_mem_readGroup hread h

/-- What is read off a cost are tokens. -/
theorem isToken_of_mem_readCost {s rest token : List Char} {tokens : List (List Char)}
    {drag : Bool} (h : readCost s = some (tokens, drag, rest)) (htoken : token ∈ tokens) :
    IsToken token := by
  rw [readCost] at h
  split at h
  · next hread =>
    split at h
    · cases h
      exact isToken_of_mem_readGroup hread htoken
    · cases h
  · split at h
    · split at h
      · next hread =>
        cases h
        exact isToken_of_mem_readGroup hread htoken
      · cases h
        cases htoken
    · cases h

/-- What is read off a target is a token. -/
theorem isToken_of_readTarget {s token rest : List Char} (h : readTarget s = some (token, rest)) :
    IsToken token := by
  simp only [readTarget, bind, pure] at h
  split at h
  · obtain ⟨⟨token', s'⟩, htoken, h⟩ := Option.bind_eq_some_iff.mp h
    dsimp only at h
    split at h
    · split at h
      · cases h
        exact ⟨_, _, htoken⟩
      · cases h
    · cases h
  · cases h

/-- The tags of a rule line have the texts of tokens, and no concrete gain is paid. -/
theorem ofTokens_of_parseRuleLine {source : String} {line : RuleLine}
    (h : parseRuleLine source = .ok line) : RuleOfTokens line.rule := by
  rw [parseRuleLine] at h
  split at h
  · cases h
  · next shape hshape =>
    obtain ⟨context, hcontext, h⟩ := bind_eq_ok_iff.mp h
    obtain ⟨cost, hcost, h⟩ := bind_eq_ok_iff.mp h
    obtain ⟨target, htarget, h⟩ := bind_eq_ok_iff.mp h
    obtain ⟨payload, hpayload, h⟩ := bind_eq_ok_iff.mp h
    obtain ⟨gain, hgain, h⟩ := bind_eq_ok_iff.mp h
    dsimp only at h
    split at h
    · cases h
    · cases h
      simp only [readRuleShape, bind, Option.bind_eq_some_iff] at hshape
      obtain ⟨⟨tokens, drag, rest⟩, hreadCost, ⟨token, rest'⟩, hreadTarget, text, -, hshape⟩ :=
        hshape
      cases hshape
      refine ⟨?_, ?_, ?_, ?_, ?_⟩
      · have htoken := isToken_of_readTarget hreadTarget
        have hraw := Tag.raw_of_parse (mapError_eq_ok_iff.mp htarget)
        rw [hraw, String.toList_ofList, String.toList_ofList,
          trim_eq_self fun c hc => htoken.isBlank hc]
        exact htoken
      · exact ofTokens_of_setOfTokens (fun _ => isToken_of_mem_readOptional) hcontext
      · exact ofTokens_of_setOfTokens (fun _ => isToken_of_mem_readCost hreadCost) hcost
      · exact ofTokens_of_setOfTokens (fun _ => isToken_of_mem_readOptional) hpayload
      · exact ofTokens_of_setOfTokens (fun _ => isToken_of_mem_readOptional) hgain

/-- A head is read as the rule without its text, an empty cost as one paid in hand. -/
theorem parseRuleLine_of_ofTokens {r : Rule} (h : RuleOfTokens r)
    (hpaid : gainInCost? r.gain r.cost = none) :
    parseRuleLine r.head =
      .ok ⟨{ r with drag := r.drag || r.cost.isEmpty, text := none }, none⟩ := by
  have htarget : Tag.parse (String.ofList r.target.raw.toList) = .ok r.target := by
    rw [String.ofList_toList, Tag.parse_raw]
  rw [parseRuleLine, readRuleShape_head h]
  simp only [setOfTokens_raws, htarget, Checked.inPhase, Except.mapError, hpaid, bind, Except.bind]
  rfl

/-- **Heads are read back.** The head that a rule is written with, its opening sign apart, is read
as the same rule when its cost is paid in hand or there is one, and as the same rule with a cost
paid in hand when nothing is dropped from the scene. -/
theorem parseRuleLine_head {source : String} {line : RuleLine}
    (h : parseRuleLine source = .ok line) :
    ∃ head again, line.rule.render = "++ " ++ head ∧ parseRuleLine head = .ok again ∧
      (line.rule.drag = true ∨ line.rule.cost.isEmpty = false →
        again.rule.agrees line.rule = true) ∧
      (line.rule.drag = false → line.rule.cost.isEmpty = true →
        again.rule.agrees { line.rule with drag := true } = true) := by
  obtain ⟨hpaid, -⟩ := parseRuleLine_eq_ok h
  have hread := parseRuleLine_of_ofTokens (ofTokens_of_parseRuleLine h) hpaid
  refine ⟨line.rule.head, _, rfl, hread, fun hkept => ?_, fun _ hnone => ?_⟩
  · have hdrag : (line.rule.drag || line.rule.cost.isEmpty) = line.rule.drag := by
      rcases hkept with hkept | hkept <;> simp [hkept]
    simp [Rule.agrees, hdrag]
  · simp [Rule.agrees, hnone]

/-- Nothing is dropped at the door, and its head says nothing of that. -/
theorem door_head_read :
    ∃ line again, parseRuleLine "(!fog) -\x7b\x7d [?door]-> \x7blamp; key\x7d #IN In." = .ok line ∧
      line.rule.drag = false ∧ line.rule.cost.isEmpty = true ∧
      line.rule.render = "++ (!fog)-[?door]->\x7bkey;lamp\x7d" ∧
      parseRuleLine "(!fog)-[?door]->\x7bkey;lamp\x7d" = .ok again ∧
      again.rule.agrees { line.rule with drag := true } = true := by
  have hfacts :
      (parseRuleLine "(!fog) -\x7b\x7d [?door]-> \x7blamp; key\x7d #IN In.").toOption.map
        (fun line => (line.rule.drag, line.rule.cost.isEmpty, line.rule.render)) =
      some (false, true, "++ (!fog)-[?door]->\x7bkey;lamp\x7d") := by decide +kernel
  obtain ⟨line, hline, hsame⟩ := exists_ok_of_map hfacts
  simp only [Prod.mk.injEq] at hsame
  obtain ⟨hdrag, hcost, hrender⟩ := hsame
  obtain ⟨head, again, hhead, hagain, -, hdropped⟩ := parseRuleLine_head hline
  obtain rfl : "(!fog)-[?door]->\x7bkey;lamp\x7d" = head :=
    String.append_right_inj "++ " |>.mp (hrender.symm.trans hhead)
  exact ⟨line, again, hline, hdrag, hcost, hrender, hagain, hdropped hdrag hcost⟩

end Script

end StoryTape
