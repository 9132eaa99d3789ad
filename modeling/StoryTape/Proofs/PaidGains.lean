import StoryTape.Proofs.CompiledTapes
import StoryTape.Proofs.Playable
import StoryTape.Proofs.Rounds
import StoryTape.Proofs.RuleExpansion

/-!
# Gains that are paid

A rule line is refused when a concrete gain has the identifier of a concrete cost. What templates
turn into is not known then, so the same is asked again of every concrete rule that is tried: a gain
that cannot be taken while the cost holds its identifier is an error, and with it all actions are
lost. The two questions together leave the error to templates: it never comes from what is written
without them.
-/

namespace StoryTape

open Text Script

/-! ### The question asked of rule lines -/

/-- The tag is written in the set, and not as a template. -/
def WrittenPlainly (t : Tag) (s : TagSet) : Prop := t ∈ s.tags ∧ t.isTemplate = false

/-- No concrete gain of a rule line has the identifier of a concrete cost. -/
theorem Script.Declared.value_ne {r : Rule} (hr : Declared r) {g c : Tag}
    (hg : WrittenPlainly g r.gain) (hc : WrittenPlainly c r.cost) : c.value ≠ g.value := by
  obtain ⟨source, line, hline, rfl⟩ := hr
  have hnone := List.find?_eq_none.mp (parseRuleLine_eq_ok hline).1 g hg.1
  intro hvalue
  apply hnone
  simp only [hg.2, Bool.not_false, Bool.true_and, List.any_eq_true, Bool.and_eq_true,
    Bool.not_eq_true', beq_iff_eq]
  exact ⟨c, hc.1, hc.2, hvalue⟩

/-- In a set without templates no member is one. -/
theorem TagSet.isTemplate_of_mem {s : TagSet} (h : s.hasTemplate = false) {t : Tag}
    (ht : t ∈ s.tags) : t.isTemplate = false := by
  rw [hasTemplate, firstTemplate?, Option.isSome_eq_false_iff, Option.isNone_iff_eq_none,
    List.find?_eq_none] at h
  simpa using h t ht

/-! ### The question asked of concrete rules -/

namespace Rule

variable {r r' : Rule} {scene : String} {w : World} {e : ScriptError}

/-- The error of a concrete rule `r'` that the rule `r` stands for: a gain that cannot be taken has
the identifier of a cost, and not both of them are written in `r` as they are. -/
structure PaysForGain (r r' : Rule) (w : World) (e : ScriptError) : Prop where
  paid : ∃ g ∈ r'.gain.tags, ∃ c ∈ r'.cost.tags, takeInHand w.drag g = none ∧ c.value = g.value ∧
    e = { cause := .gainIsPaid g.raw r'.target.raw, phase := .rule } ∧
    ¬ (WrittenPlainly g r.gain ∧ WrittenPlainly c r.cost)
  template : r.cost.hasTemplate = true ∨ r.gain.hasTemplate = true

/-- When a concrete rule of a rule line cannot be tried, templates are to blame. -/
theorem paysForGain_of_accept_eq_error (hr : Declared r) (hstands : r.StandsFor w r')
    (h : r'.accept scene w = .error e) : PaysForGain r r' w e := by
  obtain ⟨g, hfirst, hpaid, rfl⟩ := takeGains_eq_error_iff.mp (accept_eq_error_iff.mp h).2
  have hg := List.mem_of_find?_eq_some hfirst
  have htaken : takeInHand w.drag g = none := by simpa using List.find?_some hfirst
  obtain ⟨c, hc, hvalue⟩ := TagSet.hasValue_eq_true_iff.mp hpaid
  refine ⟨⟨g, hg, c, hc, htaken, hvalue, rfl, fun ⟨hg, hc⟩ => hr.value_ne hg hc hvalue⟩, ?_⟩
  by_cases hcost : r.cost.hasTemplate = true
  · exact .inl hcost
  · by_cases hgain : r.gain.hasTemplate = true
    · exact .inr hgain
    · rw [Bool.not_eq_true] at hcost hgain
      rw [hstands.gain_eq hgain] at hg
      rw [hstands.cost_eq hcost] at hc
      exact absurd hvalue (hr.value_ne ⟨hg, TagSet.isTemplate_of_mem hgain hg⟩
        ⟨hc, TagSet.isTemplate_of_mem hcost hc⟩)

end Rule

/-- Actions are lost to the expansion of the rulebook or to a concrete rule that pays for a gain. -/
theorem exists_paysForGain_of_offeredActions {rules : List Rule} (hrules : ∀ r ∈ rules, Declared r)
    {scene : String} {w : World} {fault : ExpansionFault}
    (h : offeredActions scene w rules = .error fault) :
    expandRules rules w = .error fault ∨
      ∃ r ∈ rules, ∃ r' e, r.StandsFor w r' ∧ fault = .script e ∧ r.PaysForGain r' w e := by
  rcases bind_eq_error_iff.mp h with h | ⟨book, hbook, h⟩
  · exact .inl h
  · obtain ⟨r', hr', actions, h⟩ := exists_of_foldlM_error h
    obtain ⟨r, hr, hstands⟩ := exists_rule_of_mem_expandRules hbook hr'
    rcases bind_eq_error_iff.mp h with h | ⟨found, -, h⟩
    · cases haccept : r'.accept scene w with
      | ok found =>
        rw [haccept] at h
        cases h
      | error e =>
        rw [haccept] at h
        cases h
        exact .inr ⟨r, hr, r', e, hstands, rfl,
          Rule.paysForGain_of_accept_eq_error (hrules r hr) hstands haccept⟩
    · cases found <;> cases h

/-- **Only templates make a rule gain what it pays.** When a concrete rule made from a rule line
cannot be tried, it gains what it pays, and of the two tags at least one comes from a template. So
the actions of a playthrough of a compiled tape are lost to the expansion of its rules or to a rule
with a template in its cost or gain; where there is no such rule, all rules that can be expanded can
be tried. -/
theorem paid_gain_needs_template :
    (∀ r, Declared r → ∀ w book, expandRules [r] w = .ok book → ∀ r' ∈ book, ∀ scene e,
      r'.accept scene w = .error e → r.PaysForGain r' w e) ∧
    ∀ t, Compiled t → ∀ p, Playthrough.Reached t p →
      (∀ fault, p.actions = .error fault → expandRules t.rules p.world = .error fault ∨
        ∃ r ∈ t.rules, ∃ r' e, r.StandsFor p.world r' ∧ fault = .script e ∧
          r.PaysForGain r' p.world e) ∧
      ((∀ r ∈ t.rules, r.cost.hasTemplate = false ∧ r.gain.hasTemplate = false) →
        ∀ book, expandRules t.rules p.world = .ok book → ∃ actions, p.actions = .ok actions) := by
  constructor
  · intro r hr w book hbook r' hr' scene e haccept
    obtain ⟨r₀, hr₀, hstands⟩ := exists_rule_of_mem_expandRules hbook hr'
    obtain rfl := List.mem_singleton.mp hr₀
    exact Rule.paysForGain_of_accept_eq_error hr hstands haccept
  · intro t ht p hp
    have hfaults : ∀ fault, p.actions = .error fault → _ := fun fault h => by
      rw [Playthrough.actions, hp.tape_eq] at h
      exact exists_paysForGain_of_offeredActions ht.declared h
    refine ⟨hfaults, fun hconcrete book hbook => ?_⟩
    cases hactions : p.actions with
    | ok actions => exact ⟨actions, rfl⟩
    | error fault =>
      rcases hfaults fault hactions with hexpand | ⟨r, hr, -, -, -, -, -, htemplate⟩
      · rw [hbook] at hexpand
        cases hexpand
      · obtain ⟨hcost, hgain⟩ := hconcrete r hr
        rw [hcost, hgain] at htemplate
        cases htemplate <;> contradiction

/-! In the shop any amount of gold is to be paid for five. Whoever has five cannot do anything, not
even look around. -/

namespace Shop

def gold : Tag := ⟨"gold.5", ⟨.plain, "gold.5", none, .ofValue 5⟩, by decide, by rfl⟩
def anyGold : Tag := ⟨"gold.*", ⟨.plain, "gold.*", none, .unset⟩, by decide, by rfl⟩
def counter : Tag := ⟨"shop", ⟨.plain, "shop", none, .unset⟩, by decide, by rfl⟩
def atCounter : Tag := ⟨"?shop", ⟨.required, "shop", none, .unset⟩, by decide, by rfl⟩

/-- Any gold is paid for five pieces. -/
def bargain : Rule := { target := atCounter, cost := .singleton anyGold, gain := .singleton gold }
/-- A look around that costs nothing. -/
def look : Rule := { target := atCounter }

/-- A shop where the player holds as much gold as there is to gain. -/
def script : String :=
  "== SHOP [SHOP, shop] [DRAG, gold.5]\n++ \x7bgold.*\x7d-[?shop]->()\x7bgold.5\x7d\n" ++
    "++ ()-[?shop]->()"

/-- The tape of the shop. -/
def tape : Tape :=
  { label := "SHOP", world := ⟨[⟨"SHOP", .singleton counter⟩, ⟨"DRAG", .singleton gold⟩]⟩,
    rules := [bargain, look] }

/-- Where the tape starts. -/
def opening : Playthrough := { tape, current := { world := tape.world, scene := "SHOP" } }

/-- The bargain with the gold that there is. -/
def trade : Rule := { bargain with cost := .singleton gold }

/-- The gain is in hand already and has the identifier of the cost. -/
def complaint : ScriptError := { cause := .gainIsPaid "gold.5" "?shop", phase := .rule }

/-- The tape is compiled from the script. -/
theorem compiled : Compiled tape :=
  compiled_of_tapes script [tape] (by decide +kernel) List.mem_cons_self

/-- The tape starts at its opening. -/
theorem starts : Playthrough.start tape none = .ok opening := by rfl

/-- The opening is reached. -/
theorem reached : Playthrough.Reached tape opening := .start starts

/-- The cost stands for the gold in hand. -/
theorem costs : Rule.expandPerLocation bargain.cost tape.world = .ok [.singleton gold] := by
  have hcounter : (TagSet.singleton anyGold).expand (.singleton counter) = .ok [] :=
    TagSet.expand_of_resultWithin (n := 2) (by rfl)
  have hgold : (TagSet.singleton anyGold).expand (.singleton gold) = .ok [.singleton gold] :=
    TagSet.expand_of_resultWithin (n := 3) (by rfl)
  have htemplate : (TagSet.singleton anyGold).hasTemplate = true := by decide
  simp [Rule.expandPerLocation, bargain, htemplate, Rule.collect, tape, hcounter, hgold, Bind.bind,
    Except.bind, Pure.pure, Except.pure]

/-- The bargain stands for the trade alone. -/
theorem variants : bargain.variants tape.world = .ok [trade] := by
  have hcontext : Rule.expandPerLocation bargain.context tape.world = .ok [.empty] := by rfl
  have hpayload (pool : TagSet) : Rule.expandAgainst bargain.payload pool = .ok [.empty] := by rfl
  have hgain (pool : TagSet) : Rule.expandAgainst bargain.gain pool = .ok [.singleton gold] := by
    rfl
  have htargets : bargain.targets tape.world = .ok [atCounter] := by rfl
  simp only [Rule.variants, htargets, hcontext, costs, hpayload, hgain, Rule.collect, Bind.bind,
    Except.bind, Pure.pure, Except.pure, List.mapM_cons, List.mapM_nil]
  rfl

/-- Added to no rules, the bargain leaves the trade. -/
theorem bargain_added : bargain.addTo [] tape.world = .ok [trade] := by
  have htemplate : bargain.hasTemplate = true := by decide
  rw [Rule.addTo, if_pos htemplate, variants]
  rfl

/-- The bargain by itself expands to the trade. -/
theorem bargain_expanded : expandRules [bargain] tape.world = .ok [trade] := by
  rw [expandRules, List.foldlM_cons, bargain_added]
  rfl

/-- The rules of the tape expand to the trade and the look. -/
theorem rules_expanded : expandRules tape.rules tape.world = .ok [trade, look] := by
  rw [expandRules, tape, List.foldlM_cons, ← tape, bargain_added]
  rfl

/-- The trade fails with the complaint. -/
theorem trade_fails : trade.accept "SHOP" tape.world = .error complaint := by rfl

/-- At the opening no list of actions comes about. -/
theorem actions_fail : opening.actions = .error (.script complaint) := by
  have hrules := rules_expanded
  rw [Playthrough.actions, offeredActions]
  exact bind_eq_error_iff.mpr (.inr ⟨_, hrules, by rfl⟩)

end Shop

/-- The trade fails for the template among the costs; in the throne room, where no rule has one,
the actions are there. -/
theorem trade_pays_for_gain :
    Declared Shop.bargain ∧ expandRules [Shop.bargain] Shop.tape.world = .ok [Shop.trade] ∧
      Shop.trade.accept "SHOP" Shop.tape.world = .error Shop.complaint ∧
      Shop.bargain.PaysForGain Shop.trade Shop.tape.world Shop.complaint ∧
      Compiled Throne.tape ∧ Playthrough.Reached Throne.tape Throne.opening ∧
      expandRules Throne.tape.rules Throne.tape.world = .ok Throne.tape.rules ∧
      ∃ actions, Throne.opening.actions = .ok actions := by
  obtain ⟨hrules, htapes⟩ := paid_gain_needs_template
  have hdeclared : Declared Shop.bargain := Shop.compiled.declared _ List.mem_cons_self
  have htrade := hrules _ hdeclared _ _ Shop.bargain_expanded _ (List.mem_singleton_self _) _ _
    Shop.trade_fails
  have hreached : Playthrough.Reached Throne.tape Throne.opening := .start Throne.starts
  have hexpanded : expandRules Throne.tape.rules Throne.tape.world = .ok Throne.tape.rules := by rfl
  have hconcrete : ∀ r ∈ Throne.tape.rules,
      r.cost.hasTemplate = false ∧ r.gain.hasTemplate = false := by decide
  have hactions := (htapes _ Throne.compiled _ hreached).2 hconcrete _ hexpanded
  exact ⟨hdeclared, Shop.bargain_expanded, Shop.trade_fails, htrade, Throne.compiled, hreached,
    hexpanded, hactions⟩

/-- A rule line that is accepted stands for a rule that fails, and takes away the action that the
other rule of the tape would offer. -/
theorem bargain_takes_actions_away :
    Compiled Shop.tape ∧ Playthrough.Reached Shop.tape Shop.opening ∧ Declared Shop.bargain ∧
      expandRules [Shop.bargain] Shop.tape.world = .ok [Shop.trade] ∧
      Shop.trade.accept "SHOP" Shop.tape.world = .error Shop.complaint ∧
      Shop.opening.actions = .error (.script Shop.complaint) ∧
      offeredActions "SHOP" Shop.tape.world [Shop.look] =
        .ok ⟨[⟨"Poke the shop. ", none, [.assertTagIn "shop" "SHOP"]⟩]⟩ :=
  ⟨Shop.compiled, Shop.reached, Shop.compiled.declared _ List.mem_cons_self, Shop.bargain_expanded,
    Shop.trade_fails, Shop.actions_fail, by rfl⟩

end StoryTape
