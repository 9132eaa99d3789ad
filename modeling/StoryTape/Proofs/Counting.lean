import StoryTape.Proofs.Exchanges
import StoryTape.Proofs.LiteralTags
import StoryTape.Proofs.RuleExpansion

/-!
# Counting with templates

A rule pays whatever is counted under a stem and gains it moved by a step. In a world of literal
tags it stands for one concrete rule for each count in each place, and for no other: the gain is
moved from what the rule consumes, which is its target and the count it pays. Of these rules only
the one that pays the count in hand is accepted, and playing it exchanges that count for the next.
-/

namespace StoryTape

open Text

/-! ### Single tags -/

namespace TagSet

/-- A template alone stands for each of its concrete tags alone. -/
theorem expand_singleton {t : Tag} {pool : TagSet} {found : List Tag} (ht : t.isTemplate = true)
    (hexpand : t.expand pool.tags = .ok found) (hconcrete : ∀ e ∈ found, e.isTemplate = false) :
    (singleton t).expand pool = .ok (found.map singleton) := by
  have htemplates : (singleton t).templates = [t] := by simp [templates, singleton, ht]
  have hchoice : ∀ e, (singleton t).withChoice [e] = singleton e := fun e => by
    refine ext_mem fun t' => ?_
    simp only [mem_withChoice, singleton, List.mem_singleton]
    constructor
    · rintro (⟨rfl, hnot⟩ | heq)
      · rw [ht] at hnot
        cases hnot
      · exact heq
    · exact .inr
  have hone : ∀ t' ∈ (singleton t).templates, t'.expand pool.tags = .ok found := by
    simpa [htemplates] using hexpand
  have hall := (expand_eq_choices hone (fun _ _ => hconcrete)).1
  rw [hall, htemplates, List.map_eq_flatMap (f := singleton)]
  simp [choices, List.map_flatMap, hchoice]

/-- The one member that passes a test. -/
theorem filter_eq_singleton {s : TagSet} {test : Tag → Bool} {t : Tag} (ht : t ∈ s.tags)
    (h : ∀ t' ∈ s.tags, test t' = true ↔ t' = t) : s.tags.filter test = [t] := by
  refine congrArg tags (ext_mem (a := s.filter test) (b := singleton t) fun t' => ?_)
  simp only [filter, singleton, List.mem_filter, List.mem_singleton]
  constructor
  · rintro ⟨hmem, htest⟩
    exact (h t' hmem).mp htest
  · rintro rfl
    exact ⟨ht, (h t' ht).mpr rfl⟩

/-- A set of one tag has a template when the tag is one. -/
theorem hasTemplate_singleton (t : Tag) : (singleton t).hasTemplate = t.isTemplate := by
  cases h : t.isTemplate <;> simp [hasTemplate, firstTemplate?, singleton, h]

end TagSet

/-! ### The rules of a count -/

namespace Tag

/-- The tag with its level moved, as far as that can be read. -/
def counted (k : Int) (p : Tag) : Tag := (p.incremented k none .plain).toOption.getD p

/-- A literal tag with a level can be moved up, and stays free of templates. -/
theorem Literal.incremented_eq {p : Tag} (h : p.Literal) (hmeter : p.hasMeter = true) {k : Int}
    (hk : 0 ≤ k) : p.incremented k none .plain = .ok (p.counted k) ∧
      (p.counted k).isTemplate = false := by
  obtain ⟨r, hr, htemplate⟩ := h.exists_incremented hmeter hk
  have hcounted : p.counted k = r := by
    rw [counted, hr]
    rfl
  exact ⟨hcounted ▸ hr, hcounted ▸ htemplate⟩

end Tag

/-- Whether the tags of a world are literal. -/
def World.Literal (w : World) : Prop := ∀ l ∈ w.locations, ∀ p ∈ l.tags.tags, p.Literal

instance (w : World) : Decidable w.Literal :=
  inferInstanceAs (Decidable (∀ l ∈ w.locations, ∀ p ∈ l.tags.tags, p.Literal))

/-- The counts under a stem, place by place. -/
def World.counts (w : World) (stem : String) : List Tag :=
  (w.locations.flatMap fun l => l.tags.tags.filter (Tag.under stem)).filter Tag.hasMeter

namespace Rule

/-- The rule that pays one count and gains it moved. -/
def payingCount (target : Tag) (text : Option String) (k : Int) (p : Tag) : Rule :=
  exchange target p (p.counted k) text

/-- The tags of a rule that counts: a target apart from the stem, a cost that finds what is under
the stem, and a gain that moves what has a level by `k`. -/
structure Counts (stem : String) (k : Int) (target wild step : Tag) : Prop where
  target_concrete : target.isTemplate = false
  target_apart : target.under stem = false
  cost_template : wild.isTemplate = true
  cost_finds : ∀ {pool : List Tag}, (∀ p ∈ pool, p.Literal) →
    wild.expand pool = .ok (pool.filter (Tag.under stem))
  gain_template : step.isTemplate = true
  gain_moves : ∀ pool : List Tag, step.expand pool =
    (pool.filter fun p => p.under stem && p.hasMeter).mapM fun p =>
      (p.incremented k none .plain).toExpanded

namespace Counts

variable {stem : String} {k : Int} {target wild step : Tag} {w : World}

/-- What a rule that pays one tag consumes. -/
theorem mem_consumed {p t : Tag} :
    t ∈ (TagSet.union [.singleton target, .empty, .singleton p]).tags ↔ t = target ∨ t = p := by
  simp [TagSet.union, TagSet.mem_ofList, TagSet.singleton, TagSet.empty]

/-- Whatever has a level under the stem is moved. -/
theorem expand_gain (h : Counts stem k target wild step) (hk : 0 ≤ k) {pool : List Tag}
    (hpool : ∀ p ∈ pool, p.under stem = true → p.Literal) :
    step.expand pool =
      .ok ((pool.filter fun p => p.under stem && p.hasMeter).map (Tag.counted k)) := by
  rw [h.gain_moves]
  refine mapM_eq_ok fun p hp => ?_
  obtain ⟨hmem, hcounts⟩ := List.mem_filter.mp hp
  obtain ⟨hunder, hmeter⟩ := Bool.and_eq_true_iff.mp hcounts
  rw [((hpool p hmem hunder).incremented_eq hmeter hk).1, Checked.toExpanded, Except.mapError]

/-- Of what is consumed, only what is paid can be moved. -/
theorem filter_consumed (h : Counts stem k target wild step) {p : Tag}
    (hunder : p.under stem = true) :
    (TagSet.union [.singleton target, .empty, .singleton p]).tags.filter
        (fun t => t.under stem && t.hasMeter) = if p.hasMeter then [p] else [] := by
  have htarget := h.target_apart
  split
  · next hmeter =>
    refine TagSet.filter_eq_singleton (mem_consumed.mpr (.inr rfl)) fun t ht => ?_
    rcases mem_consumed.mp ht with rfl | rfl
    · refine iff_of_false (by simp [htarget]) ?_
      rintro rfl
      exact Bool.false_ne_true (htarget.symm.trans hunder)
    · simp [hunder, hmeter]
  · next hmeter =>
    refine List.filter_eq_nil_iff.mpr fun t ht => ?_
    rcases mem_consumed.mp ht with rfl | rfl
    · simp [htarget]
    · simp [hmeter]

/-- A gain is moved from a count that is paid, and from nothing else. -/
theorem expandAgainst_gain (h : Counts stem k target wild step) (hk : 0 ≤ k) {p : Tag}
    (hp : p.Literal) (hunder : p.under stem = true) :
    expandAgainst (.singleton step) (.union [.singleton target, .empty, .singleton p]) =
      .ok (if p.hasMeter then [.singleton (p.counted k)] else []) := by
  have hliteral : ∀ t ∈ (TagSet.union [.singleton target, .empty, .singleton p]).tags,
      t.under stem = true → t.Literal := by
    intro t ht hunder'
    rcases mem_consumed.mp ht with rfl | rfl
    · exact absurd (h.target_apart.symm.trans hunder') Bool.false_ne_true
    · exact hp
  have hexpand := h.expand_gain hk hliteral
  rw [h.filter_consumed hunder] at hexpand
  rw [expandAgainst, TagSet.hasTemplate_singleton, if_pos h.gain_template]
  by_cases hmeter : p.hasMeter = true
  · rw [if_pos hmeter, List.map_singleton] at hexpand
    rw [TagSet.expand_singleton h.gain_template hexpand
      (by simpa using (hp.incremented_eq hmeter hk).2), if_pos hmeter, List.map_singleton]
  · rw [if_neg hmeter, List.map_nil] at hexpand
    rw [TagSet.expand_singleton h.gain_template hexpand (List.forall_mem_nil _), if_neg hmeter,
      List.map_nil]

/-- The cost stands for everything under the stem, place by place. -/
theorem expandPerLocation_cost (h : Counts stem k target wild step) (hw : w.Literal) :
    expandPerLocation (.singleton wild) w =
      .ok ((w.locations.flatMap fun l => l.tags.tags.filter (Tag.under stem)).map .singleton) := by
  rw [expandPerLocation, TagSet.hasTemplate_singleton, if_pos h.cost_template, List.map_flatMap]
  refine collect_eq_ok fun l hl => ?_
  exact TagSet.expand_singleton h.cost_template (h.cost_finds (hw l hl)) fun p hp =>
    (hw l hl p (List.mem_filter.mp hp).1).not_isTemplate

/-- The rule stands for one rule for each count. -/
theorem variants_eq (h : Counts stem k target wild step) (hk : 0 ≤ k) (hw : w.Literal)
    (text : Option String) :
    variants (exchange target wild step text) w =
      .ok ((w.counts stem).map (payingCount target text k)) := by
  have htargets : targets (exchange target wild step text) w = .ok [target] := by
    simp [targets, exchange, h.target_concrete]
  refine bind_eq_ok_iff.mpr ⟨[target], htargets, ?_⟩
  rw [collect_singleton]
  refine bind_eq_ok_iff.mpr ⟨[.empty], expandPerLocation_of_concrete rfl w, ?_⟩
  rw [collect_singleton]
  refine bind_eq_ok_iff.mpr ⟨_, h.expandPerLocation_cost hw, ?_⟩
  have hblock : ∀ p ∈ w.locations.flatMap fun l => l.tags.tags.filter (Tag.under stem),
      p.Literal ∧ p.under stem = true := fun p hp => by
    obtain ⟨l, hl, hmem⟩ := List.mem_flatMap.mp hp
    exact ⟨hw l hl p (List.mem_filter.mp hmem).1, (List.mem_filter.mp hmem).2⟩
  rw [World.counts, collect_map]
  generalize (w.locations.flatMap fun l => l.tags.tags.filter (Tag.under stem)) = paid at hblock ⊢
  have hpays : ∀ p ∈ paid, _ := fun p hp => h.expandAgainst_gain hk (hblock p hp).1 (hblock p hp).2
  refine (collect_eq_ok (g := fun p => if p.hasMeter then [payingCount target text k p] else [])
    fun p hp => ?_).trans ?_
  · refine bind_eq_ok_iff.mpr ⟨[.empty], expandAgainst_of_concrete rfl _, ?_⟩
    rw [collect_singleton]
    refine bind_eq_ok_iff.mpr ⟨_, hpays p hp, ?_⟩
    rw [pure_eq_ok_iff]
    split <;> rfl
  · rw [← List.filterMap_eq_map, List.filterMap_filter, List.filterMap_eq_flatMap_toList]
    refine congrArg Except.ok (List.flatMap_congr fun p _ => ?_)
    split <;> rfl

end Counts

end Rule

/-! ### A count in hand -/

/-- A count in hand: a world of literal tags under distinct names, a scene that holds an identifier
apart from the stem, and one tag in hand under the stem, which has the level. -/
structure CountInHand (w : World) (scene found stem : String) (n : Int) : Prop where
  letters : OfLetters stem
  distinct : w.Distinct
  literal : w.Literal
  elsewhere : isDrag scene = false
  met : ∃ here, w.location? scene = some here ∧ here.tags.hasValue found = true
  apart : startsWithFold found.toList (dotted stem) = false
  held : ∃ drag, w.drag? = some drag ∧ drag.hasRaw (levelText stem n) = true ∧
    ∀ t ∈ drag.tags, t.under stem = true → t.raw = levelText stem n

/-- The rule that asks for an identifier, costs what is under a stem and gains it moved by `k` offers
one action in the scene, which puts the level moved by `k` in the place of the one in hand and keeps
every scene as it is. -/
def CountsUp (w : World) (scene found stem : String) (n k : Int) : Prop :=
  ∃ target wild step old new,
    Tag.parse ("?" ++ found) = .ok target ∧
    Tag.parse (stem ++ ".*") = .ok wild ∧
    Tag.parse (stepText stem k) = .ok step ∧
    Tag.parse (levelText stem n) = .ok old ∧
    Tag.parse (levelText stem (n + k)) = .ok new ∧
    ∀ text, ∃ action w' drag,
      offeredActions scene w [Rule.exchange target wild step text] = .ok ⟨[action]⟩ ∧
      w.apply action.operations = .ok w' ∧ w'.Distinct ∧ w'.scenes = w.scenes ∧
      w.drag? = some drag ∧ w'.drag? = some (drag.replace old new)

namespace CountInHand

variable {w : World} {scene found stem : String} {n k : Int} {target wild step old new t : Tag}

/-- What is in hand under the stem is the count. -/
theorem eq_of_held (h : CountInHand w scene found stem n) (hold : old.IsLevel stem n)
    (ht : t ∈ w.drag.tags) (hunder : t.under stem = true) : t = old := by
  obtain ⟨drag, hdrag, -, honly⟩ := h.held
  rw [World.drag, hdrag] at ht
  exact Tag.ext_raw ((honly t ht hunder).trans hold.raw_eq.symm)

/-- The count is in hand. -/
theorem mem_drag (h : CountInHand w scene found stem n) (hold : old.IsLevel stem n) :
    old ∈ w.drag.tags := by
  obtain ⟨drag, hdrag, hraw, -⟩ := h.held
  obtain ⟨t, ht, hraw⟩ := TagSet.hasRaw_eq_true_iff.mp hraw
  obtain rfl : t = old := Tag.ext_raw (hraw.trans hold.raw_eq.symm)
  rwa [World.drag, hdrag]

/-- Where a count is in hand there is a place for what is in hand. -/
theorem exists_drag (h : CountInHand w scene found stem n) :
    ∃ l ∈ w.locations, w.drag? = some l.tags ∧ w.drag = l.tags := by
  obtain ⟨drag, hdrag, -⟩ := h.held
  obtain ⟨l, hl, rfl⟩ := Option.map_eq_some_iff.mp hdrag
  exact ⟨l, (World.mem_of_location? hl).1, hdrag, by rw [World.drag, hdrag]; rfl⟩

/-- The count is one of the counts of the world. -/
theorem mem_counts (h : CountInHand w scene found stem n) (hold : old.IsLevel stem n)
    (hmeter : old.hasMeter = true) : old ∈ w.counts stem := by
  obtain ⟨l, hl, -, hdrag⟩ := h.exists_drag
  refine List.mem_filter.mpr ⟨List.mem_flatMap.mpr ⟨l, hl, ?_⟩, hmeter⟩
  exact List.mem_filter.mpr ⟨hdrag ▸ h.mem_drag hold, hold.under_stem⟩

/-- Of all counts, only the one in hand can be paid. -/
theorem not_held (h : CountInHand w scene found stem n) (hold : old.IsLevel stem n)
    (ht : t ∈ w.counts stem) (hother : t ≠ old) :
    t.mode = .plain ∧ w.drag.hasValue t.value = false := by
  obtain ⟨l, hl, hmem⟩ := List.mem_flatMap.mp (List.mem_filter.mp ht).1
  obtain ⟨hin, hunder⟩ := List.mem_filter.mp hmem
  have hliteral := h.literal l hl t hin
  refine ⟨hliteral.mode_eq, eq_false_of_ne_true fun hheld => hother ?_⟩
  obtain ⟨t', ht', hvalue⟩ := TagSet.hasValue_eq_true_iff.mp hheld
  have hunder' : t'.under stem = true := by rwa [Tag.under, hvalue]
  obtain ⟨d, hd, -, hdrag⟩ := h.exists_drag
  have hliteral' := h.literal d hd t' (hdrag ▸ ht')
  rw [← h.eq_of_held hold ht' hunder']
  exact hliteral.eq_of_value hliteral' hvalue.symm

/-- Another level is not in hand. -/
theorem not_held_level (h : CountInHand w scene found stem n) (hold : old.IsLevel stem n)
    {n' : Int} (hnew : new.IsLevel stem n') (hother : n ≠ n') :
    w.drag.hasValue new.value = false := by
  refine eq_false_of_ne_true fun hheld => hother ?_
  obtain ⟨t, ht, hvalue⟩ := TagSet.hasValue_eq_true_iff.mp hheld
  have hunder : t.under stem = true := by
    rw [Tag.under, hvalue]
    exact hnew.under_stem
  rw [h.eq_of_held hold ht hunder] at hvalue
  exact hold.level_eq hnew hvalue

/-- The rule that counts up offers the exchange of the count in hand and nothing else. -/
theorem offeredActions_eq (h : CountInHand w scene found stem n)
    (hcounts : Rule.Counts stem k target wild step) (hk : 0 < k) (hstays : target.mode = .required)
    (hleads : target.location = none) {here : Location} (hhere : w.location? scene = some here)
    (hmet : here.tags.hasValue target.value = true) (hold : old.IsLevel stem n)
    (hmeter : old.hasMeter = true) (hnew : new.IsLevel stem (n + k))
    (hmoved : old.counted k = new) (text : Option String) :
    offeredActions scene w [Rule.exchange target wild step text] =
      .ok ⟨[⟨(Rule.exchange target old new text).description, text,
        Rule.exchangeOperations here.name target old new⟩]⟩ := by
  have htemplate : (Rule.exchange target wild step text).hasTemplate = true := by
    simp [Rule.hasTemplate, Rule.exchange, TagSet.hasTemplate_singleton, hcounts.cost_template]
  have hbook := expandRules_singleton htemplate (hcounts.variants_eq hk.le h.literal text)
  have htext : ∀ r ∈ (w.counts stem).map (Rule.payingCount target text k), r.text = text := by
    simp [Rule.payingCount, Rule.exchange]
  obtain ⟨hnodup, hkept⟩ :=
    Rule.foldl_addDistinct_spec List.nodup_nil (List.forall_mem_nil _) htext
  have hpays : Rule.payingCount target text k old = Rule.exchange target old new text := by
    rw [Rule.payingCount, hmoved]
  have hin : Rule.exchange target old new text ∈
      ((w.counts stem).map (Rule.payingCount target text k)).foldl Rule.addDistinct [] :=
    (hkept _).mpr (.inr (List.mem_map.mpr ⟨old, h.mem_counts hold hmeter, hpays⟩))
  have hheld : w.drag.hasValue old.value = true :=
    TagSet.hasValue_eq_true_iff.mpr ⟨old, h.mem_drag hold, rfl⟩
  have haccepted := Rule.exchange_accepted text hhere hmet hstays hleads hold.plain hheld
    hnew.plain (h.not_held_level hold hnew (by omega))
  refine offeredActions_eq_singleton hbook hnodup hin haccepted fun r hr hother => ?_
  obtain ⟨t, ht, rfl⟩ := List.mem_map.mp (((hkept r).mp hr).resolve_left List.not_mem_nil)
  have hne : t ≠ old := by
    rintro rfl
    exact hother hpays
  obtain ⟨hplain, hnot⟩ := h.not_held hold ht hne
  exact Rule.exchange_refused hplain hnot

/-- A count in hand can be counted up by every step that a tag can hold. -/
theorem countsUp (h : CountInHand w scene found stem n) (hlow : minLevel < n) (hk : 0 < k)
    (hhigh : n + k < maxLevel) (hstep : k ≤ maxLevel) : CountsUp w scene found stem n k := by
  have hbelow : n < maxLevel := by omega
  have hlow' : minLevel ≤ n + k := by omega
  obtain ⟨here, hhere, hfound⟩ := h.met
  obtain ⟨p, hp, rfl⟩ := TagSet.hasValue_eq_true_iff.mp hfound
  have hliteral := h.literal here (World.mem_of_location? hhere).1 p hp
  obtain ⟨target, htarget, hstays, hvalue, hleads, hconcrete⟩ := hliteral.exists_required
  obtain ⟨wild, hwild, hwildTemplate, hfinds⟩ := Tag.exists_anyLevel h.letters
  obtain ⟨step, hstep, hstepTemplate, hmoves⟩ := Tag.exists_step h.letters hk hstep
  have hcounts : Rule.Counts stem k target wild step := {
    target_concrete := hconcrete
    target_apart := by rw [Tag.under, hvalue]; exact h.apart
    cost_template := hwildTemplate
    cost_finds := hfinds
    gain_template := hstepTemplate
    gain_moves := hmoves }
  obtain ⟨old, hold, hlevel⟩ := Tag.exists_level h.letters hlow.le hbelow.le
  obtain ⟨new, hnew, hlevel'⟩ := Tag.exists_level h.letters hlow' hhigh.le
  have hmoved : old.counted k = new := by
    rw [Tag.counted, hlevel.incremented_eq hlevel' hlow' hhigh.le]
    rfl
  have hmet := (congrArg here.tags.hasValue hvalue).trans hfound
  obtain ⟨drag, hdrag, -⟩ := h.held
  have hvalueRaw : old.raw = old.value := hlevel.raw_eq.trans hlevel.value_eq.symm
  obtain ⟨w', happly, hdistinct, hscenes, hreplaced⟩ := Rule.apply_exchangeOperations
    h.distinct hdrag hvalueRaw hlevel'.parse_value here.name target
  refine ⟨target, wild, step, old, new, htarget, hwild, hstep, hold, hnew, fun text => ?_⟩
  have hoffered := h.offeredActions_eq hcounts hk hstays hleads hhere hmet hlevel
    (hlevel.hasMeter hlow hbelow) hlevel' hmoved text
  exact ⟨_, w', drag, hoffered, happly, hdistinct, hscenes, hdrag, hreplaced⟩

/-- A count in hand can be counted up exactly when a tag can hold the step. -/
theorem countsUp_iff (h : CountInHand w scene found stem n) (hlow : minLevel < n) (hk : 0 < k)
    (hhigh : n + k < maxLevel) : CountsUp w scene found stem n k ↔ k ≤ maxLevel := by
  constructor
  · rintro ⟨-, -, step, -, -, -, -, hstep, -⟩
    exact Tag.step_le_maxLevel h.letters hk hstep
  · exact h.countsUp hlow hk hhigh

end CountInHand

/-! ### At the bank

A debt of two gold is in hand. The vault has gold of its own, some of it not counted. -/

namespace Bank

def teller : Tag := ⟨"teller", ⟨.plain, "teller", none, .unset⟩, by decide, by rfl⟩
def debt : Tag := ⟨"gold.-2", ⟨.plain, "gold.-2", none, .ofValue (-2)⟩, by decide, by rfl⟩
def knife : Tag := ⟨"knife", ⟨.plain, "knife", none, .unset⟩, by decide, by rfl⟩
def stock : Tag := ⟨"Gold.100", ⟨.plain, "Gold.100", none, .ofValue 100⟩, by decide, by rfl⟩
def dust : Tag := ⟨"gold.dust", ⟨.plain, "gold.dust", none, .unset⟩, by decide, by rfl⟩

/-- A bank with a stock of its own, and a debt in hand. -/
def world : World :=
  ⟨[⟨"DRAG", .ofList [debt, knife]⟩, ⟨"BANK", .singleton teller⟩, ⟨"VAULT", .ofList [stock, dust]⟩]⟩

/-- The debt is the only gold in hand. -/
theorem debt_in_hand : CountInHand world "bank" "teller" "gold" (-2) where
  letters := by decide +kernel
  distinct := by decide
  literal := by decide +kernel
  elsewhere := by decide
  met := ⟨⟨"BANK", .singleton teller⟩, by rfl, by decide⟩
  apart := by decide
  held := ⟨.ofList [debt, knife], by rfl, by decide, by decide⟩

/-- Five gold more than a debt of two are three. -/
theorem debt_paid_off : CountInHand world "bank" "teller" "gold" (-2) ∧ minLevel < -2 ∧
    (0 : Int) < 5 ∧ -2 + 5 < maxLevel ∧ CountsUp world "bank" "teller" "gold" (-2) 5 :=
  ⟨debt_in_hand, by decide, by decide, by decide,
    (debt_in_hand.countsUp_iff (by decide) (by decide) (by decide)).mpr (by decide)⟩

/-- No tag holds the step to the greatest fortune. -/
theorem no_greatest_fortune : CountInHand world "bank" "teller" "gold" (-2) ∧ minLevel < -2 ∧
    (0 : Int) < 32768 ∧ -2 + 32768 < maxLevel ∧
    ¬ CountsUp world "bank" "teller" "gold" (-2) 32768 := by
  refine ⟨debt_in_hand, by decide, by decide, by decide, ?_⟩
  rintro ⟨-, -, step, -, -, -, -, hstep, -⟩
  exact absurd (Tag.step_le_maxLevel debt_in_hand.letters (by decide) hstep) (by decide)

end Bank

end StoryTape
