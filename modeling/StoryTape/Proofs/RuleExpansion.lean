import StoryTape.ActionList
import StoryTape.Proofs.Runs

/-!
# Where offered actions come from

A rulebook is expanded rule by rule into concrete rules, and each concrete rule that is accepted
becomes an action. Followed backwards, an action on offer leads to an accepted concrete rule, and
that to the rule that stands for it, whose text and way of paying it keeps, and whose sets too where
they hold no template. Followed forwards, rules with one text are kept in the rulebook once each, and
when only one of them is accepted, it is the only action on offer.
-/

namespace StoryTape

namespace Rule

/-- What is collected comes from one of the elements. -/
theorem exists_of_mem_collect {α β : Type} {xs : List α} {f : α → Expanded (List β)}
    {ys : List β} (h : collect xs f = .ok ys) {b : β} (hb : b ∈ ys) :
    ∃ a ∈ xs, ∃ bs, f a = .ok bs ∧ b ∈ bs := by
  rw [collect, bind_eq_ok_iff] at h
  obtain ⟨blocks, hblocks, hflat⟩ := h
  rw [pure_eq_ok_iff] at hflat
  rw [← hflat, List.mem_flatten] at hb
  obtain ⟨bs, hbs, hmem⟩ := hb
  obtain ⟨a, ha, hf⟩ := exists_of_mem_mapM_ok hblocks hbs
  exact ⟨a, ha, bs, hf, hmem⟩

/-- What is collected from elements that all give something is what they give, in order. -/
theorem collect_eq_ok {α β : Type} {xs : List α} {f : α → Expanded (List β)} {g : α → List β}
    (h : ∀ a ∈ xs, f a = .ok (g a)) : collect xs f = .ok (xs.flatMap g) := by
  rw [collect, mapM_eq_ok h, List.flatMap_def]
  rfl

/-- What is collected from one element is what it gives. -/
theorem collect_singleton {α β : Type} (a : α) (f : α → Expanded (List β)) :
    collect [a] f = f a := by
  rw [collect, List.mapM_cons, List.mapM_nil]
  cases f a with
  | error e => rfl
  | ok bs => exact congrArg Except.ok (List.append_nil bs)

/-- To collect from changed elements is to change each before it gives. -/
theorem collect_map {α β γ : Type} (xs : List γ) (g : γ → α) (f : α → Expanded (List β)) :
    collect (xs.map g) f = collect xs fun c => f (g c) := by
  rw [collect, collect, List.mapM_map]
  rfl

/-- What a concrete rule consumes: its target, context and cost. -/
def consumed (r : Rule) : TagSet := .union [.singleton r.target, r.context, r.cost]

/-- The other rule is one of the concrete rules that the rule stands for in the world. -/
structure StandsFor (r : Rule) (w : World) (r' : Rule) : Prop where
  target : ∃ tags, r.targets w = .ok tags ∧ r'.target ∈ tags
  context : ∃ sets, expandPerLocation r.context w = .ok sets ∧ r'.context ∈ sets
  cost : ∃ sets, expandPerLocation r.cost w = .ok sets ∧ r'.cost ∈ sets
  payload : ∃ sets, expandAgainst r.payload r'.consumed = .ok sets ∧ r'.payload ∈ sets
  gain : ∃ sets, expandAgainst r.gain r'.consumed = .ok sets ∧ r'.gain ∈ sets
  drag : r'.drag = r.drag
  text : r'.text = r.text

/-- A rule stands for each of its variants. -/
theorem standsFor_of_mem_variants {r r' : Rule} {w : World} {rs : List Rule}
    (h : r.variants w = .ok rs) (hr : r' ∈ rs) : r.StandsFor w r' := by
  obtain ⟨targets, htargets, h⟩ := bind_eq_ok_iff.mp h
  obtain ⟨target, htarget, rs, h, hr⟩ := exists_of_mem_collect h hr
  obtain ⟨contexts, hcontexts, h⟩ := bind_eq_ok_iff.mp h
  obtain ⟨context, hcontext, rs, h, hr⟩ := exists_of_mem_collect h hr
  obtain ⟨costs, hcosts, h⟩ := bind_eq_ok_iff.mp h
  obtain ⟨cost, hcost, rs, h, hr⟩ := exists_of_mem_collect h hr
  obtain ⟨payloads, hpayloads, h⟩ := bind_eq_ok_iff.mp h
  obtain ⟨payload, hpayload, rs, h, hr⟩ := exists_of_mem_collect h hr
  obtain ⟨gains, hgains, h⟩ := bind_eq_ok_iff.mp h
  rw [pure_eq_ok_iff] at h
  rw [← h, List.mem_map] at hr
  obtain ⟨gain, hgain, rfl⟩ := hr
  exact ⟨⟨targets, htargets, htarget⟩, ⟨contexts, hcontexts, hcontext⟩, ⟨costs, hcosts, hcost⟩,
    ⟨payloads, hpayloads, hpayload⟩, ⟨gains, hgains, hgain⟩, rfl, rfl⟩

/-- A set without templates stands for itself in every world. -/
theorem expandPerLocation_of_concrete {s : TagSet} (h : s.hasTemplate = false) (w : World) :
    expandPerLocation s w = .ok [s] := by
  simp [expandPerLocation, h]

/-- A set without templates stands for itself against every pool. -/
theorem expandAgainst_of_concrete {s : TagSet} (h : s.hasTemplate = false) (pool : TagSet) :
    expandAgainst s pool = .ok [s] := by
  simp [expandAgainst, h]

/-- A rule without template stands for itself. -/
theorem standsFor_self {r : Rule} (h : r.hasTemplate = false) (w : World) : r.StandsFor w r := by
  simp only [hasTemplate, Bool.or_eq_false_iff] at h
  obtain ⟨⟨⟨⟨htarget, hcontext⟩, hcost⟩, hpayload⟩, hgain⟩ := h
  exact ⟨⟨[r.target], by simp [targets, htarget], List.mem_singleton_self _⟩,
    ⟨_, expandPerLocation_of_concrete hcontext w, List.mem_singleton_self _⟩,
    ⟨_, expandPerLocation_of_concrete hcost w, List.mem_singleton_self _⟩,
    ⟨_, expandAgainst_of_concrete hpayload _, List.mem_singleton_self _⟩,
    ⟨_, expandAgainst_of_concrete hgain _, List.mem_singleton_self _⟩, rfl, rfl⟩

/-- A cost without template is kept. -/
theorem StandsFor.cost_eq {r r' : Rule} {w : World} (h : r.StandsFor w r')
    (hcost : r.cost.hasTemplate = false) : r'.cost = r.cost := by
  obtain ⟨sets, hsets, hmem⟩ := h.cost
  cases (expandPerLocation_of_concrete hcost w).symm.trans hsets
  exact List.mem_singleton.mp hmem

/-- A gain without template is kept. -/
theorem StandsFor.gain_eq {r r' : Rule} {w : World} (h : r.StandsFor w r')
    (hgain : r.gain.hasTemplate = false) : r'.gain = r.gain := by
  obtain ⟨sets, hsets, hmem⟩ := h.gain
  cases (expandAgainst_of_concrete hgain _).symm.trans hsets
  exact List.mem_singleton.mp hmem

/-- Adding a rule adds no other. -/
theorem mem_of_mem_addDistinct {book : List Rule} {r r' : Rule} (h : r' ∈ addDistinct book r) :
    r' ∈ book ∨ r' = r := by
  rw [addDistinct] at h
  split at h
  · exact .inl h
  · simpa using h

/-- Adding rules adds no others. -/
theorem mem_of_mem_foldl_addDistinct {book rs : List Rule} {r' : Rule}
    (h : r' ∈ rs.foldl addDistinct book) : r' ∈ book ∨ r' ∈ rs := by
  induction rs generalizing book with
  | nil => exact .inl h
  | cons r rs ih =>
    rcases ih h with h | h
    · rcases mem_of_mem_addDistinct h with h | rfl
      · exact .inl h
      · exact .inr List.mem_cons_self
    · exact .inr (List.mem_cons_of_mem r h)

/-- Rules that agree and have the same text are the same. -/
theorem eq_of_agrees {a b : Rule} (h : a.agrees b = true) (htext : a.text = b.text) : a = b := by
  have hrest : { a with text := none } = { b with text := none } := of_decide_eq_true h
  calc a = { { a with text := none } with text := a.text } := rfl
    _ = { { b with text := none } with text := b.text } := by rw [hrest, htext]
    _ = b := rfl

/-- Every rule agrees with itself. -/
theorem agrees_self (r : Rule) : r.agrees r = true := decide_eq_true rfl

/-- Next to rules with the same text a rule is new or there already. -/
theorem mem_addDistinct_iff {book : List Rule} {r : Rule} (htext : ∀ r' ∈ book, r'.text = r.text)
    {r' : Rule} : r' ∈ addDistinct book r ↔ r' ∈ book ∨ r' = r := by
  refine ⟨mem_of_mem_addDistinct, fun h => ?_⟩
  rw [addDistinct]
  split
  · next hold =>
    obtain ⟨r₀, hr₀, hagrees⟩ := List.any_eq_true.mp hold
    obtain rfl := eq_of_agrees hagrees (htext r₀ hr₀)
    rcases h with h | rfl
    · exact h
    · exact hr₀
  · simpa using h

/-- Adding a rule leaves no rule twice. -/
theorem nodup_addDistinct {book : List Rule} (h : book.Nodup) (r : Rule) :
    (addDistinct book r).Nodup := by
  rw [addDistinct]
  split
  · exact h
  · next hnew =>
    refine List.nodup_append.mpr ⟨h, List.pairwise_singleton _ r, ?_⟩
    rintro r' hr' r'' hr'' rfl
    obtain rfl := List.mem_singleton.mp hr''
    exact hnew (List.any_eq_true.mpr ⟨r', hr', r'.agrees_self⟩)

/-- Rules with one text are all kept, and each of them once. -/
theorem foldl_addDistinct_spec {text : Option String} {book rs : List Rule} (hbook : book.Nodup)
    (hold : ∀ r ∈ book, r.text = text) (hnew : ∀ r ∈ rs, r.text = text) :
    (rs.foldl addDistinct book).Nodup ∧
      ∀ r, r ∈ rs.foldl addDistinct book ↔ r ∈ book ∨ r ∈ rs := by
  induction rs generalizing book with
  | nil => simp [hbook]
  | cons r rs ih =>
    obtain ⟨hr, hrest⟩ := List.forall_mem_cons.mp hnew
    have hmem (r' : Rule) : r' ∈ addDistinct book r ↔ r' ∈ book ∨ r' = r :=
      mem_addDistinct_iff fun r₀ hr₀ => (hold r₀ hr₀).trans hr.symm
    have hadded : ∀ r' ∈ addDistinct book r, r'.text = text := fun r' hr' => by
      rcases (hmem r').mp hr' with h | rfl
      · exact hold r' h
      · exact hr
    obtain ⟨hnodup, hkept⟩ := ih (nodup_addDistinct hbook r) hadded hrest
    refine ⟨hnodup, fun r' => ?_⟩
    rw [List.foldl_cons, hkept, hmem, List.mem_cons, or_assoc]

/-- Adding a rule to a rulebook adds only rules that it stands for. -/
theorem mem_or_standsFor_of_mem_addTo {book book' : List Rule} {r r' : Rule} {w : World}
    (h : addTo book r w = .ok book') (hr : r' ∈ book') : r' ∈ book ∨ r.StandsFor w r' := by
  rw [addTo] at h
  split at h
  · obtain ⟨rs, hrs, hfold⟩ := bind_eq_ok_iff.mp h
    rw [pure_eq_ok_iff] at hfold
    rw [← hfold] at hr
    exact (mem_of_mem_foldl_addDistinct hr).imp_right (standsFor_of_mem_variants hrs)
  · next hconcrete =>
    rw [pure_eq_ok_iff] at h
    rw [← h, List.mem_append, List.mem_singleton] at hr
    rcases hr with hr | rfl
    · exact .inl hr
    · exact .inr (standsFor_self (by simpa using hconcrete) w)

end Rule

/-- A rule of the rulebook stands for every concrete rule. -/
theorem exists_rule_of_mem_expandRules {rules book : List Rule} {w : World}
    (h : expandRules rules w = .ok book) {r' : Rule} (hr : r' ∈ book) :
    ∃ r ∈ rules, r.StandsFor w r' := by
  refine foldlM_ok_induction (P := fun book => ∀ r' ∈ book, ∃ r ∈ rules, r.StandsFor w r') h
    (by simp) ?_ r' hr
  intro r hmem book book' hbook hadd r' hr'
  rcases Rule.mem_or_standsFor_of_mem_addTo hadd hr' with hr' | hr'
  · exact hbook r' hr'
  · exact ⟨r, hmem, hr'⟩

/-- A rule by itself stands for its variants, without repetition. -/
theorem expandRules_singleton {r : Rule} {w : World} {rs : List Rule}
    (htemplate : r.hasTemplate = true) (h : r.variants w = .ok rs) :
    expandRules [r] w = .ok (rs.foldl Rule.addDistinct []) := by
  rw [expandRules, List.foldlM_cons, Rule.addTo, if_pos htemplate, h]
  rfl

/-- Adding an action keeps its text and operations. -/
theorem ActionList.mem_of_mem_push {actions : ActionList} {a a' : Action}
    (h : a' ∈ (actions.push a).entries) :
    a' ∈ actions.entries ∨ a'.text = a.text ∧ a'.operations = a.operations := by
  rcases List.mem_append.mp h with h | h
  · exact .inl h
  · rw [List.mem_singleton] at h
    exact .inr (by simp [h])

/-- Every action on offer is an accepted concrete rule. -/
theorem exists_accepted_of_mem_offeredActions {scene : String} {w : World} {rules : List Rule}
    {actions : ActionList} (h : offeredActions scene w rules = .ok actions) {a : Action}
    (ha : a ∈ actions.entries) :
    ∃ book, expandRules rules w = .ok book ∧ ∃ r ∈ book, ∃ accepted,
      r.accept scene w = .ok (some accepted) ∧ a.text = accepted.text ∧
        a.operations = accepted.operations := by
  obtain ⟨book, hbook, h⟩ := bind_eq_ok_iff.mp h
  refine ⟨book, hbook, ?_⟩
  refine foldlM_ok_induction (P := fun actions : ActionList => ∀ a ∈ actions.entries,
    ∃ r ∈ book, ∃ accepted, r.accept scene w = .ok (some accepted) ∧ a.text = accepted.text ∧
      a.operations = accepted.operations) h (by simp [ActionList.empty]) ?_ a ha
  intro r hr actions actions' hactions hstep a' ha'
  obtain ⟨found, hfound, hstep⟩ := bind_eq_ok_iff.mp hstep
  rw [Checked.toExpanded, mapError_eq_ok_iff] at hfound
  cases found with
  | none =>
    rw [pure_eq_ok_iff] at hstep
    exact hactions a' (hstep ▸ ha')
  | some accepted =>
    rw [pure_eq_ok_iff] at hstep
    rcases ActionList.mem_of_mem_push (hstep ▸ ha') with ha' | ⟨htext, hops⟩
    · exact hactions a' ha'
    · exact ⟨r, hr, accepted, hfound, htext, hops⟩

/-- When only one rule of the concrete rulebook is accepted, it is the only action on offer. -/
theorem offeredActions_eq_singleton {scene : String} {w : World} {rules book : List Rule} {r : Rule}
    {a : Accepted} (hbook : expandRules rules w = .ok book) (hnodup : book.Nodup) (hr : r ∈ book)
    (ha : r.accept scene w = .ok (some a))
    (hothers : ∀ r' ∈ book, r' ≠ r → r'.accept scene w = .ok none) :
    offeredActions scene w rules = .ok ⟨[⟨r.description, a.text, a.operations⟩]⟩ := by
  obtain ⟨before, after, rfl⟩ := List.append_of_mem hr
  obtain ⟨-, hafter, hapart⟩ := List.nodup_append.mp hnodup
  have hrefused : ∀ r' ∈ before ++ after, r'.accept scene w = .ok none := by
    intro r' hr'
    rcases List.mem_append.mp hr' with hr' | hr'
    · exact hothers r' (by simp [hr']) (hapart r' hr' r (by simp))
    · refine hothers r' (by simp [hr']) ?_
      rintro rfl
      exact (List.nodup_cons.mp hafter).1 hr'
  refine bind_eq_ok_iff.mpr ⟨_, hbook, ?_⟩
  rw [List.foldlM_append, foldlM_eq_self (b := ActionList.empty) fun r' hr' => by
    rw [hrefused r' (by simp [hr'])]
    rfl]
  refine bind_eq_ok_iff.mpr ⟨_, rfl, ?_⟩
  rw [List.foldlM_cons, ha]
  refine bind_eq_ok_iff.mpr ⟨⟨[⟨r.description, a.text, a.operations⟩]⟩, rfl, ?_⟩
  exact foldlM_eq_self fun r' hr' => by
    rw [hrefused r' (by simp [hr'])]
    rfl

end StoryTape
