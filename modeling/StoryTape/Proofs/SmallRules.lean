import StoryTape.Proofs.Acceptance

/-!
# Choices as small rules

A choice is tried like the rule that asks for a tag of the scene and has the context, the cost, the
payload and the gain of the choice. The cost and the gain are tested alike. The choice is stricter
with the other two: it wants a context tag in one scene only, where the rule takes the current scene
or else the first, and a payload tag in no scene, where the rule only wants it elsewhere. So the
rule is accepted whenever the choice is, with the same operations behind the record of its target,
and the choice whenever the rule is and nothing it looks for is found in too many scenes.
-/

namespace StoryTape

open Text

/-- The rule that finds a target in the scene and then does what the choice does. -/
def Choice.asRule (c : Choice) (target : Tag) (text : Option String) : Rule :=
  { target, context := c.context, cost := c.cost, payload := c.payload, gain := c.gain,
    drag := true, text }

/-- Tests that agree on every tag of a set agree on the set. -/
theorem forAllTags_congr {f g : Tag → Option (List Operation)} {s : TagSet}
    (h : ∀ t ∈ s.tags, f t = g t) : forAllTags f s = forAllTags g s := by
  have hmapM : ∀ tags : List Tag, (∀ t ∈ tags, f t = g t) → tags.mapM f = tags.mapM g := by
    intro tags
    induction tags with
    | nil => exact fun _ => rfl
    | cons t tags ih =>
      intro hall
      have htail : tags.mapM f = tags.mapM g :=
        ih fun t' ht' => hall t' (List.mem_cons_of_mem t ht')
      rw [List.mapM_cons, List.mapM_cons, hall t List.mem_cons_self, htail]
  rw [forAllTags, forAllTags, hmapM s.tags h]

namespace World

variable {w : World} {t : Tag} {value scene : String}

/-- In a world of distinct names an identifier that is never in two scenes has one holder at
most. -/
theorem Distinct.length_holders_le_one (hw : w.Distinct)
    (hone : ∀ l ∈ w.scenes, ∀ l' ∈ w.scenes, l.tags.hasValue value = true →
      l'.tags.hasValue value = true → l = l') : (w.holders value).length ≤ 1 := by
  have hsub : (w.holders value).Sublist w.locations :=
    List.filter_sublist.trans List.filter_sublist
  have hdistinct : DistinctNames (w.holders value) := List.Pairwise.sublist hsub hw
  match hholders : w.holders value with
  | [] => exact Nat.zero_le 1
  | [_] => exact Nat.le_refl 1
  | l :: l' :: ls =>
    have hl : l ∈ w.holders value := by rw [hholders]; exact List.mem_cons_self
    have hl' : l' ∈ w.holders value := by
      rw [hholders]
      exact List.mem_cons_of_mem l List.mem_cons_self
    obtain ⟨hscene, hvalue⟩ := mem_holders.mp hl
    obtain ⟨hscene', hvalue'⟩ := mem_holders.mp hl'
    have hsame : l = l' := hone l hscene l' hscene' hvalue hvalue'
    rw [hholders] at hdistinct
    have hother := (List.pairwise_cons.mp hdistinct).1 l' List.mem_cons_self
    rw [hsame, sameName_refl] at hother
    cases hother

/-- With one holder at most there is nothing to prefer: rule and choice test a context tag alike. -/
theorem checkContext_eq_checkOnce (h : (w.holders t.value).length ≤ 1) :
    w.checkContext scene t = w.checkOnce t := by
  unfold checkContext checkOnce
  match hholders : w.holders t.value with
  | [] =>
    have hnone : w.holder? scene t.value = none := holder?_eq_none_iff.mpr hholders
    rw [hnone]
    cases t.mode <;> rfl
  | [l] =>
    have hsome : w.holder? scene t.value = some l := by
      rw [holder?, hholders]
      cases hscene : sameName l.name scene <;> simp [hscene]
    rw [hsome]
    cases t.mode <;> rfl
  | _ :: _ :: _ =>
    rw [hholders] at h
    simp at h

/-- A context tag of a choice that is found has one holder at most. -/
theorem length_holders_of_checkOnce {ops : List Operation} (h : w.checkOnce t = some ops) :
    (w.holders t.value).length ≤ 1 := by
  unfold checkOnce at h
  split at h
  · next hholders => simp [hholders]
  · next hholders => simp [hholders]
  · next hholders => simp [hholders]
  · cases h

/-- A tag that no scene holds is laid out alike by rule and choice. -/
theorem layOut_eq_layOutNew (h : w.holders t.value = []) :
    w.layOut scene t = w.layOutNew scene t := by
  have hclear : (w.scenes.filter fun l => !l.tags.hasValue t.value) = w.scenes := by
    refine List.filter_eq_self.mpr fun l hl => ?_
    have hfree := List.filter_eq_nil_iff.mp h l hl
    simpa using hfree
  simp only [layOut, layOutNew, h, hclear, assertNowhere, List.any_nil, List.isEmpty_nil,
    Bool.not_true, Bool.or_false, Bool.false_eq_true, if_false]

/-- No context tag of a choice lies in two scenes and no payload tag in any. -/
structure FindsOnce (w : World) (c : Choice) : Prop where
  context : ∀ t ∈ c.context.tags, (w.holders t.value).length ≤ 1
  payload : ∀ t ∈ c.payload.tags, w.holders t.value = []

/-- Rule and choice test a context without comparisons alike. -/
theorem FindsOnce.around_eq {c : Choice} (h : w.FindsOnce c)
    (hplain : ∀ t ∈ c.context.tags, t.isComparison = false) :
    forAllTags (w.checkAround scene) c.context = forAllTags w.checkOnce c.context := by
  refine forAllTags_congr fun t ht => ?_
  rw [checkAround, hplain t ht]
  exact checkContext_eq_checkOnce (h.context t ht)

/-- Rule and choice lay out a payload alike. -/
theorem FindsOnce.laid_eq {c : Choice} (h : w.FindsOnce c) :
    forAllTags (w.layOut scene) c.payload = forAllTags (w.layOutNew scene) c.payload :=
  forAllTags_congr fun t ht => layOut_eq_layOutNew (h.payload t ht)

end World

/-- A choice is accepted only where what it looks for is found once and what it lays out nowhere. -/
theorem Choice.Phases.findsOnce {c : Choice} {scene : String} {w : World} (p : c.Phases scene w) :
    w.FindsOnce c where
  context t ht := by
    have hsome := forAllTags_isSome_iff.mp (by rw [p.around_eq]; rfl) t ht
    obtain ⟨ops, hops⟩ := Option.isSome_iff_exists.mp hsome
    exact World.length_holders_of_checkOnce hops
  payload t ht := by
    have hsome := forAllTags_isSome_iff.mp (by rw [p.laid_eq]; rfl) t ht
    obtain ⟨ops, hops⟩ := Option.isSome_iff_exists.mp hsome
    obtain ⟨-, -, hholders, -⟩ := World.layOutNew_eq_some hops
    exact hholders

section Agreement

variable {w : World} {here : Location} {target : Tag} {c : Choice} {text : Option String}

/-- Where nothing is found too often, the rule is accepted exactly when the choice is, and what
they do differs by the record of the target alone. -/
theorem World.FindsOnce.accept_iff (hw : w.Distinct) (hhere : here ∈ w.locations)
    (hmode : target.mode = .required) (hplace : target.location = none)
    (hheld : here.tags.hasValue target.value = true)
    (hplain : ∀ t ∈ c.context.tags, t.isComparison = false) (h : w.FindsOnce c) {a : Accepted} :
    (c.asRule target text).accept here.name w = .ok (some a) ↔
      ∃ step, c.accept here.name w = some step ∧
        a = ⟨text, .assertTagIn target.value here.name :: step.operations⟩ := by
  have hlocation : w.location? here.name = some here :=
    hw.location?_eq_some hhere (sameName_refl here.name)
  have hstay : Rule.moveTo w target = some [] := by rw [Rule.moveTo, hplace]
  have hmeet : Rule.meet target here.name = [.assertTagIn target.value here.name] := by
    rw [Rule.meet, hmode]
    rfl
  rw [Rule.accept_eq_ok_some_iff]
  constructor
  · rintro ⟨p, rfl⟩
    have hsame : p.here = here := Option.some.inj (p.here_eq.symm.trans hlocation)
    have hmove : p.move = [] := Option.some.inj (p.move_eq.symm.trans hstay)
    have haround : forAllTags w.checkOnce c.context = some p.around :=
      (h.around_eq hplain).symm.trans p.around_eq
    have hlaid : forAllTags (w.layOutNew here.name) c.payload = some p.laid := by
      have hrule : forAllTags (w.layOut p.here.name) c.payload = some p.laid := p.laid_eq
      rw [hsame] at hrule
      exact h.laid_eq.symm.trans hrule
    refine ⟨_, Choice.accept_eq_some_iff.mpr
      ⟨⟨p.paid, p.gained, p.around, p.laid, p.paid_eq, p.gained_eq, haround, hlaid⟩, rfl⟩, ?_⟩
    have hoperations : p.operations = .assertTagIn target.value here.name ::
        (p.paid ++ p.gained ++ p.around ++ p.laid) := by
      have htarget : Rule.meet (c.asRule target text).target p.here.name =
          [.assertTagIn target.value here.name] := by rw [hsame]; exact hmeet
      rw [Rule.Phases.operations, hmove, htarget]
      simp only [List.nil_append, List.cons_append]
    rw [hoperations]
    rfl
  · rintro ⟨step, hstep, rfl⟩
    obtain ⟨q, rfl⟩ := Choice.accept_eq_some_iff.mp hstep
    have haround : forAllTags (w.checkAround here.name) c.context = some q.around :=
      (h.around_eq hplain).trans q.around_eq
    have hlaid : forAllTags (w.layOut here.name) c.payload = some q.laid :=
      h.laid_eq.trans q.laid_eq
    have hrequired : target.mode ≠ .forbidden := by rw [hmode]; exact TagMode.noConfusion
    refine ⟨⟨here, [], q.paid, q.gained, q.around, q.laid, hlocation, hheld, hrequired, hstay,
      q.paid_eq, q.gained_eq, haround, hlaid⟩, ?_⟩
    have htarget : Rule.meet (c.asRule target text).target here.name =
        [.assertTagIn target.value here.name] := hmeet
    rw [Rule.Phases.operations, htarget, Choice.Phases.operations]
    simp only [List.nil_append, List.cons_append]
    rfl

end Agreement

/-- A choice does what the rule does that asks for a tag of the scene and has the sets of the
choice: whenever the choice is accepted, so is the rule, and its operations are the record of its
target and then those of the choice. The other way round, an accepted rule comes with an accepted
choice when no context tag lies in two scenes and no payload tag in any. -/
theorem choice_accepts_like_rule {w : World} (hw : w.Distinct) {here : Location}
    (hhere : here ∈ w.locations) {target : Tag} (hmode : target.mode = .required)
    (hplace : target.location = none) (hheld : here.tags.hasValue target.value = true)
    {c : Choice} (hplain : ∀ t ∈ c.context.tags, t.isComparison = false) (text : Option String) :
    (∀ step, c.accept here.name w = some step →
      ∃ a, (c.asRule target text).accept here.name w = .ok (some a) ∧
        a.operations = .assertTagIn target.value here.name :: step.operations) ∧
    (∀ a, (c.asRule target text).accept here.name w = .ok (some a) →
      (∀ t ∈ c.context.tags, ∀ l ∈ w.scenes, ∀ l' ∈ w.scenes,
        l.tags.hasValue t.value = true → l'.tags.hasValue t.value = true → l = l') →
      (∀ t ∈ c.payload.tags, ∀ l ∈ w.scenes, l.tags.hasValue t.value = false) →
      ∃ step, c.accept here.name w = some step ∧
        a.operations = .assertTagIn target.value here.name :: step.operations) := by
  constructor
  · intro step hstep
    obtain ⟨q, -⟩ := Choice.accept_eq_some_iff.mp hstep
    have haccepted : (c.asRule target text).accept here.name w = .ok (some _) :=
      (q.findsOnce.accept_iff hw hhere hmode hplace hheld hplain).mpr ⟨step, hstep, rfl⟩
    exact ⟨_, haccepted, rfl⟩
  · intro a haccepted hcontext hpayload
    have honce : w.FindsOnce c := by
      refine ⟨fun t ht => hw.length_holders_le_one (hcontext t ht), fun t ht => ?_⟩
      refine List.filter_eq_nil_iff.mpr fun l hl => ?_
      rw [hpayload t ht l hl]
      exact Bool.false_ne_true
    obtain ⟨step, hstep, rfl⟩ :=
      (honce.accept_iff hw hhere hmode hplace hheld hplain).mp haccepted
    exact ⟨step, hstep, rfl⟩

namespace Inn

def askDoor : Tag := ⟨"?door", ⟨.required, "door", none, .unset⟩, by decide, by rfl⟩

/-- A home with a door, gold and a king. -/
def home : Location := ⟨"HOME", .ofList [door, gold, kingHere]⟩

end Inn

/-- At home, where there is a door, the riddle is the rule that asks for the door. -/
theorem riddle_accepted_as_rule :
    Inn.world.Distinct ∧ Inn.home ∈ Inn.world.locations ∧ Inn.askDoor.mode = .required ∧
      Inn.askDoor.location = none ∧ Inn.home.tags.hasValue Inn.askDoor.value = true ∧
      (∀ t ∈ Inn.riddle.context.tags, t.isComparison = false) ∧
      Inn.riddle.accept "HOME" Inn.world = some ⟨"RIDDLE-1", Inn.riddleOperations⟩ ∧
      ∃ a, (Inn.riddle.asRule Inn.askDoor none).accept "HOME" Inn.world = .ok (some a) ∧
        a.operations = .assertTagIn "door" "HOME" :: Inn.riddleOperations ∧
        ∃ step, Inn.riddle.accept "HOME" Inn.world = some step ∧
          a.operations = .assertTagIn "door" "HOME" :: step.operations := by
  have hhere : Inn.home ∈ Inn.world.locations := List.mem_cons_self
  have hheld : Inn.home.tags.hasValue Inn.askDoor.value = true := by decide
  have hplain : ∀ t ∈ Inn.riddle.context.tags, t.isComparison = false := by decide
  have hstep : Inn.riddle.accept "HOME" Inn.world = some ⟨"RIDDLE-1", Inn.riddleOperations⟩ := by
    rfl
  obtain ⟨hrule, hchoice⟩ :=
    choice_accepts_like_rule Inn.distinct hhere rfl rfl hheld hplain none
  obtain ⟨a, haccepted, hoperations⟩ := hrule _ hstep
  have hcontext : ∀ t ∈ Inn.riddle.context.tags, ∀ l ∈ Inn.world.scenes, ∀ l' ∈ Inn.world.scenes,
      l.tags.hasValue t.value = true → l'.tags.hasValue t.value = true → l = l' := by decide
  have hpayload : ∀ t ∈ Inn.riddle.payload.tags, ∀ l ∈ Inn.world.scenes,
      l.tags.hasValue t.value = false := by decide
  exact ⟨Inn.distinct, hhere, rfl, rfl, hheld, hplain, hstep, a, haccepted, hoperations,
    hchoice a haccepted hcontext hpayload⟩

end StoryTape
