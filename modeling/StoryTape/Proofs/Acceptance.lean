import StoryTape.Dialogue.Accept
import StoryTape.Proofs.WorldContents

/-!
# The phases of acceptance

A rule is accepted in phases: the change of scene, the target, the cost, the gain, the context and
the payload; a choice has the last four. This file takes the calculation apart, so that what holds
of the operations of an accepted rule can be shown check by check. Each check is described by one
lemma that lists all it can answer.
-/

namespace StoryTape

open Text

/-! ### One set of tags -/

/-- What holds of the operations of every tag and survives joining holds of those of the set. -/
theorem forAllTags_induction {P : List Operation → Prop} {f : Tag → Option (List Operation)}
    {s : TagSet} {ops : List Operation} (h : forAllTags f s = some ops) (hnil : P [])
    (happend : ∀ a b, P a → P b → P (a ++ b))
    (heach : ∀ t ∈ s.tags, ∀ a, f t = some a → P a) : P ops := by
  obtain ⟨blocks, hblocks, rfl⟩ := Option.map_eq_some_iff.mp h
  clear h
  generalize s.tags = tags at hblocks heach
  induction tags generalizing blocks with
  | nil =>
    cases hblocks
    exact hnil
  | cons t tags ih =>
    rw [List.mapM_cons] at hblocks
    obtain ⟨a, ha, hrest⟩ := Option.bind_eq_some_iff.mp hblocks
    obtain ⟨others, hothers, hcons⟩ := Option.bind_eq_some_iff.mp hrest
    cases hcons
    have hlater : ∀ t' ∈ tags, ∀ b, f t' = some b → P b :=
      fun t' ht' => heach t' (List.mem_cons_of_mem _ ht')
    exact happend _ _ (heach t List.mem_cons_self a ha) (ih others hothers hlater)

/-- Every operation of a set comes from one of its tags. -/
theorem exists_of_mem_forAllTags {f : Tag → Option (List Operation)} {s : TagSet}
    {ops : List Operation} (h : forAllTags f s = some ops) {op : Operation} (hop : op ∈ ops) :
    ∃ t ∈ s.tags, ∃ a, f t = some a ∧ op ∈ a := by
  refine forAllTags_induction (P := fun a => op ∈ a → ∃ t ∈ s.tags, ∃ a, f t = some a ∧ op ∈ a)
    h (fun hop => absurd hop List.not_mem_nil) (fun a b ha hb hop => ?_) ?_ hop
  · exact (List.mem_append.mp hop).elim ha hb
  · exact fun t ht a ha hop => ⟨t, ht, a, ha, hop⟩

/-- The operations of a tag stand together among those of its set. -/
theorem exists_infix_of_mem {f : Tag → Option (List Operation)} {s : TagSet} {ops : List Operation}
    (h : forAllTags f s = some ops) {t : Tag} (ht : t ∈ s.tags) :
    ∃ block, f t = some block ∧ block <:+: ops := by
  obtain ⟨blocks, hblocks, rfl⟩ := Option.map_eq_some_iff.mp h
  clear h
  generalize s.tags = tags at hblocks ht
  induction tags generalizing blocks with
  | nil => cases ht
  | cons t' tags ih =>
    rw [List.mapM_cons] at hblocks
    obtain ⟨block, hblock, hrest⟩ := Option.bind_eq_some_iff.mp hblocks
    obtain ⟨others, hothers, hcons⟩ := Option.bind_eq_some_iff.mp hrest
    cases hcons
    rw [List.flatten_cons]
    rcases List.mem_cons.mp ht with rfl | ht
    · exact ⟨block, hblock, (List.prefix_append _ _).isInfix⟩
    · obtain ⟨block', hblock', hin⟩ := ih others hothers ht
      exact ⟨block', hblock', hin.trans (List.suffix_append _ _).isInfix⟩

/-- A set is accepted exactly when each of its tags is. -/
theorem forAllTags_isSome_iff {f : Tag → Option (List Operation)} {s : TagSet} :
    (forAllTags f s).isSome = true ↔ ∀ t ∈ s.tags, (f t).isSome = true := by
  rw [forAllTags, Option.isSome_map]
  generalize s.tags = tags
  induction tags with
  | nil => simp
  | cons t tags ih =>
    rw [List.mapM_cons, List.forall_mem_cons, ← ih]
    cases f t <;> cases tags.mapM f <;> simp

/-! ### One tag -/

/-- Everything a look among held tags can answer. -/
theorem checkHeld_cases {held : TagSet} {place : String} {t : Tag} {ops : List Operation}
    (h : checkHeld held place t = some ops) :
    (held.hasValue t.value = true ∧
      (ops = [.assertTagIn t.value place, .removeTag t.value place] ∨
        ops = [.assertTagIn t.value place])) ∨
    (held.hasValue t.value = false ∧ ops = [.assertNoTag t.value place]) := by
  unfold checkHeld at h
  split at h
  · next hheld => cases h; exact .inl ⟨hheld, .inl rfl⟩
  · next hheld => cases h; exact .inl ⟨hheld, .inr rfl⟩
  · next hheld => cases h; exact .inr ⟨hheld, rfl⟩
  · cases h

/-- What taking a tag in hand answers. -/
theorem takeInHand_eq_some {drag : TagSet} {t : Tag} {ops : List Operation}
    (h : takeInHand drag t = some ops) :
    drag.hasValue t.value = false ∧ t.mode = .plain ∧
      ops = [.assertNoTag t.value dragName, .appendTag t.value dragName] := by
  unfold takeInHand at h
  split at h
  · next hfree =>
    cases h
    simp only [Bool.and_eq_true, Bool.not_eq_true', beq_iff_eq] at hfree
    exact ⟨hfree.1, hfree.2, rfl⟩
  · cases h

namespace World

variable {w : World} {t : Tag} {ops : List Operation} {scene value : String}

/-- The scenes are the locations that are not what the player carries. -/
theorem mem_scenes {l : Location} : l ∈ w.scenes ↔ l ∈ w.locations ∧ isDrag l.name = false := by
  simp [scenes]

/-- The holders of an identifier are the scenes in which it lies. -/
theorem mem_holders {l : Location} :
    l ∈ w.holders value ↔ l ∈ w.scenes ∧ l.tags.hasValue value = true := by
  simp [holders]

/-- The location a context tag is found in is one of those that hold it. -/
theorem mem_holders_of_holder? {l : Location} (h : w.holder? scene value = some l) :
    l ∈ w.holders value := by
  rcases Option.or_eq_some_iff.mp h with h | ⟨-, h⟩
  · exact List.mem_reverse.mp (List.mem_of_find?_eq_some h)
  · exact List.mem_of_mem_head? h

/-- A context tag is found nowhere exactly when no scene holds it. -/
theorem holder?_eq_none_iff : w.holder? scene value = none ↔ w.holders value = [] := by
  unfold holder?
  rw [Option.or_eq_none_iff, List.head?_eq_none_iff]
  constructor
  · exact And.right
  · intro h
    rw [h]
    exact ⟨rfl, rfl⟩

/-- A scene holds what a comparison finds there. -/
theorem exists_of_mem_compared {place : String} (h : (value, place) ∈ w.compared t) :
    ∃ l ∈ w.scenes, l.name = place ∧ l.tags.hasValue value = true := by
  obtain ⟨l, hl, hmem⟩ := List.mem_flatMap.mp h
  obtain ⟨test, htest, hpair⟩ := List.mem_map.mp hmem
  cases hpair
  exact ⟨l, hl, rfl, TagSet.hasValue_eq_true_iff.mpr ⟨test, (List.mem_filter.mp htest).1, rfl⟩⟩

/-- A comparison records the tags that pass it, or nothing. -/
theorem checkComparison_cases (h : w.checkComparison t = some ops) :
    ops = [] ∨ ops = (w.compared t).map fun (value, place) => .assertTagIn value place := by
  simp only [checkComparison] at h
  split at h
  · cases h
    exact .inl rfl
  · split at h
    · cases h
    · cases h
      exact .inr rfl
  · split at h
    · cases h
      exact .inl rfl
    · cases h

/-- Everything a context tag that is no comparison can answer. -/
theorem checkContext_cases (h : w.checkContext scene t = some ops) :
    (∃ l ∈ w.holders t.value,
      ops = [.assertTagIn t.value l.name, .removeTag t.value l.name] ∨
        ops = [.assertTagIn t.value l.name]) ∨
    (w.holders t.value = [] ∧ ops = w.assertNowhere t.value) := by
  unfold checkContext at h
  split at h
  · next l _ hl => cases h; exact .inl ⟨l, mem_holders_of_holder? hl, .inl rfl⟩
  · next l _ hl => cases h; exact .inl ⟨l, mem_holders_of_holder? hl, .inr rfl⟩
  · next hnone => cases h; exact .inr ⟨holder?_eq_none_iff.mp hnone, rfl⟩
  · cases h

/-- Everything a context tag of a choice can answer. -/
theorem checkOnce_cases (h : w.checkOnce t = some ops) :
    (∃ l ∈ w.holders t.value,
      ops = [.assertTagIn t.value l.name, .removeTag t.value l.name] ∨
        ops = [.assertTagIn t.value l.name]) ∨
    (w.holders t.value = [] ∧ ops = w.assertNowhere t.value) := by
  unfold checkOnce at h
  split at h
  · next l _ hl => cases h; exact .inl ⟨l, by simp [hl], .inl rfl⟩
  · next l _ hl => cases h; exact .inl ⟨l, by simp [hl], .inr rfl⟩
  · next hnone => cases h; exact .inr ⟨hnone, rfl⟩
  · cases h

/-- What laying out a tag answers. -/
theorem layOut_eq_some (h : w.layOut scene t = some ops) :
    t.mode = .plain ∧ t.location.any isDrag = false ∧
      (∀ l ∈ w.holders t.value, sameName l.name (t.location.getD scene) = false) ∧
      ops = ((w.scenes.filter fun l => !l.tags.hasValue t.value).map
        fun l => .assertNoTag t.value l.name) ++ [.appendTag t.value (t.location.getD scene)] := by
  simp only [layOut] at h
  split at h
  · cases h
  · next hplain =>
    split at h
    · cases h
    · next hfree =>
      cases h
      simp only [Bool.or_eq_true, bne_iff_ne, not_or, Decidable.not_not, Bool.not_eq_true] at hplain
      refine ⟨hplain.1, hplain.2, fun l hl => ?_, rfl⟩
      have hnone := hfree
      simp only [List.any_eq_true, not_exists, not_and, Bool.not_eq_true] at hnone
      exact hnone l hl

/-- What laying out a tag of a choice answers. -/
theorem layOutNew_eq_some (h : w.layOutNew scene t = some ops) :
    t.mode = .plain ∧ t.location.any isDrag = false ∧ w.holders t.value = [] ∧
      ops = w.assertNowhere t.value ++ [.appendTag t.value (t.location.getD scene)] := by
  unfold layOutNew at h
  split at h
  · cases h
  · next hfree =>
    cases h
    simp only [Bool.or_eq_true, bne_iff_ne, not_or, Decidable.not_not, Bool.not_eq_true,
      Bool.not_eq_false', List.isEmpty_iff] at hfree
    exact ⟨hfree.1.1, hfree.1.2, hfree.2, rfl⟩

/-- Where a target leads is a location of the world, if it leads anywhere. -/
theorem moveTo_eq_some {target : Tag} (h : Rule.moveTo w target = some ops) :
    (target.location = none ∧ ops = []) ∨
      ∃ name l, target.location = some name ∧ w.location? name = some l ∧ ops = [.goto l.name] := by
  unfold Rule.moveTo at h
  split at h
  · next hnone => cases h; exact .inl ⟨hnone, rfl⟩
  · next name hname =>
    obtain ⟨l, hl, rfl⟩ := Option.map_eq_some_iff.mp h
    exact .inr ⟨name, l, hname, hl, rfl⟩

end World

/-! ### Rules and choices -/

/-- What a rule's cost is looked for in: the player's hands or the scene. -/
def Rule.purse (r : Rule) (here : Location) (w : World) : TagSet × String :=
  if r.drag then (w.drag, dragName) else (here.tags, here.name)

/-- The phases of a rule that is accepted. -/
structure Rule.Phases (r : Rule) (scene : String) (w : World) where
  /-- The scene as a location of the world. -/
  here : Location
  move : List Operation
  paid : List Operation
  gained : List Operation
  around : List Operation
  laid : List Operation
  here_eq : w.location? scene = some here
  target_held : here.tags.hasValue r.target.value = true
  target_mode : r.target.mode ≠ .forbidden
  move_eq : moveTo w r.target = some move
  paid_eq : forAllTags (checkHeld (r.purse here w).1 (r.purse here w).2) r.cost = some paid
  gained_eq : forAllTags (takeInHand w.drag) r.gain = some gained
  around_eq : forAllTags (w.checkAround here.name) r.context = some around
  laid_eq : forAllTags (w.layOut here.name) r.payload = some laid

/-- The operations of all phases. -/
def Rule.Phases.operations {r : Rule} {scene : String} {w : World} (p : r.Phases scene w) :
    List Operation :=
  p.move ++ meet r.target p.here.name ++ p.paid ++ p.gained ++ p.around ++ p.laid

/-- What comes before the gains, phase by phase. -/
theorem Rule.enterScene_eq_some_iff {r : Rule} {scene : String} {w : World} {name : String}
    {opening : List Operation} :
    r.enterScene scene w = some (name, opening) ↔
      ∃ here, w.location? scene = some here ∧
        here.tags.hasValue r.target.value = true ∧ r.target.mode ≠ .forbidden ∧
        ∃ move, moveTo w r.target = some move ∧
        ∃ paid, forAllTags (checkHeld (r.purse here w).1 (r.purse here w).2) r.cost = some paid ∧
          (here.name, move ++ meet r.target here.name ++ paid) = (name, opening) := by
  simp only [enterScene, Option.bind_eq_bind, Option.bind_eq_some_iff]
  refine exists_congr fun here => and_congr_right fun _ => ?_
  split
  · next hrefused =>
    simp only [Bool.or_eq_true, Bool.not_eq_true', beq_iff_eq] at hrefused
    simp only [Option.bind_none, reduceCtorEq, false_iff, not_and]
    intro htarget hmode
    rcases hrefused with h | h
    · rw [htarget] at h
      cases h
    · exact absurd h hmode
  · next htaken =>
    simp only [Bool.or_eq_true, Bool.not_eq_true', beq_iff_eq, not_or, Bool.not_eq_false] at htaken
    simp only [Option.bind_eq_some_iff, htaken.1, ne_eq, htaken.2, not_false_eq_true, true_and,
      purse, Option.pure_def, Option.some.injEq]

/-- The gains of an accepted rule can all be taken. -/
theorem Rule.takeGains_eq_ok_some_iff {r : Rule} {drag : TagSet} {gained : List Operation} :
    r.takeGains drag = .ok (some gained) ↔
      forAllTags (takeInHand drag) r.gain = some gained := by
  unfold takeGains
  cases hfind : r.gain.tags.find? fun t => (takeInHand drag t).isNone with
  | none => simp
  | some t =>
    have ht := List.mem_of_find?_eq_some hfind
    have hnone : (takeInHand drag t).isNone = true := by simpa using List.find?_some hfind
    have hrefused : forAllTags (takeInHand drag) r.gain = none := by
      cases hall : forAllTags (takeInHand drag) r.gain with
      | none => rfl
      | some a =>
        have hsome := forAllTags_isSome_iff.mp (by rw [hall]; rfl) t ht
        rw [Option.isSome_iff_ne_none] at hsome
        exact absurd (Option.isNone_iff_eq_none.mp hnone) hsome
    rw [hrefused]
    simp only [reduceCtorEq, iff_false]
    split <;> simp

/-- A rule is accepted exactly when all its phases are, with the operations of the phases. -/
theorem Rule.accept_eq_ok_some_iff {r : Rule} {scene : String} {w : World} {a : Accepted} :
    r.accept scene w = .ok (some a) ↔ ∃ p : r.Phases scene w, a = ⟨r.text, p.operations⟩ := by
  constructor
  · intro h
    unfold accept at h
    cases henter : r.enterScene scene w with
    | none => rw [henter] at h; cases h
    | some entered =>
      obtain ⟨name, opening⟩ := entered
      obtain ⟨here, hhere, htarget, hmode, move, hmove, paid, hpaid, heq⟩ :=
        enterScene_eq_some_iff.mp henter
      cases heq
      rw [henter] at h
      obtain ⟨gains, hgains, hrest⟩ := bind_eq_ok_iff.mp h
      obtain ⟨gained, hgained, hrest⟩ := Option.bind_eq_some_iff.mp (pure_eq_ok_iff.mp hrest)
      obtain ⟨around, haround, hrest⟩ := Option.bind_eq_some_iff.mp hrest
      obtain ⟨laid, hlaid, hrest⟩ := Option.bind_eq_some_iff.mp hrest
      obtain rfl := Option.some.inj hrest
      rw [hgained, takeGains_eq_ok_some_iff] at hgains
      exact ⟨⟨here, move, paid, gained, around, laid, hhere, htarget, hmode, hmove, hpaid,
        hgains, haround, hlaid⟩, rfl⟩
  · rintro ⟨p, rfl⟩
    have henter : r.enterScene scene w =
        some (p.here.name, p.move ++ meet r.target p.here.name ++ p.paid) :=
      enterScene_eq_some_iff.mpr ⟨p.here, p.here_eq, p.target_held, p.target_mode, p.move,
        p.move_eq, p.paid, p.paid_eq, rfl⟩
    rw [accept, henter]
    refine bind_eq_ok_iff.mpr ⟨_, takeGains_eq_ok_some_iff.mpr p.gained_eq, ?_⟩
    refine pure_eq_ok_iff.mpr (Option.bind_eq_some_iff.mpr ⟨p.gained, rfl, ?_⟩)
    exact Option.bind_eq_some_iff.mpr ⟨p.around, p.around_eq,
      Option.bind_eq_some_iff.mpr ⟨p.laid, p.laid_eq, rfl⟩⟩

/-- The only error of the gains: the first that cannot be taken is paid. -/
theorem Rule.takeGains_eq_error_iff {r : Rule} {drag : TagSet} {e : ScriptError} :
    r.takeGains drag = .error e ↔
      ∃ t, (r.gain.tags.find? fun t => (takeInHand drag t).isNone) = some t ∧
        r.cost.hasValue t.value = true ∧
        e = { cause := .gainIsPaid t.raw r.target.raw, phase := .rule } := by
  unfold takeGains
  cases hfind : r.gain.tags.find? fun t => (takeInHand drag t).isNone with
  | none => simp
  | some t =>
    simp only [Option.some.injEq, exists_eq_left']
    split
    · next hpaid => simp [hpaid, eq_comm]
    · next hpaid => simp [hpaid]

/-- A rule that could start is an error exactly when its gains are. -/
theorem Rule.accept_eq_error_iff {r : Rule} {scene : String} {w : World} {e : ScriptError} :
    r.accept scene w = .error e ↔
      (r.enterScene scene w).isSome = true ∧ r.takeGains w.drag = .error e := by
  unfold accept
  cases r.enterScene scene w with
  | none => simp
  | some entered =>
    simp only [Option.isSome_some, true_and, bind_eq_error_iff]
    refine or_iff_left ?_
    rintro ⟨gains, -, h⟩
    cases h

/-- The phases of a choice that is accepted. -/
structure Choice.Phases (c : Choice) (scene : String) (w : World) where
  paid : List Operation
  gained : List Operation
  around : List Operation
  laid : List Operation
  paid_eq : forAllTags (checkHeld w.drag dragName) c.cost = some paid
  gained_eq : forAllTags (takeInHand w.drag) c.gain = some gained
  around_eq : forAllTags w.checkOnce c.context = some around
  laid_eq : forAllTags (w.layOutNew scene) c.payload = some laid

/-- The operations of all phases. -/
def Choice.Phases.operations {c : Choice} {scene : String} {w : World} (p : c.Phases scene w) :
    List Operation :=
  p.paid ++ p.gained ++ p.around ++ p.laid

/-- A choice is accepted exactly when all its phases are, with the operations of the phases. -/
theorem Choice.accept_eq_some_iff {c : Choice} {scene : String} {w : World} {step : ChoiceStep} :
    c.accept scene w = some step ↔ ∃ p : c.Phases scene w, step = ⟨c.next, p.operations⟩ := by
  unfold accept
  simp only [Option.bind_eq_bind, Option.bind_eq_some_iff, Option.pure_def, Option.some.injEq]
  constructor
  · rintro ⟨paid, hpaid, gained, hgained, around, haround, laid, hlaid, rfl⟩
    exact ⟨⟨paid, gained, around, laid, hpaid, hgained, haround, hlaid⟩, rfl⟩
  · rintro ⟨p, rfl⟩
    exact ⟨p.paid, p.paid_eq, p.gained, p.gained_eq, p.around, p.around_eq, p.laid, p.laid_eq, rfl⟩

/-! ### A world to look at

In the inn a king trades bread for a coin and leads on into the cave, whose dragon is lured away
and leaves a crown. Hands and cave are emptied and filled again in one turn. -/

namespace Inn

def king : Tag := ⟨"king<CAVE>", ⟨.plain, "king", some "CAVE", .unset⟩, by decide, by rfl⟩
def door : Tag := ⟨"door", ⟨.plain, "door", none, .unset⟩, by decide, by rfl⟩
def kingHere : Tag := ⟨"king", ⟨.plain, "king", none, .unset⟩, by decide, by rfl⟩
def gold : Tag := ⟨"gold.7", ⟨.plain, "gold.7", none, .ofValue 7⟩, by decide, by rfl⟩
def enoughGold : Tag := ⟨"?gold.>=5", ⟨.required, "gold.", none, .atLeast 5⟩, by decide, by rfl⟩
def noGhost : Tag := ⟨"!ghost", ⟨.forbidden, "ghost", none, .unset⟩, by decide, by rfl⟩
def dragon : Tag := ⟨"dragon", ⟨.plain, "dragon", none, .unset⟩, by decide, by rfl⟩
def coin : Tag := ⟨"coin", ⟨.plain, "coin", none, .unset⟩, by decide, by rfl⟩
def bread : Tag := ⟨"bread", ⟨.plain, "bread", none, .unset⟩, by decide, by rfl⟩
def crown : Tag := ⟨"crown<cave>", ⟨.plain, "crown", some "cave", .unset⟩, by decide, by rfl⟩
def sword : Tag := ⟨"sword", ⟨.plain, "sword", none, .unset⟩, by decide, by rfl⟩

/-- An inn, a cave and a coin in hand. -/
def world : World :=
  ⟨[⟨"HOME", .ofList [door, gold, kingHere]⟩, ⟨"CAVE", .singleton dragon⟩,
    ⟨"DRAG", .singleton coin⟩]⟩

/-- Bread for a coin, a way into the cave, and a crown for the dragon. -/
def deal : Rule :=
  { target := king, context := .ofList [enoughGold, noGhost, dragon], cost := .singleton coin,
    payload := .ofList [crown, sword], gain := .singleton bread }

/-- A riddle that costs a coin and lures the dragon away. -/
def riddle : Choice :=
  { label := "RIDDLE-1S", next := "RIDDLE-1", context := .ofList [noGhost, dragon],
    cost := .singleton coin, payload := .singleton crown, gain := .singleton bread }

/-- What the deal does: king, coin and dragon go, and bread, a crown and a sword come. -/
def dealOperations : List Operation :=
  [.goto "CAVE", .assertTagIn "king" "HOME", .removeTag "king" "HOME",
    .assertTagIn "coin" "DRAG", .removeTag "coin" "DRAG",
    .assertNoTag "bread" "DRAG", .appendTag "bread" "DRAG",
    .assertNoTag "ghost" "HOME", .assertNoTag "ghost" "CAVE", .assertTagIn "gold.7" "HOME",
    .assertTagIn "dragon" "CAVE", .removeTag "dragon" "CAVE",
    .assertNoTag "crown" "HOME", .assertNoTag "crown" "CAVE", .appendTag "crown" "cave",
    .assertNoTag "sword" "HOME", .assertNoTag "sword" "CAVE", .appendTag "sword" "HOME"]

/-- What the riddle does: coin and dragon go, and bread and a crown come. -/
def riddleOperations : List Operation :=
  [.assertTagIn "coin" "DRAG", .removeTag "coin" "DRAG",
    .assertNoTag "bread" "DRAG", .appendTag "bread" "DRAG",
    .assertNoTag "ghost" "HOME", .assertNoTag "ghost" "CAVE",
    .assertTagIn "dragon" "CAVE", .removeTag "dragon" "CAVE",
    .assertNoTag "crown" "HOME", .assertNoTag "crown" "CAVE", .appendTag "crown" "cave"]

/-- All names of the world are distinct. -/
theorem distinct : world.Distinct := by decide

/-- The deal can be made at home, and has no text. -/
theorem deal_accepted : deal.accept "home" world = .ok (some ⟨none, dealOperations⟩) := by rfl

/-- The riddle can be told, and leads to its first node. -/
theorem riddle_accepted : riddle.accept "home" world = some ⟨"RIDDLE-1", riddleOperations⟩ := by
  rfl

end Inn

end StoryTape
