import StoryTape.Proofs.CompiledTapes
import StoryTape.Proofs.Histories

/-!
# Whether what is on offer can be played

Acceptance looks at the world as it is, while playing takes tags out one after the other and a place
vanishes with its last tag. So an action or choice on offer can fail when it is played, in two ways:
it puts down an identifier that reads as no tag, or it takes from a place that it has emptied
itself. Both can be read off its operations, and nothing else can go wrong.
-/

namespace StoryTape

open Text

/-- Every text that is put somewhere reads as a tag. -/
def Readable (ops : List Operation) : Prop :=
  ∀ text place, .appendTag text place ∈ ops → ∃ tag, Tag.parse text = .ok tag

/-- Whenever something is taken from a place, a tag is left there by what was taken before. -/
def FindsPlaces (w : World) (ops : List Operation) : Prop :=
  ∀ before text place after, ops = before ++ .removeTag text place :: after →
    ∃ raw, w.HoldsRaw raw place ∧ ¬ Removes before raw place

/-- No text is taken out of one place twice. -/
def TakesOnce (ops : List Operation) : Prop :=
  ops.Pairwise fun a b => ∀ text name name',
    a = .removeTag text name → b = .removeTag text name' → sameName name name' = false

/-- The text of every tag is its identifier: no sign, no location, no step, no bound, no range. -/
def World.Plain (w : World) : Prop := ∀ l ∈ w.locations, ∀ t ∈ l.tags.tags, t.raw = t.value

instance (w : World) : Decidable w.Plain :=
  inferInstanceAs (Decidable (∀ l ∈ w.locations, ∀ t ∈ l.tags.tags, t.raw = t.value))

namespace Accepts

variable {w : World} {scene : String} {ops : List Operation}

/-- What is taken from a place was found there. -/
theorem holdsValue_of_removal (hw : w.Distinct) (h : Accepts w scene ops)
    {before after : List Operation} {text place : String}
    (hsplit : ops = before ++ .removeTag text place :: after) : w.HoldsValue text place := by
  have htruthful := h.truthful hw
  obtain ⟨earlier, rfl⟩ := htruthful.removed before after text place hsplit
  exact htruthful.found text place (by rw [hsplit]; simp)

/-- Nothing has been put into a place that something is taken from. -/
theorem not_appends_of_removal (h : Accepts w scene ops) {before after : List Operation}
    {text place : String} (hsplit : ops = before ++ .removeTag text place :: after) :
    ¬ ∃ put, Appends before put place := by
  rintro ⟨put, name, hmem, hname⟩
  have hfirst := h.takesFirst
  rw [hsplit, TakesFirst, List.pairwise_append] at hfirst
  have hdiff := hfirst.2.2 _ hmem _ List.mem_cons_self put text name place rfl rfl
  rw [hname] at hdiff
  cases hdiff

/-- A place that something is taken from is there exactly when a tag has been left in it. -/
theorem hasPlace_before_removal (hw : w.Distinct) (h : Accepts w scene ops)
    {before after : List Operation} {text place : String}
    (hsplit : ops = before ++ .removeTag text place :: after) {w₁ : World} {scene₁ : String}
    (hbefore : w.applyInScene scene before = .ok (w₁, scene₁)) :
    w₁.HasPlace place ↔ ∃ raw, w.HoldsRaw raw place ∧ ¬ Removes before raw place := by
  have hfirst : TakesFirst before := by
    have hall := h.takesFirst
    rw [hsplit, TakesFirst, List.pairwise_append] at hall
    exact hall.1
  rw [hw.hasPlace_applyInScene hfirst hbefore, or_iff_right (h.not_appends_of_removal hsplit)]
  constructor
  · rintro ⟨-, hkeeps⟩
    by_cases htaken : ∃ text, Removes before text place
    · exact hkeeps htaken
    · obtain ⟨l, hl, hname, hvalue⟩ := h.holdsValue_of_removal hw hsplit
      obtain ⟨t, ht, -⟩ := TagSet.hasValue_eq_true_iff.mp hvalue
      have hraw : w.HoldsRaw t.raw place :=
        ⟨l, hl, hname, TagSet.hasRaw_eq_true_iff.mpr ⟨t, ht, rfl⟩⟩
      exact ⟨t.raw, hraw, fun htakes => htaken ⟨t.raw, htakes⟩⟩
  · rintro ⟨raw, hraw, hleft⟩
    exact ⟨hraw.hasPlace, fun _ => ⟨raw, hraw, hleft⟩⟩

/-- What can be applied puts only texts that read as tags. -/
theorem readable_of_applied (h : ∃ r, w.applyInScene scene ops = .ok r) : Readable ops := by
  intro text place hmem
  obtain ⟨before, after, hsplit⟩ := List.append_of_mem hmem
  obtain ⟨w₁, scene₁, -, r, hop⟩ := World.exists_applied_of_split h hsplit
  obtain ⟨tag, hparse, -⟩ := bind_eq_ok_iff.mp hop
  exact ⟨tag, mapError_eq_ok_iff.mp hparse⟩

/-- What can be applied leaves a tag in every place it takes more from. -/
theorem findsPlaces_of_applied (hw : w.Distinct) (haccepts : Accepts w scene ops)
    (h : ∃ r, w.applyInScene scene ops = .ok r) : FindsPlaces w ops := by
  intro before text place after hsplit
  obtain ⟨w₁, scene₁, hbefore, ⟨w₂, scene₂⟩, hop⟩ := World.exists_applied_of_split h hsplit
  refine (haccepts.hasPlace_before_removal hw hsplit hbefore).mp ?_
  obtain ⟨-, ⟨tag, name, ls, hremove, htake, -⟩ | ⟨_, _, _, hput, -⟩ | ⟨hother, -⟩⟩ :=
    World.applyOne_cases hop
  · cases hremove
    exact World.takeTag_isSome_iff.mp ⟨ls, htake⟩
  · cases hput
  · exact absurd rfl (hother text place)

/-- Accepted operations apply exactly when all they put down reads as tags and no place they take
from has been emptied by them. -/
theorem applies_iff (hw : w.Distinct) (h : Accepts w scene ops) :
    (∃ r, w.applyInScene scene ops = .ok r) ↔ Readable ops ∧ FindsPlaces w ops := by
  refine ⟨fun happly => ⟨readable_of_applied happly, h.findsPlaces_of_applied hw happly⟩, ?_⟩
  rintro ⟨hread, hfinds⟩
  refine World.applyInScene_isOk_iff.mpr fun before op after w₁ scene₁ hsplit hbefore => ?_
  cases op with
  | removeTag text place =>
    have hthere := (h.hasPlace_before_removal hw hsplit hbefore).mpr
      (hfinds before text place after hsplit)
    obtain ⟨ls, htake⟩ := World.takeTag_isSome_iff.mpr hthere
    exact ⟨(⟨ls⟩, scene₁), by rw [World.applyOne, htake]⟩
  | appendTag text place =>
    obtain ⟨tag, hparse⟩ := hread text place (by rw [hsplit]; simp)
    exact ⟨_, bind_eq_ok_iff.mpr ⟨tag, mapError_eq_ok_iff.mpr hparse, rfl⟩⟩
  | _ => exact ⟨_, rfl⟩

/-- Where tags are plain, what is found has the text that is taken, so it is still there unless it
was taken before. -/
theorem findsPlaces_of_plain (hw : w.Distinct) (h : Accepts w scene ops) (hplain : w.Plain)
    (honce : TakesOnce ops) : FindsPlaces w ops := by
  intro before text place after hsplit
  obtain ⟨l, hl, hname, hvalue⟩ := h.holdsValue_of_removal hw hsplit
  obtain ⟨t, ht, rfl⟩ := TagSet.hasValue_eq_true_iff.mp hvalue
  have hraw : w.HoldsRaw t.value place :=
    ⟨l, hl, hname, TagSet.hasRaw_eq_true_iff.mpr ⟨t, ht, hplain l hl t ht⟩⟩
  refine ⟨t.value, hraw, ?_⟩
  rintro ⟨name, hmem, hsame⟩
  rw [hsplit, TakesOnce, List.pairwise_append] at honce
  have hdiff := honce.2.2 _ hmem _ List.mem_cons_self t.value name place rfl rfl
  rw [hsame] at hdiff
  cases hdiff

end Accepts

/-- **What is on offer can be played unless it undermines itself.** In every world that a
playthrough of a compiled tape gets to, the operations of an action or choice on offer apply exactly
when all they put down reads as tags and no place they take from has been emptied by them. So in a
world of plain tags they apply if, besides, nothing is taken from one place twice. -/
theorem offered_operations_apply_iff {t : Tape} (ht : Script.Compiled t) {p : Playthrough}
    (hp : Playthrough.Reached t p) {ops : List Operation} {text : Option String}
    (hoffer : p.Offers ops text) :
    ((∃ r, p.world.applyInScene p.scene ops = .ok r) ↔ Readable ops ∧ FindsPlaces p.world ops) ∧
      (p.world.Plain → Readable ops → TakesOnce ops →
        ∃ r, p.world.applyInScene p.scene ops = .ok r) := by
  have hw : p.world.Distinct := hp.distinct ht.distinct
  have haccepts := hoffer.accepts
  refine ⟨haccepts.applies_iff hw, fun hplain hread honce => ?_⟩
  exact (haccepts.applies_iff hw).mpr ⟨hread, haccepts.findsPlaces_of_plain hw hplain honce⟩

/-! ### Two scripts to look at

In the throne room a king is crowned away: the hall vanishes, but only with the last of the two tags
that the rule takes. In the duel the king is both met and paid, and the hall is gone before he is
paid. -/

namespace Throne

def crown : Tag := Inn.crownThere
def king : Tag := Inn.kingHere

/-- Dropping the crown onto the king takes both out of the hall. -/
def script : String := "== THRONE [HALL, crown;king]\n++ -\x7bcrown\x7d[king]->()"

/-- A hall with a crown and a king. -/
def tape : Tape :=
  { label := "THRONE", world := ⟨[⟨"HALL", .ofList [crown, king]⟩]⟩,
    rules := [{ target := king, cost := .singleton crown, drag := false }] }

/-- Where the tape starts. -/
def opening : Playthrough := { tape, current := { world := tape.world, scene := "HALL" } }

/-- The crown is dropped onto the king. -/
def coronation : List Operation :=
  [.assertTagIn "king" "HALL", .removeTag "king" "HALL",
    .assertTagIn "crown" "HALL", .removeTag "crown" "HALL"]

/-- The tape is compiled from the script. -/
theorem compiled : Script.Compiled tape :=
  Script.compiled_of_tapes script [tape] (by decide +kernel)
    List.mem_cons_self

/-- The tape starts at its opening. -/
theorem starts : Playthrough.start tape none = .ok opening := by rfl

/-- The coronation is on offer at the opening. -/
theorem offered : opening.Offers coronation none :=
  .inl ⟨⟨[⟨"Drag the crown onto the king. ", none, coronation⟩]⟩, by rfl, _, List.mem_cons_self,
    rfl, rfl⟩

end Throne

/-- The coronation can be played: the hall is there until its last tag is taken. -/
theorem coronation_applies :
    Script.Compiled Throne.tape ∧ Playthrough.Reached Throne.tape Throne.opening ∧
      Throne.opening.Offers Throne.coronation none ∧ Throne.tape.world.Plain ∧
      ∃ r, Throne.tape.world.applyInScene "HALL" Throne.coronation = .ok r := by
  have hreached : Playthrough.Reached Throne.tape Throne.opening := .start Throne.starts
  have hplain : Throne.tape.world.Plain := by decide
  have hread : Readable Throne.coronation := by simp [Readable, Throne.coronation]
  have honce : TakesOnce Throne.coronation := by
    simp only [TakesOnce, Throne.coronation, List.pairwise_cons, List.mem_cons, List.not_mem_nil,
      or_false, reduceCtorEq, IsEmpty.forall_iff, implies_true, Operation.removeTag.injEq, and_imp,
      forall_eq_or_imp, forall_eq, true_and, List.Pairwise.nil, and_self, and_true]
    intro text name name' hking _ hcrown
    exact absurd (hking.trans hcrown.symm) (by decide)
  have happlies := offered_operations_apply_iff Throne.compiled hreached Throne.offered
  exact ⟨Throne.compiled, hreached, Throne.offered, hplain, happlies.2 hplain hread honce⟩

namespace Duel

/-- The king is dropped onto himself. -/
def script : String := "== DUEL [HALL, king]\n++ -\x7bking\x7d[king]->()"

/-- A hall with a king alone. -/
def tape : Tape :=
  { label := "DUEL", world := ⟨[⟨"HALL", .singleton Throne.king⟩]⟩,
    rules := [{ target := Throne.king, cost := .singleton Throne.king, drag := false }] }

/-- Where the tape starts. -/
def opening : Playthrough := { tape, current := { world := tape.world, scene := "HALL" } }

/-- What the blow does: the king is taken out twice. -/
def blow : List Operation :=
  [.assertTagIn "king" "HALL", .removeTag "king" "HALL",
    .assertTagIn "king" "HALL", .removeTag "king" "HALL"]

end Duel

/-- The blow is on offer in a compiled tape, and playing it fails: the king is taken out of a hall
that vanished with him. -/
theorem blow_offered_fails :
    Script.Compiled Duel.tape ∧ Playthrough.Reached Duel.tape Duel.opening ∧
      Duel.opening.Offers Duel.blow none ∧
      Duel.opening.world.applyInScene Duel.opening.scene Duel.blow =
        .error { cause := .removeFromNowhere "king" "HALL", phase := .play } := by
  have hcompiled : Script.Compiled Duel.tape :=
    Script.compiled_of_tapes Duel.script [Duel.tape] (by decide +kernel)
      List.mem_cons_self
  have hstart : Playthrough.start Duel.tape none = .ok Duel.opening := by rfl
  have hactions : Duel.opening.actions =
      .ok ⟨[⟨"Drag the king onto the king. ", none, Duel.blow⟩]⟩ := by rfl
  exact ⟨hcompiled, .start hstart, .inl ⟨_, hactions, _, List.mem_cons_self, rfl, rfl⟩, by rfl⟩

end StoryTape
