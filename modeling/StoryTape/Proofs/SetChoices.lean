import Mathlib.Data.List.Sort
import StoryTape.Proofs.AscendingLists
import StoryTape.Proofs.Rounds
import StoryTape.Proofs.WorldContents

/-!
# The sets that a set stands for

A set with templates is expanded one template at a time, and every set that comes out of it is
expanded before the next one. When what the templates stand for is free of templates, a replacement
leaves the other templates as they are: what comes out are the choices of one concrete tag for each
template, put in the places of the templates, in the order of the choices.
-/

namespace StoryTape

/-- One element of each list, in every way. The element of the first list varies slowest. -/
def choices {α : Type} : List (List α) → List (List α)
  | [] => [[]]
  | first :: rest => first.flatMap fun a => (choices rest).map (a :: ·)

/-- There is no choice when one list is empty. -/
theorem choices_eq_nil {α : Type} {lists : List (List α)} (h : [] ∈ lists) :
    choices lists = [] := by
  induction lists with
  | nil => cases h
  | cons first rest ih =>
    rw [choices]
    rcases List.mem_cons.mp h with rfl | h
    · rfl
    · simp [ih h]

example : choices [[1, 2], [], [3]] = [] ∧ choices [[1, 1], [3, 4]] =
    [[1, 3], [1, 4], [1, 3], [1, 4]] := by decide

namespace TagSet

/-- A tag is a member when the set has its text. -/
theorem mem_tags_iff_hasRaw {s : TagSet} {t : Tag} : t ∈ s.tags ↔ s.hasRaw t.raw = true := by
  rw [hasRaw_eq_true_iff]
  constructor
  · exact fun ht => ⟨t, ht, rfl⟩
  · rintro ⟨t', ht', hraw⟩
    exact Tag.ext_raw hraw ▸ ht'

/-- A set is determined by its members. -/
theorem ext_mem {a b : TagSet} (h : ∀ t, t ∈ a.tags ↔ t ∈ b.tags) : a = b := by
  have hnodup : ∀ s : TagSet, s.tags.Nodup := fun s =>
    List.Pairwise.imp (fun {t t'} (hlt : t.raw < t'.raw) (heq : t = t') =>
      String.lt_irrefl _ (heq ▸ hlt)) s.sorted
  have hperm : a.tags.Perm b.tags := (List.perm_ext_iff_of_nodup (hnodup a) (hnodup b)).mpr h
  refine ext_tags (hperm.eq_of_pairwise (fun t t' _ _ hlt hgt => ?_) a.sorted b.sorted)
  exact absurd (String.lt_trans hlt hgt) (String.lt_irrefl _)

/-- The set made from tags has these members. -/
theorem mem_ofList {tags : List Tag} {t : Tag} : t ∈ (ofList tags).tags ↔ t ∈ tags := by
  rw [mem_tags_iff_hasRaw, hasRaw_ofList]
  constructor
  · rintro ⟨t', ht', hraw⟩
    exact Tag.ext_raw hraw ▸ ht'
  · exact fun ht => ⟨t, ht, rfl⟩

/-- Replacing a tag by another leaves the other members. -/
theorem mem_replace {s : TagSet} {old new t : Tag} :
    t ∈ (s.replace old new).tags ↔ t = new ∨ t ∈ s.tags ∧ t ≠ old := by
  rw [mem_tags_iff_hasRaw, replace, hasRaw_insert, ← mem_tags_iff_hasRaw, Tag.raw_inj, eq_comm]
  simp [filter]

/-- The templates among the members, in order. -/
def templates (s : TagSet) : List Tag := s.tags.filter Tag.isTemplate

/-- The set with the given tags in the places of its templates. -/
def withChoice (s : TagSet) (choice : List Tag) : TagSet :=
  ofList (s.tags.filter (!·.isTemplate) ++ choice)

/-- The members with a choice are those that are no templates, and what was chosen. -/
theorem mem_withChoice {s : TagSet} {choice : List Tag} {t : Tag} :
    t ∈ (s.withChoice choice).tags ↔ t ∈ s.tags ∧ t.isTemplate = false ∨ t ∈ choice := by
  simp [withChoice, mem_ofList]

/-- Where there is nothing to choose the set stays. -/
theorem withChoice_nil {s : TagSet} (h : s.templates = []) : s.withChoice [] = s := by
  refine ext_mem fun t => ?_
  have hconcrete : t ∈ s.tags → t.isTemplate = false := fun ht => by
    simpa using List.filter_eq_nil_iff.mp h t ht
  rw [mem_withChoice]
  constructor
  · rintro (⟨ht, -⟩ | ht)
    · exact ht
    · cases ht
  · exact fun ht => .inl ⟨ht, hconcrete ht⟩

/-- The template to be replaced is the first in order. -/
theorem firstTemplate?_eq_head? (s : TagSet) : s.firstTemplate? = s.templates.head? :=
  List.head?_filter.symm

section FirstTemplate

variable {s : TagSet} {t : Tag} {ts : List Tag}

/-- Once the first template is replaced by a concrete tag, the others are left. -/
theorem templates_replace (h : s.templates = t :: ts) {e : Tag} (he : e.isTemplate = false) :
    (s.replace t e).templates = ts := by
  have hsorted : Ascending.Sorted Tag.raw (t :: ts) := h ▸ Ascending.sorted_filter s.sorted _
  obtain ⟨hfirst, hrest⟩ := List.pairwise_cons.mp hsorted
  have hne : ∀ t' ∈ ts, t' ≠ t := fun t' ht' heq =>
    String.lt_irrefl _ (heq ▸ hfirst t' ht')
  have hmem : ∀ t', t' ∈ (s.replace t e).templates ↔ t' ∈ ts := by
    intro t'
    have htemplates : t' ∈ s.tags ∧ t'.isTemplate = true ↔ t' = t ∨ t' ∈ ts := by
      rw [← List.mem_filter, ← List.mem_cons, ← h]
      rfl
    rw [templates, List.mem_filter, mem_replace]
    constructor
    · rintro ⟨rfl | ⟨ht', hother⟩, htemplate⟩
      · rw [he] at htemplate
        cases htemplate
      · exact (htemplates.mp ⟨ht', htemplate⟩).resolve_left hother
    · intro ht'
      obtain ⟨hs, htemplate⟩ := htemplates.mpr (.inr ht')
      exact ⟨.inr ⟨hs, hne t' ht'⟩, htemplate⟩
  have hreplaced : Ascending.Sorted Tag.raw (s.replace t e).templates :=
    Ascending.sorted_filter (s.replace t e).sorted _
  exact congrArg tags (ext_mem (a := ⟨_, hreplaced⟩) (b := ⟨ts, hrest⟩) hmem)

/-- A choice that starts with the replacement of the first template is made of the others. -/
theorem withChoice_replace (ht : t.isTemplate = true) {e : Tag} (he : e.isTemplate = false)
    (choice : List Tag) : (s.replace t e).withChoice choice = s.withChoice (e :: choice) := by
  refine ext_mem fun t' => ?_
  rw [mem_withChoice, mem_withChoice, mem_replace, List.mem_cons]
  constructor
  · rintro (⟨rfl | ⟨ht', -⟩, hconcrete⟩ | ht')
    · exact .inr (.inl rfl)
    · exact .inl ⟨ht', hconcrete⟩
    · exact .inr (.inr ht')
  · rintro (⟨ht', hconcrete⟩ | rfl | ht')
    · refine .inl ⟨.inr ⟨ht', fun heq => ?_⟩, hconcrete⟩
      rw [heq, ht] at hconcrete
      cases hconcrete
    · exact .inl ⟨.inl rfl, he⟩
    · exact .inr ht'

/-- The first template is replaced by each of the concrete tags it stands for. -/
theorem replacements_eq {pool : TagSet} (h : s.templates = t :: ts) {found : List Tag}
    (hexpand : t.expand pool.tags = .ok found) (hconcrete : ∀ e ∈ found, e.isTemplate = false) :
    s.replacements pool = .ok (some (found.map (s.replace t))) := by
  have htemplate : t.isTemplate = true := by
    have hmem : t ∈ s.templates := h ▸ List.mem_cons_self
    exact (List.mem_filter.mp hmem).2
  have hother : found ≠ [t] := by
    rintro rfl
    rw [hconcrete t List.mem_cons_self] at htemplate
    cases htemplate
  rw [replacements, firstTemplate?_eq_head?, h, List.head?_cons]
  simp [hexpand, hother, Bind.bind, Except.bind, Pure.pure, Except.pure]

end FirstTemplate

end TagSet

namespace Worklist

variable {pool : TagSet}

/-- The sets are worked off without fault, and these are the sets that are kept, in order. -/
inductive Keeps (pool : TagSet) : List TagSet → List TagSet → Prop
  | nil : Keeps pool [] []
  | keep {s : TagSet} {rest kept : List TagSet} (h : s.replacements pool = .ok none)
      (hrest : Keeps pool rest kept) : Keeps pool (s :: rest) (s :: kept)
  | replace {s : TagSet} {sets rest kept : List TagSet}
      (h : s.replacements pool = .ok (some sets)) (hrest : Keeps pool (sets ++ rest) kept) :
      Keeps pool (s :: rest) kept

/-- Sets worked off one after the other are kept in that order. -/
theorem Keeps.append {xs ys kept kept' : List TagSet} (hx : Keeps pool xs kept)
    (hy : Keeps pool ys kept') : Keeps pool (xs ++ ys) (kept ++ kept') := by
  induction hx with
  | nil => exact hy
  | keep h _ ih => exact .keep h ih
  | replace h _ ih =>
    rw [List.append_assoc] at ih
    exact .replace h ih

/-- Sets that are each worked off are worked off one after the other. -/
theorem keeps_flatMap {α : Type} {set : α → TagSet} {kept : α → List TagSet} {xs : List α}
    (h : ∀ a ∈ xs, Keeps pool [set a] (kept a)) : Keeps pool (xs.map set) (xs.flatMap kept) := by
  induction xs with
  | nil => exact .nil
  | cons a xs ih =>
    rw [List.map_cons, List.flatMap_cons]
    exact (h a List.mem_cons_self).append (ih fun b hb => h b (List.mem_cons_of_mem a hb))

/-- Sets that are worked off have those kept for a result. -/
theorem Keeps.resultWithin {pending kept : List TagSet} (h : Keeps pool pending kept)
    (resolved : List TagSet) :
    ∃ n, Worklist.resultWithin pool n ⟨pending, resolved⟩ =
      some (.ok (resolved.reverse ++ kept)) := by
  induction h generalizing resolved with
  | nil => exact ⟨1, by simp [Worklist.resultWithin, round]⟩
  | @keep s rest kept h _ ih =>
    obtain ⟨n, hn⟩ := ih (s :: resolved)
    refine ⟨n + 1, ?_⟩
    simp only [Worklist.resultWithin, round, h, hn]
    simp
  | replace h _ ih =>
    obtain ⟨n, hn⟩ := ih resolved
    exact ⟨n + 1, by simp only [Worklist.resultWithin, round, h]; exact hn⟩

/-- A set that is worked off expands to the sets that are kept. -/
theorem Keeps.expand_eq {s : TagSet} {kept : List TagSet} (h : Keeps pool [s] kept) :
    s.expand pool = .ok kept := by
  obtain ⟨n, hn⟩ := h.resultWithin []
  exact TagSet.expand_of_resultWithin hn

end Worklist

/-- What is kept of a set are the choices among what its templates stand for. -/
theorem TagSet.keeps_choices {pool : TagSet} {found : Tag → List Tag} {ts : List Tag} :
    ∀ {s : TagSet}, s.templates = ts →
      (∀ t ∈ ts, t.expand pool.tags = .ok (found t) ∧ ∀ e ∈ found t, e.isTemplate = false) →
      Worklist.Keeps pool [s] ((choices (ts.map found)).map s.withChoice) := by
  induction ts with
  | nil =>
    intro s hs _
    have hnone : s.replacements pool = .ok none := by
      rw [replacements, firstTemplate?_eq_head?, hs, List.head?_nil]
    have hself : (choices (([] : List Tag).map found)).map s.withChoice = [s] := by
      simp [choices, withChoice_nil hs]
    rw [hself]
    exact .keep hnone .nil
  | cons t ts ih =>
    intro s hs hfound
    obtain ⟨hexpand, hconcrete⟩ := hfound t List.mem_cons_self
    have htemplate : t.isTemplate = true := by
      have hmem : t ∈ s.templates := hs ▸ List.mem_cons_self
      exact (List.mem_filter.mp hmem).2
    have hchoices : (choices ((t :: ts).map found)).map s.withChoice = (found t).flatMap fun e =>
        (choices (ts.map found)).map fun choice => s.withChoice (e :: choice) := by
      simp [choices, List.map_flatMap, Function.comp_def]
    rw [hchoices]
    refine .replace (replacements_eq hs hexpand hconcrete) ?_
    rw [List.append_nil]
    refine Worklist.keeps_flatMap fun e he => ?_
    have hset : (fun choice => s.withChoice (e :: choice)) = (s.replace t e).withChoice :=
      funext fun choice => (withChoice_replace htemplate (hconcrete e he) choice).symm
    rw [hset]
    exact ih (templates_replace hs (hconcrete e he)) fun t' ht' =>
      hfound t' (List.mem_cons_of_mem t ht')

/-- **A set stands for the choices among what its templates stand for.** When each template of a
set stands for concrete tags, the set stands for the sets with one of these tags in the place of
each template: one set for each choice, ordered by what is chosen for the first template, then for
the second, and so on, the templates being in the order of their texts. So it stands for no set when
a template stands for nothing, and for itself when it has no template. -/
theorem TagSet.expand_eq_choices {s pool : TagSet} {found : Tag → List Tag}
    (hfound : ∀ t ∈ s.templates, t.expand pool.tags = .ok (found t))
    (hconcrete : ∀ t ∈ s.templates, ∀ e ∈ found t, e.isTemplate = false) :
    s.expand pool = .ok ((choices (s.templates.map found)).map s.withChoice) ∧
      Ascending.Sorted Tag.raw s.templates ∧
      ((∃ t ∈ s.templates, found t = []) → s.expand pool = .ok []) ∧
      (s.templates = [] → s.expand pool = .ok [s]) := by
  have hall : s.expand pool = .ok ((choices (s.templates.map found)).map s.withChoice) :=
    (keeps_choices rfl fun t ht => ⟨hfound t ht, hconcrete t ht⟩).expand_eq
  refine ⟨hall, Ascending.sorted_filter s.sorted _, ?_, ?_⟩
  · rintro ⟨t, ht, hnil⟩
    have hmem : [] ∈ s.templates.map found := List.mem_map.mpr ⟨t, ht, hnil⟩
    rw [hall, choices_eq_nil hmem, List.map_nil]
  · intro hnone
    rw [hall, hnone]
    simp [choices, withChoice_nil hnone]

/-! ### A purse to choose

One of two coins becomes a coin more, and one of two gems is taken with it; the hero stays. -/

namespace Purse

def hero : Tag := ⟨"hero", ⟨.plain, "hero", none, .unset⟩, by decide, by rfl⟩
def more : Tag := ⟨"coin.++", ⟨.plain, "coin.", none, .ofStep 1⟩, by decide, by rfl⟩
def anyGem : Tag := ⟨"gem.*", ⟨.plain, "gem.*", none, .unset⟩, by decide, by rfl⟩
def one : Tag := ⟨"coin.1", ⟨.plain, "coin.1", none, .ofValue 1⟩, by decide, by rfl⟩
def two : Tag := ⟨"coin.2", ⟨.plain, "coin.2", none, .ofValue 2⟩, by decide, by rfl⟩
def three : Tag := ⟨"coin.3", ⟨.plain, "coin.3", none, .ofValue 3⟩, by decide, by rfl⟩
def jade : Tag := ⟨"gem.a", ⟨.plain, "gem.a", none, .unset⟩, by decide, by rfl⟩
def ruby : Tag := ⟨"gem.b", ⟨.plain, "gem.b", none, .unset⟩, by decide, by rfl⟩

/-- What the two templates stand for. -/
def found (t : Tag) : List Tag := if t = more then [two, three] else [jade, ruby]

end Purse

/-- Four purses are there to choose, the coins varying slowest. -/
theorem purse_chosen :
    (TagSet.ofList [Purse.hero, Purse.anyGem, Purse.more]).templates = [Purse.more, Purse.anyGem] ∧
      (TagSet.ofList [Purse.hero, Purse.anyGem, Purse.more]).expand
          (.ofList [Purse.one, Purse.two, Purse.jade, Purse.ruby]) =
        .ok [.ofList [Purse.two, Purse.jade, Purse.hero],
          .ofList [Purse.two, Purse.ruby, Purse.hero],
          .ofList [Purse.three, Purse.jade, Purse.hero],
          .ofList [Purse.three, Purse.ruby, Purse.hero]] := by
  have htemplates : (TagSet.ofList [Purse.hero, Purse.anyGem, Purse.more]).templates =
      [Purse.more, Purse.anyGem] := by decide
  have hfound : ∀ t ∈ (TagSet.ofList [Purse.hero, Purse.anyGem, Purse.more]).templates,
      t.expand (TagSet.ofList [Purse.one, Purse.two, Purse.jade, Purse.ruby]).tags =
        .ok (Purse.found t) := by
    rw [htemplates]
    simp only [List.forall_mem_cons]
    exact ⟨by rfl, by rfl, nofun⟩
  have hconcrete : ∀ t ∈ (TagSet.ofList [Purse.hero, Purse.anyGem, Purse.more]).templates,
      ∀ e ∈ Purse.found t, e.isTemplate = false := by
    rw [htemplates]
    decide
  have hchosen := (TagSet.expand_eq_choices hfound hconcrete).1
  refine ⟨htemplates, ?_⟩
  rw [hchosen, htemplates]
  exact congrArg Except.ok (by decide)

end StoryTape
