import StoryTape.ActionList
import StoryTape.Script.StateLine
import StoryTape.Proofs.ExpansionEnds
import StoryTape.Proofs.PlainPool

/-!
# When rulebooks are expanded to the end

The actions on offer are found by expanding the sets of all rules, each against the tags of a
location or against what a concrete rule consumes. When they are not found because an expansion
has no end, one of these sets is to blame. A pool tag with a star of its own can make an expansion
endless, so the tags that a world may declare do not rule this out.
-/

namespace StoryTape

/-- A checked result is never endless. -/
theorem toExpanded_ne_endless {α : Type} {r : Checked α} : r.toExpanded ≠ .error .endless := by
  intro h
  cases r with
  | ok a => cases h
  | error e => cases h

/-- Expanding a single tag is no endless matter. -/
theorem Tag.expand_ne_endless {t : Tag} {pool : List Tag} : t.expand pool ≠ .error .endless := by
  have hmap : ∀ {tags : List Tag} {f : Tag → Checked Tag},
      (tags.mapM fun tag => (f tag).toExpanded) ≠ .error .endless := by
    intro tags f h
    obtain ⟨tag, -, htag⟩ := exists_of_mapM_error h
    exact toExpanded_ne_endless htag
  have hwild : ∀ w, t.expandWildcard w pool ≠ .error .endless := by
    intro w h
    rcases bind_eq_error_iff.mp h with h | ⟨found, -, h⟩
    · exact hmap h
    · split at h
      · cases h
      · split at h
        · cases h
        · split at h
          · rw [expandDroppingFirst] at h
            split at h
            · cases h
            · exact hmap h
          · rw [expandDroppingLast] at h
            split at h
            · cases h
            · exact hmap h
          · cases h
  intro h
  rw [expand] at h
  split at h
  · cases h
  · split at h
    · exact hwild _ h
    · split at h
      · exact hmap h
      · repeat' split at h
        all_goals cases h

namespace TagSet

/-- The replacements of one set are never endless. -/
theorem replacements_ne_endless {s pool : TagSet} : s.replacements pool ≠ .error .endless := by
  intro h
  rw [replacements] at h
  split at h
  · cases h
  · rcases bind_eq_error_iff.mp h with h | ⟨found, -, h⟩
    · exact Tag.expand_ne_endless h
    · cases h

/-- A result that comes about within some rounds is not endless. -/
theorem resultWithin_ne_endless {pool : TagSet} {n : Nat} {l : Worklist} :
    Worklist.resultWithin pool n l ≠ some (.error .endless) := by
  induction n generalizing l with
  | zero => simp [Worklist.resultWithin]
  | succ n ih =>
    rw [Worklist.resultWithin]
    cases hround : l.round pool with
    | inr next => exact ih
    | inl result =>
      rw [Worklist.round] at hround
      split at hround
      · cases hround
        intro hend
        cases hend
      · split at hround
        · next fault hfault =>
          cases hround
          intro hend
          rw [Option.some.injEq, Except.error.injEq] at hend
          exact replacements_ne_endless (hend ▸ hfault)
        · cases hround
        · cases hround

/-- The fault of an endless expansion is the mark of a run without end. -/
theorem expand_eq_endless_iff {s pool : TagSet} :
    s.expand pool = .error .endless ↔ ¬ s.ExpansionEnds pool := by
  rw [expand]
  cases hrun : Worklist.run pool { pending := [s] } with
  | none =>
    have hnot : ¬ s.ExpansionEnds pool := by
      rintro ⟨n, r, hr⟩
      rw [Worklist.run_eq_some_iff.mpr ⟨n, hr⟩] at hrun
      cases hrun
    simp [hnot]
  | some r =>
    obtain ⟨n, hn⟩ := Worklist.run_eq_some_iff.mp hrun
    have hne : r ≠ .error .endless := fun hr => resultWithin_ne_endless (hr ▸ hn)
    have hends : s.ExpansionEnds pool := ⟨n, r, hn⟩
    simp [hne, hends]

end TagSet

namespace Rule

/-- What a concrete rule made from the rule consumes. -/
def Consumes (r : Rule) (w : World) (pool : TagSet) : Prop :=
  ∃ targets contexts costs, r.targets w = .ok targets ∧
    expandPerLocation r.context w = .ok contexts ∧ expandPerLocation r.cost w = .ok costs ∧
    ∃ target ∈ targets, ∃ context ∈ contexts, ∃ cost ∈ costs,
      pool = TagSet.union [.singleton target, context, cost]

/-- The sets that are expanded for a rule, with the pools they are expanded against. -/
inductive Consults (r : Rule) (w : World) : TagSet → TagSet → Prop
  | context {l : Location} (hl : l ∈ w.locations) : Consults r w r.context l.tags
  | cost {l : Location} (hl : l ∈ w.locations) : Consults r w r.cost l.tags
  | payload {pool : TagSet} (h : r.Consumes w pool) : Consults r w r.payload pool
  | gain {pool : TagSet} (h : r.Consumes w pool) : Consults r w r.gain pool

/-- What cannot be collected is the fault of an element. -/
theorem exists_of_collect_error {α β : Type} {xs : List α} {f : α → Expanded (List β)}
    {e : ExpansionFault} (h : collect xs f = .error e) : ∃ a ∈ xs, f a = .error e := by
  rcases bind_eq_error_iff.mp h with h | ⟨_, -, h⟩
  · exact exists_of_mapM_error h
  · cases h

/-- The targets of a rule are never endless. -/
theorem targets_ne_endless {r : Rule} {w : World} : r.targets w ≠ .error .endless := by
  intro h
  rw [targets] at h
  split at h
  · obtain ⟨l, -, hl⟩ := exists_of_collect_error h
    exact Tag.expand_ne_endless hl
  · cases h

/-- An endless expansion in a world is endless against some location. -/
theorem exists_of_expandPerLocation_endless {s : TagSet} {w : World}
    (h : expandPerLocation s w = .error .endless) :
    ∃ l ∈ w.locations, ¬ s.ExpansionEnds l.tags := by
  rw [expandPerLocation] at h
  split at h
  · obtain ⟨l, hl, hendless⟩ := exists_of_collect_error h
    exact ⟨l, hl, TagSet.expand_eq_endless_iff.mp hendless⟩
  · cases h

/-- An endless expansion against a pool does not end. -/
theorem not_ends_of_expandAgainst_endless {s pool : TagSet}
    (h : expandAgainst s pool = .error .endless) : ¬ s.ExpansionEnds pool := by
  rw [expandAgainst] at h
  split at h
  · exact TagSet.expand_eq_endless_iff.mp h
  · cases h

/-- When a rule is not expanded to the end, one of the sets expanded for it is to blame. -/
theorem exists_consults_of_variants_endless {r : Rule} {w : World}
    (h : r.variants w = .error .endless) :
    ∃ s pool, r.Consults w s pool ∧ ¬ s.ExpansionEnds pool := by
  rcases bind_eq_error_iff.mp h with h | ⟨targets, htargets, h⟩
  · exact absurd h targets_ne_endless
  obtain ⟨target, htarget, h⟩ := exists_of_collect_error h
  rcases bind_eq_error_iff.mp h with h | ⟨contexts, hcontexts, h⟩
  · obtain ⟨l, hl, hends⟩ := exists_of_expandPerLocation_endless h
    exact ⟨_, _, .context hl, hends⟩
  obtain ⟨context, hcontext, h⟩ := exists_of_collect_error h
  rcases bind_eq_error_iff.mp h with h | ⟨costs, hcosts, h⟩
  · obtain ⟨l, hl, hends⟩ := exists_of_expandPerLocation_endless h
    exact ⟨_, _, .cost hl, hends⟩
  obtain ⟨cost, hcost, h⟩ := exists_of_collect_error h
  have hconsumes : r.Consumes w (TagSet.union [.singleton target, context, cost]) :=
    ⟨targets, contexts, costs, htargets, hcontexts, hcosts, target, htarget, context, hcontext,
      cost, hcost, rfl⟩
  rcases bind_eq_error_iff.mp h with h | ⟨payloads, -, h⟩
  · exact ⟨_, _, .payload hconsumes, not_ends_of_expandAgainst_endless h⟩
  obtain ⟨payload, -, h⟩ := exists_of_collect_error h
  rcases bind_eq_error_iff.mp h with h | ⟨gains, -, h⟩
  · exact ⟨_, _, .gain hconsumes, not_ends_of_expandAgainst_endless h⟩
  · cases h

end Rule

/-- When a rulebook is not expanded to the end, a set of one of its rules is to blame. -/
theorem exists_consults_of_expandRules_endless {rules : List Rule} {w : World}
    (h : expandRules rules w = .error .endless) :
    ∃ r ∈ rules, ∃ s pool, r.Consults w s pool ∧ ¬ s.ExpansionEnds pool := by
  obtain ⟨r, hr, book, h⟩ := exists_of_foldlM_error h
  rw [Rule.addTo] at h
  split at h
  · rcases bind_eq_error_iff.mp h with h | ⟨_, -, h⟩
    · exact ⟨r, hr, Rule.exists_consults_of_variants_endless h⟩
    · cases h
  · cases h

/-- When the actions on offer are not found to the end, a set of one of the rules is to blame. -/
theorem exists_consults_of_offeredActions_endless {scene : String} {rules : List Rule} {w : World}
    (h : offeredActions scene w rules = .error .endless) :
    ∃ r ∈ rules, ∃ s pool, r.Consults w s pool ∧ ¬ s.ExpansionEnds pool := by
  rcases bind_eq_error_iff.mp h with h | ⟨book, -, h⟩
  · exact exists_consults_of_expandRules_endless h
  · obtain ⟨r, -, actions, h⟩ := exists_of_foldlM_error h
    rcases bind_eq_error_iff.mp h with h | ⟨found, -, h⟩
    · exact absurd h toExpanded_ne_endless
    · cases found <;> cases h

/-- **When templates are expanded to the end.** The expansion of a set ends exactly when no set
that it gets to comes back to itself and there is a bound on the written length of the sets that
it gets to; it always does when no identifier of the pool holds a star and no level of the pool is
a negative zero. A rulebook is expanded to the end unless the expansion of one of its sets, against
a location or against what is consumed, has none. -/
theorem templates_expand_to_end (s pool : TagSet) (scene : String) (w : World)
    (rules : List Rule) :
    (s.ExpansionEnds pool ↔
      (∀ s', Worklist.Reaches pool s s' → ¬ Worklist.ComesTo pool s' s') ∧
        ∃ n, ∀ s', Worklist.Reaches pool s s' → s'.render.length ≤ n) ∧
    (pool.Plain → s.ExpansionEnds pool) ∧
    (s.expand pool = .error .endless ↔ ¬ s.ExpansionEnds pool) ∧
    (expandRules rules w = .error .endless ∨ offeredActions scene w rules = .error .endless →
      ∃ r ∈ rules, ∃ s pool, r.Consults w s pool ∧ ¬ s.ExpansionEnds pool) := by
  refine ⟨TagSet.expansionEnds_iff, fun hpool => hpool.expansionEnds s,
    TagSet.expand_eq_endless_iff, fun h => ?_⟩
  rcases h with h | h
  · exact exists_consults_of_expandRules_endless h
  · exact exists_consults_of_offeredActions_endless h

/-! ### A world to look at

A wildcard that is declared among the tags of a place stands for itself and for its neighbour. -/

namespace Echo

def wild : Tag := ⟨"a.*", ⟨.plain, "a.*", none, .unset⟩, by decide, by rfl⟩
def bread : Tag := ⟨"a.b", ⟨.plain, "a.b", none, .unset⟩, by decide, by rfl⟩
def cheese : Tag := ⟨"a.c", ⟨.plain, "a.c", none, .unset⟩, by decide, by rfl⟩
def guest : Tag := ⟨"guest", ⟨.plain, "guest", none, .unset⟩, by decide, by rfl⟩

/-- A place with a wildcard. -/
def world : World := ⟨[⟨"HOME", .ofList [wild, bread]⟩]⟩

/-- A rule that asks for the wildcard. -/
def feast : Rule := { target := guest, context := .singleton wild }

/-- The wildcard comes back to itself. -/
theorem leads_self :
    Worklist.Leads (.ofList [wild, bread]) (.singleton wild) (.singleton wild) :=
  ⟨[], [.singleton bread], by rfl, .nil⟩

/-- The wildcard comes back to itself again and again. -/
theorem not_ends : ¬ (TagSet.singleton wild).ExpansionEnds (.ofList [wild, bread]) := by
  rw [TagSet.expansionEnds_iff_halts, Worklist.halts_iff_acc]
  exact fun h => Worklist.not_comesTo_self h .refl (.single leads_self)

/-- The feast comes to no end. -/
theorem feast_endless : expandRules [feast] world = .error .endless := by
  have htemplate : feast.hasTemplate = true := by decide
  have hcontext : (TagSet.singleton wild).hasTemplate = true := by decide
  have htargets : feast.targets world = .ok [guest] := by rfl
  have haround : Rule.expandPerLocation feast.context world = .error .endless := by
    have hset := TagSet.expand_eq_endless_iff.mpr not_ends
    simp [Rule.expandPerLocation, feast, hcontext, Rule.collect, world, hset, Bind.bind,
      Except.bind]
  simp [expandRules, Rule.addTo, htemplate, Rule.variants, htargets, Rule.collect, haround,
    Bind.bind, Except.bind]

end Echo

/-- Without a wildcard in the pool, the expansion of the wildcard ends. -/
theorem neighbours_expand_to_end :
    (TagSet.ofList [Echo.bread, Echo.cheese]).Plain ∧
      (TagSet.singleton Echo.wild).ExpansionEnds (.ofList [Echo.bread, Echo.cheese]) := by
  have hplain : (TagSet.ofList [Echo.bread, Echo.cheese]).Plain := by decide
  exact ⟨hplain, (templates_expand_to_end _ _ "" Echo.world []).2.1 hplain⟩

/-- In a world that a script declares, the expansion of the wildcard and of a rule that asks for it
have no end. -/
theorem declared_wildcard_expands_without_end :
    (Script.parseStateLine "T [HOME, a.*;a.b]").toOption = some ⟨"T", Echo.world⟩ ∧
      ¬ (TagSet.singleton Echo.wild).ExpansionEnds (.ofList [Echo.wild, Echo.bread]) ∧
      expandRules [Echo.feast] Echo.world = .error .endless :=
  ⟨by decide +kernel, Echo.not_ends, Echo.feast_endless⟩

end StoryTape
