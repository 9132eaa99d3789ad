import StoryTape.Tag.Expand
import StoryTape.Proofs.Runs
import StoryTape.Proofs.TagText

/-!
# What a template yields

A template yields pool tags as they are, pool tags moved to its own place, pool tags with another
level, or its own text with the stars filled in. A tag that yields nothing of the kind is kept as
it is.
-/

namespace StoryTape

open Text

namespace Tag

/-- What a template that is not kept as it is yields for the tags of a pool. -/
inductive Yields (t : Tag) (pool : List Tag) : Tag → Prop
  /-- A wildcard yields pool tags with its own sign and location. -/
  | moved {w : Wildcard} {p t' : Tag} (hwild : Wildcard.ofValue? t.value.toList = some w)
      (hp : p ∈ pool) (h : p.relocated t.location t.mode = .ok t') : Yields t pool t'
  /-- In the second try it yields its own text with part of a pool identifier for the stars. -/
  | filled {w : Wildcard} {p t' : Tag} {fill : List Char}
      (hwild : Wildcard.ofValue? t.value.toList = some w) (hp : p ∈ pool)
      (hfill : fill <:+: p.value.toList) (h : t.fillStars fill = .ok t') : Yields t pool t'
  /-- A step yields pool tags with their levels moved. -/
  | stepped {p t' : Tag} (hwild : Wildcard.ofValue? t.value.toList = none)
      (hstep : (t.isIncrement || t.isDecrement) = true) (hp : p ∈ pool)
      (hmeter : p.hasMeter = true) (h : p.incremented t.meter.step t.location t.mode = .ok t') :
      Yields t pool t'
  /-- A bound or a range yields pool tags with levels. -/
  | admitted {p : Tag} (hwild : Wildcard.ofValue? t.value.toList = none)
      (hstep : (t.isIncrement || t.isDecrement) = false)
      (hbound : t.isGreater = true ∨ t.isLower = true ∨ t.isRange = true ∨ t.meter = .unset)
      (hp : p ∈ pool) (hmeter : p.hasMeter = true) : Yields t pool p

/-- Tags that are admitted lie in the pool and have levels. -/
theorem mem_of_mem_admitted {t p : Tag} {pool : List Tag} {test : Int → Bool}
    (h : p ∈ t.admitted pool test) : p ∈ pool ∧ p.hasMeter = true := by
  simp only [admitted, List.mem_filter, Bool.and_eq_true] at h
  exact ⟨h.1, h.2.1.1⟩

/-- What fills the stars with a part of an identifier is yielded. -/
theorem yields_of_mem_dropping {t : Tag} {pool : List Tag} {w : Wildcard} {p : Tag → Bool}
    {part : Tag → List Char} (hwild : Wildcard.ofValue? t.value.toList = some w)
    (hpart : ∀ tag, part tag <:+: tag.value.toList) {found : List Tag}
    (h : ((pool.filter p).mapM fun tag => (t.fillStars (part tag)).toExpanded) = .ok found)
    {t' : Tag} (ht' : t' ∈ found) : t.Yields pool t' := by
  obtain ⟨tag, htag, hfill⟩ := exists_of_mem_mapM_ok h ht'
  rw [Checked.toExpanded, mapError_eq_ok_iff] at hfill
  exact .filled hwild (List.mem_filter.mp htag).1 (hpart tag) hfill

/-- What a wildcard stands for is yielded. -/
theorem yields_of_mem_expandWildcard {t : Tag} {pool : List Tag} {w : Wildcard}
    (hwild : Wildcard.ofValue? t.value.toList = some w) {found : List Tag}
    (h : t.expandWildcard w pool = .ok found) {t' : Tag} (ht' : t' ∈ found) :
    t.Yields pool t' := by
  obtain ⟨first, hfirst, h⟩ := bind_eq_ok_iff.mp h
  split at h
  · obtain rfl := pure_eq_ok_iff.mp h
    obtain ⟨p, hp, hmoved⟩ := exists_of_mem_mapM_ok hfirst ht'
    rw [Checked.toExpanded, mapError_eq_ok_iff] at hmoved
    exact .moved hwild (List.mem_filter.mp hp).1 hmoved
  · split at h
    · obtain rfl := pure_eq_ok_iff.mp h
      cases ht'
    · split at h
      · rw [expandDroppingFirst] at h
        split at h
        · cases h
        · exact yields_of_mem_dropping hwild (fun tag => (List.drop_suffix _ _).isInfix) h ht'
      · rw [expandDroppingLast] at h
        split at h
        · obtain rfl := Except.ok.inj h
          cases ht'
        · exact yields_of_mem_dropping hwild (fun tag => (List.take_prefix _ _).isInfix) h ht'
      · obtain rfl := pure_eq_ok_iff.mp h
        cases ht'

/-- An expanded tag is kept as it is, or it is a template and every result is yielded by it. -/
theorem expand_cases {t : Tag} {pool found : List Tag} (h : t.expand pool = .ok found) :
    found = [t] ∨ t.isTemplate = true ∧ ∀ t' ∈ found, t.Yields pool t' := by
  rw [expand] at h
  split at h
  · exact .inl (Except.ok.inj h).symm
  · next htemplate =>
    have htemplate : t.isTemplate = true := by simpa using htemplate
    split at h
    · next w hwild =>
      exact .inr ⟨htemplate, fun t' ht' => yields_of_mem_expandWildcard hwild h ht'⟩
    · next hwild =>
      have hwild : Wildcard.ofValue? t.value.toList = none := by
        cases hw : Wildcard.ofValue? t.value.toList with
        | none => rfl
        | some w => exact absurd hw (hwild w)
      split at h
      · next hstep =>
        refine .inr ⟨htemplate, fun t' ht' => ?_⟩
        obtain ⟨p, hp, hmoved⟩ := exists_of_mem_mapM_ok h ht'
        rw [Checked.toExpanded, mapError_eq_ok_iff] at hmoved
        rw [List.mem_filter, Bool.and_eq_true] at hp
        exact .stepped hwild hstep hp.1 hp.2.2 hmoved
      · next hstep =>
        have hstep : (t.isIncrement || t.isDecrement) = false := by simpa using hstep
        have hadmit : ∀ {test : Int → Bool},
            (t.isGreater = true ∨ t.isLower = true ∨ t.isRange = true ∨ t.meter = .unset) →
            .ok (t.admitted pool test) = (.ok found : Expanded (List Tag)) →
            ∀ t' ∈ found, t.Yields pool t' := by
          intro test hbound hfound t' ht'
          obtain rfl := Except.ok.inj hfound
          obtain ⟨hp, hmeter⟩ := mem_of_mem_admitted ht'
          exact .admitted hwild hstep hbound hp hmeter
        split at h
        · next hgreater => exact .inr ⟨htemplate, hadmit (.inl hgreater) h⟩
        · split at h
          · next hlower => exact .inr ⟨htemplate, hadmit (.inr (.inl hlower)) h⟩
          · split at h
            · next hrange => exact .inr ⟨htemplate, hadmit (.inr (.inr (.inl hrange))) h⟩
            · split at h
              · next hunset => exact .inr ⟨htemplate, hadmit (.inr (.inr (.inr hunset))) h⟩
              · exact .inl (Except.ok.inj h).symm

end Tag

end StoryTape
