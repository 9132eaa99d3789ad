import StoryTape.Error

/-!
# Runs that come to a result or an error

Readers and expansions run step by step and stop at the first error. A run with a result is taken
apart here into the results of its steps: in sequence, over the elements of a list, and with a
state that is passed along. A run with an error is followed back to the step it comes from, and
where every step fails with an error of a kind the run does so too.
-/

namespace StoryTape

variable {ε α β : Type}

/-- A sequence has a result exactly when both of its steps do. -/
theorem bind_eq_ok_iff {x : Except ε α} {f : α → Except ε β} {b : β} :
    x >>= f = .ok b ↔ ∃ a, x = .ok a ∧ f a = .ok b := by
  cases x <;> simp [Bind.bind, Except.bind]

/-- A pure run succeeds with its value. -/
theorem pure_eq_ok_iff {a b : α} : (pure a : Except ε α) = .ok b ↔ a = b := by
  simp [Pure.pure, Except.pure]

/-- Changing errors changes no success. -/
theorem mapError_eq_ok_iff {ε' : Type} {g : ε → ε'} {x : Except ε α} {a : α} :
    x.mapError g = .ok a ↔ x = .ok a := by
  cases x with
  | ok b => constructor <;> rintro ⟨⟩ <;> rfl
  | error e => constructor <;> rintro ⟨⟩

/-- What is seen of a result is seen of one that there is. -/
theorem exists_ok_of_map {f : α → β} {x : Except ε α} {b : β}
    (h : x.toOption.map f = some b) : ∃ a, x = .ok a ∧ f a = b := by
  cases x with
  | error e => cases h
  | ok a => exact ⟨a, rfl, Option.some.inj h⟩

/-- Every result of a run over a list comes from one of its elements. -/
theorem exists_of_mem_mapM_ok {f : α → Except ε β} {xs : List α} {ys : List β}
    (h : xs.mapM f = .ok ys) {b : β} (hb : b ∈ ys) : ∃ a ∈ xs, f a = .ok b := by
  induction xs generalizing ys with
  | nil =>
    rw [List.mapM_nil, pure_eq_ok_iff] at h
    simp [← h] at hb
  | cons a rest ih =>
    simp only [List.mapM_cons, bind_eq_ok_iff, pure_eq_ok_iff] at h
    obtain ⟨first, hfirst, others, hothers, rfl⟩ := h
    rcases List.mem_cons.mp hb with rfl | hb
    · exact ⟨a, List.mem_cons_self, hfirst⟩
    · obtain ⟨a', ha', hf⟩ := ih hothers hb
      exact ⟨a', List.mem_cons_of_mem a ha', hf⟩

/-- Every element of a run over a list has a result. -/
theorem exists_mem_of_mapM_ok {f : α → Except ε β} {xs : List α} {ys : List β}
    (h : xs.mapM f = .ok ys) {a : α} (ha : a ∈ xs) : ∃ b ∈ ys, f a = .ok b := by
  induction xs generalizing ys with
  | nil => cases ha
  | cons first rest ih =>
    simp only [List.mapM_cons, bind_eq_ok_iff, pure_eq_ok_iff] at h
    obtain ⟨b, hfirst, others, hothers, rfl⟩ := h
    rcases List.mem_cons.mp ha with rfl | ha
    · exact ⟨b, List.mem_cons_self, hfirst⟩
    · obtain ⟨b', hb', hf⟩ := ih hothers ha
      exact ⟨b', List.mem_cons_of_mem b hb', hf⟩

/-- A run over a list whose steps all have results of a kind has results of the kind, with the same
view on each. -/
theorem exists_mapM_ok {γ : Type} {f : α → Except ε β} {Q : β → Prop} {g : α → γ}
    {view : β → γ} (xs : List α) (h : ∀ a ∈ xs, ∃ b, f a = .ok b ∧ Q b ∧ view b = g a) :
    ∃ ys, xs.mapM f = .ok ys ∧ (∀ b ∈ ys, Q b) ∧ ys.map view = xs.map g := by
  induction xs with
  | nil => exact ⟨[], rfl, nofun, rfl⟩
  | cons a rest ih =>
    obtain ⟨b, hb, hQ, hview⟩ := h a List.mem_cons_self
    obtain ⟨ys, hys, hQs, hviews⟩ := ih fun a' ha' => h a' (List.mem_cons_of_mem a ha')
    refine ⟨b :: ys, ?_, List.forall_mem_cons.mpr ⟨hQ, hQs⟩, by simp [hview, hviews]⟩
    simp [List.mapM_cons, hb, hys, Bind.bind, Except.bind, Pure.pure, Except.pure]

/-- A run over a list whose steps all have results has these results. -/
theorem mapM_eq_ok {f : α → Except ε β} {g : α → β} {xs : List α} (h : ∀ a ∈ xs, f a = .ok (g a)) :
    xs.mapM f = .ok (xs.map g) := by
  induction xs with
  | nil => rfl
  | cons a rest ih =>
    have hrest := ih fun a' ha' => h a' (List.mem_cons_of_mem a ha')
    rw [List.mapM_cons, h a List.mem_cons_self, hrest]
    rfl

/-- A run whose steps leave its state as it is. -/
theorem foldlM_eq_self {f : β → α → Except ε β} {b : β} {xs : List α}
    (h : ∀ a ∈ xs, f b a = .ok b) : xs.foldlM f b = .ok b := by
  induction xs with
  | nil => rfl
  | cons a rest ih =>
    rw [List.foldlM_cons, h a List.mem_cons_self]
    exact ih fun a' ha' => h a' (List.mem_cons_of_mem a ha')

/-- What elements cost together. -/
def total (cost : α → Nat) : List α → Nat
  | [] => 0
  | a :: rest => cost a + total cost rest

/-- A run over a list costs what its steps cost. -/
theorem foldlM_ok_cost {P : Nat → β → Prop} (cost : α → Nat) {f : β → α → Except ε β} {xs : List α}
    {b b' : β} {n : Nat} (h : xs.foldlM f b = .ok b') (hb : P n b)
    (step : ∀ a ∈ xs, ∀ n c c', P n c → f c a = .ok c' → P (n + cost a) c') :
    P (n + total cost xs) b' := by
  induction xs generalizing b n with
  | nil =>
    rw [List.foldlM_nil, pure_eq_ok_iff] at h
    exact h ▸ hb
  | cons a rest ih =>
    rw [List.foldlM_cons] at h
    obtain ⟨c, hc, hrest⟩ := bind_eq_ok_iff.mp h
    rw [total, ← Nat.add_assoc]
    exact ih hrest (step a List.mem_cons_self n b c hb hc)
      fun a' ha' => step a' (List.mem_cons_of_mem a ha')

/-- What every step of a run keeps holds of its result. -/
theorem foldlM_ok_induction {P : β → Prop} {f : β → α → Except ε β} {xs : List α} {b b' : β}
    (h : xs.foldlM f b = .ok b') (hb : P b)
    (step : ∀ a ∈ xs, ∀ c c', P c → f c a = .ok c' → P c') : P b' :=
  foldlM_ok_cost (P := fun _ => P) (n := 0) (fun _ => 0) h hb fun a ha _ => step a ha

/-- What every step of a run keeps of the elements taken so far holds of all of them. -/
theorem foldlM_ok_taken {P : List α → β → Prop} {f : β → α → Except ε β} {xs : List α} {b b' : β}
    (h : xs.foldlM f b = .ok b') (hb : P [] b)
    (step : ∀ taken a rest c c', xs = taken ++ a :: rest → P taken c → f c a = .ok c' →
      P (taken ++ [a]) c') : P xs b' := by
  have later : ∀ rest taken c, xs = taken ++ rest → P taken c → rest.foldlM f c = .ok b' →
      P xs b' := by
    intro rest
    induction rest with
    | nil =>
      intro taken c hxs hc h
      rw [List.foldlM_nil, pure_eq_ok_iff] at h
      rw [hxs, List.append_nil]
      exact h ▸ hc
    | cons a rest ih =>
      intro taken c hxs hc h
      rw [List.foldlM_cons] at h
      obtain ⟨c', hc', hrest⟩ := bind_eq_ok_iff.mp h
      have hnext : xs = taken ++ [a] ++ rest := by rw [hxs, List.append_cons]
      exact ih _ c' hnext (step taken a rest c c' hxs hc hc') hrest
  exact later xs [] b rfl hb h

/-- The error of a sequence comes from its first step or, after that, from its second. -/
theorem bind_eq_error_iff {x : Except ε α} {f : α → Except ε β} {e : ε} :
    x >>= f = .error e ↔ x = .error e ∨ ∃ a, x = .ok a ∧ f a = .error e := by
  cases x <;> simp [Bind.bind, Except.bind]

/-- The error of a run over a list comes from one of its elements. -/
theorem exists_of_mapM_error {f : α → Except ε β} {xs : List α} {e : ε}
    (h : xs.mapM f = .error e) : ∃ a ∈ xs, f a = .error e := by
  induction xs with
  | nil => cases h
  | cons a rest ih =>
    simp only [List.mapM_cons, bind_eq_error_iff] at h
    rcases h with h | ⟨_, -, h | ⟨_, -, h⟩⟩
    · exact ⟨a, List.mem_cons_self, h⟩
    · obtain ⟨a', ha', hf⟩ := ih h
      exact ⟨a', List.mem_cons_of_mem a ha', hf⟩
    · cases h

/-- So a run over a list has results exactly when all its steps do. -/
theorem exists_mapM_ok_iff {f : α → Except ε β} {xs : List α} :
    (∃ ys, xs.mapM f = .ok ys) ↔ ∀ a ∈ xs, ∃ b, f a = .ok b := by
  constructor
  · rintro ⟨ys, h⟩ a ha
    obtain ⟨b, -, hb⟩ := exists_mem_of_mapM_ok h ha
    exact ⟨b, hb⟩
  · intro h
    cases hrun : xs.mapM f with
    | ok ys => exact ⟨ys, rfl⟩
    | error e =>
      obtain ⟨a, ha, hfails⟩ := exists_of_mapM_error hrun
      obtain ⟨b, hb⟩ := h a ha
      cases hb.symm.trans hfails

/-- The error of a run with a state comes from one of its steps. -/
theorem exists_of_foldlM_error {f : β → α → Except ε β} {xs : List α} {b : β} {e : ε}
    (h : xs.foldlM f b = .error e) : ∃ a ∈ xs, ∃ c, f c a = .error e := by
  induction xs generalizing b with
  | nil => cases h
  | cons a rest ih =>
    rw [List.foldlM_cons, bind_eq_error_iff] at h
    rcases h with h | ⟨c, -, h⟩
    · exact ⟨a, List.mem_cons_self, b, h⟩
    · obtain ⟨a', ha', c, hf⟩ := ih h
      exact ⟨a', List.mem_cons_of_mem a ha', c, hf⟩

/-! ### Errors of a kind -/

/-- A run that fails does so with an error of the kind. -/
def FailsWith (P : ε → Prop) (x : Except ε α) : Prop := ∀ e, x = .error e → P e

section FailsWith

variable {P : ε → Prop}

/-- A success is no failure of any kind. -/
theorem failsWith_ok (a : α) : FailsWith P (.ok a) := nofun

/-- A failure is of the kind of its error. -/
theorem failsWith_error {e : ε} (h : P e) : FailsWith P (.error e : Except ε α) := by
  rintro _ ⟨⟩
  exact h

/-- Runs one after the other fail as either does. -/
theorem FailsWith.bind {x : Except ε α} {f : α → Except ε β} (hx : FailsWith P x)
    (hf : ∀ a, x = .ok a → FailsWith P (f a)) : FailsWith P (x >>= f) := by
  intro e h
  rcases bind_eq_error_iff.mp h with h | ⟨a, ha, h⟩
  · exact hx e h
  · exact hf a ha e h

/-- Changing the value changes no failure. -/
theorem FailsWith.map {x : Except ε α} (hx : FailsWith P x) (f : α → β) :
    FailsWith P (x.map f) := by
  cases x with
  | ok a => exact failsWith_ok (f a)
  | error e => exact failsWith_error (hx e rfl)

/-- Changing errors changes the kind of failure. -/
theorem FailsWith.mapError {ε' : Type} {Q : ε' → Prop} {g : ε → ε'} {x : Except ε α}
    (hx : FailsWith P x) (hg : ∀ e, P e → Q (g e)) : FailsWith Q (x.mapError g) := by
  cases x with
  | ok a => exact failsWith_ok a
  | error e => exact failsWith_error (hg e (hx e rfl))

/-- A run over a list fails as its elements do. -/
theorem failsWith_mapM {f : α → Except ε β} {xs : List α} (h : ∀ a ∈ xs, FailsWith P (f a)) :
    FailsWith P (xs.mapM f) := by
  intro e he
  obtain ⟨a, ha, hf⟩ := exists_of_mapM_error he
  exact h a ha e hf

/-- A run with a state fails with an error of the kind when every step does so from the states that
the steps lead to. -/
theorem failsWith_foldlM {I : β → Prop} {f : β → α → Except ε β} {xs : List α} {b : β} (hb : I b)
    (step : ∀ a ∈ xs, ∀ c, I c → FailsWith P (f c a) ∧ ∀ c', f c a = .ok c' → I c') :
    FailsWith P (xs.foldlM f b) := by
  induction xs generalizing b with
  | nil => exact failsWith_ok b
  | cons a rest ih =>
    rw [List.foldlM_cons]
    obtain ⟨hfails, hkeeps⟩ := step a List.mem_cons_self b hb
    exact hfails.bind fun c hc =>
      ih (hkeeps c hc) fun a' ha' => step a' (List.mem_cons_of_mem a ha')

end FailsWith

/-- Where something happens in a run, it happens a last time. -/
theorem exists_last_of_exists {P : α → Prop} {xs : List α} (h : ∃ x ∈ xs, P x) :
    ∃ front x back, xs = front ++ x :: back ∧ P x ∧ ∀ y ∈ back, ¬ P y := by
  induction xs with
  | nil => simp at h
  | cons first xs ih =>
    by_cases hlater : ∃ x ∈ xs, P x
    · obtain ⟨front, x, back, rfl, hx, hback⟩ := ih hlater
      exact ⟨first :: front, x, back, rfl, hx, hback⟩
    · obtain ⟨x, hx, hP⟩ := h
      rcases List.mem_cons.mp hx with rfl | hx
      · exact ⟨[], x, xs, rfl, hP, fun y hy hPy => hlater ⟨y, hy, hPy⟩⟩
      · exact absurd ⟨x, hx, hP⟩ hlater

end StoryTape
