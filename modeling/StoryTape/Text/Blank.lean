/-!
# Blank characters and trimming

A blank is a character with the Unicode property White_Space: the tab to carriage return block,
the space, and the wider spaces and separators of the standard. Trimming takes blanks off the
ends of a text, and leaves alone what has none there.
-/

namespace StoryTape.Text

/-- Whether a character has the property White_Space. -/
def isBlank (c : Char) : Bool :=
  let n := c.toNat
  (0x09 ≤ n && n ≤ 0x0D) || n == 0x20 || n == 0x85 || n == 0xA0 || n == 0x1680 ||
    (0x2000 ≤ n && n ≤ 0x200A) || n == 0x2028 || n == 0x2029 || n == 0x202F || n == 0x205F ||
    n == 0x3000

/-- Drop the longest end whose characters all satisfy `p`. -/
def dropEndWhile (p : Char → Bool) (s : List Char) : List Char :=
  (s.reverse.dropWhile p).reverse

/-- A text without the blanks it starts with. -/
def trimStart (s : List Char) : List Char := s.dropWhile isBlank

/-- A text without the blanks it ends with. -/
def trimEnd (s : List Char) : List Char := dropEndWhile isBlank s

/-- A text without the blanks at its ends. -/
def trim (s : List Char) : List Char := trimEnd (trimStart s)

/-- Whether a text holds nothing but blanks. -/
def allBlank (s : List Char) : Bool := s.all isBlank

/-- What dropping leaves starts with a character to be kept. -/
theorem eq_false_of_head?_dropWhile {p : Char → Bool} {s : List Char} {c : Char}
    (h : (s.dropWhile p).head? = some c) : p c = false := by
  have hstop := List.head?_dropWhile_not p s
  rw [h] at hstop
  simpa using hstop

/-- A text is left alone when its last character is to be kept. -/
theorem dropEndWhile_append_eq_self {p : Char → Bool} (s : List Char) {t : List Char}
    (ht : t ≠ []) (h : ∀ c ∈ t, p c = false) : dropEndWhile p (s ++ t) = s ++ t := by
  obtain ⟨r, c, rfl⟩ := List.eq_nil_or_concat t |>.resolve_left ht
  have hc : p c = false := h c (by simp)
  simp [dropEndWhile, hc]

/-- A text opens with what trimming its end leaves. -/
theorem trimEnd_opens (s : List Char) : trimEnd s <+: s := by
  have h : s.reverse.dropWhile isBlank <:+ s.reverse := List.dropWhile_suffix _
  simpa [trimEnd, dropEndWhile] using List.reverse_prefix.mpr h

/-- A text with no blank at its ends is left alone by trimming. -/
theorem trim_eq_self_of_ends {s : List Char} (hhead : ∀ c, s.head? = some c → isBlank c = false)
    (hlast : ∀ c, s.getLast? = some c → isBlank c = false) : trim s = s := by
  have hstart : trimStart s = s := by
    cases s with
    | nil => rfl
    | cons c r => simp [trimStart, hhead c rfl]
  rw [trim, hstart, trimEnd]
  cases hs : s.getLast? with
  | none => rw [List.getLast?_eq_none_iff.mp hs]; rfl
  | some c =>
    obtain ⟨r, rfl⟩ := List.getLast?_eq_some_iff.mp hs
    refine dropEndWhile_append_eq_self r (List.cons_ne_nil c []) fun d hd => ?_
    rw [List.mem_singleton.mp hd]
    exact hlast c hs

/-- Trimming twice takes nothing more off. -/
@[simp] theorem trim_trim (s : List Char) : trim (trim s) = trim s := by
  refine trim_eq_self_of_ends (fun c hc => ?_) fun c hc => ?_
  · obtain ⟨r, hr⟩ := List.head?_eq_some_iff.mp hc
    obtain ⟨rest, hrest⟩ := trimEnd_opens (trimStart s)
    rw [trim] at hr
    rw [hr] at hrest
    have hhead : (trimStart s).head? = some c := by
      rw [← hrest, List.cons_append, List.head?_cons]
    exact eq_false_of_head?_dropWhile hhead
  · rw [trim, trimEnd, dropEndWhile, List.getLast?_reverse] at hc
    exact eq_false_of_head?_dropWhile hc

end StoryTape.Text
