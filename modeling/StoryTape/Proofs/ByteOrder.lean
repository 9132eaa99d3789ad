import Mathlib.Algebra.Group.Nat.Defs
import StoryTape.Ascending

/-!
# Texts in the order of their bytes

Texts are compared character by character. Their bytes in UTF-8 compare alike: of two characters the
lesser one starts with a lesser byte, or both start with the same byte and as many bytes follow,
which hold the lower bits of the characters, six in each.
-/

namespace StoryTape.Text

/-- The bytes of a text in UTF-8. -/
def utf8 (s : String) : List UInt8 := s.toUTF8.data.toList

/-- The bytes of a text are those of its characters, one after the other. -/
theorem utf8_eq_flatMap (s : String) : utf8 s = s.toList.flatMap String.utf8EncodeChar := by
  have hbytes : s.toUTF8 = s.toList.utf8Encode := String.utf8Encode_toList.symm
  rw [utf8, hbytes, List.utf8Encode]
  simp

/-! ### One character -/

/-- The first byte of the character of the given number. -/
def leadByte (n : Nat) : Nat :=
  if n ≤ 0x7f then n
  else if n ≤ 0x7ff then n / 64 + 0xc0
  else if n ≤ 0xffff then n / 64 ^ 2 + 0xe0
  else n / 64 ^ 3 + 0xf0

/-- How many bytes follow the first one. -/
def followers (n : Nat) : Nat :=
  if n ≤ 0x7f then 0 else if n ≤ 0x7ff then 1 else if n ≤ 0xffff then 2 else 3

/-- The bytes that follow, six bits of the number in each. -/
def followingBytes (n : Nat) : Nat → List UInt8
  | 0 => []
  | k + 1 => UInt8.ofNat (n / 64 ^ k % 64 + 0x80) :: followingBytes n k

/-- The number of a character lies below the end of the code points. -/
theorem toNat_lt (c : Char) : c.toNat < 0x110000 := by
  have hvalid : c.toNat < 0xd800 ∨ 0xdfff < c.toNat ∧ c.toNat < 0x110000 := c.valid
  omega

/-- A character is its first byte and those that follow. -/
theorem utf8EncodeChar_eq (c : Char) :
    String.utf8EncodeChar c =
      UInt8.ofNat (leadByte c.toNat) :: followingBytes c.toNat (followers c.toNat) := by
  have hnumber : c.val.toNat = c.toNat := rfl
  have hbound := toNat_lt c
  simp only [String.utf8EncodeChar, hnumber, leadByte, followers]
  split
  · rfl
  · split
    · have hlead : c.toNat / 64 % 32 = c.toNat / 64 := Nat.mod_eq_of_lt (by omega)
      simp [followingBytes, hlead]
    · split
      · have hlead : c.toNat / 4096 % 16 = c.toNat / 4096 := Nat.mod_eq_of_lt (by omega)
        simp [followingBytes, hlead]
      · have hlead : c.toNat / 262144 % 8 = c.toNat / 262144 := Nat.mod_eq_of_lt (by omega)
        simp [followingBytes, hlead]

/-- The first byte of a character fits into a byte. -/
theorem leadByte_lt {n : Nat} (h : n < 0x110000) : leadByte n < 256 := by
  simp only [leadByte]
  split
  · omega
  · split
    · omega
    · split
      · omega
      · omega

/-- The first bytes differ like the characters, or they are the same and the lower bits differ like
the characters. -/
theorem leadByte_lt_or {m n : Nat} (h : m < n) :
    leadByte m < leadByte n ∨ leadByte m = leadByte n ∧ followers m = followers n ∧
      m % 64 ^ followers m < n % 64 ^ followers n := by
  simp only [leadByte, followers]
  grind

/-- Lists of bytes compare by the first byte, and where it is the same by the others. -/
theorem ofNat_cons_lt_iff {a b : Nat} (ha : a < 256) (hb : b < 256) {s t : List UInt8} :
    UInt8.ofNat a :: s < UInt8.ofNat b :: t ↔ a < b ∨ a = b ∧ s < t := by
  rw [List.cons_lt_cons_iff, UInt8.lt_iff_toNat_lt, ← UInt8.toNat_inj, UInt8.toNat_ofNat_of_lt' ha,
    UInt8.toNat_ofNat_of_lt' hb]

/-- Following bytes compare like the bits they hold. -/
theorem followingBytes_append_lt {m n : Nat} (k : Nat) (h : m % 64 ^ k < n % 64 ^ k)
    (s t : List UInt8) : followingBytes m k ++ s < followingBytes n k ++ t := by
  induction k with
  | zero => simp [Nat.mod_one] at h
  | succ k ih =>
    have hpos : 0 < 64 ^ k := Nat.pow_pos (by decide)
    have hm := Nat.mod_lt m hpos
    have hn := Nat.mod_lt n hpos
    rw [Nat.pow_succ, Nat.mod_mul, Nat.mod_mul] at h
    rw [followingBytes, followingBytes, List.cons_append, List.cons_append,
      ofNat_cons_lt_iff (by omega) (by omega)]
    rcases Nat.lt_trichotomy (m / 64 ^ k % 64) (n / 64 ^ k % 64) with hlt | heq | hgt
    · exact .inl (Nat.add_lt_add_right hlt _)
    · rw [heq] at h
      exact .inr ⟨congrArg (· + 0x80) heq, ih (Nat.lt_of_add_lt_add_right h)⟩
    · have hstep := Nat.mul_le_mul_left (64 ^ k) (Nat.succ_le_of_lt hgt)
      rw [Nat.mul_succ] at hstep
      omega

/-- The lesser of two characters has the lesser bytes, whatever follows. -/
theorem utf8EncodeChar_append_lt {c d : Char} (h : c < d) (s t : List UInt8) :
    String.utf8EncodeChar c ++ s < String.utf8EncodeChar d ++ t := by
  have hnumber : c.toNat < d.toNat := h
  have hd := toNat_lt d
  rw [utf8EncodeChar_eq, utf8EncodeChar_eq, List.cons_append, List.cons_append,
    ofNat_cons_lt_iff (leadByte_lt (Nat.lt_trans hnumber hd)) (leadByte_lt hd)]
  rcases leadByte_lt_or hnumber with hlead | ⟨hlead, hcount, hbits⟩
  · exact .inl hlead
  · rw [hcount] at hbits ⊢
    exact .inr ⟨hlead, followingBytes_append_lt _ hbits s t⟩

/-! ### Texts -/

/-- Texts in order have their bytes in order. -/
theorem flatMap_utf8EncodeChar_lt {s t : List Char} (h : s < t) :
    s.flatMap String.utf8EncodeChar < t.flatMap String.utf8EncodeChar := by
  induction s generalizing t with
  | nil =>
    cases t with
    | nil => cases h
    | cons d t =>
      rw [List.flatMap_cons, utf8EncodeChar_eq]
      exact List.nil_lt_cons _ _
  | cons c s ih =>
    cases t with
    | nil => cases h
    | cons d t =>
      rw [List.flatMap_cons, List.flatMap_cons]
      rcases List.cons_lt_cons_iff.mp h with hlt | ⟨rfl, hrest⟩
      · exact utf8EncodeChar_append_lt hlt _ _
      · exact List.append_left_lt (ih hrest)

/-- Texts are ordered like their bytes. -/
theorem utf8_lt_utf8_iff {a b : String} : utf8 a < utf8 b ↔ a < b := by
  have hmono : ∀ {a b : String}, a < b → utf8 a < utf8 b := by
    intro a b h
    rw [utf8_eq_flatMap, utf8_eq_flatMap]
    exact flatMap_utf8EncodeChar_lt h
  refine ⟨fun h => ?_, hmono⟩
  by_cases hlt : a < b
  · exact hlt
  · have hne : a ≠ b := fun hsame => List.lt_irrefl _ (hsame ▸ h)
    exact absurd h (List.lt_asymm (hmono (Ascending.lt_of_not_lt_of_ne hlt hne)))

end StoryTape.Text
