import Mathlib.Algebra.BigOperators.Group.List.Basic
import ManifestChain.Text.Encoding

/-!
# Reading encoded text back

The decoders undo the UTF-8 encoding of every text that has one. A document that starts with two
ASCII characters is taken for UTF-8 without a mark, so it is read back from its bytes.
-/

namespace ManifestChain

namespace CodePoint

theorem ofNat?_toNat (c : Char) : ofNat? c.toNat = some (scalar c) := by
  have hvalid : c.toNat < 0xD800 ∨ 0xDFFF < c.toNat ∧ c.toNat < 0x110000 := c.valid
  unfold ofNat?
  rw [if_neg (by omega), if_pos (by omega), Char.ofNat_toNat]

theorem ofNat?_value (c : CodePoint) : ofNat? c.value = some c := by
  cases c with
  | scalar c => exact ofNat?_toNat c
  | surrogate n =>
      have hn := n.isLt
      rw [value, ofNat?, if_pos (by omega), Nat.add_sub_cancel_left]
      simp

theorem value_lt (c : CodePoint) : c.value < 0x110000 := by
  cases c with
  | scalar c =>
      have hvalid : c.toNat < 0xD800 ∨ 0xDFFF < c.toNat ∧ c.toNat < 0x110000 := c.valid
      rw [value]
      omega
  | surrogate n =>
      have hn := n.isLt
      rw [value]
      omega

/-- A character of ASCII is the byte of its number. -/
theorem utf8Bytes_of_lt {n : Nat} (h : n < 0x80) : utf8Bytes n = [UInt8.ofNat n] := if_pos h

theorem utf8Bytes_length_pos (n : Nat) : 0 < (utf8Bytes n).length := by
  unfold utf8Bytes
  repeat' split
  all_goals simp

end CodePoint

namespace Text

theorem continuation?_ofNat {n : Nat} (h : n < 0x40) :
    continuation? (UInt8.ofNat (0x80 + n)) = some n := by
  have hb := UInt8.toNat_ofNat_of_lt' (show 0x80 + n < UInt8.size by rw [UInt8.size]; omega)
  simp only [continuation?, UInt8.le_iff_toNat_le, UInt8.lt_iff_toNat_lt, hb, UInt8.reduceToNat]
  rw [if_pos (by omega), Nat.add_sub_cancel_left]

/-! ## The head of an encoded character -/

section Head

variable {lenient : Bool} {n : Nat} {c : CodePoint} (rest : List UInt8)

theorem decodeHead?_one (h : n < 0x80) (hc : CodePoint.ofNat? n = some c) :
    decodeHead? lenient (UInt8.ofNat n :: rest) = some (c, 1) := by
  have hb := UInt8.toNat_ofNat_of_lt' (show n < UInt8.size by rw [UInt8.size]; omega)
  simp only [decodeHead?, UInt8.lt_iff_toNat_lt, hb, UInt8.reduceToNat]
  rw [if_pos h, hc]
  rfl

theorem decodeHead?_two (hlow : ¬n < 0x80) (hhigh : n < 0x800)
    (hc : CodePoint.ofNat? n = some c) :
    decodeHead? lenient (UInt8.ofNat (0xC0 + n / 0x40) :: UInt8.ofNat (0x80 + n % 0x40) :: rest) =
      some (c, 2) := by
  have hb := UInt8.toNat_ofNat_of_lt' (show 0xC0 + n / 0x40 < UInt8.size by rw [UInt8.size]; omega)
  have hlast := continuation?_ofNat (n := n % 0x40) (by omega)
  have hn : (0xC0 + n / 0x40 - 0xC0) * 0x40 + n % 0x40 = n := by omega
  simp only [decodeHead?, UInt8.lt_iff_toNat_lt, hb, UInt8.reduceToNat]
  rw [if_neg (by omega), if_neg (by omega), if_pos (by omega)]
  simp only [hlast, hn, hc, Option.bind_eq_bind, Option.bind_some]
  rfl

theorem decodeHead?_three (hlow : ¬n < 0x800) (hhigh : n < 0x10000)
    (hc : CodePoint.ofNat? n = some c) (hsurrogate : c.isSurrogate = false) :
    decodeHead? lenient (UInt8.ofNat (0xE0 + n / 0x1000) :: UInt8.ofNat (0x80 + n / 0x40 % 0x40) ::
      UInt8.ofNat (0x80 + n % 0x40) :: rest) = some (c, 3) := by
  have hb := UInt8.toNat_ofNat_of_lt'
    (show 0xE0 + n / 0x1000 < UInt8.size by rw [UInt8.size]; omega)
  have hmiddle := continuation?_ofNat (n := n / 0x40 % 0x40) (by omega)
  have hlast := continuation?_ofNat (n := n % 0x40) (by omega)
  have hn : (0xE0 + n / 0x1000 - 0xE0) * 0x1000 + n / 0x40 % 0x40 * 0x40 + n % 0x40 = n := by
    omega
  simp only [decodeHead?, UInt8.lt_iff_toNat_lt, hb, UInt8.reduceToNat]
  rw [if_neg (by omega), if_neg (by omega), if_neg (by omega), if_pos (by omega)]
  simp only [hmiddle, hlast, hn, hc, Option.bind_eq_bind, Option.bind_some]
  rw [if_neg (by simp [hsurrogate]; omega)]
  rfl

theorem decodeHead?_four (hlow : ¬n < 0x10000) (hhigh : n < 0x110000)
    (hc : CodePoint.ofNat? n = some c) :
    decodeHead? lenient (UInt8.ofNat (0xF0 + n / 0x40000) ::
      UInt8.ofNat (0x80 + n / 0x1000 % 0x40) :: UInt8.ofNat (0x80 + n / 0x40 % 0x40) ::
      UInt8.ofNat (0x80 + n % 0x40) :: rest) = some (c, 4) := by
  have hb := UInt8.toNat_ofNat_of_lt'
    (show 0xF0 + n / 0x40000 < UInt8.size by rw [UInt8.size]; omega)
  have hfirst := continuation?_ofNat (n := n / 0x1000 % 0x40) (by omega)
  have hmiddle := continuation?_ofNat (n := n / 0x40 % 0x40) (by omega)
  have hlast := continuation?_ofNat (n := n % 0x40) (by omega)
  have hn : (0xF0 + n / 0x40000 - 0xF0) * 0x40000 + n / 0x1000 % 0x40 * 0x1000 +
      n / 0x40 % 0x40 * 0x40 + n % 0x40 = n := by omega
  simp only [decodeHead?, UInt8.lt_iff_toNat_lt, hb, UInt8.reduceToNat]
  rw [if_neg (by omega), if_neg (by omega), if_neg (by omega), if_neg (by omega),
    if_pos (by omega)]
  -- The steps are given one by one: evaluating them unfolds the product with `0x40000`.
  refine Option.bind_eq_some_iff.mpr ⟨_, hfirst, Option.bind_eq_some_iff.mpr ⟨_, hmiddle,
    Option.bind_eq_some_iff.mpr ⟨_, hlast, Option.bind_eq_some_iff.mpr ⟨c, ?_, ?_⟩⟩⟩⟩
  · rw [hn, hc]
  · rw [hn]
    exact if_neg hlow

end Head

/-- The head of an encoded character is that character, whatever bytes follow. -/
theorem decodeHead?_utf8Bytes (lenient : Bool) (c : Char) (rest : List UInt8) :
    decodeHead? lenient (CodePoint.utf8Bytes c.toNat ++ rest) =
      some (.scalar c, (CodePoint.utf8Bytes c.toNat).length) := by
  have hvalid : c.toNat < 0xD800 ∨ 0xDFFF < c.toNat ∧ c.toNat < 0x110000 := c.valid
  have hback := CodePoint.ofNat?_toNat c
  unfold CodePoint.utf8Bytes
  split
  next h => exact decodeHead?_one rest h hback
  split
  next h₁ h₂ => exact decodeHead?_two rest h₁ h₂ hback
  split
  next h₁ h₂ h₃ => exact decodeHead?_three rest h₂ h₃ hback rfl
  next h₁ h₂ h₃ => exact decodeHead?_four rest h₃ (by omega) hback

/-- Decoding undoes the encoding of characters. -/
theorem decodeUpTo_utf8Bytes (lenient : Bool) {fuel : Nat} {cs : List Char}
    (hfuel : cs.length ≤ fuel) :
    decodeUpTo lenient fuel (cs.flatMap fun c => CodePoint.utf8Bytes c.toNat) =
      some (cs.map .scalar) := by
  induction cs generalizing fuel with
  | nil => simp [decodeUpTo]
  | cons c cs ih =>
      obtain ⟨fuel, rfl⟩ : ∃ n, fuel = n + 1 := ⟨fuel - 1, by simp at hfuel; omega⟩
      have hhead := decodeHead?_utf8Bytes lenient c
        (cs.flatMap fun c => CodePoint.utf8Bytes c.toNat)
      have hpos := CodePoint.utf8Bytes_length_pos c.toNat
      rw [List.flatMap_cons]
      generalize CodePoint.utf8Bytes c.toNat = bytes at hhead hpos
      cases bytes with
      | nil => simp at hpos
      | cons b bytes =>
          have hlength : cs.length ≤ fuel := by simpa using hfuel
          have htail := ih hlength
          simp only [List.cons_append] at hhead ⊢
          simp only [decodeUpTo, hhead]
          simp [htail]

@[simp] theorem chars?_nil : chars? [] = some [] := rfl

@[simp] theorem chars?_scalar_cons (c : Char) (t : Text) :
    chars? (.scalar c :: t) = (chars? t).map (c :: ·) := by
  simp only [chars?, List.mapM_cons]
  cases List.mapM CodePoint.char? t <;> rfl

@[simp] theorem chars?_surrogate_cons (n : Fin 2048) (t : Text) :
    chars? (.surrogate n :: t) = none := rfl

theorem chars?_eq_some {t : Text} {cs : List Char} (h : t.chars? = some cs) :
    t = cs.map .scalar := by
  induction t generalizing cs with
  | nil =>
      rw [chars?_nil] at h
      cases h
      rfl
  | cons c t ih =>
      cases c with
      | surrogate n => simp at h
      | scalar c =>
          rw [chars?_scalar_cons] at h
          obtain ⟨ds, hds, rfl⟩ := Option.map_eq_some_iff.mp h
          rw [ih hds]
          rfl

/-- A text that has an encoding is read back from it. -/
theorem ofUtf8Lenient?_of_utf8? {t : Text} {bytes : List UInt8} (h : t.utf8? = some bytes) :
    ofUtf8Lenient? bytes = some t := by
  obtain ⟨cs, hcs, rfl⟩ := Option.map_eq_some_iff.mp h
  rw [chars?_eq_some hcs]
  apply decodeUpTo_utf8Bytes
  rw [List.length_flatMap]
  calc
    cs.length = (cs.map fun c => (CodePoint.utf8Bytes c.toNat).length).length := by simp
    _ ≤ _ := List.length_le_sum_of_one_le _ ?_
  intro n hn
  obtain ⟨c, -, rfl⟩ := List.mem_map.mp hn
  exact CodePoint.utf8Bytes_length_pos c.toNat

theorem unmarked_of_ne_zero {a b : UInt8} (rest : List UInt8) (ha : a ≠ 0) (hb : b ≠ 0) :
    Encoding.unmarked (a :: b :: rest) = .utf8 := by
  rcases rest with _ | ⟨c, _ | ⟨d, rest⟩⟩
  · rw [Encoding.unmarked, if_neg ha, if_neg hb]
  · rfl
  · rw [Encoding.unmarked, if_neg ha, if_neg hb]

/-- A document that begins with two bytes of ASCII other than zero is in UTF-8, without a mark. -/
theorem detect_of_ascii {a b : UInt8} (rest : List UInt8) (ha : 0 < a ∧ a < 0x80) (hb : b ≠ 0) :
    Encoding.detect (a :: b :: rest) = (.utf8, 0) := by
  -- No mark starts with such a byte, so the zeros decide, and there are none in front.
  have hzero : a ≠ 0 := by
    rintro rfl
    exact absurd ha.1 (by decide)
  have hfirst : ∀ m ∈ Encoding.marks, ∃ c mark, m.1 = c :: mark ∧ c ≠ a := by
    intro m hm
    have hhead (c : UInt8) (hc : c = 0 ∨ 0x80 ≤ c) : c ≠ a := by
      rintro rfl
      rcases hc with hc | hc
      · exact hzero hc
      · exact absurd ha.2 (UInt8.not_lt.mpr hc)
    simp only [Encoding.marks, List.mem_cons, List.not_mem_nil, or_false] at hm
    rcases hm with rfl | rfl | rfl | rfl | rfl
    all_goals exact ⟨_, _, rfl, hhead _ (by decide)⟩
  have hnone : Encoding.marks.find? (fun m => m.1.isPrefixOf (a :: b :: rest)) = none := by
    apply List.find?_eq_none.mpr
    intro m hm hprefix
    obtain ⟨c, mark, hmark, hne⟩ := hfirst m hm
    rw [hmark, List.isPrefixOf, Bool.and_eq_true, beq_iff_eq] at hprefix
    exact hne hprefix.1
  rw [Encoding.detect, hnone]
  exact congrArg (·, 0) (unmarked_of_ne_zero rest hzero hb)

/-- A document that begins with two characters of ASCII is read back from its bytes. -/
theorem ofBytes?_of_utf8? {c d : Char} {t : Text} {bytes : List UInt8}
    (hc : 0 < c.toNat ∧ c.toNat < 0x80) (hd : 0 < d.toNat ∧ d.toNat < 0x80)
    (h : utf8? (.scalar c :: .scalar d :: t) = some bytes) :
    ofBytes? bytes = some (.scalar c :: .scalar d :: t) := by
  have hdetect : Encoding.detect bytes = (.utf8, 0) := by
    obtain ⟨cs, hcs, rfl⟩ := Option.map_eq_some_iff.mp h
    simp only [chars?_scalar_cons, Option.map_map] at hcs
    obtain ⟨rest, -, rfl⟩ := Option.map_eq_some_iff.mp hcs
    have hc' := UInt8.toNat_ofNat_of_lt' (show c.toNat < UInt8.size by rw [UInt8.size]; omega)
    have hd' := UInt8.toNat_ofNat_of_lt' (show d.toNat < UInt8.size by rw [UInt8.size]; omega)
    simp only [Function.comp_apply, List.flatMap_cons, CodePoint.utf8Bytes_of_lt hc.2,
      CodePoint.utf8Bytes_of_lt hd.2]
    apply detect_of_ascii
    · rw [UInt8.lt_iff_toNat_lt, UInt8.lt_iff_toNat_lt, hc']
      exact hc
    · intro hzero
      rw [hzero] at hd'
      exact absurd hd' (Nat.ne_of_lt hd.1)
  rw [ofBytes?, hdetect]
  exact ofUtf8Lenient?_of_utf8? h

/-- A text has an encoding exactly if no surrogate stands alone in it. -/
theorem utf8?_eq_none_iff (t : Text) : t.utf8? = none ↔ t.isEncodable = false := by
  rw [utf8?, Option.map_eq_none_iff]
  induction t with
  | nil => simp [isEncodable]
  | cons c t ih =>
      cases c with
      | surrogate n => simp [isEncodable, CodePoint.isSurrogate]
      | scalar c =>
          rw [chars?_scalar_cons, Option.map_eq_none_iff, ih]
          rfl

end Text

end ManifestChain
