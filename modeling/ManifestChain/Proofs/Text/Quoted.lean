import ManifestChain.Number.Numeral
import ManifestChain.Proofs.Text.Encoding
import ManifestChain.Proofs.Text.Parting
import ManifestChain.Text.Quoted

/-!
# Quoted texts tell texts apart

The code point that an escape stands for can be read back from the start of any text that begins
with it. So a quoted text determines what is quoted even if more follows, and the quoted forms of
different texts part.
-/

namespace ManifestChain

/-! ## Numbers in digits -/

namespace Text

/-- The number that hexadecimal digits denote; any other character counts as zero. -/
def hexNumber (digits : Text) : Nat :=
  digits.foldl (fun n c => n * 16 + (c.char?.bind (Numeral.digitIn? 16)).getD 0) 0

theorem hexNumber_toDigits (n : Nat) : hexNumber (ofChars (Nat.toDigits 16 n)) = n := by
  have hdigit : ∀ d < 16, ((some (Nat.digitChar d)).bind (Numeral.digitIn? 16)).getD 0 = d := by
    decide
  induction n using Nat.strongRecOn with
  | ind n ih =>
      by_cases hlt : n < 16
      · rw [Nat.toDigits_of_lt_base hlt]
        exact (Nat.zero_add _).trans (hdigit n hlt)
      · have hprefix := ih (n / 16) (by omega)
        rw [hexNumber] at hprefix
        rw [Nat.toDigits_of_base_le (by decide) (Nat.not_lt.mp hlt), ofChars, List.map_append,
          hexNumber, List.foldl_append, ← ofChars, hprefix]
        refine (congrArg (n / 16 * 16 + ·) (hdigit (n % 16) (Nat.mod_lt n (by decide)))).trans ?_
        omega

theorem hexNumber_ofNatHex (width n : Nat) : hexNumber (ofNatHex width n) = n := by
  have hzeros (k : Nat) (t : Text) : hexNumber (ofChars (List.replicate k '0') ++ t) =
      hexNumber t := by
    induction k with
    | zero => rfl
    | succ k ih => exact ih
  rw [ofNatHex, ofChars, List.map_append]
  exact (hzeros _ _).trans (hexNumber_toDigits n)

theorem length_padded {base width n : Nat} (hbase : 1 < base) (hwidth : 0 < width)
    (hn : n < base ^ width) :
    (List.replicate (width - (Nat.toDigits base n).length) '0' ++ Nat.toDigits base n).length =
      width := by
  have hdigits := (Nat.length_toDigits_le_iff hbase hwidth).mpr hn
  rw [List.length_append, List.length_replicate, Nat.sub_add_cancel hdigits]

theorem length_ofNatHex {width n : Nat} (hwidth : 0 < width) (hn : n < 16 ^ width) :
    (ofNatHex width n).length = width :=
  (List.length_map _).trans (length_padded (by decide) hwidth hn)

theorem length_ofNatPadded {width n : Nat} (hwidth : 0 < width) (hn : n < 10 ^ width) :
    (ofNatPadded width n).length = width :=
  (List.length_map _).trans (length_padded (by decide) hwidth hn)

end Text

namespace Quoted

variable {quote : Char}

/-! ## Escapes -/

/-- The code point that stands escaped at the start of a text. -/
def unescape? : Text → Option CodePoint
  | .scalar '\\' :: .scalar 't' :: _ => CodePoint.ofNat? 9
  | .scalar '\\' :: .scalar 'n' :: _ => CodePoint.ofNat? 10
  | .scalar '\\' :: .scalar 'r' :: _ => CodePoint.ofNat? 13
  | .scalar '\\' :: .scalar 'x' :: digits => CodePoint.ofNat? (Text.hexNumber (digits.take 2))
  | .scalar '\\' :: .scalar 'u' :: digits => CodePoint.ofNat? (Text.hexNumber (digits.take 4))
  | .scalar '\\' :: .scalar 'U' :: digits => CodePoint.ofNat? (Text.hexNumber (digits.take 8))
  | .scalar '\\' :: c :: _ => some c
  | c :: _ => some c
  | [] => none

theorem hexNumber_take {width n : Nat} (hwidth : 0 < width) (hn : n < 16 ^ width) (rest : Text) :
    Text.hexNumber ((Text.ofNatHex width n ++ rest).take width) = n := by
  rw [List.take_left' (Text.length_ofNatHex hwidth hn), Text.hexNumber_ofNatHex]

theorem unescape?_number {n : Nat} (hn : n < 0x100) (rest : Text) :
    unescape? (escapeNumber n ++ rest) = CodePoint.ofNat? n := by
  unfold escapeNumber
  split
  next h => rw [h]; rfl
  next =>
    split
    next h => rw [h]; rfl
    next =>
      split
      next h => rw [h]; rfl
      next => exact congrArg CodePoint.ofNat? (hexNumber_take (by decide) hn rest)

theorem unescape?_of_ne {c : CodePoint} (hc : c ≠ .scalar '\\') (rest : Text) :
    unescape? (c :: rest) = some c := by
  rw [unescape?]
  all_goals intros
  all_goals contradiction

/-- An escape stands for its code point whatever follows. -/
theorem unescape?_escape (hquote : quote = '\'' ∨ quote = '"') (c : CodePoint) (rest : Text) :
    unescape? (escape quote c ++ rest) = some c := by
  have hvalue := CodePoint.ofNat?_value c
  unfold escape
  simp only
  split
  next h => rcases h with rfl | rfl <;> rcases hquote with rfl | rfl <;> rfl
  next h =>
    split
    next =>
      exact unescape?_of_ne (not_or.mp h).2 rest
    next =>
      rw [← hvalue]
      split
      next hbyte => exact unescape?_number hbyte rest
      next =>
        split
        next hshort => exact congrArg CodePoint.ofNat? (hexNumber_take (by decide) hshort rest)
        next =>
          have hlong : c.value < 16 ^ 8 := Nat.lt_trans c.value_lt (by decide)
          exact congrArg CodePoint.ofNat? (hexNumber_take (by decide) hlong rest)

theorem escape_append_inj (hquote : quote = '\'' ∨ quote = '"') {c d : CodePoint}
    {rest rest' : Text} (h : escape quote c ++ rest = escape quote d ++ rest') :
    c = d ∧ rest = rest' := by
  have hread := congrArg unescape? h
  rw [unescape?_escape hquote, unescape?_escape hquote] at hread
  cases hread
  exact ⟨rfl, List.append_cancel_left h⟩

/-- No escape begins with the quote. -/
theorem escape_append_ne (hquote : quote = '\'' ∨ quote = '"') (c : CodePoint) (rest after : Text) :
    escape quote c ++ rest ≠ .scalar quote :: after := by
  intro h
  have hread := congrArg unescape? h
  have hne : CodePoint.scalar quote ≠ .scalar '\\' := by
    rcases hquote with rfl | rfl <;> decide
  rw [unescape?_escape hquote, unescape?_of_ne hne] at hread
  cases hread
  rw [escape, if_pos (.inl rfl)] at h
  exact hne (List.cons.inj h).1.symm

/-! ## Texts -/

/-- Escaped texts before their closing quotes are told apart whatever follows. -/
theorem flatMap_escape_inj (hquote : quote = '\'' ∨ quote = '"') {s t after after' : Text}
    (h : s.flatMap (escape quote) ++ .scalar quote :: after =
      t.flatMap (escape quote) ++ .scalar quote :: after') : s = t := by
  induction s generalizing t with
  | nil =>
      cases t with
      | nil => rfl
      | cons d t =>
          rw [List.flatMap_cons, List.append_assoc] at h
          exact absurd h.symm (escape_append_ne hquote d _ after)
  | cons c s ih =>
      rw [List.flatMap_cons, List.append_assoc] at h
      cases t with
      | nil => exact absurd h (escape_append_ne hquote c _ after')
      | cons d t =>
          rw [List.flatMap_cons, List.append_assoc] at h
          obtain ⟨rfl, hrest⟩ := escape_append_inj hquote h
          rw [ih hrest]

theorem quoteFor_cases (hasSingle hasDouble : Bool) :
    quoteFor hasSingle hasDouble = '\'' ∨ quoteFor hasSingle hasDouble = '"' := by
  unfold quoteFor
  split
  · exact .inr rfl
  · exact .inl rfl

/-- A quoted text determines what is quoted, whatever follows it. -/
theorem text_append_inj {s t after after' : Text} (h : text s ++ after = text t ++ after') :
    s = t := by
  simp only [text, List.append_assoc, List.singleton_append] at h
  obtain ⟨hhead, hrest⟩ := List.cons.inj h
  rw [CodePoint.scalar.inj hhead] at hrest
  exact flatMap_escape_inj (quoteFor_cases _ _) hrest

/-- The quoted forms of different texts part. -/
theorem parts_text {s t : Text} (h : s ≠ t) : Text.Parts (· ≠ ·) (text s) (text t) :=
  Text.parts_of_append_ne fun _ _ heq => h (text_append_inj heq)

end Quoted

end ManifestChain
