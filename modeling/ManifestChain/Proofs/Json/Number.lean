import ManifestChain.Json.Parser
import ManifestChain.Json.Printer
import ManifestChain.Proofs.Number.Decimal

/-!
# Numbers read back

Integers within the limit of digits and finite floating point numbers are read back from their text,
whatever follows it, as long as it does not continue the number. The three forms of a fraction,
below one, with a point inside or after it and with a power of ten, denote the fraction they were
made from.
-/

namespace ManifestChain

namespace Text

@[simp] theorem ofChars_nil : ofChars [] = [] := rfl

@[simp] theorem ofChars_cons (c : Char) (cs : List Char) :
    ofChars (c :: cs) = .scalar c :: ofChars cs := rfl

@[simp] theorem ofChars_append (cs ds : List Char) :
    ofChars (cs ++ ds) = ofChars cs ++ ofChars ds :=
  List.map_append

/-- Nothing at the start of a text continues a number. -/
def EndsNumber : Text → Prop
  | .scalar c :: _ => c.isDigit = false ∧ c ≠ '.' ∧ c ≠ 'e' ∧ c ≠ 'E'
  | _ => True

end Text

/-- The digits of a whole number: a zero alone, or digits that do not start with one. -/
structure WholeDigits (digits : List Char) : Prop where
  ne_nil : digits ≠ []
  isDigit : ∀ c ∈ digits, c.isDigit = true
  head_zero : digits.head? = some '0' → digits = ['0']

theorem isDigit_of_mem_toDigits {n : Nat} : ∀ c ∈ Nat.toDigits 10 n, c.isDigit = true :=
  fun _ hc => Nat.isDigit_of_mem_toDigits (by decide) (by decide) hc

/-- Only zero is written with a zero in front. -/
theorem head?_toDigits {n : Nat} (hn : n ≠ 0) : (Nat.toDigits 10 n).head? ≠ some '0' := by
  induction n using Nat.strongRecOn with
  | ind n ih =>
      by_cases hlt : n < 10
      · rw [Nat.toDigits_of_lt_base hlt]
        simp only [List.head?_cons, ne_eq, Option.some.injEq]
        have hdigit : ∀ d < 10, d ≠ 0 → Nat.digitChar d ≠ '0' := by decide
        exact hdigit n hlt hn
      · rw [Nat.toDigits_of_base_le (by decide) (by omega), List.head?_append]
        have hfirst := ih (n / 10) (by omega) (by omega)
        cases hhead : (Nat.toDigits 10 (n / 10)).head? with
        | none => exact absurd (List.head?_eq_none_iff.mp hhead) Nat.toDigits_ne_nil
        | some c =>
            rw [hhead] at hfirst
            exact hfirst

theorem isDigit_of_mem_replicate {n : Nat} : ∀ c ∈ List.replicate n '0', c.isDigit = true :=
  fun c hc => by
    rw [List.eq_of_mem_replicate hc]
    decide

namespace WholeDigits

theorem toDigits (n : Nat) : WholeDigits (Nat.toDigits 10 n) where
  ne_nil := Nat.toDigits_ne_nil
  isDigit := isDigit_of_mem_toDigits
  head_zero h := by
    by_cases hn : n = 0
    · rw [hn, Nat.toDigits_zero]
    · exact absurd h (head?_toDigits hn)

theorem take {digits : List Char} (h : WholeDigits digits) {n : Nat} (hn : 0 < n) :
    WholeDigits (digits.take n) where
  ne_nil hnil := by
    rcases List.take_eq_nil_iff.mp hnil with hzero | hempty
    · omega
    · exact h.ne_nil hempty
  isDigit c hc := h.isDigit c (List.mem_of_mem_take hc)
  head_zero hhead := by
    rw [List.head?_take, if_neg (by omega)] at hhead
    rw [h.head_zero hhead, List.take_of_length_le (Nat.succ_le_of_lt hn)]

/-- Zeros may follow, unless the digits are those of zero. -/
theorem append_zeros {digits : List Char} (h : WholeDigits digits) {n : Nat}
    (hn : digits = ['0'] → n = 0) : WholeDigits (digits ++ List.replicate n '0') where
  ne_nil hnil := h.ne_nil (List.append_eq_nil_iff.mp hnil).1
  isDigit c hc := by
    rcases List.mem_append.mp hc with hdigit | hzero
    · exact h.isDigit c hdigit
    · exact isDigit_of_mem_replicate c hzero
  head_zero hhead := by
    have hfirst : digits.head? = some '0' := by
      cases digits with
      | nil => exact absurd rfl h.ne_nil
      | cons c digits => exact hhead
    have hdigits := h.head_zero hfirst
    rw [hn hdigits, hdigits]
    rfl

end WholeDigits

namespace Json

open Text (EndsNumber)

theorem takeDigits_of_endsNumber {rest : Text} (h : EndsNumber rest) :
    takeDigits rest = ([], rest) := by
  cases rest with
  | nil => rfl
  | cons c rest => cases c with
    | scalar c => simp [takeDigits, h.1]
    | surrogate n => rfl

/-- A run of digits is taken whole where no digit follows it. -/
theorem takeDigits_append {digits : List Char} {rest : Text}
    (hdigits : ∀ c ∈ digits, c.isDigit = true)
    (hrest : takeDigits rest = ([], rest)) :
    takeDigits (Text.ofChars digits ++ rest) = (digits, rest) := by
  induction digits with
  | nil => exact hrest
  | cons c digits ih =>
      have htail := ih fun d hd => hdigits d (List.mem_cons_of_mem _ hd)
      simp [takeDigits, hdigits c List.mem_cons_self, htail]

theorem takeWhole?_append {digits : List Char} {rest : Text} (h : WholeDigits digits)
    (hrest : takeDigits rest = ([], rest)) :
    takeWhole? (Text.ofChars digits ++ rest) = some (digits, rest) := by
  have hdigits := takeDigits_append h.isDigit hrest
  cases digits with
  | nil => exact absurd rfl h.ne_nil
  | cons c digits =>
      by_cases hc : c = '0'
      · have hzero := h.head_zero (by rw [hc]; rfl)
        rw [hzero]
        rfl
      · rw [Text.ofChars_cons, List.cons_append] at hdigits ⊢
        rw [takeWhole?, hdigits]
        intro t ht
        cases ht
        exact hc rfl

theorem takeFraction_of_endsNumber {rest : Text} (h : EndsNumber rest) :
    takeFraction rest = (none, rest) := by
  rw [takeFraction]
  intro t ht
  rw [ht] at h
  exact h.2.1 rfl

theorem takeFraction_append {digits : List Char} {rest : Text} (hne : digits ≠ [])
    (hdigits : ∀ c ∈ digits, c.isDigit = true) (hrest : takeDigits rest = ([], rest)) :
    takeFraction (.scalar '.' :: (Text.ofChars digits ++ rest)) = (some digits, rest) := by
  rw [takeFraction, takeDigits_append hdigits hrest]
  cases digits with
  | nil => exact absurd rfl hne
  | cons c digits => rfl

theorem takePower_of_endsNumber {rest : Text} (h : EndsNumber rest) :
    takePower rest = (none, rest) := by
  cases rest with
  | nil => rfl
  | cons c rest => cases c with
    | scalar c => simp [takePower, h.2.2.1, h.2.2.2]
    | surrogate n => rfl

theorem takeDigits_power (e : Int) (rest : Text) :
    takeDigits (Layout.power e ++ rest) = ([], Layout.power e ++ rest) := by
  rw [Layout.power]
  split <;> rfl

theorem takeFraction_power (e : Int) (rest : Text) :
    takeFraction (Layout.power e ++ rest) = (none, Layout.power e ++ rest) := by
  rw [Layout.power]
  split <;> rfl

/-- A power of ten is read back, its sign and its leading zero with it. -/
theorem takePower_power (e : Int) {rest : Text} (hrest : takeDigits rest = ([], rest)) :
    takePower (Layout.power e ++ rest) = (some e, rest) := by
  obtain ⟨digits, hne, hpower, hvalue⟩ : ∃ digits, digits ≠ [] ∧
      takeDigits (Text.ofNatPadded 2 e.natAbs ++ rest) = (digits, rest) ∧
        Nat.ofDigitChars 10 digits 0 = e.natAbs := by
    refine ⟨_, ?_, takeDigits_append (fun c hc => ?_) hrest, ?_⟩
    · exact fun hnil => Nat.toDigits_ne_nil (List.append_eq_nil_iff.mp hnil).2
    · rcases List.mem_append.mp hc with hzero | hdigit
      · exact isDigit_of_mem_replicate c hzero
      · exact isDigit_of_mem_toDigits c hdigit
    · rw [Nat.ofDigitChars_append, Nat.ofDigitChars_replicate_zero, Nat.mul_zero,
        Nat.ofDigitChars_ten_toDigits]
  -- The first digit is named, so that the sign is seen to be followed by one.
  rw [Layout.power]
  cases digits with
  | nil => exact absurd rfl hne
  | cons c digits =>
      split
      next hneg =>
        have hsign : -((Nat.ofDigitChars 10 (c :: digits) 0 : Nat) : Int) = e := by omega
        change takePower (.scalar 'e' :: .scalar '-' :: (Text.ofNatPadded 2 e.natAbs ++ rest)) = _
        simp only [takePower, hpower, true_or, if_true, hsign]
      next hneg =>
        have hsign : ((Nat.ofDigitChars 10 (c :: digits) 0 : Nat) : Int) = e := by omega
        change takePower (.scalar 'e' :: .scalar '+' :: (Text.ofNatPadded 2 e.natAbs ++ rest)) = _
        simp only [takePower, hpower, true_or, if_true, Bool.false_eq_true, if_false, hsign]

/-- Zeros on both sides of the digits of a fraction change its form, but not what it denotes. -/
theorem ofDigits_eq {d : Decimal} (hd : d.Canonical) {whole fraction : List Char} {power : Int}
    {j k : Nat} (hdigits : whole ++ fraction =
      List.replicate j '0' ++ (d.digits ++ List.replicate k '0'))
    (hpower : power - fraction.length = d.exponent - k) :
    Decimal.ofDigits whole fraction power = d := by
  have hvalue : Nat.ofDigitChars 10 (whole ++ fraction) 0 = d.coefficient * 10 ^ k := by
    rw [hdigits, Nat.ofDigitChars_append, Nat.ofDigitChars_replicate_zero, Nat.mul_zero,
      Nat.ofDigitChars_append, Nat.ofDigitChars_replicate_zero, Decimal.digits,
      Nat.ofDigitChars_ten_toDigits, Nat.mul_comm]
  rw [Decimal.ofDigits, hvalue, hpower]
  exact hd.of_mul_pow k

/-- What is read as a number in parts is read as a floating point number, if it has a fraction or a
power of ten. -/
theorem parseUnsigned_fraction {negative : Bool} {t afterWhole afterFraction rest : Text}
    {whole : List Char} {fraction : Option (List Char)} {power : Option Int} {d : Decimal}
    (hwhole : takeWhole? t = some (whole, afterWhole))
    (hfraction : takeFraction afterWhole = (fraction, afterFraction))
    (hpower : takePower afterFraction = (power, rest))
    (hsome : fraction.isSome ∨ power.isSome)
    (hd : Decimal.ofDigits whole (fraction.getD []) (power.getD 0) = d) :
    parseUnsigned negative t = .ok (.float (.ofDecimal negative d), rest) := by
  subst hd
  simp only [parseUnsigned, hwhole, hfraction, hpower]
  cases fraction with
  | some fraction => rfl
  | none => cases power with
    | some power => rfl
    | none => simp at hsome

theorem takeDigits_point (t : Text) : takeDigits (.scalar '.' :: t) = ([], .scalar '.' :: t) := rfl

/-- Digits with a power of ten are read as the fraction they were made from. -/
theorem parseUnsigned_scientific {d : Decimal} (hd : d.Canonical) (negative : Bool) {rest : Text}
    (hrest : takeDigits rest = ([], rest)) :
    parseUnsigned negative (numberLayout.scientific d.digits d.leading ++ rest) =
      .ok (.float (.ofDecimal negative d), rest) := by
  have hwhole := WholeDigits.toDigits d.coefficient
  have hpower := takePower_power d.leading hrest
  have hleading : d.leading = d.exponent + d.digits.length - 1 := rfl
  rw [← Decimal.digits] at hwhole
  cases hdigits : d.digits with
  | nil => exact absurd hdigits hwhole.ne_nil
  | cons c fraction =>
      rw [hdigits] at hwhole hleading
      -- A single digit is written without a point, so the power alone makes it a fraction.
      cases fraction with
      | nil =>
          refine parseUnsigned_fraction (takeWhole?_append hwhole (takeDigits_power _ rest))
            (takeFraction_power _ rest) hpower (.inr rfl) (ofDigits_eq hd (j := 0) (k := 0) ?_ ?_)
          · simp [hdigits]
          · simpa using hleading
      | cons c' fraction =>
          have htail : ∀ x ∈ c' :: fraction, x.isDigit = true :=
            fun x hx => hwhole.isDigit x (List.mem_cons_of_mem _ hx)
          have hfraction := takeFraction_append (List.cons_ne_nil c' fraction) htail
            (takeDigits_power d.leading rest)
          have hfirst := takeWhole?_append (hwhole.take Nat.one_pos) (takeDigits_point
            (Text.ofChars (c' :: fraction) ++ (Layout.power d.leading ++ rest)))
          have hsplit : numberLayout.scientific (c :: c' :: fraction) d.leading ++ rest =
              Text.ofChars ((c :: c' :: fraction).take 1) ++ (.scalar '.' ::
                (Text.ofChars (c' :: fraction) ++ (Layout.power d.leading ++ rest))) := by
            simp [Layout.scientific]
          rw [hsplit]
          refine parseUnsigned_fraction hfirst hfraction hpower (.inl rfl)
            (ofDigits_eq hd (j := 0) (k := 0) ?_ ?_)
          · simp [hdigits]
          · simp only [Option.getD_some, List.length_cons] at hleading ⊢
            omega

/-- Digits around a point are read as what they denote. -/
theorem parseUnsigned_point {d : Decimal} (hd : d.Canonical) (negative : Bool)
    (whole fraction : List Char) {rest : Text} {j k : Nat} (hwhole : WholeDigits whole)
    (hne : fraction ≠ []) (hfraction : ∀ c ∈ fraction, c.isDigit = true)
    (hdigits : whole ++ fraction = List.replicate j '0' ++ (d.digits ++ List.replicate k '0'))
    (hlength : -(fraction.length : Int) = d.exponent - k) (hrest : EndsNumber rest) :
    parseUnsigned negative (Text.ofChars (whole ++ '.' :: fraction) ++ rest) =
      .ok (.float (.ofDecimal negative d), rest) := by
  have hafter := takeDigits_of_endsNumber hrest
  have hsplit : Text.ofChars (whole ++ '.' :: fraction) ++ rest =
      Text.ofChars whole ++ .scalar '.' :: (Text.ofChars fraction ++ rest) := by simp
  rw [hsplit]
  refine parseUnsigned_fraction (takeWhole?_append hwhole (takeDigits_point _))
    (takeFraction_append hne hfraction hafter) (takePower_of_endsNumber hrest) (.inl rfl)
    (ofDigits_eq hd hdigits ?_)
  simp only [Option.getD_some, Option.getD_none]
  omega

theorem wholeDigits_digits (d : Decimal) : WholeDigits d.digits :=
  WholeDigits.toDigits d.coefficient

/-- Below one, zeros stand between the point and the digits. -/
theorem parseUnsigned_below_one {d : Decimal} (hd : d.Canonical) (negative : Bool) {rest : Text}
    (hleading : d.leading < 0) (hrest : EndsNumber rest) :
    parseUnsigned negative (Text.ofChars (['0'] ++ '.' ::
      (List.replicate (d.leading.natAbs - 1) '0' ++ d.digits)) ++ rest) =
      .ok (.float (.ofDecimal negative d), rest) := by
  have hall := wholeDigits_digits d
  have hpos : 0 < d.digits.length := List.length_pos_iff.mpr hall.ne_nil
  refine parseUnsigned_point hd negative _ _ (j := d.leading.natAbs) (k := 0)
    (WholeDigits.toDigits 0) ?_ ?_ ?_ ?_ hrest
  · exact fun hnil => hall.ne_nil (List.append_eq_nil_iff.mp hnil).2
  · intro c hc
    rcases List.mem_append.mp hc with hzero | hdigit
    · exact isDigit_of_mem_replicate c hzero
    · exact hall.isDigit c hdigit
  · obtain ⟨z, hz⟩ : ∃ z, d.leading.natAbs = z + 1 := ⟨d.leading.natAbs - 1, by omega⟩
    simp [hz, List.replicate_succ]
  · rw [Decimal.leading] at hleading ⊢
    rw [List.length_append, List.length_replicate]
    omega

/-- Where the point stands inside the digits, none are added. -/
theorem parseUnsigned_inside {d : Decimal} (hd : d.Canonical) (negative : Bool) {rest : Text}
    {w : Nat} (hw : d.leading = w) (hlong : w + 1 < d.digits.length) (hrest : EndsNumber rest) :
    parseUnsigned negative
      (Text.ofChars (d.digits.take (w + 1) ++ '.' :: d.digits.drop (w + 1)) ++ rest) =
      .ok (.float (.ofDecimal negative d), rest) := by
  have hall := wholeDigits_digits d
  refine parseUnsigned_point hd negative _ _ (j := 0) (k := 0) (hall.take (Nat.succ_pos w)) ?_
    (fun c hc => hall.isDigit c (List.mem_of_mem_drop hc)) ?_ ?_ hrest
  · intro hnil
    have hle := List.drop_eq_nil_iff.mp hnil
    omega
  · simp
  · rw [Decimal.leading] at hw
    rw [List.length_drop]
    omega

/-- A whole number has zeros up to the point, and one after it. -/
theorem parseUnsigned_whole {d : Decimal} (hd : d.Canonical) (negative : Bool) {rest : Text}
    {w : Nat} (hw : d.leading = w) (hshort : d.digits.length ≤ w + 1) (hrest : EndsNumber rest) :
    parseUnsigned negative (Text.ofChars ((d.digits ++
      List.replicate (w + 1 - d.digits.length) '0') ++ '.' :: ['0']) ++ rest) =
      .ok (.float (.ofDecimal negative d), rest) := by
  have hzero (h : d.digits = ['0']) : w + 1 - d.digits.length = 0 := by
    rcases hd with rfl | hlast
    · simp only [Decimal.leading, h, List.length_cons, List.length_nil] at hw ⊢
      omega
    · have hcoefficient : d.coefficient = 0 := by
        rw [← Nat.ofDigitChars_ten_toDigits (n := d.coefficient), ← Decimal.digits, h]
        rfl
      omega
  refine parseUnsigned_point hd negative _ _ (j := 0) (k := w + 1 - d.digits.length + 1)
    ((wholeDigits_digits d).append_zeros hzero) (List.cons_ne_nil '0' [])
    (isDigit_of_mem_replicate (n := 1)) ?_ ?_ hrest
  · simp [List.replicate_succ']
  · rw [Decimal.leading] at hw
    rw [List.length_singleton]
    omega

theorem parseUnsigned_positional {d : Decimal} (hd : d.Canonical) (negative : Bool) {rest : Text}
    (hrest : EndsNumber rest) :
    parseUnsigned negative (Layout.positional d.digits d.leading ++ rest) =
      .ok (.float (.ofDecimal negative d), rest) := by
  rw [Layout.positional]
  split
  next hsmall =>
    rw [List.append_assoc]
    exact parseUnsigned_below_one hd negative hsmall hrest
  next hlarge =>
    obtain ⟨w, hw⟩ := Int.eq_ofNat_of_zero_le (Int.not_lt.mp hlarge)
    have hnat : d.leading.toNat = w := by rw [hw, Int.toNat_natCast]
    simp only [hnat]
    by_cases hlong : w + 1 < d.digits.length
    · have hdrop : (d.digits.drop (w + 1)).isEmpty = false := by simpa using hlong
      have hzeros : w + 1 - d.digits.length = 0 := by omega
      simp only [hdrop, hzeros, List.replicate_zero, List.append_nil, List.append_assoc]
      exact parseUnsigned_inside hd negative hw hlong hrest
    · have hshort : d.digits.length ≤ w + 1 := Nat.not_lt.mp hlong
      rw [List.drop_of_length_le hshort, List.take_of_length_le hshort, List.append_assoc]
      exact parseUnsigned_whole hd negative hw hshort hrest

/-- The text of a fraction in its one form is read as the number nearest to it. -/
theorem parseUnsigned_decimal {d : Decimal} (hd : d.Canonical) (negative : Bool) {rest : Text}
    (hrest : EndsNumber rest) :
    parseUnsigned negative (numberLayout.decimal d ++ rest) =
      .ok (.float (.ofDecimal negative d), rest) := by
  rw [Layout.decimal]
  split
  · exact parseUnsigned_positional hd negative hrest
  · exact parseUnsigned_scientific hd negative (takeDigits_of_endsNumber hrest)

theorem length_toDigits_le_iff {n k : Nat} (hk : 0 < k) :
    (Nat.toDigits 10 n).length ≤ k ↔ n < Nat.pow 10 k :=
  Nat.length_toDigits_le_iff (by decide) hk

/-- The digits of a natural number within the limit are read as it. -/
theorem parseUnsigned_ofNat {n : Nat} (hn : n < Numeral.bound) (negative : Bool)
    {rest : Text} (hrest : EndsNumber rest) :
    parseUnsigned negative (Text.ofNat n ++ rest) =
      .ok (.int (if negative then -(n : Int) else n), rest) := by
  have hwhole := takeWhole?_append (WholeDigits.toDigits n) (takeDigits_of_endsNumber hrest)
  have hlength : (Nat.toDigits 10 n).length ≤ Numeral.digitLimit := by
    unfold Numeral.bound at hn
    exact (length_toDigits_le_iff (by decide)).mpr hn
  have hvalue : Numeral.ofDigits? (Nat.toDigits 10 n) = some n := by
    rw [Numeral.ofDigits?, if_pos hlength, Nat.ofDigitChars_ten_toDigits]
  simp only [parseUnsigned, Text.ofNat, hwhole, takeFraction_of_endsNumber hrest,
    takePower_of_endsNumber hrest, hvalue]

/-- No word for a value starts with a digit. -/
theorem parseLeaf_of_digit {c : Char} (hc : c.isDigit = true) (t : Text) :
    parseLeaf (.scalar c :: t) = parseUnsigned false (.scalar c :: t) := by
  have hne (x : Char) (hx : x.isDigit = false) : x ≠ c := fun heq => by simp [heq, hc] at hx
  simp [parseLeaf, afterWord?, Text.startsWith, Text.ofString, List.findSome?, hne]
  split
  next heq => exact absurd (CodePoint.scalar.inj (List.cons.inj heq).1).symm (hne '-' (by decide))
  next => rfl

theorem parseLeaf_of_minus {c : Char} (hc : c.isDigit = true) (t : Text) :
    parseLeaf (.scalar '-' :: .scalar c :: t) = parseUnsigned true (.scalar c :: t) := by
  have hne : 'I' ≠ c := fun heq => by simp [← heq] at hc
  simp [parseLeaf, afterWord?, Text.startsWith, Text.ofString, List.findSome?, hne]

theorem starts_of_parseUnsigned {negative : Bool} {t : Text} {r : Json × Text}
    (h : parseUnsigned negative t = .ok r) :
    ∃ c rest, c.isDigit = true ∧ t = .scalar c :: rest := by
  have hno (hnone : takeWhole? t = none) : False := by simp [parseUnsigned, hnone] at h
  cases t with
  | nil => exact (hno rfl).elim
  | cons c rest => cases c with
    | surrogate n => exact (hno rfl).elim
    | scalar c =>
        refine ⟨c, rest, ?_, rfl⟩
        by_cases hzero : c = '0'
        · rw [hzero]
          decide
        · cases hc : c.isDigit with
          | true => rfl
          | false =>
              refine (hno ?_).elim
              rw [takeWhole?]
              · simp [takeDigits, hc]
              · exact fun t ht => hzero (CodePoint.scalar.inj (List.cons.inj ht).1)

/-- Signed digits are read by their sign and the digits. -/
theorem parseLeaf_signed {negative : Bool} {t : Text} {r : Json × Text}
    (h : parseUnsigned negative t = .ok r) :
    parseLeaf ((if negative then [.scalar '-'] else []) ++ t) = .ok r := by
  obtain ⟨c, rest, hc, rfl⟩ := starts_of_parseUnsigned h
  cases negative with
  | true => exact (parseLeaf_of_minus hc rest).trans h
  | false => exact (parseLeaf_of_digit hc rest).trans h

/-- An integer within the limit of digits is read back. -/
theorem parseLeaf_printInt {n : Int} (hn : n.natAbs < Numeral.bound) {rest : Text}
    (hrest : EndsNumber rest) : parseLeaf (printInt n ++ rest) = .ok (.int n, rest) := by
  have hread := parseLeaf_signed (parseUnsigned_ofNat hn (decide (n < 0)) hrest)
  have hsign : (if decide (n < 0) then -(n.natAbs : Int) else n.natAbs) = n := by
    by_cases hneg : n < 0
    · simp only [hneg, decide_true, if_true]
      omega
    · simp only [hneg, decide_false, Bool.false_eq_true, if_false]
      omega
  rw [hsign, ← List.append_assoc] at hread
  simpa only [printInt, decide_eq_true_eq] using hread

/-- A finite number is read back from its shortest digits. -/
theorem parseLeaf_number (negative : Bool) (m : Magnitude) {rest : Text} (hrest : EndsNumber rest) :
    parseLeaf (numberLayout.number (.finite negative m) ++ rest) =
      .ok (.float (.finite negative m), rest) := by
  have hread := parseLeaf_signed (parseUnsigned_decimal m.canonical_shortest negative hrest)
  rw [m.ofDecimal_shortest, ← List.append_assoc] at hread
  cases negative with
  | true => exact hread
  | false => exact hread

end Json

end ManifestChain
