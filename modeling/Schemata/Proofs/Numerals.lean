import Mathlib.Algebra.Field.Rat
import Mathlib.Algebra.Order.Ring.Cast
import Schemata.Proofs.PathText
import Schemata.Value.Literal
import Schemata.Value.Reader
/-!
Numbers that are written and read back.

A numeral is well-formed if it is one of the grammar: a zero or digits that do not start with one,
perhaps digits behind a point, perhaps an exponent. Main statements:

1. `Numeral.scan_chars`: a well-formed numeral is read back part by part from its characters, whatever
   follows it that does not go on with a number.
2. `exists_integer` and `exists_numeral`: an integer and a finite decimal are written as the characters
   of a well-formed numeral. Its sign, its coefficient and its power are those of the number.
3. `literal_decimal_exact`: so a decimal that is read from a text is written as a numeral that is read
   as the same decimal.
-/

namespace Schemata

namespace Decimal

/-! ## Digits and their value -/

theorem valueOf_eq (ds : List Char) : valueOf ds = Nat.ofDigitChars 10 ds 0 :=
  Nat.ofDigitChars_eq_foldl.symm

@[simp] theorem valueOf_digits (n : Nat) : valueOf (digits n) = n := by
  rw [valueOf_eq, digits, Nat.ofDigitChars_ten_toDigits]

/-- Zeros in front do not count. -/
theorem valueOf_zeros (count : Nat) (ds : List Char) :
    valueOf (List.replicate count '0' ++ ds) = valueOf ds := by
  rw [valueOf_eq, valueOf_eq, Nat.ofDigitChars_append, Nat.ofDigitChars_replicate_zero, Nat.mul_zero]

theorem digits_ne_nil (n : Nat) : digits n ≠ [] := Nat.toDigits_ne_nil

/-- An integer is long from the power of ten on that has one digit more than the limit. -/
theorem isLong_iff (n : Int) : isLong n = true ↔ 10 ^ digitLimit ≤ n.natAbs := by
  have hle : (digits n.natAbs).length ≤ digitLimit ↔ n.natAbs < 10 ^ digitLimit :=
    Nat.length_toDigits_le_iff (by decide) (by decide)
  rw [isLong, decide_eq_true_iff, ← Nat.not_le, hle, Nat.not_lt]

theorem digits_pos (n : Nat) : 0 < (digits n).length := Nat.length_toDigits_pos

/-- Only zero starts with a zero. -/
theorem digits_head {n : Nat} (h : (digits n).head? = some '0') : n = 0 := by
  induction n using Nat.strong_induction_on with
  | _ n ih =>
    rw [digits, Nat.toDigits_eq_if (by decide)] at h
    split at h
    · rename_i hn
      have hall : ∀ m < 10, some (Nat.digitChar m) = some '0' → m = 0 := by decide
      exact hall n hn h
    · rename_i hn
      -- The first digit is the one of the number without its last digit.
      rw [List.head?_append_of_ne_nil _ Nat.toDigits_ne_nil] at h
      have hdiv : n / 10 = 0 := ih (n / 10) (by omega) h
      omega

theorem digits_zero_or (n : Nat) : digits n = ['0'] ∨ (digits n).head? ≠ some '0' := by
  by_cases h : (digits n).head? = some '0'
  · rw [digits_head h]
    exact .inl rfl
  · exact .inr h

end Decimal

namespace Numeral

open Decimal (digits valueOf sign)

/-! ## Numerals of the grammar -/

def AreDigits (ds : List Char) : Prop := ds ≠ [] ∧ ∀ c ∈ ds, c.isDigit = true

/-- What holds of the ten digits holds of everything that counts as a digit. -/
theorem forall_digits {p : Char → Bool}
    (h : (List.range 10).all (fun k => p (Char.ofNat (48 + k))) = true) {c : Char}
    (hc : c.isDigit = true) : p c = true := by
  rw [Char.isDigit, Bool.and_eq_true, decide_eq_true_eq, decide_eq_true_eq] at hc
  have hlow : 48 ≤ c.toNat := UInt32.le_iff_toNat_le.1 hc.1
  have hhigh : c.toNat ≤ 57 := UInt32.le_iff_toNat_le.1 hc.2
  have hdigit := List.all_eq_true.1 h (c.toNat - 48) (List.mem_range.2 (by omega))
  have hcode : 48 + (c.toNat - 48) = c.toNat := by omega
  rwa [hcode, Char.ofNat_toNat] at hdigit

theorem areDigits_digits (n : Nat) : AreDigits (digits n) :=
  ⟨Decimal.digits_ne_nil n, fun _ => Decimal.isDigit_of_mem_digits⟩

/-- A numeral of the grammar: no zeros in front, and digits wherever there have to be some. -/
structure WellFormed (n : Numeral) : Prop where
  whole : AreDigits n.whole
  leading : n.whole = ['0'] ∨ n.whole.head? ≠ some '0'
  fraction : ∀ ds, n.fraction = some ds → AreDigits ds
  exponent : ∀ negative ds, n.exponent = some (negative, ds) → AreDigits ds

def fractionChars : Option (List Char) → List Char
  | none => []
  | some ds => '.' :: ds

/-- The mark of an exponent with its sign and its digits, if there is one. -/
def exponentChars : Option (Bool × List Char) → List Char
  | none => []
  | some (negative, ds) => 'E' :: (if negative then '-' else '+') :: ds

def chars (n : Numeral) : List Char :=
  sign n.negative ++ (n.whole ++ (fractionChars n.fraction ++ exponentChars n.exponent))

def rational (n : Numeral) : ℚ := (if n.negative then -1 else 1) * n.coefficient * 10 ^ n.power

/-- What follows a number: nothing, or a character that no number and no name goes on with. -/
def Ends (rest : List Char) : Prop :=
  ∀ c tail, rest = c :: tail → Text.continuesIdentifier c = false ∧ c ≠ '.'

theorem ends_nil : Ends [] := fun c tail h => by cases h

theorem ends_cons {c : Char} {rest : List Char} (hc : Text.continuesIdentifier c = false)
    (hdot : c ≠ '.') : Ends (c :: rest) := by
  rintro d tail ⟨⟩
  exact ⟨hc, hdot⟩

def NoDigit (rest : List Char) : Prop := ∀ c tail, rest = c :: tail → c.isDigit = false

theorem noDigit_cons {c : Char} {rest : List Char} (hc : c.isDigit = false) : NoDigit (c :: rest) := by
  rintro d tail ⟨⟩
  exact hc

theorem Ends.noDigit {rest : List Char} (h : Ends rest) : NoDigit rest := by
  intro c tail hrest
  have hc := (h c tail hrest).1
  simp only [Text.continuesIdentifier, Char.isAlphanum, Bool.or_eq_false_iff] at hc
  exact hc.1.1.2

/-! ## Reading numerals back -/

theorem spanDigits_append {ds rest : List Char} (hds : ∀ c ∈ ds, c.isDigit = true)
    (hrest : NoDigit rest) : spanDigits (ds ++ rest) = (ds, rest) := by
  have hstop : rest.takeWhile Char.isDigit = [] ∧ rest.dropWhile Char.isDigit = rest := by
    cases rest with
    | nil => exact ⟨rfl, rfl⟩
    | cons c tail => simp [hrest c tail rfl]
  simp only [spanDigits, List.takeWhile_append_of_pos hds, List.dropWhile_append_of_pos hds, hstop,
    List.append_nil]

theorem scanWhole_append {ds rest : List Char} (hds : AreDigits ds)
    (hlead : ds = ['0'] ∨ ds.head? ≠ some '0') (hrest : NoDigit rest) :
    scanWhole (ds ++ rest) = some (ds, rest) := by
  rcases hlead with rfl | hlead
  · rfl
  · obtain ⟨d, tail, rfl⟩ := List.exists_cons_of_ne_nil hds.1
    have hd : d ≠ '0' := by
      rintro rfl
      exact hlead rfl
    have hspan := spanDigits_append hds.2 hrest
    rw [List.cons_append] at hspan ⊢
    unfold scanWhole
    split
    · rename_i heq
      exact absurd (List.cons.inj heq).1 hd
    · rw [hspan]

theorem scanFraction_append {fraction : Option (List Char)} {rest : List Char}
    (hf : ∀ ds, fraction = some ds → AreDigits ds) (hrest : NoDigit rest)
    (hdot : ∀ tail, rest ≠ '.' :: tail) :
    scanFraction (fractionChars fraction ++ rest) = (fraction, rest) := by
  cases fraction with
  | none =>
    show scanFraction rest = (none, rest)
    unfold scanFraction
    split
    · exact absurd rfl (hdot _)
    · rfl
  | some ds =>
    have hspan := spanDigits_append (hf ds rfl).2 hrest
    obtain ⟨d, tail, rfl⟩ := List.exists_cons_of_ne_nil (hf ds rfl).1
    show scanFraction ('.' :: (d :: tail ++ rest)) = _
    simp only [scanFraction, hspan]

theorem scanExponent_append {exponent : Option (Bool × List Char)} {rest : List Char}
    (he : ∀ negative ds, exponent = some (negative, ds) → AreDigits ds) (hrest : Ends rest) :
    scanExponent (exponentChars exponent ++ rest) = (exponent, rest) := by
  cases exponent with
  | none =>
    show scanExponent rest = (none, rest)
    cases rest with
    | nil => rfl
    | cons c tail =>
      have hc : ¬(c = 'e' ∨ c = 'E') := by
        rintro (rfl | rfl) <;> exact absurd (hrest _ _ rfl).1 (by decide)
      rw [scanExponent, if_neg hc]
  | some e =>
    obtain ⟨negative, ds⟩ := e
    have hspan := spanDigits_append (he negative ds rfl).2 hrest.noDigit
    obtain ⟨d, tail, rfl⟩ := List.exists_cons_of_ne_nil (he negative ds rfl).1
    have hdigits : scanExponentDigits ((if negative then '-' else '+') :: (d :: tail ++ rest)) =
        some ((negative, d :: tail), rest) := by
      rw [List.cons_append] at hspan ⊢
      cases negative <;> simp [scanExponentDigits, hspan]
    show scanExponent ('E' :: (if negative then '-' else '+') :: (d :: tail ++ rest)) = _
    rw [scanExponent, if_pos (.inr rfl), hdigits]

/-- What comes behind the digits in front of the point is no digit. -/
theorem noDigit_tail (fraction : Option (List Char)) (exponent : Option (Bool × List Char))
    {rest : List Char} (hrest : Ends rest) :
    NoDigit (fractionChars fraction ++ (exponentChars exponent ++ rest)) := by
  cases fraction with
  | some ds => exact noDigit_cons (by decide)
  | none =>
    cases exponent with
    | some e => exact noDigit_cons (by decide)
    | none => exact hrest.noDigit

theorem noDigit_exponent (exponent : Option (Bool × List Char)) {rest : List Char}
    (hrest : Ends rest) : NoDigit (exponentChars exponent ++ rest) :=
  noDigit_tail none exponent hrest

theorem no_point (exponent : Option (Bool × List Char)) {rest tail : List Char}
    (hrest : Ends rest) : exponentChars exponent ++ rest ≠ '.' :: tail := by
  cases exponent with
  | some e =>
    intro h
    cases h
  | none => exact fun h => (hrest '.' tail h).2 rfl

/-- A digit is no sign. -/
theorem AreDigits.unsigned {ds : List Char} (h : AreDigits ds) (rest tail : List Char) :
    ds ++ rest ≠ '-' :: tail ∧ ds ++ rest ≠ '+' :: tail := by
  obtain ⟨d, ds, rfl⟩ := List.exists_cons_of_ne_nil h.1
  have hd := h.2 d List.mem_cons_self
  constructor
  · intro heq
    rw [(List.cons.inj heq).1] at hd
    exact absurd hd (by decide)
  · intro heq
    rw [(List.cons.inj heq).1] at hd
    exact absurd hd (by decide)

/-- A well-formed numeral is read back, and nothing behind it. -/
theorem scan_chars {n : Numeral} (h : n.WellFormed) {rest : List Char} (hrest : Ends rest) :
    scan (n.chars ++ rest) = some (n, rest) := by
  obtain ⟨negative, whole, fraction, exponent⟩ := n
  have hwhole := scanWhole_append h.whole h.leading (noDigit_tail fraction exponent hrest)
  have hfraction := scanFraction_append h.fraction (noDigit_exponent exponent hrest)
    fun _ => no_point exponent hrest
  have hexponent := scanExponent_append h.exponent hrest
  simp only [chars, List.append_assoc]
  cases negative with
  | true =>
    show scan ('-' :: (whole ++ (fractionChars fraction ++ (exponentChars exponent ++ rest)))) = _
    simp only [scan, hwhole, hfraction, hexponent]
  | false =>
    show scan (whole ++ (fractionChars fraction ++ (exponentChars exponent ++ rest))) = _
    unfold scan
    split
    rename_i heq
    split at heq
    · rename_i hminus
      exact absurd hminus (h.whole.unsigned _ _).1
    · cases heq
      simp only [hwhole, hfraction, hexponent]

/-- A well-formed numeral has a sign or a digit first. -/
theorem WellFormed.head {n : Numeral} (h : n.WellFormed) (rest : List Char) :
    ∃ c tail, n.chars ++ rest = c :: tail ∧ (c = '-' ∨ c.isDigit = true) := by
  obtain ⟨d, ds, hwhole⟩ := List.exists_cons_of_ne_nil h.whole.1
  have hd : d.isDigit = true := h.whole.2 d (by rw [hwhole]; exact List.mem_cons_self)
  unfold chars
  cases n.negative with
  | true => exact ⟨'-', _, rfl, .inl rfl⟩
  | false => exact ⟨d, _, by rw [hwhole]; rfl, .inr hd⟩

/-! ## Numerals of given numbers -/

/-- A well-formed numeral with a given sign, coefficient and power. -/
structure Spells (n : Numeral) (negative : Bool) (coefficient : Nat) (power : Int) : Prop where
  wellFormed : n.WellFormed
  negative : n.negative = negative
  coefficient : n.coefficient = coefficient
  power : n.power = power

/-- A numeral without exponent. -/
theorem spells_plain {negative : Bool} {whole : List Char} {fraction : Option (List Char)}
    {coefficient places : Nat} (hwhole : AreDigits whole)
    (hlead : whole = ['0'] ∨ whole.head? ≠ some '0')
    (hfraction : ∀ ds, fraction = some ds → AreDigits ds)
    (hvalue : valueOf (whole ++ fraction.getD []) = coefficient)
    (hplaces : (fraction.getD []).length = places) :
    Spells ⟨negative, whole, fraction, none⟩ negative coefficient (-places) where
  wellFormed := ⟨hwhole, hlead, hfraction, fun _ _ h => by cases h⟩
  negative := rfl
  coefficient := hvalue
  power := by simp [Numeral.power, hplaces]

end Numeral

namespace Decimal

open Numeral (AreDigits Spells spells_plain areDigits_digits)

theorem areDigits_take {n k : Nat} (hk : 0 < k) : AreDigits ((digits n).take k) := by
  refine ⟨fun h => ?_, fun c hc => isDigit_of_mem_digits (List.mem_of_mem_take hc)⟩
  rcases List.take_eq_nil_iff.1 h with h | h
  · omega
  · exact digits_ne_nil n h

theorem areDigits_drop {n k : Nat} (hk : k < (digits n).length) : AreDigits ((digits n).drop k) := by
  refine ⟨fun h => ?_, fun c hc => isDigit_of_mem_digits (List.mem_of_mem_drop hc)⟩
  rw [List.drop_eq_nil_iff] at h
  omega

/-- A part of the digits from the first one on starts as all of them do. -/
theorem take_leading {n k : Nat} (hk : 0 < k) :
    (digits n).take k = ['0'] ∨ ((digits n).take k).head? ≠ some '0' := by
  have hhead : ((digits n).take k).head? = (digits n).head? := by
    rw [List.head?_take, if_neg (by omega)]
  rcases digits_zero_or n with h | h
  · left
    rw [h, List.take_of_length_le (by simp; omega)]
  · right
    rwa [hhead]

/-- Plain notation: the places behind the point are the power. -/
theorem exists_pointed (negative : Bool) (coefficient places : Nat) :
    ∃ n : Numeral, n.Spells negative coefficient (-places) ∧
      n.chars = sign negative ++ pointed (digits coefficient) places := by
  unfold pointed
  split
  · rename_i hplaces
    subst hplaces
    refine ⟨⟨negative, digits coefficient, none, none⟩, ?_, by simp [Numeral.chars,
      Numeral.fractionChars, Numeral.exponentChars]⟩
    exact spells_plain (areDigits_digits _) (digits_zero_or _) (fun _ h => by cases h) (by simp) rfl
  · split
    · -- The point stands among the digits.
      rename_i hplaces hlength
      refine ⟨⟨negative, (digits coefficient).take ((digits coefficient).length - places),
        some ((digits coefficient).drop ((digits coefficient).length - places)), none⟩, ?_,
        by simp [Numeral.chars, Numeral.fractionChars, Numeral.exponentChars]⟩
      apply spells_plain (areDigits_take (by omega)) (take_leading (by omega))
      · rintro ds ⟨⟩
        exact areDigits_drop (by omega)
      · simp
      · simp only [Option.getD_some, List.length_drop]
        omega
    · -- All digits stand behind the point, with zeros between.
      rename_i hplaces hlength
      refine ⟨⟨negative, ['0'], some (List.replicate (places - (digits coefficient).length) '0'
        ++ digits coefficient), none⟩, ?_,
        by simp [Numeral.chars, Numeral.fractionChars, Numeral.exponentChars]⟩
      refine spells_plain (areDigits_digits 0) (.inl rfl) ?_ ?_ ?_
      · rintro ds ⟨⟩
        refine ⟨by simp [digits_ne_nil], List.forall_mem_append.2 ⟨fun c hc => ?_, ?_⟩⟩
        · rw [List.eq_of_mem_replicate hc]
          rfl
        · exact (areDigits_digits coefficient).2
      · show valueOf (List.replicate 1 '0' ++ _) = coefficient
        rw [Option.getD_some, valueOf_zeros, valueOf_zeros, valueOf_digits]
      · simp only [Option.getD_some, List.length_append, List.length_replicate]
        omega

/-- Scientific notation: the written exponent is that of the first digit. -/
theorem exists_scientific (negative : Bool) (coefficient : Nat) (exponent : Int) :
    ∃ n : Numeral,
      n.Spells negative coefficient (exponent - ((digits coefficient).length - 1 : Nat)) ∧
      n.chars = sign negative ++ (leading (digits coefficient) ++ 'E' :: signedDigits exponent) := by
  obtain ⟨d, rest, hds⟩ := List.exists_cons_of_ne_nil (digits_ne_nil coefficient)
  have hwhole : AreDigits [d] := by
    have h := areDigits_take (n := coefficient) (k := 1) (by omega)
    rwa [hds] at h
  have hlead : [d] = ['0'] ∨ [d].head? ≠ some '0' := by
    have h := take_leading (n := coefficient) (k := 1) (by omega)
    rwa [hds] at h
  have hrest : rest ≠ [] → AreDigits rest := by
    intro hne
    have h := areDigits_drop (n := coefficient) (k := 1) (by
      rw [hds, List.length_cons]
      have := List.length_pos_iff.2 hne
      omega)
    rwa [hds] at h
  have hvalue : valueOf (d :: rest) = coefficient := by rw [← hds, valueOf_digits]
  have hwritten : (if exponent < 0 then -(valueOf (digits exponent.natAbs) : Int)
      else valueOf (digits exponent.natAbs)) = exponent := by
    rw [valueOf_digits]
    split <;> omega
  refine ⟨⟨negative, [d], if rest = [] then none else some rest,
    some (decide (exponent < 0), digits exponent.natAbs)⟩, ⟨⟨hwhole, hlead, ?_, ?_⟩, rfl, ?_, ?_⟩, ?_⟩
  · intro ds hfraction
    split at hfraction
    · cases hfraction
    · rename_i hne
      cases hfraction
      exact hrest hne
  · rintro sign ds ⟨⟩
    exact areDigits_digits _
  · by_cases hne : rest = []
    · simpa [Numeral.coefficient, hne] using hvalue
    · simpa [Numeral.coefficient, hne] using hvalue
  · by_cases hne : rest = []
    · simpa [Numeral.power, hne, hds] using hwritten
    · simpa [Numeral.power, hne, hds] using hwritten
  · by_cases hne : rest = []
    · simp [Numeral.chars, Numeral.fractionChars, Numeral.exponentChars, signedDigits, hds, hne,
        leading]
    · obtain ⟨e, rest, rfl⟩ := List.exists_cons_of_ne_nil hne
      simp [Numeral.chars, Numeral.fractionChars, Numeral.exponentChars, signedDigits, hds, leading]

/-- A finite decimal is written as a numeral with its sign, its coefficient and its exponent. -/
theorem exists_numeral (negative : Bool) (coefficient : Nat) (exponent : Int) :
    ∃ n : Numeral, n.Spells negative coefficient exponent ∧
      n.chars = (finite negative coefficient exponent).chars := by
  simp only [chars, numeral]
  split
  · rename_i hplain
    have hpower : (-(exponent.natAbs : Int)) = exponent := by omega
    have h := exists_pointed negative coefficient exponent.natAbs
    rwa [hpower] at h
  · have hlength := digits_pos coefficient
    have hpower : exponent + (digits coefficient).length - 1 -
        ((digits coefficient).length - 1 : Nat) = exponent := by omega
    have h := exists_scientific negative coefficient (exponent + (digits coefficient).length - 1)
    rwa [hpower] at h

/-- An integer is written as a numeral with its sign and its digits. -/
theorem exists_integer (k : Int) :
    ∃ n : Numeral, n.Spells (k < 0) k.natAbs 0 ∧ n.chars = intDigits k := by
  obtain ⟨n, hn, hchars⟩ := exists_pointed (k < 0) k.natAbs 0
  refine ⟨n, hn, ?_⟩
  rw [hchars]
  by_cases h : k < 0 <;> simp [intDigits, sign, pointed, h]

/-! ## Reading decimals back -/

/-- The exact number that a decimal is, if it is one. -/
def rational? : Decimal → Option ℚ
  | finite negative coefficient exponent =>
    some ((if negative then -1 else 1) * coefficient * 10 ^ exponent)
  | infinite _ => none
  | nan _ _ _ => none

theorem rational_of_spells {n : Numeral} {negative : Bool} {coefficient : Nat} {exponent : Int}
    (h : n.Spells negative coefficient exponent) :
    (finite negative coefficient exponent).rational? = some n.rational := by
  rw [rational?, Numeral.rational, h.negative, h.coefficient, h.power]

theorem rational_of_spells_int {n : Numeral} {k : Int} (h : n.Spells (k < 0) k.natAbs 0) :
    n.rational = k := by
  rw [Numeral.rational, h.negative, h.coefficient, h.power, zpow_zero, mul_one, Nat.cast_natAbs]
  rcases lt_or_ge k 0 with hk | hk
  · rw [abs_of_neg hk]
    simp [hk]
  · rw [abs_of_nonneg hk]
    simp [hk.not_gt]

theorem toDecimal?_of_spells {n : Numeral} {negative : Bool} {coefficient : Nat} {exponent : Int}
    (h : n.Spells negative coefficient exponent) (hrange : inRange coefficient exponent = true) :
    n.toDecimal? = some (finite negative coefficient exponent) := by
  rw [Numeral.toDecimal?, h.negative, h.coefficient, h.power, if_pos hrange]

/-- A numeral is read as a number, whatever its sign. -/
theorem unsigned?_chars {n : Numeral} (h : n.WellFormed) :
    unsigned? n.negative (n.whole ++ (Numeral.fractionChars n.fraction ++
      Numeral.exponentChars n.exponent)) = n.toDecimal? := by
  obtain ⟨negative, whole, fraction, exponent⟩ := n
  obtain ⟨hdigits, -, hfraction, hexponent⟩ := h
  have hwhole := Numeral.spanDigits_append hdigits.2
    (Numeral.noDigit_tail fraction exponent Numeral.ends_nil)
  have hmark := Numeral.scanExponent_append hexponent Numeral.ends_nil
  simp only [List.append_nil] at hwhole hmark
  cases fraction with
  | some ds =>
    have hspan := Numeral.spanDigits_append (hfraction ds rfl).2
      (Numeral.noDigit_exponent exponent Numeral.ends_nil)
    simp only [List.append_nil, Numeral.fractionChars, List.cons_append] at hspan hwhole ⊢
    simp [unsigned?, hwhole, hspan, hmark, hdigits.1]
  | none =>
    -- What follows the digits is an exponent or nothing, and no point.
    have hsame : Numeral.toDecimal? ⟨negative, whole, some [], exponent⟩ =
        Numeral.toDecimal? ⟨negative, whole, none, exponent⟩ := rfl
    simp only [Numeral.fractionChars, List.nil_append] at hwhole ⊢
    rw [← hsame]
    cases exponent with
    | none =>
      simp only [Numeral.exponentChars, List.append_nil] at hwhole hmark ⊢
      simp [unsigned?, hwhole, hmark, hdigits.1]
    | some e =>
      simp only [Numeral.exponentChars] at hwhole hmark ⊢
      simp [unsigned?, hwhole, hmark, hdigits.1]

theorem toLower_of_isDigit {d : Char} (h : d.isDigit = true) : d.toLower = d :=
  beq_iff_eq.1 (Numeral.forall_digits (p := fun d => d.toLower == d) (by decide) h)

theorem scanSign_digit {d : Char} (hd : d.isDigit = true) (negative : Bool) (rest : List Char) :
    scanSign (sign negative ++ d :: rest) = (negative, d :: rest) := by
  cases negative with
  | true => rfl
  | false =>
    show scanSign (d :: rest) = (false, d :: rest)
    unfold scanSign
    split
    · rename_i heq
      rw [(List.cons.inj heq).1] at hd
      exact absurd hd (by decide)
    · rename_i heq
      rw [(List.cons.inj heq).1] at hd
      exact absurd hd (by decide)
    · rfl

/-- The text of a well-formed numeral is read as the decimal of the numeral. -/
theorem ofText?_chars {n : Numeral} (h : n.WellFormed) :
    ofText? (String.ofList n.chars) = n.toDecimal? := by
  obtain ⟨d, ds, hwhole⟩ := List.exists_cons_of_ne_nil h.whole.1
  have hd : d.isDigit = true := h.whole.2 d (by rw [hwhole]; exact List.mem_cons_self)
  obtain ⟨body, hbody⟩ : ∃ body, n.whole ++ (Numeral.fractionChars n.fraction ++
      Numeral.exponentChars n.exponent) = d :: body := ⟨_, by rw [hwhole]; rfl⟩
  have hsign : scanSign n.chars = (n.negative, d :: body) := by
    rw [Numeral.chars, hbody, scanSign_digit hd]
  -- The names of infinities and of values that are no number start with a letter.
  have hletter : ∀ c, c.isDigit = false → c ≠ d := by
    rintro c hc rfl
    rw [hc] at hd
    cases hd
  have hi : 'i' ≠ d := hletter 'i' (by decide)
  have hn : 'n' ≠ d := hletter 'n' (by decide)
  have hs : 's' ≠ d := hletter 's' (by decide)
  calc ofText? (String.ofList n.chars)
      = unsigned? n.negative (d :: body) := by
        simp [ofText?, String.toList_ofList, hsign, toLower_of_isDigit hd, List.isPrefixOf, hi.symm,
          hn, hs]
    _ = n.toDecimal? := by rw [← hbody, unsigned?_chars h]

end Decimal

namespace Reader

/-- A decimal comes from a numeral with a point or an exponent. -/
theorem number_decimal {cs rest : List Char} {d : Decimal}
    (h : number .exact cs = .ok (.decimal d, rest)) :
    ∃ token, Numeral.scan cs = some (token, rest) ∧ token.isInteger = false ∧
      token.toDecimal? = some d := by
  unfold number at h
  split at h
  · cases h
  · split at h
    · rename_i token _ hscan
      simp only [ofNumeral] at h
      split at h
      · split at h <;> cases h
      · rename_i hfraction
        split at h
        · rename_i hdecimal
          cases h
          exact ⟨token, hscan, by simpa using hfraction, hdecimal⟩
        · cases h
    · split at h <;> cases h

/-- Arrays and objects are no decimals. -/
theorem map_ne_decimal {α : Type} {read : Read α} {d : Decimal} {rest : List Char}
    (wrap : α → Value) (hwrap : ∀ a, wrap a ≠ .decimal d) :
    read.map (fun r => (wrap r.1, r.2)) ≠ .ok (.decimal d, rest) := by
  cases read with
  | error e =>
    intro h
    cases h
  | ok r =>
    intro h
    exact hwrap r.1 (Prod.mk.inj (Except.ok.inj h)).1

theorem value_decimal {fuel : Nat} {cs rest : List Char} {d : Decimal}
    (h : value .exact fuel cs = .ok (.decimal d, rest)) :
    number .exact cs = .ok (.decimal d, rest) := by
  cases fuel with
  | zero => cases h
  | succ fuel =>
    simp only [value] at h
    split at h
    · exact absurd h (map_ne_decimal .str fun _ h => by cases h)
    · split at h
      · cases h
      · exact absurd h (map_ne_decimal .list fun _ h => by cases h)
    · split at h
      · cases h
      · exact absurd h (map_ne_decimal (fun ps => .map (Entries.ofPairs ps)) fun _ h => by cases h)
    · simp only [scalar] at h
      split at h
      · cases h
      · cases h
      · cases h
      · exact h

end Reader

namespace Value

/-- At every place of a text where a number is read as a decimal, the literal of that decimal is a
numeral of the grammar, with nothing behind it. Read as a decimal, it has the sign, the coefficient
and the exponent of the number, zeros at the end included, so that it stands for exactly the same
number. -/
theorem literal_decimal_exact {fuel : Nat} {cs rest : List Char} {d : Decimal}
    (h : Reader.value .exact fuel cs = .ok (.decimal d, rest)) :
    ∃ token written : Numeral, ∃ text : String,
      Numeral.scan cs = some (token, rest) ∧ token.isInteger = false ∧
      literal (.decimal d) = .ok text ∧
      written.WellFormed ∧ text.toList = written.chars ∧ Numeral.scan text.toList = some (written, []) ∧
      Decimal.ofText? text = some (.finite token.negative token.coefficient token.power) ∧
      written.rational = token.rational := by
  obtain ⟨token, hscan, hfraction, hdecimal⟩ := Reader.number_decimal (Reader.value_decimal h)
  obtain ⟨hrange, rfl⟩ : Decimal.inRange token.coefficient token.power = true ∧
      .finite token.negative token.coefficient token.power = d := by
    rw [Numeral.toDecimal?] at hdecimal
    split at hdecimal
    · rename_i hrange
      exact ⟨hrange, Option.some.inj hdecimal⟩
    · cases hdecimal
  obtain ⟨written, hspells, hchars⟩ :=
    Decimal.exists_numeral token.negative token.coefficient token.power
  refine ⟨token, written, String.ofList written.chars, hscan, hfraction, ?_, hspells.wellFormed,
    String.toList_ofList, ?_, ?_, ?_⟩
  · rw [hchars]
    rfl
  · have hread := Numeral.scan_chars hspells.wellFormed Numeral.ends_nil
    rwa [List.append_nil, ← String.toList_ofList (l := written.chars)] at hread
  · rw [Decimal.ofText?_chars hspells.wellFormed, Decimal.toDecimal?_of_spells hspells hrange]
  · rw [Numeral.rational, Numeral.rational, hspells.negative, hspells.coefficient, hspells.power]

/-- An item of an array, with zeros in front and at the end of its digits, that is written with one
digit in front of the point and another exponent. -/
theorem literal_decimal_exact_zeros :
    Reader.value .exact 1 "-0.001200e-4, 1]".toList =
        .ok (.decimal (.finite true 1200 (-10)), ", 1]".toList) ∧
      ∃ token written : Numeral, ∃ text : String,
        Numeral.scan "-0.001200e-4, 1]".toList = some (token, ", 1]".toList) ∧
        token.isInteger = false ∧ literal (.decimal (.finite true 1200 (-10))) = .ok text ∧
        written.WellFormed ∧ text.toList = written.chars ∧
        Numeral.scan text.toList = some (written, []) ∧
        Decimal.ofText? text = some (.finite token.negative token.coefficient token.power) ∧
        written.rational = token.rational := by
  have hread : Reader.value .exact 1 "-0.001200e-4, 1]".toList =
      .ok (.decimal (.finite true 1200 (-10)), ", 1]".toList) := by rfl
  exact ⟨hread, literal_decimal_exact hread⟩

end Value

end Schemata
