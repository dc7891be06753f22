import Schemata.Proofs.Identifiers
import Schemata.Value.Literal
import Schemata.Value.Reader
/-!
Quoted strings that are written and read back.

Every character of a string is escaped by itself, and its escape is read as that one character: the
short escapes, the characters that stand for themselves, one UTF-16 unit, and the two units of a
surrogate pair. No escape has a quote that is not behind a backslash, so that the string is read up to
its closing quote and no further (`Reader.string_escape`).

Code points that are halves of pairs are escaped as the units that they are. A reader cannot tell the
two halves of a pair from the one character that the pair stands for, and joins them: what is read is
the text with such halves joined (`Reader.points_escape`), and two texts are quoted alike exactly if
they are the same with the halves joined (`Text.quotedPoints_eq_iff`).
-/

namespace Schemata

/-! ## Code points and characters -/

namespace CodePoint

theorem char?_of_valid {n : CodePoint} (h : n.val.isValidChar) :
    n.char? = some (Char.ofNatAux n.val h) := dif_pos h

theorem char?_of_invalid {n : CodePoint} (h : ¬ n.val.isValidChar) : n.char? = none := dif_neg h

theorem char?_ofChar (c : Char) : char? (ofChar c) = some c := by
  have hvalid : (ofChar c).val.isValidChar := c.valid
  rw [char?_of_valid hvalid]
  exact congrArg some (Char.ext (UInt32.toNat_inj.1 rfl))

theorem eq_ofChar {n : CodePoint} {c : Char} (h : n.char? = some c) : n = ofChar c := by
  by_cases hvalid : n.val.isValidChar
  · rw [char?_of_valid hvalid] at h
    cases h
    rfl
  · rw [char?_of_invalid hvalid] at h
    cases h

/-- What is no character is half of a surrogate pair. -/
theorem char?_eq_none {n : CodePoint} :
    n.char? = none ↔ Reader.isHighUnit n = true ∨ Reader.isLowUnit n = true := by
  have hrange : n.val < 0x110000 := n.isLt
  have hvalid : n.char? = none ↔ ¬ n.val.isValidChar := by
    refine ⟨fun hnone h => ?_, char?_of_invalid⟩
    rw [char?_of_valid h] at hnone
    cases hnone
  rw [hvalid]
  simp only [Reader.isHighUnit, Reader.isLowUnit, Bool.and_eq_true, decide_eq_true_eq,
    Nat.isValidChar]
  omega

end CodePoint

namespace Text

/-- A text is given back by its code points. -/
theorem ofPoints?_points (s : String) : ofPoints? (points s) = some s := by
  have hall : ∀ cs : List Char, (cs.map CodePoint.ofChar).mapM CodePoint.char? = some cs := by
    intro cs
    induction cs with
    | nil => rfl
    | cons c cs ih => simp [CodePoint.char?_ofChar, ih]
  rw [ofPoints?, points, hall, Option.map_some, String.ofList_toList]

theorem eq_points {ps : List CodePoint} {s : String} (h : ofPoints? ps = some s) : ps = points s := by
  obtain ⟨cs, hcs, rfl⟩ := Option.map_eq_some_iff.1 h
  rw [points, String.toList_ofList]
  clear h
  induction ps generalizing cs with
  | nil =>
    cases hcs
    rfl
  | cons n ps ih =>
    simp only [List.mapM_cons, Option.bind_eq_bind, Option.bind_eq_some_iff, Option.pure_def,
      Option.some.injEq] at hcs
    obtain ⟨c, hc, cs, hrest, rfl⟩ := hcs
    rw [List.map_cons, ← CodePoint.eq_ofChar hc, ← ih cs hrest]

theorem points_inj {s t : String} (h : points s = points t) : s = t := by
  have htexts := congrArg ofPoints? h
  rwa [ofPoints?_points, ofPoints?_points, Option.some.injEq] at htexts

theorem escapePoint_ofChar (c : Char) : escapePoint (.ofChar c) = escapeChar c := by
  rw [escapePoint, CodePoint.char?_ofChar]

theorem mem_shortEscapes {c e : Char} (h : shortEscapes.lookup c = some e) :
    (c, e) ∈ shortEscapes := by
  obtain ⟨before, after, hlist, -⟩ := List.lookup_eq_some_iff.1 h
  rw [hlist]
  exact List.mem_append_right _ List.mem_cons_self

theorem ne_of_not_short {c : Char} (h : shortEscapes.lookup c = none) : c ≠ '"' ∧ c ≠ '\\' := by
  constructor
  · rintro rfl
    cases h
  · rintro rfl
    cases h

/-! ## Identifiers -/

theorem identifierOf?_eq_some {ps : List CodePoint} {s : String} :
    identifierOf? ps = some s ↔ ps = points s ∧ isIdentifier s = true := by
  rw [identifierOf?, Option.filter_eq_some_iff]
  constructor
  · rintro ⟨htext, hname⟩
    exact ⟨eq_points htext, hname⟩
  · rintro ⟨rfl, hname⟩
    exact ⟨ofPoints?_points s, hname⟩

theorem identifierOf?_points (s : String) :
    identifierOf? (points s) = if isIdentifier s then some s else none := by
  rw [identifierOf?, ofPoints?_points]
  rfl

theorem propertyName_eq (name : String) :
    propertyName name = if isIdentifier name then name else quoted name := by
  rw [propertyName, propertyNamePoints, identifierOf?_points]
  split <;> rfl

/-! ## Halves of surrogate pairs -/

/-- A text with the halves of each surrogate pair joined to one character. -/
def joinPairs : List CodePoint → List CodePoint
  | high :: low :: rest =>
    if Reader.isHighUnit high && Reader.isLowUnit low then
      Reader.pairPoint high low :: joinPairs rest
    else high :: joinPairs (low :: rest)
  | rest => rest

/-- Somewhere in a text the halves of a surrogate pair stand side by side. -/
def HasPair (ps : List CodePoint) : Prop :=
  ∃ (front rest : List CodePoint) (high low : CodePoint), ps = front ++ high :: low :: rest ∧
    Reader.isHighUnit high = true ∧ Reader.isLowUnit low = true

theorem joinPairs_length (ps : List CodePoint) : (joinPairs ps).length ≤ ps.length := by
  fun_induction joinPairs ps with
  | case1 high low rest _ ih =>
    simp only [List.length_cons]
    omega
  | case2 high low rest _ ih =>
    simp only [List.length_cons] at ih ⊢
    omega
  | case3 rest _ => exact Nat.le_refl _

/-- A text is left as it is exactly if no pair stands in it. -/
theorem joinPairs_eq_self_iff {ps : List CodePoint} : joinPairs ps = ps ↔ ¬ HasPair ps := by
  fun_induction joinPairs ps with
  | case1 high low rest hpair _ =>
    rw [Bool.and_eq_true] at hpair
    constructor
    · intro heq
      have hlength := congrArg List.length (List.cons.inj heq).2
      have hle := joinPairs_length rest
      simp only [List.length_cons] at hlength
      omega
    · exact fun hnone => absurd ⟨[], rest, high, low, rfl, hpair⟩ hnone
  | case2 high low rest hpair ih =>
    rw [Bool.and_eq_true] at hpair
    rw [List.cons.injEq, eq_self, true_and, ih]
    refine not_congr ⟨?_, ?_⟩
    · rintro ⟨front, tail, h, l, heq, hhl⟩
      exact ⟨high :: front, tail, h, l, by rw [heq]; rfl, hhl⟩
    · rintro ⟨front, tail, h, l, heq, hhl⟩
      cases front with
      | nil =>
        cases heq
        exact absurd hhl hpair
      | cons first front => exact ⟨front, tail, h, l, (List.cons.inj heq).2, hhl⟩
  | case3 rest hshort =>
    simp only [true_iff]
    rintro ⟨front, tail, h, l, rfl, -⟩
    cases front with
    | nil => exact hshort _ _ _ rfl
    | cons first front =>
      cases front with
      | nil => exact hshort _ _ _ rfl
      | cons second front => exact hshort _ _ _ rfl

theorem not_hasPair_points (s : String) : ¬ HasPair (points s) := by
  rintro ⟨front, rest, high, low, heq, hhigh, -⟩
  have hmem : high ∈ points s := by simp [heq]
  obtain ⟨c, -, rfl⟩ := List.mem_map.1 hmem
  have hnone := CodePoint.char?_eq_none.2 (.inl hhigh)
  rw [CodePoint.char?_ofChar] at hnone
  cases hnone

theorem joinPairs_points (s : String) : joinPairs (points s) = points s :=
  joinPairs_eq_self_iff.2 (not_hasPair_points s)

end Text

namespace Reader

open Text (hexDigit unitEscape unicodeEscape escapeChar escapePoint escapePoints quotedPoints joinPairs)

/-! ## Units of four hexadecimal digits -/

theorem hexValue?_hexDigit (n : Nat) : hexValue? (hexDigit n) = some (n % 16) := by
  have hall : ∀ k < 16, hexValue? (Nat.digitChar k) = some k := by decide
  exact hall (n % 16) (Nat.mod_lt n (by decide))

/-- Four digits are read as the unit that they are written for. -/
theorem unit?_hexDigits {unit : Nat} (h : unit < 0x10000) :
    unit? (hexDigit (unit / 4096)) (hexDigit (unit / 256)) (hexDigit (unit / 16)) (hexDigit unit) =
      some unit := by
  have hunit : ((unit / 4096 % 16 * 16 + unit / 256 % 16) * 16 + unit / 16 % 16) * 16 + unit % 16 =
      unit := by omega
  simp [unit?, hexValue?_hexDigit, hunit]

/-- No character is half of a surrogate pair. -/
theorem char_not_surrogate (c : Char) : isHighUnit c.toNat = false ∧ isLowUnit c.toNat = false := by
  have hvalid : c.toNat < 0xD800 ∨ 0xDFFF < c.toNat ∧ c.toNat < 0x110000 := c.valid
  simp only [isHighUnit, isLowUnit, Bool.and_eq_false_iff, decide_eq_false_iff_not]
  omega

theorem lt_of_isHighUnit {n : Nat} (h : isHighUnit n = true) : n < 0x10000 := by
  simp only [isHighUnit, Bool.and_eq_true, decide_eq_true_eq] at h
  omega

theorem lt_of_isLowUnit {n : Nat} (h : isLowUnit n = true) : n < 0x10000 := by
  simp only [isLowUnit, Bool.and_eq_true, decide_eq_true_eq] at h
  omega

theorem unitPoint_val (n : CodePoint) : unitPoint n.val = n := Fin.ext (Nat.mod_eq_of_lt n.isLt)

/-! ## Single code points -/

/-- What reading a string gives if one more code point comes first. -/
def prepend (n : CodePoint) (read : Option (List CodePoint × List Char)) :
    Option (List CodePoint × List Char) :=
  read.map fun r => (n :: r.1, r.2)

theorem points_short {c e : Char} {rest : List Char} (hc : c ≠ 'u')
    (h : shortEscape? c = some e) : points ('\\' :: c :: rest) = prepend (.ofChar e) (points rest) := by
  simp [points, hc, h, prepend]

theorem points_plain {c : Char} {rest : List Char} (hquote : c ≠ '"') (hslash : c ≠ '\\')
    (hlow : 0x20 ≤ c.toNat) : points (c :: rest) = prepend (.ofChar c) (points rest) := by
  have hprintable : ¬c.toNat < 0x20 := by omega
  simp [points, hslash, hprintable, prepend]

/-- A unit that does not start a pair is one code point. -/
theorem points_unit {n : CodePoint} {rest : List Char} (hn : n.val < 0x10000)
    (h : isHighUnit n = false ∨ lowHalf? rest = none) :
    points (unitEscape n ++ rest) = prepend n (points rest) := by
  have hunit := unit?_hexDigits hn
  simp only [unitEscape, List.cons_append, List.nil_append, points, hunit]
  rcases h with h | h
  · simp [h, unitPoint_val, prepend]
  · simp [h, unitPoint_val, prepend]

theorem lowHalf?_unitEscape {low : Nat} (h : isLowUnit low = true) (rest : List Char) :
    lowHalf? (unitEscape low ++ rest) = some low := by
  simp only [unitEscape, List.cons_append, lowHalf?, unit?_hexDigits (lt_of_isLowUnit h), h, if_true]

/-- Two units that are the halves of a surrogate pair are one code point. -/
theorem points_units {high low : Nat} {rest : List Char} (hhigh : isHighUnit high = true)
    (hlow : isLowUnit low = true) :
    points (unitEscape high ++ (unitEscape low ++ rest)) =
      prepend (pairPoint high low) (points rest) := by
  have hhalf := lowHalf?_unitEscape hlow rest
  simp only [unitEscape, List.cons_append, List.nil_append] at hhalf ⊢
  simp [points, unit?_hexDigits (lt_of_isHighUnit hhigh), hhigh, hhalf, prepend]

/-- A character above U+FFFF is the surrogate pair of its distance from U+10000. -/
theorem surrogates_offset (offset : Nat) (h : offset < 0x100000) :
    isHighUnit (0xD800 + offset / 0x400) = true ∧ isLowUnit (0xDC00 + offset % 0x400) = true ∧
      pairPoint (0xD800 + offset / 0x400) (0xDC00 + offset % 0x400) =
        unitPoint (0x10000 + offset) := by
  refine ⟨?_, ?_, ?_⟩
  · simp only [isHighUnit, Bool.and_eq_true, decide_eq_true_eq]
    omega
  · simp only [isLowUnit, Bool.and_eq_true, decide_eq_true_eq]
    omega
  · unfold pairPoint unitPoint
    apply congrArg (Fin.ofNat 0x110000)
    omega

/-- The escape of a character is read as that character. -/
theorem points_escapeChar (c : Char) (rest : List Char) :
    points (escapeChar c ++ rest) = prepend (.ofChar c) (points rest) := by
  have hshort : ∀ pair ∈ Text.shortEscapes,
      pair.2 ≠ 'u' ∧ shortEscape? pair.2 = some pair.1 := by decide
  unfold escapeChar
  split
  · rename_i e he
    obtain ⟨hu, hescape⟩ := hshort (c, e) (Text.mem_shortEscapes he)
    exact points_short hu hescape
  · rename_i hnone
    obtain ⟨hquote, hslash⟩ := Text.ne_of_not_short hnone
    split
    · rename_i hprintable
      exact points_plain hquote hslash hprintable.1
    · unfold unicodeEscape
      split
      · rename_i hsmall
        exact points_unit (n := .ofChar c) hsmall (.inl (char_not_surrogate c).1)
      · rename_i hlarge
        have hvalid : c.toNat < 0xD800 ∨ 0xDFFF < c.toNat ∧ c.toNat < 0x110000 := c.valid
        obtain ⟨hhigh, hlow, hpair⟩ := surrogates_offset (c.toNat - 0x10000) (by omega)
        have hoffset : 0x10000 + (c.toNat - 0x10000) = c.toNat := by omega
        rw [List.append_assoc, points_units hhigh hlow, hpair, hoffset]
        exact congrArg (fun n => prepend n (points rest)) (unitPoint_val (.ofChar c))

/-! ## Whole strings -/

theorem lowHalf?_of_ne {c : Char} {cs : List Char} (h : c ≠ '\\') : lowHalf? (c :: cs) = none := by
  unfold lowHalf?
  split
  · rename_i heq
    exact absurd (List.cons.inj heq).1 h
  · rfl

theorem lowHalf?_short {c : Char} {cs : List Char} (h : c ≠ 'u') :
    lowHalf? ('\\' :: c :: cs) = none := by
  unfold lowHalf?
  split
  · rename_i heq
    exact absurd (List.cons.inj (List.cons.inj heq).2).1 h
  · rfl

theorem lowHalf?_unit {n : Nat} (hn : n < 0x10000) (h : isLowUnit n = false) (rest : List Char) :
    lowHalf? (unitEscape n ++ rest) = none := by
  simp [unitEscape, lowHalf?, unit?_hexDigits hn, h]

/-- No character is escaped as the second half of a pair. -/
theorem lowHalf?_escapeChar (c : Char) (rest : List Char) :
    lowHalf? (escapeChar c ++ rest) = none := by
  have hshort : ∀ pair ∈ Text.shortEscapes, pair.2 ≠ 'u' := by decide
  unfold escapeChar
  split
  · rename_i e he
    exact lowHalf?_short (hshort (c, e) (Text.mem_shortEscapes he))
  · rename_i hnone
    split
    · exact lowHalf?_of_ne (Text.ne_of_not_short hnone).2
    · unfold unicodeEscape
      split
      · rename_i hsmall
        exact lowHalf?_unit hsmall (char_not_surrogate c).2 rest
      · -- The first unit of a character above U+FFFF is a first half.
        have hvalid : c.toNat < 0xD800 ∨ 0xDFFF < c.toNat ∧ c.toNat < 0x110000 := c.valid
        rw [List.append_assoc]
        refine lowHalf?_unit (by omega) ?_ _
        simp only [isLowUnit, Bool.and_eq_false_iff, decide_eq_false_iff_not]
        omega

/-- Only the second half of a pair is escaped as one. -/
theorem lowHalf?_escapePoint {n : CodePoint} (h : isLowUnit n = false) (rest : List Char) :
    lowHalf? (escapePoint n ++ rest) = none := by
  unfold escapePoint
  split
  · exact lowHalf?_escapeChar _ rest
  · rename_i hnone
    have hhigh : isHighUnit n = true := (CodePoint.char?_eq_none.1 hnone).resolve_right (by simp [h])
    exact lowHalf?_unit (lt_of_isHighUnit hhigh) h rest

/-- A code point is read by itself unless it is the first half of a pair whose second half follows. -/
theorem points_escapePoint {n : CodePoint} {rest : List Char}
    (h : isHighUnit n = true → lowHalf? rest = none) :
    points (escapePoint n ++ rest) = prepend n (points rest) := by
  cases hc : n.char? with
  | some c =>
    rw [CodePoint.eq_ofChar hc, Text.escapePoint_ofChar]
    exact points_escapeChar c rest
  | none =>
    simp only [escapePoint, hc]
    rcases CodePoint.char?_eq_none.1 hc with hhigh | hlow
    · exact points_unit (lt_of_isHighUnit hhigh) (.inr (h hhigh))
    · refine points_unit (lt_of_isLowUnit hlow) (.inl ?_)
      simp only [isHighUnit, isLowUnit, Bool.and_eq_true, Bool.and_eq_false_iff, decide_eq_true_eq,
        decide_eq_false_iff_not] at hlow ⊢
      omega

theorem escapePoint_half {n : CodePoint} (h : isHighUnit n = true ∨ isLowUnit n = true) :
    escapePoint n = unitEscape n := by
  rw [escapePoint, CodePoint.char?_eq_none.2 h]

/-- A quoted string is read up to its closing quote, with the halves of pairs joined. -/
theorem points_escape (ps : List CodePoint) (rest : List Char) :
    points (escapePoints ps ++ '"' :: rest) = some (joinPairs ps, rest) := by
  unfold escapePoints
  fun_induction joinPairs ps with
  | case1 high low tail hpair ih =>
    rw [Bool.and_eq_true] at hpair
    rw [List.flatMap_cons, List.flatMap_cons, escapePoint_half (.inl hpair.1),
      escapePoint_half (.inr hpair.2), List.append_assoc, List.append_assoc,
      points_units hpair.1 hpair.2, ih]
    rfl
  | case2 high low tail hpair ih =>
    rw [List.flatMap_cons, List.append_assoc, points_escapePoint, ih]
    · rfl
    · intro hhigh
      rw [List.flatMap_cons, List.append_assoc]
      exact lowHalf?_escapePoint (by simpa [hhigh] using hpair) _
  | case3 tail hshort =>
    match tail, hshort with
    | [], _ => rfl
    | [n], _ =>
      rw [List.flatMap_cons, List.append_assoc, points_escapePoint]
      · rfl
      · exact fun _ => lowHalf?_of_ne (by decide)
    | first :: second :: rest, hshort => exact absurd rfl (hshort first second rest)

theorem string_escape (s : String) (rest : List Char) :
    string (escapePoints (Text.points s) ++ '"' :: rest) = .ok (s, rest) := by
  rw [string, points_escape, Text.joinPairs_points]
  simp only [Text.ofPoints?_points]

/-- A quoted string is told from what follows it. -/
theorem quotedPoints_append_inj {a b : List CodePoint} {t t' : List Char}
    (h : (quotedPoints a).toList ++ t = (quotedPoints b).toList ++ t') :
    joinPairs a = joinPairs b ∧ t = t' := by
  simp only [quotedPoints, String.toList_ofList, List.cons_append, List.append_assoc,
    List.nil_append, List.cons.injEq, true_and] at h
  have hread := congrArg points h
  rw [points_escape, points_escape, Option.some.injEq, Prod.mk.injEq] at hread
  exact hread

end Reader

namespace Text

open Reader (isHighUnit isLowUnit pairPoint)

/-- Characters above U+FFFF have no escape but their pair. -/
theorem escapeChar_large {c : Char} (h : 0x10000 ≤ c.toNat) :
    escapeChar c = unitEscape (0xD800 + (c.toNat - 0x10000) / 0x400) ++
      unitEscape (0xDC00 + (c.toNat - 0x10000) % 0x400) := by
  have hsmall : ∀ pair ∈ shortEscapes, pair.1.toNat < 0x10000 := by decide
  have hlong : shortEscapes.lookup c = none := by
    cases hlookup : shortEscapes.lookup c with
    | none => rfl
    | some e =>
      have hlt : c.toNat < 0x10000 := hsmall (c, e) (mem_shortEscapes hlookup)
      omega
  rw [escapeChar, hlong]
  simp only []
  rw [if_neg (by omega), unicodeEscape, if_neg (by omega)]

theorem pairPoint_val {high low : CodePoint} (hhigh : isHighUnit high = true)
    (hlow : isLowUnit low = true) :
    (pairPoint high low).val = 0x10000 + (high.val - 0xD800) * 0x400 + (low.val - 0xDC00) := by
  simp only [isHighUnit, isLowUnit, Bool.and_eq_true, decide_eq_true_eq] at hhigh hlow
  rw [pairPoint, Fin.val_ofNat]
  exact Nat.mod_eq_of_lt (by omega)

/-- Joining a pair gives a character above U+FFFF. -/
theorem joinPairs_eq_of_small {ps : List CodePoint} (h : ∀ n ∈ joinPairs ps, n.val < 0x10000) :
    joinPairs ps = ps := by
  fun_induction joinPairs ps with
  | case1 high low rest hpair _ =>
    rw [Bool.and_eq_true] at hpair
    have hlt := h _ List.mem_cons_self
    rw [pairPoint_val hpair.1 hpair.2] at hlt
    omega
  | case2 high low rest _ ih =>
    rw [ih fun n hn => h n (List.mem_cons_of_mem _ hn)]
  | case3 rest _ => rfl

theorem lt_of_mem_identifier {name : String} (h : isIdentifier name = true) :
    ∀ c ∈ name.toList, c.toNat < 0x10000 := by
  refine isIdentifier_all (fun c hc => ?_) (by decide) h
  -- Letters and digits come in ranges that end well below.
  have hupper (h : c.isUpper = true) : c.val ≤ 'Z'.val := (of_decide_eq_true h).2
  have hlower (h : c.isLower = true) : c.val ≤ 'z'.val := of_decide_eq_true (Bool.and_eq_true_iff.1 h).2
  have hdigit (h : c.isDigit = true) : c.val ≤ '9'.val := of_decide_eq_true (Bool.and_eq_true_iff.1 h).2
  simp only [continuesIdentifier, Char.isAlphanum, Bool.or_eq_true, beq_iff_eq] at hc
  rcases hc with ((hc | hc) | rfl) | rfl
  · rcases Bool.or_eq_true_iff.1 hc with hc | hc
    · exact Nat.lt_of_le_of_lt (hupper hc) (by decide)
    · exact Nat.lt_of_le_of_lt (hlower hc) (by decide)
  · exact Nat.lt_of_le_of_lt (hdigit hc) (by decide)
  · decide
  · decide

/-- The escape of a pair is that of its halves. -/
theorem escapePoint_pairPoint {high low : CodePoint} (hhigh : isHighUnit high = true)
    (hlow : isLowUnit low = true) :
    escapePoint (pairPoint high low) = escapePoint high ++ escapePoint low := by
  have hval := pairPoint_val hhigh hlow
  rw [Reader.escapePoint_half (.inl hhigh), Reader.escapePoint_half (.inr hlow)]
  simp only [isHighUnit, isLowUnit, Bool.and_eq_true, decide_eq_true_eq] at hhigh hlow
  cases hc : (pairPoint high low).char? with
  | none =>
    have hhalf := CodePoint.char?_eq_none.1 hc
    simp only [isHighUnit, isLowUnit, Bool.and_eq_true, decide_eq_true_eq] at hhalf
    omega
  | some c =>
    have hnat : c.toNat = 0x10000 + (high.val - 0xD800) * 0x400 + (low.val - 0xDC00) := by
      rw [← hval, CodePoint.eq_ofChar hc]
      rfl
    have hunits : 0xD800 + (c.toNat - 0x10000) / 0x400 = high.val ∧
        0xDC00 + (c.toNat - 0x10000) % 0x400 = low.val := by omega
    rw [CodePoint.eq_ofChar hc, escapePoint_ofChar, escapeChar_large (by omega), hunits.1, hunits.2]

theorem escapePoints_joinPairs (ps : List CodePoint) :
    escapePoints (joinPairs ps) = escapePoints ps := by
  unfold escapePoints
  fun_induction joinPairs ps with
  | case1 high low rest hpair ih =>
    rw [Bool.and_eq_true] at hpair
    rw [List.flatMap_cons, List.flatMap_cons, List.flatMap_cons, ih,
      escapePoint_pairPoint hpair.1 hpair.2, List.append_assoc]
  | case2 high low rest _ ih => rw [List.flatMap_cons, ih, ← List.flatMap_cons]
  | case3 rest _ => rfl

/-- A text is an identifier exactly if it is one with the halves of pairs joined. -/
theorem identifierOf?_joinPairs (ps : List CodePoint) :
    identifierOf? (joinPairs ps) = identifierOf? ps := by
  have hsame : ∀ s, identifierOf? (joinPairs ps) = some s ↔ identifierOf? ps = some s := by
    intro s
    rw [identifierOf?_eq_some, identifierOf?_eq_some]
    refine and_congr_left fun hname => ⟨fun h => ?_, fun h => ?_⟩
    · -- A pair that was joined would be no part of an identifier.
      have hsmall : ∀ n ∈ joinPairs ps, n.val < 0x10000 := by
        rw [h]
        intro n hn
        obtain ⟨c, hc, rfl⟩ := List.mem_map.1 hn
        exact lt_of_mem_identifier hname c hc
      rw [← joinPairs_eq_of_small hsmall, h]
    · rw [h, joinPairs_points]
  cases hps : identifierOf? ps with
  | some s => exact (hsame s).2 hps
  | none =>
    cases hjoined : identifierOf? (joinPairs ps) with
    | none => rfl
    | some s =>
      rw [(hsame s).1 hjoined] at hps
      cases hps

theorem quotedPoints_joinPairs (ps : List CodePoint) :
    quotedPoints (joinPairs ps) = quotedPoints ps := by
  rw [quotedPoints, quotedPoints, escapePoints_joinPairs]

/-- Two texts are quoted alike exactly if they are the same with the halves of pairs joined. -/
theorem quotedPoints_eq_iff {a b : List CodePoint} :
    quotedPoints a = quotedPoints b ↔ joinPairs a = joinPairs b := by
  constructor
  · intro h
    have hsame : (quotedPoints a).toList ++ [] = (quotedPoints b).toList ++ [] := by rw [h]
    exact (Reader.quotedPoints_append_inj hsame).1
  · intro h
    rw [← quotedPoints_joinPairs a, h, quotedPoints_joinPairs]

end Text

end Schemata
