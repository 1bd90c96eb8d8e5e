import Mathlib
import Phototaxis.Proofs.Number.Meaning
import Phototaxis.Proofs.Number.Text

/-!
# The grammar of number literals

A literal is a sign or none, and then a word for what is no finite number, in letters of any
case, or digits with a point among them, before them, behind them or nowhere, and an exponent
or none. `Literal.Written` says so, one constructor for each kind of literal, and the reader
accepts exactly what is written like this (`Literal.written_iff`).

So a text is read as a float exactly if it is written as a literal that says this float
(`Number.ofText?_eq_some_iff`).
-/

namespace Phototaxis

namespace Literal

/-! ## The grammar -/

/-- A sign or none, and whether it is a minus sign. -/
inductive SignText : List Char → Bool → Prop
  | none : SignText [] false
  | plus : SignText ['+'] false
  | minus : SignText ['-'] true

/-- A point with the digits behind it, which may be none, or no point. -/
inductive FractionText : List Char → List Char → Prop
  | none : FractionText [] []
  | point {digits : List Char} (h : AreDigits digits) : FractionText ('.' :: digits) digits

/-- A mark with a whole number of at least one digit behind it, or nothing. -/
inductive ExponentText : List Char → ℤ → Prop
  | none : ExponentText [] 0
  | marked {mark : Char} {sign digits : List Char} {negative : Bool}
      (hmark : mark = 'e' ∨ mark = 'E') (hsign : SignText sign negative)
      (hdigits : AreDigits digits) (hne : digits ≠ []) :
      ExponentText (mark :: (sign ++ digits))
        (if negative then -(digitsValue digits : ℤ) else digitsValue digits)

/-- Digits with a point or without, at least one, and an exponent or none. -/
inductive DecimalText : List Char → ℕ → ℤ → Prop
  | mk {whole point fraction exponent : List Char} {e : ℤ} (hwhole : AreDigits whole)
      (hfraction : FractionText point fraction) (hne : whole ≠ [] ∨ fraction ≠ [])
      (hexponent : ExponentText exponent e) :
      DecimalText (whole ++ (point ++ exponent)) (digitsValue (whole ++ fraction))
        (e - fraction.length)

/-- How literals are written. -/
inductive Written : List Char → Literal → Prop
  | nan {sign body : List Char} {negative : Bool} (hsign : SignText sign negative)
      (hword : body.map Char.toLower = "nan".toList) : Written (sign ++ body) .nan
  | infinity {sign body : List Char} {negative : Bool} (hsign : SignText sign negative)
      (hword : body.map Char.toLower = "inf".toList ∨
        body.map Char.toLower = "infinity".toList) : Written (sign ++ body) (.infinity negative)
  | decimal {sign body : List Char} {negative : Bool} {digits : ℕ} {e : ℤ}
      (hsign : SignText sign negative) (hbody : DecimalText body digits e) :
      Written (sign ++ body) (.decimal negative digits e)

variable {chars sign body whole point fraction digits exponent rest : List Char}
variable {negative : Bool} {n : ℕ} {e : ℤ} {literal : Literal}

/-! ## Signs -/

theorem splitSign_append (h : SignText sign negative)
    (hbody : ∀ c ∈ body.head?, c ≠ '-' ∧ c ≠ '+') :
    splitSign (sign ++ body) = (negative, body) := by
  cases h with
  | plus => rfl
  | minus => rfl
  | none =>
    cases body with
    | nil => rfl
    | cons c body =>
      obtain ⟨hminus, hplus⟩ := hbody c rfl
      show splitSign (c :: body) = _
      unfold splitSign
      split
      · next h => exact absurd (List.cons.inj h).1 hminus
      · next h => exact absurd (List.cons.inj h).1 hplus
      · rfl

/-- Whatever is split off is a sign. -/
theorem exists_sign (chars : List Char) : ∃ sign negative body, SignText sign negative ∧
    chars = sign ++ body ∧ splitSign chars = (negative, body) := by
  unfold splitSign
  split
  · next rest => exact ⟨['-'], true, rest, .minus, rfl, rfl⟩
  · next rest => exact ⟨['+'], false, rest, .plus, rfl, rfl⟩
  · exact ⟨[], false, chars, .none, rfl, rfl⟩

/-! ## Digits and exponents -/

theorem AreDigits.head_ne (h : AreDigits digits) : ∀ c ∈ digits.head?, c ≠ '-' ∧ c ≠ '+' := by
  intro c hc
  have hdigit := h c (List.mem_of_mem_head? hc)
  constructor <;> rintro rfl <;> exact nomatch hdigit

theorem exponent?_eq_some_iff : exponent? chars = some e ↔ ExponentText chars e := by
  constructor
  · intro h
    cases chars with
    | nil =>
      cases h
      exact .none
    | cons mark rest =>
      obtain ⟨sign, negative, digits, hsign, rfl, hsplit⟩ := exists_sign rest
      simp only [exponent?, hsplit, Option.ite_none_left_eq_some,
        Option.ite_none_right_eq_some] at h
      obtain ⟨hmark, hdigits, he⟩ := h
      cases he
      rw [Bool.or_eq_true, beq_iff_eq, beq_iff_eq] at hmark
      rw [Bool.not_eq_true, Bool.or_eq_false_iff, Bool.not_eq_false', List.all_eq_true] at hdigits
      exact .marked hmark hsign hdigits.2 (List.isEmpty_eq_false_iff.mp hdigits.1)
  · intro h
    cases h with
    | none => rfl
    | marked hmark hsign hdigits hne =>
      simp only [exponent?, splitSign_append hsign hdigits.head_ne]
      rw [if_pos, if_neg]
      · rw [Bool.not_eq_true, Bool.or_eq_false_iff, Bool.not_eq_false', List.all_eq_true,
          List.isEmpty_eq_false_iff]
        exact ⟨hne, hdigits⟩
      · rwa [Bool.or_eq_true, beq_iff_eq, beq_iff_eq]

/-- Whatever begins an exponent is no digit and no point. -/
theorem ExponentText.head (h : ExponentText chars e) :
    ∀ c ∈ chars.head?, c.isDigit = false ∧ c ≠ '.' := by
  intro c hc
  cases h with
  | none => exact nomatch hc
  | marked hmark hsign hdigits hne =>
    cases hc
    rcases hmark with rfl | rfl <;> exact ⟨rfl, by decide⟩

/-! ## Decimals -/

theorem splitFraction_append (h : FractionText point fraction)
    (hrest : ∀ c ∈ rest.head?, c.isDigit = false ∧ c ≠ '.') :
    splitFraction (point ++ rest) = (fraction, rest) := by
  cases h with
  | point h => exact splitDigits_append h fun c hc => (hrest c hc).1
  | none =>
    cases rest with
    | nil => rfl
    | cons c rest =>
      show splitFraction (c :: rest) = _
      unfold splitFraction
      split
      · next h => exact absurd (List.cons.inj h).1 (hrest c rfl).2
      · rfl

/-- Behind the whole digits there is no digit. -/
theorem FractionText.head_append (h : FractionText point fraction)
    (hrest : ∀ c ∈ rest.head?, c.isDigit = false ∧ c ≠ '.') :
    ∀ c ∈ (point ++ rest).head?, c.isDigit = false := by
  intro c hc
  cases h with
  | none => exact (hrest c hc).1
  | point h =>
    cases hc
    rfl

theorem exists_digits (chars : List Char) : ∃ digits rest, AreDigits digits ∧
    chars = digits ++ rest ∧ splitDigits chars = (digits, rest) :=
  ⟨_, _, fun _ hc => List.mem_takeWhile_imp hc, List.takeWhile_append_dropWhile.symm, rfl⟩

/-- Whatever is split off is a fraction. -/
theorem exists_fraction (chars : List Char) : ∃ point fraction rest, FractionText point fraction ∧
    chars = point ++ rest ∧ splitFraction chars = (fraction, rest) := by
  unfold splitFraction
  split
  · next rest =>
    obtain ⟨digits, rest, hdigits, rfl, hsplit⟩ := exists_digits rest
    exact ⟨'.' :: digits, digits, rest, .point hdigits, rfl, hsplit⟩
  · exact ⟨[], [], chars, .none, rfl, rfl⟩

theorem decimal?_eq_some_iff : decimal? negative chars = some literal ↔
    ∃ n e, DecimalText chars n e ∧ literal = .decimal negative n e := by
  have hempty : ∀ {whole fraction : List Char},
      ¬ (whole.isEmpty && fraction.isEmpty) = true ↔ whole ≠ [] ∨ fraction ≠ [] := by
    intro whole fraction
    rw [Bool.and_eq_true, List.isEmpty_iff, List.isEmpty_iff, not_and_or]
  constructor
  · intro h
    obtain ⟨whole, rest, hwhole, rfl, hsplit⟩ := exists_digits chars
    obtain ⟨point, fraction, rest, hfraction, rfl, hsplit'⟩ := exists_fraction rest
    simp only [decimal?, hsplit, hsplit'] at h
    split_ifs at h with hnone
    obtain ⟨e, he, rfl⟩ := Option.map_eq_some_iff.mp h
    exact ⟨_, _, .mk hwhole hfraction (hempty.mp hnone) (exponent?_eq_some_iff.mp he), rfl⟩
  · rintro ⟨n, e, ⟨hwhole, hfraction, hne, hexponent⟩, rfl⟩
    have hhead := hexponent.head
    simp only [decimal?, splitDigits_append hwhole (hfraction.head_append hhead),
      splitFraction_append hfraction hhead, if_neg (hempty.mpr hne),
      exponent?_eq_some_iff.mpr hexponent, Option.map_some]

/-- Whatever begins a decimal is a digit or a point. -/
theorem DecimalText.head (h : DecimalText chars n e) :
    ∃ c rest, chars = c :: rest ∧ (c.isDigit = true ∨ c = '.') := by
  obtain ⟨hwhole, hfraction, hne, -⟩ := h
  rename_i whole point fraction exponent e
  cases whole with
  | cons c whole => exact ⟨c, _, rfl, .inl (hwhole c List.mem_cons_self)⟩
  | nil =>
    cases hfraction with
    | none => exact absurd hne (by simp)
    | point h => exact ⟨'.', _, rfl, .inr rfl⟩

/-! ## Literals -/

/-- A decimal is none of the words. -/
theorem DecimalText.ne_word (h : DecimalText chars n e) {d : Char} {word : List Char}
    (hdigit : d.isDigit = false) (hpoint : d ≠ '.') :
    (chars.map Char.toLower == d :: word) = false := by
  obtain ⟨c, rest, rfl, hc | rfl⟩ := h.head
  · exact ne_word_of_isDigit hc hdigit
  · exact beq_eq_false_iff_ne.mpr fun hword => hpoint (List.cons.inj hword).1.symm

theorem DecimalText.head_ne (h : DecimalText chars n e) :
    ∀ c ∈ chars.head?, c ≠ '-' ∧ c ≠ '+' := by
  obtain ⟨c, rest, rfl, hc | rfl⟩ := h.head <;> rintro _ ⟨⟩
  · constructor <;> rintro rfl <;> exact nomatch hc
  · decide

/-- No word begins like a sign. -/
theorem head_ne_of_word {d : Char} {word : List Char} (h : body.map Char.toLower = d :: word)
    (hminus : d ≠ '-') (hplus : d ≠ '+') : ∀ c ∈ body.head?, c ≠ '-' ∧ c ≠ '+' := by
  obtain ⟨c, rest, rfl, rfl, -⟩ := List.map_eq_cons_iff.mp h
  rintro _ ⟨⟩
  constructor <;> rintro rfl
  · exact hminus rfl
  · exact hplus rfl

/-- **Exactly what the grammar has is read as a literal.** -/
theorem written_iff : Written chars literal ↔ ofChars? chars = some literal := by
  constructor
  · intro h
    cases h with
    | nan hsign hword =>
      simp only [ofChars?, splitSign_append hsign (head_ne_of_word hword (by decide) (by decide))]
      rw [hword]
      rfl
    | infinity hsign hword =>
      have hhead : ∀ c ∈ _, c ≠ '-' ∧ c ≠ '+' := hword.elim
        (fun h => head_ne_of_word h (by decide) (by decide))
        (fun h => head_ne_of_word h (by decide) (by decide))
      simp only [ofChars?, splitSign_append hsign hhead]
      rcases hword with hword | hword <;> rw [hword] <;> rfl
    | decimal hsign hbody =>
      simp only [ofChars?, splitSign_append hsign hbody.head_ne]
      rw [show "inf".toList = 'i' :: ['n', 'f'] from rfl,
        show "infinity".toList = 'i' :: ['n', 'f', 'i', 'n', 'i', 't', 'y'] from rfl,
        show "nan".toList = 'n' :: ['a', 'n'] from rfl, hbody.ne_word rfl (by decide),
        hbody.ne_word rfl (by decide), hbody.ne_word rfl (by decide)]
      exact decimal?_eq_some_iff.mpr ⟨_, _, hbody, rfl⟩
  · intro h
    obtain ⟨sign, negative, body, hsign, rfl, hsplit⟩ := exists_sign chars
    simp only [ofChars?, hsplit] at h
    split_ifs at h with hinfinity hnan
    · cases h
      rw [Bool.or_eq_true, beq_iff_eq, beq_iff_eq] at hinfinity
      exact .infinity hsign hinfinity
    · cases h
      exact .nan hsign (beq_iff_eq.mp hnan)
    · obtain ⟨n, e, hbody, rfl⟩ := decimal?_eq_some_iff.mp h
      exact .decimal hsign hbody

end Literal

namespace Number

variable {text : String} {x : Float}

/-- Whether a text is a literal that says a float. -/
def Reads (text : String) (x : Float) : Prop :=
  ∃ literal, Literal.Written text.toList literal ∧ literal.Says x

/-- **A text is read as a float exactly if it is a literal that says this float.** -/
theorem ofText?_eq_some_iff : ofText? text = some x ↔ Reads text x := by
  unfold ofText? Reads
  rw [Option.map_eq_some_iff]
  simp only [Literal.written_iff, Literal.toFloat_eq_iff]

/-- A text is read as one float at most. -/
theorem Reads.unique {y : Float} (hx : Reads text x) (hy : Reads text y) : x = y :=
  Option.some.inj ((ofText?_eq_some_iff.mpr hx).symm.trans (ofText?_eq_some_iff.mpr hy))

end Number

end Phototaxis
