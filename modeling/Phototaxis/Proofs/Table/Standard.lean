import Mathlib.Data.List.Basic
import Mathlib.Tactic.Common
import Phototaxis.Proofs.Table.Reading

/-!
# Standard tables

The reader of this library takes any bytes for a table and makes the best of them. Others are not so
patient. Here a table is read as strictly as can be: records end in a line feed, fields are told
apart by commas, a field between quotes has its own quotes doubled, and nothing is trimmed. Whatever
readers are known to disagree about is refused: a record of a single empty field, which some take
for no record, a last line without an end, a quote or a carriage return outside of quotes, and
anything but a comma or a line feed behind a closing quote. So there is only one way to read what is
not refused.

A table that was written is not refused, and it is read as its lines (`standard?_written`). As for
`rowsFrom`, each character is one equation, and a field is read by as many of them as it has
characters.
-/

namespace Phototaxis.Table

/-- The records of the rest of a table, where `fields` and a part of the next `field` of the current
record have been read before, if it is a standard one. -/
def standardFrom (phase : Phase) (fields : List String) (field : List Char) :
    List Char → Option (List (List String))
  | [] => if phase = .between then some [] else none
  | c :: rest =>
    if phase = .quoted then
      if c = '"' then standardFrom .closing fields field rest
      else standardFrom .quoted fields (field ++ [c]) rest
    else if c = ',' then standardFrom .opening (fields ++ [String.ofList field]) [] rest
    else if c = '\n' then
      if fields = [] ∧ field = [] then none
      else (standardFrom .between [] [] rest).map ((fields ++ [String.ofList field]) :: ·)
    else if c = '"' then
      if phase = .plain then none
      else if phase = .closing then standardFrom .quoted fields (field ++ ['"']) rest
      else standardFrom .quoted fields field rest
    else if c = '\r' ∨ phase = .closing then none
    else standardFrom .plain fields (field ++ [c]) rest

/-- The records of a standard table, the header first. -/
def standard? (bytes : ByteArray) : Option (List (List String)) :=
  (String.fromUTF8? bytes).bind fun text => standardFrom .between [] [] text.toList

variable {phase : Phase} {fields texts : List String} {field chars rest : List Char} {c : Char}

/-! ## One character -/

theorem standardFrom_comma (h : phase.Ends) : standardFrom phase fields field (',' :: rest)
    = standardFrom .opening (fields ++ [String.ofList field]) [] rest := by
  cases phase <;> first | exact h.elim | rfl

theorem standardFrom_feed (h : phase.Ends) (hne : ¬(fields = [] ∧ field = [])) :
    standardFrom phase fields field ('\n' :: rest)
      = (standardFrom .between [] [] rest).map ((fields ++ [String.ofList field]) :: ·) := by
  cases phase <;> first | exact h.elim | exact if_neg hne

/-- Any character begins a record. -/
theorem standardFrom_between : standardFrom .between fields field (c :: rest)
    = standardFrom .opening fields field (c :: rest) := by
  simp [standardFrom]

theorem standardFrom_plain (hphase : phase = .opening ∨ phase = .plain)
    (hc : needsQuotes c = false) : standardFrom phase fields field (c :: rest)
      = standardFrom .plain fields (field ++ [c]) rest := by
  obtain ⟨⟨⟨hcomma, hquote⟩, hreturn⟩, hfeed⟩ :
      ((c ≠ ',' ∧ c ≠ '"') ∧ c ≠ '\r') ∧ c ≠ '\n' := by
    simpa only [needsQuotes, Bool.or_eq_false_iff, beq_eq_false_iff_ne] using hc
  rcases hphase with rfl | rfl <;> simp [standardFrom, hcomma, hquote, hreturn, hfeed]

theorem standardFrom_quoted (h : c ≠ '"') : standardFrom .quoted fields field (c :: rest)
    = standardFrom .quoted fields (field ++ [c]) rest := by
  rw [standardFrom, if_pos rfl, if_neg h]

theorem standardFrom_doubledQuote : standardFrom .quoted fields field ('"' :: '"' :: rest)
    = standardFrom .quoted fields (field ++ ['"']) rest := rfl

/-! ## One field -/

theorem standardFrom_plains (h : chars.any needsQuotes = false) :
    standardFrom .plain fields field (chars ++ rest)
      = standardFrom .plain fields (field ++ chars) rest := by
  induction chars generalizing field with
  | nil => rw [List.nil_append, List.append_nil]
  | cons c chars ih =>
    obtain ⟨hc, hchars⟩ := Bool.or_eq_false_iff.mp h
    rw [List.cons_append, standardFrom_plain (.inr rfl) hc, ih hchars, List.append_assoc]
    rfl

theorem standardFrom_doubleQuotes (chars field : List Char) :
    standardFrom .quoted fields field (doubleQuotes chars ++ rest)
      = standardFrom .quoted fields (field ++ chars) rest := by
  induction chars generalizing field with
  | nil => exact congrArg (standardFrom .quoted fields · rest) (List.append_nil field).symm
  | cons c chars ih =>
    rw [doubleQuotes, List.append_cons, ← ih]
    split
    · next hc =>
      rw [beq_iff_eq.mp hc]
      exact standardFrom_doubledQuote
    · next hc => exact standardFrom_quoted fun h => hc (beq_iff_eq.mpr h)

/-- **A written field is read as what it says**, up to where a comma or a line feed may follow. -/
theorem standardFrom_writeField (fields : List String) (text : String) :
    ∃ phase : Phase, phase.Ends ∧ ∀ rest,
      standardFrom .opening fields [] (writeField text ++ rest)
        = standardFrom phase fields text.toList rest := by
  unfold writeField
  dsimp only
  split
  · refine ⟨.closing, trivial, fun rest => ?_⟩
    rw [List.cons_append, List.cons_append, List.append_assoc]
    exact standardFrom_doubleQuotes text.toList []
  · next h =>
    have hplain : text.toList.any needsQuotes = false := Bool.eq_false_iff.mpr h
    cases hchars : text.toList with
    | nil => exact ⟨.opening, trivial, fun rest => rfl⟩
    | cons c chars =>
      obtain ⟨hc, hrest⟩ := Bool.or_eq_false_iff.mp (hchars ▸ hplain)
      refine ⟨.plain, trivial, fun rest => ?_⟩
      rw [List.cons_append, standardFrom_plain (.inl rfl) hc]
      exact standardFrom_plains hrest

/-! ## One record -/

/-- The fields are read up to the end of the last one. -/
theorem standardFrom_writeFields (fields : List String) (h : texts ≠ []) :
    ∃ (phase : Phase) (before : List String) (last : List Char), phase.Ends ∧
      before ++ [String.ofList last] = fields ++ texts ∧
      ∀ rest, standardFrom .opening fields [] (writeFields texts ++ rest)
        = standardFrom phase before last rest := by
  induction texts generalizing fields with
  | nil => exact absurd rfl h
  | cons text texts ih =>
    obtain ⟨phase, hphase, hfield⟩ := standardFrom_writeField fields text
    cases texts with
    | nil => exact ⟨phase, fields, text.toList, hphase, by rw [String.ofList_toList], hfield⟩
    | cons next texts =>
      obtain ⟨phase', before, last, hphase', heq, hrest⟩ :=
        ih (fields ++ [text]) (List.cons_ne_nil _ _)
      refine ⟨phase', before, last, hphase', ?_, fun rest => ?_⟩
      · rw [heq, List.append_assoc]
        rfl
      · rw [writeFields, List.append_assoc, hfield, List.cons_append, standardFrom_comma hphase,
          String.ofList_toList, hrest]
        exact List.cons_ne_nil _ _

theorem IsRecord.of_two (text text' : String) (texts : List String) :
    IsRecord (text :: text' :: texts) :=
  .of_length (Nat.le_add_left 2 texts.length)

/-- **A written line is read as its fields**, whatever follows. -/
theorem standardFrom_line (h : IsRecord texts) (rest : List Char) :
    standardFrom .between [] [] (writeFields texts ++ '\n' :: rest)
      = (standardFrom .between [] [] rest).map (texts :: ·) := by
  obtain ⟨phase, before, last, hphase, heq, hread⟩ := standardFrom_writeFields [] h.ne_nil
  have hbegin : standardFrom .between [] [] (writeFields texts ++ '\n' :: rest)
      = standardFrom .opening [] [] (writeFields texts ++ '\n' :: rest) := by
    cases writeFields texts <;> exact standardFrom_between
  have hne : ¬(before = [] ∧ last = []) := by
    rintro ⟨rfl, rfl⟩
    exact h.ne_empty heq.symm
  rw [hbegin, hread, standardFrom_feed hphase hne, heq, List.nil_append]

/-! ## Whole tables -/

/-- **A written table is a standard one, and it is read as its lines.** -/
theorem standardFrom_written {lines : List (List String)} (h : ∀ texts ∈ lines, IsRecord texts) :
    standardFrom .between [] [] (written lines) = some lines := by
  induction lines with
  | nil => rfl
  | cons texts lines ih =>
    rw [written, List.flatMap_cons, List.append_assoc, List.singleton_append,
      standardFrom_line (h texts List.mem_cons_self)]
    exact congrArg (Option.map (texts :: ·)) (ih fun texts hmem => h texts (.tail _ hmem))

/-- The same of its bytes. -/
theorem standard?_written {text : String} {lines : List (List String)}
    (htext : text.toList = written lines) (h : ∀ texts ∈ lines, IsRecord texts) :
    standard? text.toUTF8 = some lines := by
  have hdecoded : String.fromUTF8? text.toUTF8 = some text := dif_pos text.isValidUTF8
  rw [standard?, hdecoded, Option.bind_some, htext]
  exact standardFrom_written h

/-- A line end and a quote between quotes belong to the field, and so do blanks. -/
example : standard? "name, note\n\"a \"\"b\"\"\r\n\",\n".toUTF8
    = some [["name", " note"], ["a \"b\"\r\n", ""]] := by
  decide +kernel

end Phototaxis.Table
