import Mathlib.Data.List.Basic
import Mathlib.Tactic.Common
import Phototaxis.Proofs.Text.Utf8
import Phototaxis.Table.Reader
import Phototaxis.Table.Writer

/-!
# The reader reads what was written

A table may be written in many ways: a field with or without quotes, if it does not need
them, lines with either end, and the last one without any (`WritesTable`). In whatever way
a record is written, it is read with the fields that it had, whether its line is followed by
others (`rowsFrom_line`) or by nothing at all (`rowsFrom_last`). So a table is read as its
lines (`rowsFrom_table`), those of this library's writer among them (`fields_records_written`).

What a record says does not depend on where it begins. So the positions are left out here:
`rowsFrom` gives the fields of the records only, from the three parts of the reader's state
that matter to them. Each byte then is one equation between two such lists of rows, and a
field is read by as many of them as it has bytes.

A record of a single empty field may be written as an empty line, which is no record. It is
the only one that is not read again.
-/

namespace Phototaxis.Table

variable {phase : Phase} {fields : List (List UInt8)} {field bytes rest : List UInt8}
  {byte : UInt8} {chars : List Char}

/-! ## Rows without positions -/

/-- The fields of the records of the rest of a table, where `fields` and a part of the next `field`
of the current record have been read before. -/
def rowsFrom (phase : Phase) (fields : List (List UInt8)) (field bytes : List UInt8) :
    List (List (List UInt8)) :=
  (recordsFrom ⟨phase, field, fields, ⟨0, 1, 0⟩, 1, 0⟩ bytes).map RawRecord.fields

/-- Whether two states of the reader differ in positions only. -/
structure Scan.Agree (s t : Scan) : Prop where
  phase : s.phase = t.phase
  field : s.field = t.field
  fields : s.fields = t.fields

theorem Scan.Agree.step {s t : Scan} (h : s.Agree t) (byte : UInt8) :
    (s.step byte).1.Agree (t.step byte).1 ∧
      (s.step byte).2.map RawRecord.fields = (t.step byte).2.map RawRecord.fields := by
  obtain ⟨phase, field, fields, _, _, _⟩ := s
  obtain ⟨_, _, _, _, _, _⟩ := t
  obtain ⟨hphase, hfield, hfields⟩ := h
  dsimp only at hphase hfield hfields
  subst hphase hfield hfields
  cases phase <;> dsimp only [Scan.step, Scan.openOr, Scan.endOr, Scan.count, Scan.push] <;>
    split_ifs <;> exact ⟨⟨rfl, rfl, rfl⟩, rfl⟩

theorem Scan.Agree.rows {s t : Scan} (h : s.Agree t) (bytes : List UInt8) :
    (recordsFrom s bytes).map RawRecord.fields = (recordsFrom t bytes).map RawRecord.fields := by
  induction bytes generalizing s t with
  | nil =>
    rw [recordsFrom, recordsFrom, h.phase]
    split
    · rfl
    · show [s.fields ++ [s.field]] = [t.fields ++ [t.field]]
      rw [h.fields, h.field]
  | cons byte bytes ih =>
    obtain ⟨hnext, hrecord⟩ := h.step byte
    rw [recordsFrom, recordsFrom]
    generalize s.step byte = u at hnext hrecord ⊢
    generalize t.step byte = v at hnext hrecord ⊢
    obtain ⟨s', r⟩ := u
    obtain ⟨t', r'⟩ := v
    cases r <;> cases r'
    · exact ih hnext
    · exact nomatch hrecord
    · exact nomatch hrecord
    · show _ :: _ = _ :: _
      rw [ih hnext, Option.some.inj hrecord]

/-- Where records begin does not matter to their fields. -/
theorem fields_recordsFrom (s : Scan) (bytes : List UInt8) :
    (recordsFrom s bytes).map RawRecord.fields = rowsFrom s.phase s.fields s.field bytes :=
  Scan.Agree.rows (s := s) (t := ⟨s.phase, s.field, s.fields, ⟨0, 1, 0⟩, 1, 0⟩)
    ⟨rfl, rfl, rfl⟩ bytes

/-! ## One byte -/

/-- Whether a byte ends a line. -/
def isLineEnd (byte : UInt8) : Bool := byte == 0x0A || byte == 0x0D

/-- Whether a byte stands for itself outside quotes. -/
def isPlain (byte : UInt8) : Bool := !(byte == 0x2C || byte == 0x22 || isLineEnd byte)

/-- Whether the current field may end in a phase. -/
def Phase.Ends : Phase → Prop
  | .opening | .plain | .closing => True
  | .between | .quoted => False

theorem rowsFrom_comma (h : phase.Ends) :
    rowsFrom phase fields field (0x2C :: rest)
      = rowsFrom .opening (fields ++ [field]) [] rest := by
  cases phase <;> first | exact h.elim | exact fields_recordsFrom _ rest

theorem rowsFrom_lineEnd (h : phase.Ends) (hbyte : isLineEnd byte = true) :
    rowsFrom phase fields field (byte :: rest)
      = (fields ++ [field]) :: rowsFrom .between [] [] rest := by
  have hcases : byte = 0x0A ∨ byte = 0x0D := by
    simpa only [isLineEnd, Bool.or_eq_true, beq_iff_eq] using hbyte
  rcases hcases with rfl | rfl <;> cases phase <;>
    first | exact h.elim | exact congrArg (_ :: ·) (fields_recordsFrom _ rest)

theorem rowsFrom_skip (hbyte : isLineEnd byte = true) :
    rowsFrom .between fields field (byte :: rest) = rowsFrom .between fields field rest := by
  have hcases : byte = 0x0A ∨ byte = 0x0D := by
    simpa only [isLineEnd, Bool.or_eq_true, beq_iff_eq] using hbyte
  rcases hcases with rfl | rfl <;> exact fields_recordsFrom _ rest

/-- A byte that ends no line begins a record. -/
theorem rowsFrom_between (hbyte : isLineEnd byte = false) :
    rowsFrom .between fields field (byte :: rest)
      = rowsFrom .opening fields field (byte :: rest) := by
  unfold rowsFrom
  rw [recordsFrom, recordsFrom]
  dsimp only [Scan.step, Scan.count]
  rw [show (byte == 0x0A || byte == 0x0D) = false from hbyte, if_neg Bool.false_ne_true]
  dsimp only [Scan.openOr, Scan.endOr, Scan.push]
  split_ifs <;> rfl

theorem rowsFrom_openingQuote :
    rowsFrom .opening fields field (0x22 :: rest) = rowsFrom .quoted fields field rest :=
  fields_recordsFrom _ rest

theorem rowsFrom_quote :
    rowsFrom .quoted fields field (0x22 :: rest) = rowsFrom .closing fields field rest :=
  fields_recordsFrom _ rest

theorem rowsFrom_doubledQuote : rowsFrom .quoted fields field (0x22 :: 0x22 :: rest)
    = rowsFrom .quoted fields (field ++ [0x22]) rest := by
  rw [rowsFrom_quote]
  exact fields_recordsFrom _ rest

theorem rowsFrom_plain (hphase : phase = .opening ∨ phase = .plain) (hbyte : isPlain byte = true) :
    rowsFrom phase fields field (byte :: rest)
      = rowsFrom .plain fields (field ++ [byte]) rest := by
  have hne : ¬ (byte == 0x2C) = true ∧ ¬ (byte == 0x22) = true ∧
      ¬ (byte == 0x0A || byte == 0x0D) = true := by
    simpa only [isPlain, isLineEnd, Bool.not_eq_true', Bool.or_eq_false_iff, Bool.not_eq_true,
      and_assoc] using hbyte
  unfold rowsFrom
  rw [recordsFrom]
  rcases hphase with rfl | rfl <;>
    dsimp only [Scan.step, Scan.count, Scan.openOr, Scan.endOr, Scan.push] <;>
    simp only [if_neg hne.1, if_neg hne.2.1, if_neg hne.2.2] <;> exact fields_recordsFrom _ rest

theorem rowsFrom_quoted (hbyte : byte ≠ 0x22) :
    rowsFrom .quoted fields field (byte :: rest)
      = rowsFrom .quoted fields (field ++ [byte]) rest := by
  unfold rowsFrom
  rw [recordsFrom]
  dsimp only [Scan.step, Scan.count, Scan.push]
  rw [if_neg (by simpa using hbyte)]
  exact fields_recordsFrom _ rest

/-! ## One field -/

/-- The bytes of characters. -/
def bytesOf (chars : List Char) : List UInt8 := chars.flatMap String.utf8EncodeChar

theorem bytesOf_cons (c : Char) (chars : List Char) :
    bytesOf (c :: chars) = String.utf8EncodeChar c ++ bytesOf chars := rfl

theorem bytesOf_append (chars chars' : List Char) :
    bytesOf (chars ++ chars') = bytesOf chars ++ bytesOf chars' := List.flatMap_append

/-- A byte of ASCII is found among the bytes of a text only where its character is. -/
theorem ne_of_mem_bytesOf {c : Char} (hc : c ∉ chars) (hlt : c.toNat < 0x80)
    (h : byte ∈ bytesOf chars) : byte ≠ UInt8.ofNat c.toNat := by
  rintro rfl
  obtain ⟨d, hd, hbyte⟩ := List.mem_flatMap.mp h
  have hnat : (UInt8.ofNat c.toNat).toNat = c.toNat := Text.toNat_ofNat (by omega)
  have heq := (Text.eq_of_mem_encode hbyte ((Text.ofNat_lt_iff (by omega)).mpr hlt)).2
  rw [hnat] at heq
  exact hc (Char.toNat_inj.mp heq ▸ hd)

theorem isPlain_of_mem (h : chars.any needsQuotes = false) (hbyte : byte ∈ bytesOf chars) :
    isPlain byte = true := by
  have hnot : ∀ c, needsQuotes c = true → c ∉ chars := by
    intro c hc hmem
    exact absurd hc (List.any_eq_false.mp h c hmem)
  have hcomma : byte ≠ 0x2C := ne_of_mem_bytesOf (hnot ',' rfl) (by decide) hbyte
  have hquote : byte ≠ 0x22 := ne_of_mem_bytesOf (hnot '"' rfl) (by decide) hbyte
  have hreturn : byte ≠ 0x0D := ne_of_mem_bytesOf (hnot '\r' rfl) (by decide) hbyte
  have hfeed : byte ≠ 0x0A := ne_of_mem_bytesOf (hnot '\n' rfl) (by decide) hbyte
  simp only [isPlain, isLineEnd, Bool.not_eq_true', Bool.or_eq_false_iff, beq_eq_false_iff_ne]
  exact ⟨⟨hcomma, hquote⟩, hfeed, hreturn⟩

theorem rowsFrom_plains (h : ∀ byte ∈ bytes, isPlain byte = true) :
    rowsFrom .plain fields field (bytes ++ rest)
      = rowsFrom .plain fields (field ++ bytes) rest := by
  induction bytes generalizing field with
  | nil => rw [List.nil_append, List.append_nil]
  | cons byte bytes ih =>
    rw [List.cons_append, rowsFrom_plain (.inr rfl) (h byte List.mem_cons_self),
      ih (fun b hb => h b (List.mem_cons_of_mem _ hb)), List.append_assoc]
    rfl

theorem rowsFrom_quoteds (h : ∀ byte ∈ bytes, byte ≠ 0x22) :
    rowsFrom .quoted fields field (bytes ++ rest)
      = rowsFrom .quoted fields (field ++ bytes) rest := by
  induction bytes generalizing field with
  | nil => rw [List.nil_append, List.append_nil]
  | cons byte bytes ih =>
    rw [List.cons_append, rowsFrom_quoted (h byte List.mem_cons_self),
      ih (fun b hb => h b (List.mem_cons_of_mem _ hb)), List.append_assoc]
    rfl

theorem rowsFrom_doubleQuotes (chars : List Char) (field : List UInt8) :
    rowsFrom .quoted fields field (bytesOf (doubleQuotes chars) ++ rest)
      = rowsFrom .quoted fields (field ++ bytesOf chars) rest := by
  induction chars generalizing field with
  | nil =>
    show rowsFrom _ _ _ rest = rowsFrom _ _ (field ++ []) rest
    rw [List.append_nil]
  | cons c chars ih =>
    rw [doubleQuotes]
    split
    · next hc =>
      have hbytes : bytesOf (c :: chars) = 0x22 :: bytesOf chars := by
        rw [beq_iff_eq.mp hc]
        rfl
      rw [hbytes, ← List.singleton_append (x := 0x22), ← List.append_assoc]
      exact rowsFrom_doubledQuote.trans (ih _)
    · next hc =>
      have hquote : ∀ byte ∈ String.utf8EncodeChar c, byte ≠ 0x22 := by
        intro byte hbyte
        have hnot : '"' ∉ [c] := by
          rw [List.mem_singleton]
          exact fun h => hc (beq_iff_eq.mpr h.symm)
        exact ne_of_mem_bytesOf hnot (by decide) (List.mem_append_left _ hbyte)
      rw [bytesOf_cons, List.append_assoc, rowsFrom_quoteds hquote, ih, List.append_assoc]
      rfl

/-- How a field may be written: as it is if no character needs quotes, and between quotes in any
case. -/
inductive WritesField (text : String) : List Char → Prop
  | bare (h : text.toList.any needsQuotes = false) : WritesField text text.toList
  | quoted : WritesField text ('"' :: doubleQuotes text.toList ++ ['"'])

theorem writesField_writeField (text : String) : WritesField text (writeField text) := by
  unfold writeField
  dsimp only
  split
  · exact .quoted
  · next h => exact .bare (Bool.eq_false_iff.mpr h)

/-- **A written field is read as what it says**, up to where a comma, a line end or the end of the
table may follow. -/
theorem rowsFrom_field {text : String} (h : WritesField text chars) (fields : List (List UInt8)) :
    ∃ phase : Phase, phase.Ends ∧ ∀ rest,
      rowsFrom .opening fields [] (bytesOf chars ++ rest)
        = rowsFrom phase fields (Text.encodeUtf8 text) rest := by
  cases h with
  | quoted =>
    refine ⟨.closing, trivial, fun rest => ?_⟩
    rw [List.cons_append, bytesOf_cons, bytesOf_append, List.append_assoc, List.append_assoc]
    exact rowsFrom_openingQuote.trans
      ((rowsFrom_doubleQuotes text.toList []).trans rowsFrom_quote)
  | bare h =>
    have hplain : ∀ byte ∈ bytesOf text.toList, isPlain byte = true := fun byte hbyte =>
      isPlain_of_mem h hbyte
    change ∃ phase : Phase, _ ∧ ∀ rest, _ = rowsFrom phase fields (bytesOf text.toList) rest
    generalize bytesOf text.toList = bytes at hplain
    cases bytes with
    | nil => exact ⟨.opening, trivial, fun rest => rfl⟩
    | cons byte bytes =>
      refine ⟨.plain, trivial, fun rest => ?_⟩
      rw [List.cons_append, rowsFrom_plain (.inl rfl) (hplain byte List.mem_cons_self),
        rowsFrom_plains fun b hb => hplain b (List.mem_cons_of_mem _ hb)]
      rfl

theorem WritesField.begins {text : String} (h : WritesField text chars) (hne : text ≠ "") :
    ∃ byte bytes, bytesOf chars = byte :: bytes ∧ isLineEnd byte = false := by
  cases h with
  | quoted => exact ⟨0x22, _, rfl, rfl⟩
  | bare hbare =>
    have hbytes : bytesOf text.toList ≠ [] := by
      obtain ⟨c, chars, htext⟩ := List.exists_cons_of_ne_nil
        (mt String.toList_eq_nil_iff.mp hne)
      rw [htext, bytesOf_cons]
      exact List.append_ne_nil_of_left_ne_nil String.utf8EncodeChar_ne_nil _
    obtain ⟨byte, bytes, heq⟩ := List.exists_cons_of_ne_nil hbytes
    have hbyte : isPlain byte = true := isPlain_of_mem hbare (heq ▸ List.mem_cons_self)
    refine ⟨byte, bytes, heq, ?_⟩
    simp only [isPlain, Bool.not_eq_true', Bool.or_eq_false_iff] at hbyte
    exact hbyte.2

/-! ## One record -/

/-- How the fields of a record may be written: with commas between them, and each in its own
way. -/
inductive WritesRecord : List String → List Char → Prop
  | last {text : String} {chars : List Char} (h : WritesField text chars) :
      WritesRecord [text] chars
  | cons {text : String} {texts : List String} {chars rest : List Char}
      (h : WritesField text chars) (hrest : WritesRecord texts rest) :
      WritesRecord (text :: texts) (chars ++ ',' :: rest)

variable {texts : List String}

theorem writesRecord_writeFields (h : texts ≠ []) : WritesRecord texts (writeFields texts) := by
  induction texts with
  | nil => exact absurd rfl h
  | cons text texts ih =>
    cases texts with
    | nil => exact .last (writesField_writeField text)
    | cons next texts =>
      rw [writeFields]
      · exact .cons (writesField_writeField text) (ih (List.cons_ne_nil _ _))
      · exact List.cons_ne_nil _ _

/-- The fields are read up to the end of the last one. -/
theorem rowsFrom_fields (h : WritesRecord texts chars) (fields : List (List UInt8)) :
    ∃ (phase : Phase) (before : List (List UInt8)) (last : List UInt8), phase.Ends ∧
      before ++ [last] = fields ++ texts.map Text.encodeUtf8 ∧
      ∀ rest, rowsFrom .opening fields [] (bytesOf chars ++ rest)
        = rowsFrom phase before last rest := by
  induction h generalizing fields with
  | @last text chars h =>
    obtain ⟨phase, hphase, hfield⟩ := rowsFrom_field h fields
    exact ⟨phase, fields, Text.encodeUtf8 text, hphase, rfl, hfield⟩
  | @cons text texts chars rest h _ ih =>
    obtain ⟨phase, hphase, hfield⟩ := rowsFrom_field h fields
    obtain ⟨phase', before, last, hphase', heq, hrest⟩ := ih (fields ++ [Text.encodeUtf8 text])
    refine ⟨phase', before, last, hphase', ?_, fun rest => ?_⟩
    · rw [heq, List.append_assoc]
      rfl
    · rw [bytesOf_append, List.append_assoc, hfield]
      exact (rowsFrom_comma hphase).trans (hrest rest)

/-- Whether the fields of a record are written as a line that is not empty. -/
structure IsRecord (texts : List String) : Prop where
  ne_nil : texts ≠ []
  ne_empty : texts ≠ [""]

/-- Two fields make a line, whatever they are. -/
theorem IsRecord.of_length (h : 2 ≤ texts.length) : IsRecord texts := by
  constructor <;> rintro rfl <;> exact absurd h (by decide)

theorem WritesRecord.begins (h : WritesRecord texts chars) (hrecord : IsRecord texts) :
    ∃ byte bytes, bytesOf chars = byte :: bytes ∧ isLineEnd byte = false := by
  cases h with
  | last h => exact h.begins fun htext => hrecord.ne_empty (congrArg ([·]) htext)
  | @cons text texts chars rest h _ =>
    by_cases htext : text = ""
    · subst htext
      cases h with
      | bare => exact ⟨0x2C, bytesOf rest, rfl, rfl⟩
      | quoted => exact ⟨0x22, _, rfl, rfl⟩
    · obtain ⟨byte, bytes, heq, hbyte⟩ := h.begins htext
      refine ⟨byte, bytes ++ bytesOf (',' :: rest), ?_, hbyte⟩
      rw [bytesOf_append, heq]
      rfl

theorem rowsFrom_begin (h : WritesRecord texts chars) (hrecord : IsRecord texts)
    (rest : List UInt8) :
    rowsFrom .between [] [] (bytesOf chars ++ rest)
      = rowsFrom .opening [] [] (bytesOf chars ++ rest) := by
  obtain ⟨byte, bytes, heq, hbyte⟩ := h.begins hrecord
  rw [heq]
  exact rowsFrom_between hbyte

theorem rowsFrom_skips {lineEnd : List UInt8} (h : ∀ byte ∈ lineEnd, isLineEnd byte = true)
    (rest : List UInt8) :
    rowsFrom .between [] [] (lineEnd ++ rest) = rowsFrom .between [] [] rest := by
  induction lineEnd with
  | nil => rfl
  | cons byte lineEnd ih =>
    rw [List.cons_append, rowsFrom_skip (h byte List.mem_cons_self),
      ih fun b hb => h b (List.mem_cons_of_mem _ hb)]

/-- **A written line is read as its fields**, whatever lines follow. -/
theorem rowsFrom_line (h : WritesRecord texts chars) (hrecord : IsRecord texts)
    {lineEnd : List UInt8} (hend : ∀ byte ∈ lineEnd, isLineEnd byte = true) (hne : lineEnd ≠ [])
    (rest : List UInt8) :
    rowsFrom .between [] [] (bytesOf chars ++ (lineEnd ++ rest))
      = texts.map Text.encodeUtf8 :: rowsFrom .between [] [] rest := by
  obtain ⟨phase, before, last, hphase, heq, hread⟩ := rowsFrom_fields h []
  obtain ⟨byte, bytes, rfl⟩ := List.exists_cons_of_ne_nil hne
  rw [rowsFrom_begin h hrecord, hread, List.cons_append,
    rowsFrom_lineEnd hphase (hend byte List.mem_cons_self), heq,
    rowsFrom_skips fun b hb => hend b (List.mem_cons_of_mem _ hb)]
  rfl

/-- **A written line is read as its fields** also at the very end. -/
theorem rowsFrom_last (h : WritesRecord texts chars) (hrecord : IsRecord texts) :
    rowsFrom .between [] [] (bytesOf chars) = [texts.map Text.encodeUtf8] := by
  obtain ⟨phase, before, last, hphase, heq, hread⟩ := rowsFrom_fields h []
  rw [← List.append_nil (bytesOf _), rowsFrom_begin h hrecord, hread]
  refine Eq.trans ?_ (congrArg ([·]) heq)
  cases phase <;> first | exact hphase.elim | rfl

/-! ## Whole tables -/

/-- How lines end. -/
inductive LineEnd where
  | feed
  | returnAndFeed
deriving DecidableEq

/-- The characters at the end of a line. -/
def LineEnd.text : LineEnd → String
  | feed => "\n"
  | returnAndFeed => "\r\n"

/-- How a table may be written: line by line, with a line end behind each, which the last line may
lack. -/
inductive WritesTable : List (List String) → List Char → Prop
  | nil : WritesTable [] []
  | last {texts : List String} {chars : List Char} (h : WritesRecord texts chars) :
      WritesTable [texts] chars
  | line {texts : List String} {lines : List (List String)} {chars rest : List Char}
      (h : WritesRecord texts chars) (lineEnd : LineEnd) (hrest : WritesTable lines rest) :
      WritesTable (texts :: lines) (chars ++ (lineEnd.text.toList ++ rest))

variable {lines : List (List String)}

/-- **A written table is read as its lines.** -/
theorem rowsFrom_table (h : WritesTable lines chars) (hrecord : ∀ texts ∈ lines, IsRecord texts) :
    rowsFrom .between [] [] (bytesOf chars) = lines.map (·.map Text.encodeUtf8) := by
  induction h with
  | nil => rfl
  | last h => exact rowsFrom_last h (hrecord _ List.mem_cons_self)
  | @line texts lines chars rest h lineEnd _ ih =>
    obtain ⟨hfirst, hrecord⟩ := List.forall_mem_cons.mp hrecord
    have hend : ∀ byte ∈ bytesOf lineEnd.text.toList, isLineEnd byte = true :=
      List.all_eq_true.mp (by cases lineEnd <;> rfl)
    have hends : bytesOf lineEnd.text.toList ≠ [] := by
      cases lineEnd <;> decide
    rw [bytesOf_append, bytesOf_append, rowsFrom_line h hfirst hend hends, ih hrecord]
    rfl

/-! ## Byte order marks -/

/-- Whether characters do not begin with a byte order mark. -/
def Unmarked (chars : List Char) : Prop := chars.head? ≠ some '\uFEFF'

instance : Decidable (Unmarked chars) := inferInstanceAs (Decidable (_ ≠ _))

theorem unmarked_cons {c : Char} (h : c ≠ '\uFEFF') (chars : List Char) : Unmarked (c :: chars) :=
  fun hmark => h (Option.some.inj hmark)

theorem Unmarked.append {chars' : List Char} (h : Unmarked chars) (h' : Unmarked chars') :
    Unmarked (chars ++ chars') := by
  cases chars with
  | nil => exact h'
  | cons c chars => exact h

theorem WritesField.unmarked {text : String} (h : WritesField text chars)
    (htext : Unmarked text.toList) : Unmarked chars := by
  cases h with
  | bare => exact htext
  | quoted => exact unmarked_cons (by decide) _

theorem WritesRecord.unmarked (h : WritesRecord texts chars)
    (htexts : ∀ text ∈ texts, Unmarked text.toList) : Unmarked chars := by
  cases h with
  | last h => exact h.unmarked (htexts _ List.mem_cons_self)
  | cons h _ =>
    exact (h.unmarked (htexts _ List.mem_cons_self)).append (unmarked_cons (by decide) _)

/-- A table begins with a byte order mark only if its first field does. -/
theorem WritesTable.unmarked (h : WritesTable (texts :: lines) chars)
    (htexts : ∀ text ∈ texts, Unmarked text.toList) : Unmarked chars := by
  cases h with
  | last h => exact h.unmarked htexts
  | line h lineEnd _ =>
    refine (h.unmarked htexts).append ?_
    cases lineEnd <;> exact unmarked_cons (by decide) _

/-- The rows of a table that does not begin with a byte order mark. -/
theorem fields_records (h : Unmarked chars) :
    (records (bytesOf chars)).map RawRecord.fields = rowsFrom .between [] [] (bytesOf chars) := by
  unfold records
  split
  · next rest hbytes =>
    have hdecoded : Text.decodeCharsFrom 0 (0xEF :: 0xBB :: 0xBF :: rest) = .ok chars :=
      hbytes ▸ Text.decodeCharsFrom_flatMap chars 0
    have hmark : Text.Spells [0xEF, 0xBB, 0xBF] '\uFEFF' :=
      .three (by decide) (by decide) (by decide)
    have hnext : Text.decodeCharsFrom 0 (0xEF :: 0xBB :: 0xBF :: rest)
        = (Text.decodeCharsFrom 3 rest).map ('\uFEFF' :: ·) := hmark.decodeCharsFrom_append
    rw [hnext] at hdecoded
    cases hrest : Text.decodeCharsFrom 3 rest with
    | error valid =>
      rw [hrest] at hdecoded
      exact nomatch hdecoded
    | ok chars' =>
      rw [hrest] at hdecoded
      exact absurd (congrArg List.head? (Except.ok.inj hdecoded)).symm h
  · exact fields_recordsFrom _ _

/-- **A written table without a byte order mark is read as its lines.** -/
theorem fields_records_table (h : WritesTable (texts :: lines) chars)
    (hrecord : ∀ line ∈ texts :: lines, IsRecord line)
    (htexts : ∀ text ∈ texts, Unmarked text.toList) :
    (records (bytesOf chars)).map RawRecord.fields
      = (texts :: lines).map (·.map Text.encodeUtf8) :=
  (fields_records (h.unmarked htexts)).trans (rowsFrom_table h hrecord)

/-! ## Tables of the writer -/

/-- Lines as they are written one after the other. -/
def written (lines : List (List String)) : List Char :=
  lines.flatMap fun texts => writeFields texts ++ ['\n']

theorem written_append (lines lines' : List (List String)) :
    written (lines ++ lines') = written lines ++ written lines' := List.flatMap_append

theorem writesTable_written (h : ∀ texts ∈ lines, IsRecord texts) :
    WritesTable lines (written lines) := by
  induction lines with
  | nil => exact .nil
  | cons texts lines ih =>
    obtain ⟨hfirst, h⟩ := List.forall_mem_cons.mp h
    rw [written, List.flatMap_cons, List.append_assoc]
    exact .line (writesRecord_writeFields hfirst.ne_nil) .feed (ih h)

/-- **A written table is read as its lines.** -/
theorem fields_records_written {text : String} (htext : text.toList = written lines)
    (h : ∀ texts ∈ lines, IsRecord texts) (hmark : Unmarked text.toList) :
    (records text.toUTF8.toList).map RawRecord.fields = lines.map (·.map Text.encodeUtf8) := by
  rw [Text.toList_toUTF8]
  show (records (bytesOf text.toList)).map _ = _
  rw [fields_records hmark, htext, rowsFrom_table (writesTable_written h) h]

end Phototaxis.Table
