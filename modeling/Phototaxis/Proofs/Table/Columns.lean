import Mathlib.Data.List.Nodup
import Phototaxis.Proofs.Table.Names
import Phototaxis.Proofs.Table.Reading
import Phototaxis.Proofs.Text.Blank

/-!
# The wanted columns of a table

A text that was written as a field is read without the blanks at its ends. They are dropped
twice, as bytes and as characters, which comes to the same (`fieldText_encodeUtf8`). So the
rows of a table are what stands in its lines under the names of the wanted columns
(`Layout.rows_of_lines`).

A table of words whose last columns are the wanted ones gives, for every row, the last
fields of the row as they are (`Layout.rows_of_fields`), since words have no blanks.
-/

namespace Phototaxis.Table

open Text

/-! ## Texts as fields -/

theorem isBlank_of_isBlankByte {byte : UInt8} {char : Char}
    (h : byte ∈ String.utf8EncodeChar char) (hblank : isBlankByte byte = true) :
    String.utf8EncodeChar char = [byte] ∧ isBlank char = true := by
  have hcases : byte = 0x20 ∨ byte = 0x09 ∨ byte = 0x0A ∨ byte = 0x0C ∨ byte = 0x0D := by
    simpa only [isBlankByte, Bool.or_eq_true, beq_iff_eq, or_assoc] using hblank
  have hlt : byte < 0x80 := by
    rcases hcases with rfl | rfl | rfl | rfl | rfl <;> decide
  obtain ⟨hbytes, hnat⟩ := eq_of_mem_encode h hlt
  refine ⟨hbytes, ?_⟩
  unfold isBlank
  rw [hnat]
  rcases hcases with rfl | rfl | rfl | rfl | rfl <;> rfl

/-- Of a character all bytes are blanks of ASCII or none. -/
theorem isBlankByte_cases (char : Char) :
    (∀ byte ∈ String.utf8EncodeChar char, isBlankByte byte = true) ∨
      ∀ byte ∈ String.utf8EncodeChar char, isBlankByte byte = false := by
  by_cases h : ∃ byte ∈ String.utf8EncodeChar char, isBlankByte byte = true
  · obtain ⟨byte, hmem, hblank⟩ := h
    rw [(isBlank_of_isBlankByte hmem hblank).1, List.forall_mem_singleton]
    exact .inl hblank
  · exact .inr fun byte hmem => Bool.eq_false_iff.mpr fun hblank => h ⟨byte, hmem, hblank⟩

/-- **A written text is read without the blanks at its ends**, those of ASCII and all others. -/
theorem fieldText_encodeUtf8 (text : String) : fieldText (encodeUtf8 text) = .ok (trim text) := by
  let blanks : Char → Bool := fun char => (String.utf8EncodeChar char).all isBlankByte
  have hblanks : ∀ char, blanks char = true → isBlank char = true := by
    intro char hchar
    obtain ⟨byte, bytes, hbytes⟩ :=
      List.exists_cons_of_ne_nil (String.utf8EncodeChar_ne_nil (c := char))
    have hmem : byte ∈ String.utf8EncodeChar char := hbytes ▸ List.mem_cons_self
    exact (isBlank_of_isBlankByte hmem (List.all_eq_true.mp hchar byte hmem)).2
  have hbytes : trimBytes (encodeUtf8 text)
      = encodeUtf8 (String.ofList (trimEnds blanks text.toList)) := by
    rw [encodeUtf8, encodeUtf8, String.toList_ofList]
    exact trimEnds_flatMap (fun _ => String.utf8EncodeChar_ne_nil) isBlankByte_cases _
  have htrim : trim (String.ofList (trimEnds blanks text.toList)) = trim text := by
    obtain ⟨front, back, hends, hfront, hback⟩ := exists_ends blanks text.toList
    rw [trim, trim, String.toList_ofList, trimChars_eq, trimChars_eq]
    conv_rhs => rw [← hends]
    rw [trimEnds_append (fun char hchar => hblanks char (hfront char hchar))
      fun char hchar => hblanks char (hback char hchar)]
  rw [fieldText, hbytes, decodeUtf8_encodeUtf8]
  exact congrArg Except.ok htrim

theorem fieldTexts_encodeUtf8 (texts : List String) (index : Nat) :
    fieldTexts index (texts.map encodeUtf8) = .ok (texts.map trim) := by
  induction texts generalizing index with
  | nil => rfl
  | cons text texts ih =>
    rw [List.map_cons, fieldTexts, fieldText_encodeUtf8]
    dsimp only
    rw [ih]
    rfl

/-- Words have no blanks to be left out. -/
theorem map_trim_of_isWord {texts : List String} (h : ∀ text ∈ texts, IsWord text) :
    texts.map trim = texts := by
  rw [List.map_congr_left fun text htext => (h text htext).trim]
  exact List.map_id texts

/-- The texts of a record that was written. -/
theorem RawRecord.texts?_of_fields {record : RawRecord} {texts : List String}
    (h : record.fields = texts.map encodeUtf8) : record.texts? = some (texts.map trim) := by
  rw [RawRecord.texts?_eq_some_iff, h]
  exact fieldTexts_encodeUtf8 texts 0

/-! ## Lines as rows -/

namespace Layout

variable {layout : Layout} {bytes : List UInt8} {lines rows : List (List String)}
  {names fields before : List String}

/-- **A table gives the wanted cells of its lines**, if every line has as many fields as the header
has names. -/
theorem rows_of_lines
    (hbytes : (records bytes).map RawRecord.fields = (names :: lines).map (·.map encodeUtf8))
    (hrows : List.Forall₂ (fun texts cells => texts.length = names.length ∧
      layout.ByName (names.map trim) (texts.map trim) cells) lines rows) :
    layout.rows bytes = rows.map .ok := by
  cases hrecords : records bytes with
  | nil =>
    rw [hrecords] at hbytes
    exact nomatch hbytes
  | cons header found =>
    rw [hrecords, List.map_cons, List.map_cons, List.cons.injEq] at hbytes
    obtain ⟨hnames, hfound⟩ := hbytes
    rw [rows_of_records hrecords]
    clear hrecords
    induction hrows generalizing found with
    | nil => rw [List.map_eq_nil_iff.mp hfound]; rfl
    | @cons texts cells lines rows hcells _ ih =>
      cases found with
      | nil => exact nomatch hfound
      | cons record found =>
        obtain ⟨hfields, hfound⟩ := List.cons.inj hfound
        have hrow : layout.row header record = .ok cells := by
          rw [row_eq_ok_iff, RawRecord.texts?_of_fields hnames]
          refine ⟨texts.map trim, RawRecord.texts?_of_fields hfields, ?_, hcells.2⟩
          rw [hfields, hnames, List.length_map, List.length_map, hcells.1]
        rw [List.map_cons, List.map_cons, hrow, ih found hfound]

/-- Columns before the wanted ones are passed over. -/
theorem byName_append (hnodup : (before ++ layout.columns).Nodup)
    (hlength : fields.length = (before ++ layout.columns).length) :
    layout.ByName (before ++ layout.columns) fields (fields.drop before.length) := by
  rw [List.length_append] at hlength
  have hbefore : before.length = (fields.take before.length).length := by
    rw [List.length_take, Nat.min_eq_left (hlength ▸ Nat.le_add_right _ _)]
  constructor
  · exact fun column hcolumn =>
      List.count_eq_one_of_mem hnodup (List.mem_append_right before hcolumn)
  · rw [List.forall₂_iff_zip]
    constructor
    · rw [List.length_drop, hlength, Nat.add_sub_cancel_left]
    · intro column cell hmem
      rw [← List.take_append_drop before.length fields, List.zip_append hbefore]
      exact List.mem_append_right _ hmem

/-- **A table of words whose last columns are the wanted ones gives the last fields of every
row.** -/
theorem rows_of_fields (before : List String) {layout : Layout} {bytes : List UInt8}
    {lines : List (List String)}
    (hbytes : (records bytes).map RawRecord.fields
      = ((before ++ layout.columns) :: lines).map (·.map encodeUtf8))
    (hnodup : (before ++ layout.columns).Nodup)
    (hheader : ∀ text ∈ before ++ layout.columns, IsWord text)
    (hlines : ∀ texts ∈ lines, texts.length = (before ++ layout.columns).length ∧
      ∀ text ∈ texts, IsWord text) :
    layout.rows bytes = lines.map fun texts => .ok (texts.drop before.length) := by
  have hrows : layout.rows bytes = (lines.map (·.drop before.length)).map .ok := by
    refine rows_of_lines hbytes (List.forall₂_map_right_iff.mpr (List.forall₂_same.mpr ?_))
    intro texts htexts
    obtain ⟨hlength, hwords⟩ := hlines texts htexts
    rw [map_trim_of_isWord hheader, map_trim_of_isWord hwords]
    exact ⟨hlength, byName_append hnodup hlength⟩
  rw [hrows, List.map_map]
  rfl

end Layout

end Phototaxis.Table
