import Mathlib
import Phototaxis.Proofs.Table.Reading

/-!
# The lines of a table

A table falls into records with line ends between them (`exists_falls`). Each record has bytes of
its own, which are read as this record by themselves (`Stretch.Sound`), and it begins on the line
behind all the line feeds before it. These are of three kinds: the one that ends the record before,
those of empty lines, and those between quotes, which are part of the cells.

So the line on which a record begins is its number, and the empty lines and the line breaks in
cells before it (`lineBehind_eq`), if every line ends in a line feed.
-/

namespace Phototaxis.Table

/-- How many line feeds there are among bytes. -/
def feeds (bytes : List UInt8) : ℕ := bytes.count 0x0A

variable {s t : Scan} {byte : UInt8} {bytes bytes' rest : List UInt8}

theorem feeds_append : feeds (bytes ++ bytes') = feeds bytes + feeds bytes' := List.count_append

theorem feeds_eq_zero (h : byte ≠ 0x0A) : feeds [byte] = 0 :=
  List.count_eq_zero.mpr fun hmem => h (List.mem_singleton.mp hmem).symm

/-- How many line breaks there are in the cells of a record. -/
def RawRecord.breaks (record : RawRecord) : ℕ := feeds record.fields.flatten

/-! ## One byte -/

namespace Scan

/-- Whether no record has been begun. -/
structure Idle (s : Scan) : Prop where
  phase : s.phase = .between
  fields : s.fields = []
  field : s.field = []

/-- Whether the current record has got a byte more. If it is a line feed, it is part of a cell. -/
structure Continues (s : Scan) (byte : UInt8) (t : Scan) : Prop where
  phase : t.phase ≠ .between
  breaks : t.record.breaks = s.record.breaks + feeds [byte]

theorem breaks_record (s : Scan) : s.record.breaks = feeds s.fields.flatten + feeds s.field := by
  rw [RawRecord.breaks, record, List.flatten_append, List.flatten_singleton, feeds_append]

theorem Idle.breaks (h : s.Idle) : s.record.breaks = 0 := by
  rw [breaks_record, h.fields, h.field]
  rfl

theorem continues_push {phase : Phase} (h : phase ≠ .between) :
    s.Continues byte (s.push byte phase) := by
  refine ⟨h, ?_⟩
  rw [breaks_record, breaks_record, Nat.add_assoc]
  exact congrArg (feeds s.fields.flatten + ·) feeds_append

/-- A byte that only moves the reader on is no line feed. -/
theorem continues_phase {phase : Phase} (h : phase ≠ .between) (hbyte : byte ≠ 0x0A) :
    s.Continues byte { s with phase := phase } :=
  ⟨h, (Nat.add_eq_left.mpr (feeds_eq_zero hbyte)).symm⟩

/-- What a byte does to the current record: it ends the record, or belongs to it. -/
inductive Outcome (s : Scan) (byte : UInt8) : Scan × Option RawRecord → Prop
  | ends {t : Scan} (hend : isLineEnd byte = true) (h : t.Idle) : Outcome s byte (t, some s.record)
  | continues {t : Scan} (h : s.Continues byte t) : Outcome s byte (t, none)

theorem Outcome.of_count {next : Scan × Option RawRecord} (h : (s.count byte).Outcome byte next) :
    s.Outcome byte next := by
  cases h with
  | ends hend h => exact .ends hend h
  | continues h => exact .continues ⟨h.phase, h.breaks⟩

theorem outcome_endOr {other : Scan} (h : isLineEnd byte = false → s.Continues byte other) :
    s.Outcome byte (s.endOr byte other) := by
  unfold endOr
  split
  · next hcomma =>
    refine .continues ⟨Phase.noConfusion, ?_⟩
    rw [beq_iff_eq.mp hcomma, breaks_record, breaks_record, List.flatten_append,
      List.flatten_singleton, feeds_append]
    rfl
  · split
    · next hend => exact .ends hend ⟨rfl, rfl, rfl⟩
    · next hend => exact .continues (h (Bool.eq_false_iff.mpr hend))

theorem ne_feed (h : isLineEnd byte = false) : byte ≠ 0x0A := by
  rintro rfl
  exact nomatch h

theorem outcome_openOr : s.Outcome byte (s.openOr byte) := by
  refine outcome_endOr fun hend => ?_
  split
  · exact continues_phase Phase.noConfusion (ne_feed hend)
  · exact continues_push Phase.noConfusion

/-- **A byte ends the current record or belongs to it.** -/
theorem outcome_step (h : s.phase ≠ .between) (byte : UInt8) : s.Outcome byte (s.step byte) := by
  refine .of_count ?_
  unfold step
  dsimp only
  split
  · next hphase => exact absurd hphase h
  · exact outcome_openOr
  · exact outcome_endOr fun _ => continues_push Phase.noConfusion
  · refine .continues ?_
    split
    · next hquote =>
      exact continues_phase Phase.noConfusion fun hfeed => by
        rw [hfeed] at hquote
        exact nomatch hquote
    · exact continues_push Phase.noConfusion
  · refine outcome_endOr fun _ => ?_
    split <;> exact continues_push Phase.noConfusion

theorem idle_initial (offset : ℕ) : (initial offset).Idle := ⟨rfl, rfl, rfl⟩

theorem Idle.count (h : s.Idle) (byte : UInt8) : (s.count byte).Idle := ⟨h.phase, h.fields, h.field⟩

/-- A byte that is no line end begins a record. -/
theorem Idle.step_of_not_lineEnd (h : s.Idle) (hbyte : isLineEnd byte = false) :
    ∃ t, s.Continues byte t ∧ s.step byte = (t, none) := by
  have hstep : s.step byte = (s.count byte).openOr byte := by
    unfold step
    dsimp only
    rw [(h.count byte).phase]
    exact if_neg (Bool.eq_false_iff.mp hbyte)
  have houtcome : s.Outcome byte (s.step byte) := hstep ▸ .of_count outcome_openOr
  generalize s.step byte = next at houtcome
  cases houtcome with
  | ends hend _ => exact absurd (hbyte.symm.trans hend) Bool.false_ne_true
  | @continues t h => exact ⟨t, h, rfl⟩

/-- A line end between records changes nothing. -/
theorem Idle.step_of_lineEnd (h : s.Idle) (hbyte : isLineEnd byte = true) :
    s.step byte = (s.count byte, none) := by
  unfold step
  dsimp only
  rw [(h.count byte).phase]
  exact if_pos hbyte

end Scan

/-! ## One record -/

theorem recordsFrom_of_none (h : s.step byte = (t, none)) (rest : List UInt8) :
    recordsFrom s (byte :: rest) = recordsFrom t rest := by
  rw [recordsFrom, h]

theorem recordsFrom_of_some {record : RawRecord} (h : s.step byte = (t, some record))
    (rest : List UInt8) : recordsFrom s (byte :: rest) = record :: recordsFrom t rest := by
  rw [recordsFrom, h]

/-- **A record that has been begun ends somewhere**, with a line end or at the very end. By itself
it is read as the same record, and its further line feeds are line breaks in its cells. -/
theorem exists_body (h : s.phase ≠ .between) (bytes : List UInt8) :
    ∃ body ended rest record, ∃ t : Scan, t.Idle ∧ (∀ byte ∈ ended, isLineEnd byte = true) ∧
      bytes = body ++ (ended ++ rest) ∧ recordsFrom s bytes = record :: recordsFrom t rest ∧
      recordsFrom s body = [record] ∧ record.breaks = s.record.breaks + feeds body := by
  have hnil : ∀ {s : Scan}, s.phase ≠ .between → recordsFrom s [] = [s.record] := fun h => by
    rw [recordsFrom, if_neg (by simpa using h)]
  induction bytes generalizing s with
  | nil =>
    exact ⟨[], [], [], s.record, .initial 0, Scan.idle_initial 0, List.forall_mem_nil _, rfl,
      hnil h, hnil h, rfl⟩
  | cons byte bytes ih =>
    have houtcome := Scan.outcome_step h byte
    generalize hstep : s.step byte = next at houtcome
    cases houtcome with
    | @ends t hend ht =>
      exact ⟨[], [byte], bytes, s.record, t, ht, List.forall_mem_singleton.mpr hend, rfl,
        recordsFrom_of_some hstep bytes, hnil h, rfl⟩
    | @continues t ht =>
      obtain ⟨body, ended, rest, record, t', ht', hended, rfl, hrest, hbody, hbreaks⟩ :=
        ih ht.phase
      refine ⟨byte :: body, ended, rest, record, t', ht', hended, rfl, ?_, ?_, ?_⟩
      · rw [recordsFrom_of_none hstep, hrest]
      · rw [recordsFrom_of_none hstep, hbody]
      · rw [hbreaks, ht.breaks, Nat.add_assoc, ← feeds_append]
        rfl

/-! ## Whole tables -/

/-- A part of a table: a record, its bytes, and the line ends before it. -/
structure Stretch where
  gap : List UInt8
  body : List UInt8
  record : RawRecord

namespace Stretch

/-- Whether the bytes of a record begin where the line ends before it are over, and are read as this
record by themselves. -/
structure Sound (stretch : Stretch) : Prop where
  gap : ∀ byte ∈ stretch.gap, isLineEnd byte = true
  begins : ∃ byte rest, stretch.body = byte :: rest ∧ isLineEnd byte = false
  reads : rowsFrom .between [] [] stretch.body = [stretch.record.fields]
  breaks : stretch.record.breaks = feeds stretch.body

/-- All bytes of a part. -/
def all (stretch : Stretch) : List UInt8 := stretch.gap ++ stretch.body

end Stretch

variable {gap mark : List UInt8} {header row : Stretch} {before stretches : List Stretch}

/-- Between records, the rest of a table falls into records. -/
theorem exists_stretches (h : s.Idle) (hgap : ∀ byte ∈ gap, isLineEnd byte = true)
    (bytes : List UInt8) : ∃ (stretches : List Stretch) (tail : List UInt8),
      (∀ stretch ∈ stretches, stretch.Sound) ∧ (∀ byte ∈ tail, isLineEnd byte = true) ∧
      gap ++ bytes = stretches.flatMap Stretch.all ++ tail ∧
      recordsFrom s bytes = stretches.map Stretch.record := by
  induction hlength : bytes.length using Nat.strong_induction_on generalizing s gap bytes with
  | h length ih =>
    cases bytes with
    | nil =>
      refine ⟨[], gap, List.forall_mem_nil _, hgap, List.append_nil gap, ?_⟩
      rw [recordsFrom, if_pos (by rw [h.phase]; rfl)]
      rfl
    | cons byte bytes =>
      rw [List.length_cons] at hlength
      by_cases hbyte : isLineEnd byte = true
      · have hgap' : ∀ b ∈ gap ++ [byte], isLineEnd b = true :=
          List.forall_mem_append.mpr ⟨hgap, List.forall_mem_singleton.mpr hbyte⟩
        obtain ⟨stretches, tail, hsound, htail, hbytes, hrecords⟩ :=
          ih bytes.length (by omega) (h.count byte) hgap' bytes rfl
        refine ⟨stretches, tail, hsound, htail, ?_, ?_⟩
        · rw [← hbytes, List.append_assoc]
          rfl
        · rw [recordsFrom_of_none (h.step_of_lineEnd hbyte), hrecords]
      · rw [Bool.not_eq_true] at hbyte
        obtain ⟨t, ht, hstep⟩ := h.step_of_not_lineEnd hbyte
        obtain ⟨body, ended, rest, record, t', ht', hended, rfl, hrest, hbody, hbreaks⟩ :=
          exists_body ht.phase bytes
        obtain ⟨stretches, tail, hsound, htail, hbytes, hrecords⟩ :=
          ih rest.length (by simp only [List.length_append] at hlength; omega) ht' hended rest rfl
        refine ⟨⟨gap, byte :: body, record⟩ :: stretches, tail, ?_, htail, ?_, ?_⟩
        · refine List.forall_mem_cons.mpr ⟨⟨hgap, ⟨byte, body, rfl, hbyte⟩, ?_, ?_⟩, hsound⟩
          · show rowsFrom .between [] [] (byte :: body) = [record.fields]
            have hread := fields_recordsFrom s (byte :: body)
            rw [recordsFrom_of_none hstep, hbody, h.phase, h.fields, h.field] at hread
            exact hread.symm
          · show record.breaks = feeds (byte :: body)
            rw [hbreaks, ht.breaks, h.breaks, Nat.zero_add, ← feeds_append]
            rfl
        · rw [List.flatMap_cons, List.append_assoc, ← hbytes, Stretch.all, List.append_assoc]
          rfl
        · rw [recordsFrom_of_none hstep, hrest, hrecords]
          rfl

/-- Whether a table falls into records, behind a byte order mark perhaps. -/
structure Falls (bytes mark : List UInt8) (stretches : List Stretch) : Prop where
  isMark : mark = [] ∨ mark = [0xEF, 0xBB, 0xBF]
  sound : ∀ stretch ∈ stretches, stretch.Sound
  bytes_eq : ∃ tail, (∀ byte ∈ tail, isLineEnd byte = true) ∧
    bytes = mark ++ stretches.flatMap Stretch.all ++ tail
  records_eq : records bytes = stretches.map Stretch.record

theorem exists_mark (bytes : List UInt8) : ∃ mark rest start,
    (mark = [] ∨ mark = [0xEF, 0xBB, 0xBF]) ∧ bytes = mark ++ rest ∧
      records bytes = recordsFrom (.initial start) rest := by
  unfold records
  split
  · exact ⟨[0xEF, 0xBB, 0xBF], _, 3, .inr rfl, rfl, rfl⟩
  · exact ⟨[], _, 0, .inl rfl, rfl, rfl⟩

/-- **Every table falls into records.** -/
theorem exists_falls (bytes : List UInt8) : ∃ mark stretches, Falls bytes mark stretches := by
  obtain ⟨mark, rest, start, hmark, rfl, hrecords⟩ := exists_mark bytes
  obtain ⟨stretches, tail, hsound, htail, hrest, hread⟩ :=
    exists_stretches (Scan.idle_initial start) (List.forall_mem_nil _) rest
  refine ⟨mark, stretches, hmark, hsound, ⟨tail, htail, ?_⟩, hrecords.trans hread⟩
  rw [List.append_assoc, ← hrest]
  rfl

/-! ## Lines -/

/-- The line on which a record begins behind others, counted from one. -/
def lineBehind (mark : List UInt8) (before : List Stretch) (row : Stretch) : ℕ :=
  1 + feeds (mark ++ before.flatMap Stretch.all ++ row.gap)

/-- How many empty lines there are before a header and before rows, each of which begins a line. -/
def emptyLines (header : Stretch) (rows : List Stretch) : ℕ :=
  feeds header.gap + (rows.map fun row => feeds row.gap - 1).sum

/-- How many line breaks there are in the cells of records. -/
def cellBreaks (stretches : List Stretch) : ℕ :=
  (stretches.map fun stretch => stretch.record.breaks).sum

/-- Whether the line before each row ends in a line feed. -/
def EndInFeeds (rows : List Stretch) : Prop := ∀ row ∈ rows, 0x0A ∈ row.gap

theorem feeds_flatMap_all (h : ∀ stretch ∈ stretches, stretch.Sound) :
    feeds (stretches.flatMap Stretch.all)
      = (stretches.map fun stretch => feeds stretch.gap).sum + cellBreaks stretches := by
  induction stretches with
  | nil => rfl
  | cons stretch stretches ih =>
    obtain ⟨hstretch, h⟩ := List.forall_mem_cons.mp h
    rw [List.flatMap_cons, feeds_append, ih h, Stretch.all, feeds_append, ← hstretch.breaks]
    simp only [cellBreaks, List.map_cons, List.sum_cons]
    omega

/-- One line feed before each row ends the line before. -/
theorem sum_gaps (h : EndInFeeds stretches) :
    (stretches.map fun row => feeds row.gap).sum
      = stretches.length + (stretches.map fun row => feeds row.gap - 1).sum := by
  induction stretches with
  | nil => rfl
  | cons row stretches ih =>
    obtain ⟨hrow, h⟩ := List.forall_mem_cons.mp h
    have hpos : 0 < feeds row.gap := List.count_pos_iff.mpr hrow
    simp only [List.map_cons, List.sum_cons, List.length_cons, ih h]
    omega

/-- **The line on which a row begins** is its number, with the header as number one, and what there
are of empty lines and of line breaks in cells before it. -/
theorem Falls.lineBehind_eq {after : List Stretch}
    (h : Falls bytes mark (header :: (before ++ row :: after)))
    (hfeeds : EndInFeeds (before ++ [row])) :
    lineBehind mark (header :: before) row
      = before.length + 2
        + (emptyLines header (before ++ [row]) + cellBreaks (header :: before)) := by
  have hmark : feeds mark = 0 := by
    rcases h.isMark with rfl | rfl <;> rfl
  have hsound : ∀ stretch ∈ header :: before, stretch.Sound := fun stretch hmem =>
    h.sound stretch (List.cons_append ▸ List.mem_append_left _ hmem)
  have hgaps : ((header :: before).map fun stretch => feeds stretch.gap).sum + feeds row.gap
      = feeds header.gap + ((before ++ [row]).map fun stretch => feeds stretch.gap).sum := by
    rw [List.map_cons, List.sum_cons, List.map_append, List.sum_append, List.map_singleton,
      List.sum_singleton, Nat.add_assoc]
  rw [sum_gaps hfeeds, List.length_append, List.length_singleton] at hgaps
  rw [lineBehind, feeds_append, feeds_append, hmark, feeds_flatMap_all hsound, emptyLines]
  omega

end Phototaxis.Table
