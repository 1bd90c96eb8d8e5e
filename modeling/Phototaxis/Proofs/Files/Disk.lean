import Mathlib.Data.List.Basic
import Mathlib.Tactic.Common
import Phototaxis.Files.Disk
import Phototaxis.Proofs.Fault

/-!
# What is written is read

A file that was written is read with its bytes (`Disk.reader_of_write`), and it is still
read so when another file was written after it, under another name
(`Disk.reader_of_write_elsewhere`).

A path is followed from directory to directory. What is put on the disk in writing takes the
place of no directory, so no path is led astray: only what lies at its very end can have
changed (`Disk.follow_put`).
-/

namespace Phototaxis

/-! ## Names at the end of a path -/

namespace Path

/-- Whether a text is the name of an entry, as it may stand in a path. -/
structure IsName (name : String) : Prop where
  slash : '/' ∉ name.toList
  ne_empty : name ≠ ""
  ne_dot : name ≠ "."
  ne_dots : name ≠ ".."

theorem piecesFrom_of_notMem {current chars : List Char} (h : '/' ∉ chars) :
    piecesFrom current chars = [current ++ chars] := by
  induction chars generalizing current with
  | nil => rw [piecesFrom, List.append_nil]
  | cons c chars ih =>
    rw [List.mem_cons, not_or] at h
    rw [piecesFrom, ih h.2, List.append_assoc]
    · rfl
    · exact fun hc => h.1 hc.symm

theorem piecesFrom_slash (current chars rest : List Char) : ∃ before,
    piecesFrom current (chars ++ '/' :: rest) = before ++ piecesFrom [] rest := by
  induction chars generalizing current with
  | nil => exact ⟨[current], rfl⟩
  | cons c chars ih =>
    by_cases hc : c = '/'
    · obtain ⟨before, hbefore⟩ := ih []
      refine ⟨current :: before, ?_⟩
      rw [hc, List.cons_append, piecesFrom, hbefore]
      rfl
    · obtain ⟨before, hbefore⟩ := ih (current ++ [c])
      refine ⟨before, ?_⟩
      rw [List.cons_append, piecesFrom, hbefore]
      exact hc

theorem pieces_of_slash {path name : String} (chars : List Char) (h : '/' ∉ name.toList)
    (hpath : path.toList = chars ++ '/' :: name.toList) :
    ∃ before, pieces path = before ++ [name] := by
  obtain ⟨before, hbefore⟩ := piecesFrom_slash [] chars name.toList
  refine ⟨before.map String.ofList, ?_⟩
  rw [pieces, hpath, hbefore, piecesFrom_of_notMem h, List.map_append, List.nil_append,
    List.map_singleton, String.ofList_toList]

/-- **A name that is joined to a directory is the last piece of the path.** -/
theorem pieces_join (directory : String) {name : String} (h : IsName name) :
    ∃ before, pieces (join directory name) = before ++ [name] := by
  unfold join
  split
  · refine ⟨[], ?_⟩
    rw [pieces, piecesFrom_of_notMem h.slash, List.nil_append, List.map_singleton,
      String.ofList_toList]
    rfl
  · split
    · next hlast =>
      obtain ⟨chars, hchars⟩ := List.getLast?_eq_some_iff.mp (beq_iff_eq.mp hlast)
      refine pieces_of_slash chars h.slash ?_
      rw [String.toList_append, hchars, List.append_assoc]
      rfl
    · refine pieces_of_slash directory.toList h.slash ?_
      rw [String.toList_append, String.toList_append, List.append_assoc]
      rfl

end Path

namespace Files.Disk

variable {disk disk' : Disk} {names start found : List String} {pieces : List String}
variable {entry : Option Entry} {file : Entry} {piece path : String} {bytes : List UInt8}

/-! ## Entries -/

theorem entry?_put_self (h : names ≠ []) : entry? (disk.put names file) names = some file := by
  unfold entry? put
  simp [h]

theorem entry?_put_of_ne (h : found ≠ names) :
    entry? (disk.put names file) found = disk.entry? found := by
  have hkept : ∀ e : List String × Entry,
      decide ((e.1 != names) = true ∧ (e.1 == found) = true) = (e.1 == found) := by
    intro e
    by_cases he : e.1 = found
    · simp [he, h]
    · simp [he]
  unfold entry? put
  simp only [List.find?_cons, beq_eq_false_iff_ne.mpr h.symm, List.find?_filter, hkept]

/-! ## Paths -/

/-- Where a piece of a path leads to from a directory. -/
def enter (names : List String) (piece : String) : List String :=
  if piece == "" || piece == "." then names
  else if piece == ".." then names.dropLast
  else names ++ [piece]

/-- A path goes on only in a directory. -/
theorem follow_cons_eq_ok_iff {result : List String × Option Entry} :
    disk.follow start (piece :: pieces) = .ok result ↔
      disk.entry? start = some .directory ∧
        disk.follow (enter start piece) pieces = .ok result := by
  have henter : (if piece == "" || piece == "." then disk.follow start pieces
      else if piece == ".." then disk.follow start.dropLast pieces
      else disk.follow (start ++ [piece]) pieces) = disk.follow (enter start piece) pieces := by
    unfold enter
    split_ifs <;> rfl
  rw [follow]
  match disk.entry? start with
  | none => exact iff_of_false nofun nofun
  | some (.file _) => exact iff_of_false nofun nofun
  | some .directory =>
    dsimp only
    rw [henter]
    exact (and_iff_right rfl).symm

/-- What is given back with the names that a path leads to is what lies there. -/
theorem eq_entry?_of_follow (h : disk.follow start pieces = .ok (found, entry)) :
    entry = disk.entry? found := by
  induction pieces generalizing start with
  | nil =>
    cases h
    rfl
  | cons piece pieces ih => exact ih (follow_cons_eq_ok_iff.mp h).2

/-- **A path leads to the same place** when something is put where no directory lies. -/
theorem follow_put (hnames : disk.entry? names ≠ some .directory)
    (h : disk.follow start pieces = .ok (found, entry)) :
    (disk.put names file).follow start pieces
      = .ok (found, entry? (disk.put names file) found) := by
  induction pieces generalizing start with
  | nil =>
    cases h
    rfl
  | cons piece pieces ih =>
    obtain ⟨hstart, h⟩ := follow_cons_eq_ok_iff.mp h
    have hne : start ≠ names := by
      rintro rfl
      exact hnames hstart
    exact follow_cons_eq_ok_iff.mpr ⟨(entry?_put_of_ne hne).trans hstart, ih h⟩

/-- A path whose last piece is a name leads to a place with that name. -/
theorem getLast?_of_follow {name : String} (hname : Path.IsName name)
    (h : disk.follow start (pieces ++ [name]) = .ok (found, entry)) :
    found.getLast? = some name := by
  induction pieces generalizing start with
  | nil =>
    obtain ⟨-, h⟩ := follow_cons_eq_ok_iff.mp h
    have henter : enter start name = start ++ [name] := by
      simp [enter, hname.ne_empty, hname.ne_dot, hname.ne_dots]
    cases h
    rw [henter, List.getLast?_concat]
  | cons piece pieces ih => exact ih (follow_cons_eq_ok_iff.mp h).2

theorem locate_eq_ok_iff {result : List String × Option Entry} :
    disk.locate path = .ok result ↔ path.isEmpty = false ∧
      disk.follow (if Path.isAbsolute path then [] else disk.home) (Path.pieces path)
        = .ok result := by
  unfold locate
  cases path.isEmpty
  · exact (and_iff_right rfl).symm
  · exact iff_of_false nofun fun h => nomatch h.1

theorem locate_put (hnames : disk.entry? names ≠ some .directory)
    (h : disk.locate path = .ok (found, entry)) :
    (disk.put names file).locate path = .ok (found, entry? (disk.put names file) found) := by
  obtain ⟨hpath, h⟩ := locate_eq_ok_iff.mp h
  exact locate_eq_ok_iff.mpr ⟨hpath, follow_put hnames h⟩

theorem getLast?_of_locate {directory name : String} (hname : Path.IsName name)
    (h : disk.locate (Path.join directory name) = .ok (found, entry)) :
    found.getLast? = some name := by
  obtain ⟨before, hpieces⟩ := Path.pieces_join directory hname
  obtain ⟨-, h⟩ := locate_eq_ok_iff.mp h
  rw [hpieces] at h
  exact getLast?_of_follow hname h

/-! ## Reading and writing -/

theorem reader_eq_ok_iff :
    disk.reader path = .ok file ↔ ∃ names, disk.locate path = .ok (names, some file) := by
  rw [reader, bind_eq_ok_iff]
  constructor
  · rintro ⟨⟨names, entry⟩, hlocate, h⟩
    cases entry with
    | none => exact nomatch h
    | some entry =>
      cases h
      exact ⟨names, hlocate⟩
  · rintro ⟨names, hlocate⟩
    exact ⟨_, hlocate, rfl⟩

/-- What it takes to write a file: the path leads somewhere, and not to a directory. -/
theorem write_eq_ok_iff : disk.write path bytes = .ok disk' ↔ ∃ names,
    disk.locate path = .ok (names, disk.entry? names) ∧ disk.entry? names ≠ some .directory ∧
      disk' = disk.put names (.file bytes) := by
  rw [write, bind_eq_ok_iff]
  constructor
  · rintro ⟨⟨names, entry⟩, hlocate, h⟩
    obtain rfl := eq_entry?_of_follow (locate_eq_ok_iff.mp hlocate).2
    dsimp only at h
    split at h
    · exact nomatch h
    · next hentry =>
      exact ⟨names, hlocate, hentry, (Except.ok.inj h).symm⟩
  · rintro ⟨names, hlocate, hentry, rfl⟩
    refine ⟨_, hlocate, ?_⟩
    dsimp only
    split
    · next h => exact absurd h hentry
    · rfl

/-- **A file is read as it was written.** -/
theorem reader_of_write (h : disk.write path bytes = .ok disk') :
    disk'.reader path = .ok (.file bytes) := by
  obtain ⟨names, hlocate, hentry, rfl⟩ := write_eq_ok_iff.mp h
  have hne : names ≠ [] := by
    rintro rfl
    exact hentry rfl
  refine reader_eq_ok_iff.mpr ⟨names, ?_⟩
  rw [locate_put hentry hlocate, entry?_put_self hne]

/-- **Writing a file leaves the files with other names alone.** -/
theorem reader_of_write_elsewhere {directory directory' name name' : String}
    (hname : Path.IsName name) (hname' : Path.IsName name') (hne : name ≠ name')
    (hread : disk.reader (Path.join directory name) = .ok file)
    (h : disk.write (Path.join directory' name') bytes = .ok disk') :
    disk'.reader (Path.join directory name) = .ok file := by
  obtain ⟨found, hlocate⟩ := reader_eq_ok_iff.mp hread
  obtain ⟨names, hlocate', hentry, rfl⟩ := write_eq_ok_iff.mp h
  have hnames : found ≠ names := by
    rintro rfl
    have hlast := (getLast?_of_locate hname hlocate).symm.trans (getLast?_of_locate hname' hlocate')
    exact hne (Option.some.inj hlast)
  refine reader_eq_ok_iff.mpr ⟨found, ?_⟩
  rw [locate_put hentry hlocate, entry?_put_of_ne hnames,
    ← eq_entry?_of_follow (locate_eq_ok_iff.mp hlocate).2]

end Files.Disk

end Phototaxis
