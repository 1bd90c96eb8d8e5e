import Mathlib.Data.List.Forall2
import Mathlib.Tactic.Common
import Phototaxis.Fault

/-!
# Operations that can fail

Most operations are rows of others, any of which may fail and thereby end the row. So a
row succeeds if all its parts do, in order (`bind_eq_ok_iff`), and it fails with the first
part that fails (`bind_eq_error_iff`). What is made of the result does not matter for that
(`map_eq_ok_iff`, `map_eq_error_iff`). What every part keeps, a row of any length keeps
(`keeps_of_foldlM`).

Often the parts do not depend on each other, as with the records of a file. Then what
the row fails with is the first of what they fail with, each taken by itself
(`error?_bind`, `error?_mapM`), and a list of them succeeds item by item
(`mapM_eq_ok_iff`).
-/

namespace Phototaxis

variable {ε α β : Type} {x : Except ε α} {f : α → Except ε β} {b : β} {e : ε}

/-- **A row succeeds if its parts do.** -/
theorem bind_eq_ok_iff : x >>= f = .ok b ↔ ∃ a, x = .ok a ∧ f a = .ok b := by
  cases x with
  | error e =>
    constructor
    · exact nofun
    · rintro ⟨a, h, -⟩
      cases h
  | ok a =>
    constructor
    · intro h
      exact ⟨a, rfl, h⟩
    · rintro ⟨_, h, hf⟩
      cases h
      exact hf

/-- **A row fails with its first part that does.** -/
theorem bind_eq_error_iff :
    x >>= f = .error e ↔ x = .error e ∨ ∃ a, x = .ok a ∧ f a = .error e := by
  cases x with
  | error e' =>
    constructor
    · intro h
      cases h
      exact .inl rfl
    · rintro (h | ⟨_, h, -⟩) <;> cases h
      rfl
  | ok a =>
    constructor
    · intro h
      exact .inr ⟨a, rfl, h⟩
    · rintro (h | ⟨_, h, hf⟩) <;> cases h
      exact hf

theorem map_eq_ok_iff {g : α → β} : x.map g = .ok b ↔ ∃ a, x = .ok a ∧ g a = b := by
  cases x with
  | error e =>
    constructor
    · exact nofun
    · rintro ⟨a, h, -⟩
      cases h
  | ok a =>
    constructor
    · intro h
      exact ⟨a, rfl, Except.ok.inj h⟩
    · rintro ⟨_, h, rfl⟩
      cases h
      rfl

theorem map_eq_error_iff {g : α → β} : x.map g = .error e ↔ x = .error e := by
  cases x with
  | error e' => exact ⟨fun h => congrArg _ (Except.error.inj h),
      fun h => congrArg _ (Except.error.inj h)⟩
  | ok a => exact ⟨nofun, nofun⟩

/-- What a step keeps, any number of steps keep. -/
theorem keeps_of_foldlM {step : β → α → Except ε β} {P : β → Prop}
    (hstep : ∀ b a b', P b → step b a = .ok b' → P b') {l : List α} {b' : β}
    (h : l.foldlM step b = .ok b') (hb : P b) : P b' := by
  induction l generalizing b with
  | nil =>
    cases h
    exact hb
  | cons a l ih =>
    rw [List.foldlM_cons] at h
    obtain ⟨next, hnext, hrest⟩ := bind_eq_ok_iff.mp h
    exact ih hrest (hstep b a next hb hnext)

/-! ## Parts that do not depend on each other -/

/-- What an operation fails with, if it does. -/
def error? : Except ε α → Option ε
  | .ok _ => none
  | .error e => some e

theorem error?_eq_none_iff : error? x = none ↔ ∃ a, x = .ok a := by
  cases x with
  | error e =>
    constructor
    · exact nofun
    · rintro ⟨_, h⟩
      cases h
  | ok a => exact iff_of_true rfl ⟨a, rfl⟩

theorem error?_eq_some_iff : error? x = some e ↔ x = .error e := by
  cases x with
  | error e' => exact ⟨fun h => congrArg _ (Option.some.inj h),
      fun h => congrArg _ (Except.error.inj h)⟩
  | ok a => exact ⟨nofun, nofun⟩

/-- If what comes second does not depend on the first, each fails by itself. -/
theorem error?_bind {o : Option ε} (h : ∀ a, error? (f a) = o) :
    error? (x >>= f) = (error? x).or o := by
  cases x with
  | error e => rfl
  | ok a => exact h a

/-- **A list of operations fails with the first of them that does.** -/
theorem error?_mapM (f : α → Except ε β) (l : List α) :
    error? (l.mapM f) = l.findSome? fun a => error? (f a) := by
  induction l with
  | nil => rfl
  | cons a l ih =>
    rw [List.mapM_cons, List.findSome?_cons, error?_bind (o := error? (l.mapM f)), ih]
    · cases f a <;> rfl
    · intro b
      cases l.mapM f <;> rfl

/-- **A list of operations succeeds item by item.** -/
theorem mapM_eq_ok_iff {l : List α} {bs : List β} :
    l.mapM f = .ok bs ↔ List.Forall₂ (fun a b => f a = .ok b) l bs := by
  induction l generalizing bs with
  | nil =>
    rw [List.mapM_nil, List.forall₂_nil_left_iff]
    exact ⟨fun h => (Except.ok.inj h).symm, fun h => congrArg _ h.symm⟩
  | cons a l ih =>
    rw [List.mapM_cons, List.forall₂_cons_left_iff, bind_eq_ok_iff]
    refine exists_congr fun b => ?_
    rw [bind_eq_ok_iff]
    constructor
    · rintro ⟨hb, rest, hrest, h⟩
      exact ⟨rest, hb, ih.mp hrest, (Except.ok.inj h).symm⟩
    · rintro ⟨rest, hb, hrest, rfl⟩
      exact ⟨hb, rest, ih.mpr hrest, rfl⟩

/-- What holds of every result of an operation holds of all results of a list of them. -/
theorem forall_of_mapM {P : β → Prop} (hf : ∀ {a b}, f a = .ok b → P b) {l : List α} {bs : List β}
    (h : l.mapM f = .ok bs) : ∀ b ∈ bs, P b := by
  replace h := mapM_eq_ok_iff.mp h
  induction h with
  | nil => exact List.forall_mem_nil _
  | cons hab _ ih => exact List.forall_mem_cons.mpr ⟨hf hab, ih⟩

/-- Where every operation of a list succeeds, the list does. -/
theorem exists_mapM_eq_ok {P : β → Prop} {l : List α} (h : ∀ a ∈ l, ∃ b, f a = .ok b ∧ P b) :
    ∃ bs, l.mapM f = .ok bs ∧ ∀ b ∈ bs, P b := by
  induction l with
  | nil => exact ⟨[], rfl, List.forall_mem_nil _⟩
  | cons a l ih =>
    obtain ⟨⟨b, hb, hP⟩, hrest⟩ := List.forall_mem_cons.mp h
    obtain ⟨bs, hbs, hPs⟩ := ih hrest
    refine ⟨b :: bs, mapM_eq_ok_iff.mpr (.cons hb (mapM_eq_ok_iff.mp hbs)), ?_⟩
    exact List.forall_mem_cons.mpr ⟨hP, hPs⟩

theorem mapM_append_eq_ok_iff {l₁ l₂ : List α} {bs : List β} :
    (l₁ ++ l₂).mapM f = .ok bs ↔
      ∃ bs₁ bs₂, l₁.mapM f = .ok bs₁ ∧ l₂.mapM f = .ok bs₂ ∧ bs = bs₁ ++ bs₂ := by
  rw [List.mapM_append, bind_eq_ok_iff]
  constructor
  · rintro ⟨bs₁, h₁, h⟩
    obtain ⟨bs₂, h₂, h⟩ := bind_eq_ok_iff.mp h
    exact ⟨bs₁, bs₂, h₁, h₂, (Except.ok.inj h).symm⟩
  · rintro ⟨bs₁, bs₂, h₁, h₂, rfl⟩
    exact ⟨bs₁, h₁, bind_eq_ok_iff.mpr ⟨bs₂, h₂, rfl⟩⟩

end Phototaxis
