import Mathlib
import Phototaxis.Proofs.Number.Grammar
import Phototaxis.Proofs.Scenario.Rows
import Phototaxis.Proofs.Text.Words

/-!
# The grammar of records

A record falls into words, and each word has a field to fill. A number is a finite literal, a
speed is besides not below zero, and a behavior is one of three names.

Many things can be wrong with a record at once. The rules stand in a fixed order, the number of
the words first and then those of each field from left to right, and the fault is that of the
first rule that is broken (`Record.First`). If none is, the record is accepted with what its
words say. `Record.Follows` says both of a reader, and readers that follow rules can be put in
a row (`Record.Follows.bind`).

Lights and vehicles are read like this from every record, and blanks do no more than to tell its
words apart (`Record.reads_grammar`).
-/

namespace Phototaxis

namespace Record

/-! ## Rules -/

/-- A rule that a record may break, by the faults that it finds. -/
abbrev Rule : Type := RecordFault ⊕ UnknownBehavior → Prop

variable {rules rules' : List Rule} {rule : Rule} {fault : RecordFault ⊕ UnknownBehavior}
variable {α β : Type} {label text : String} {result : Except ScenarioError α}
variable {f : α → Except ScenarioError β} {accepts accepts' : α → Prop} {accepts₂ : α → β → Prop}

/-- Whether a fault is that of the first of some rules that is broken. -/
inductive First : List Rule → RecordFault ⊕ UnknownBehavior → Prop
  | here {rule : Rule} {rules : List Rule} {fault} (h : rule fault) : First (rule :: rules) fault
  | later {rule : Rule} {rules : List Rule} {fault} (hkept : ∀ other, ¬ rule other)
      (h : First rules fault) : First (rule :: rules) fault

theorem first_cons_iff : First (rule :: rules) fault ↔
    rule fault ∨ (∀ other, ¬ rule other) ∧ First rules fault := by
  constructor
  · rintro (h | ⟨hkept, h⟩)
    · exact .inl h
    · exact .inr ⟨hkept, h⟩
  · rintro (h | ⟨hkept, h⟩)
    · exact .here h
    · exact .later hkept h

theorem not_first_nil : ¬ First [] fault := nofun

/-- The first of more rules is among the former if one of these is broken. -/
theorem first_append_iff : First (rules ++ rules') fault ↔
    First rules fault ∨ (∀ other, ¬ First rules other) ∧ First rules' fault := by
  induction rules with
  | nil =>
    rw [List.nil_append, or_iff_right not_first_nil, and_iff_right fun _ => not_first_nil]
  | cons rule rules ih =>
    constructor
    · rintro (h | ⟨hkept, h⟩)
      · exact .inl (.here h)
      · refine (ih.mp h).imp (.later hkept) fun ⟨hnone, h⟩ => ⟨fun other hother => ?_, h⟩
        rcases first_cons_iff.mp hother with hother | ⟨-, hother⟩
        · exact hkept other hother
        · exact hnone other hother
    · rintro (h | ⟨hnone, h⟩)
      · rcases first_cons_iff.mp h with h | ⟨hkept, h⟩
        · exact .here h
        · exact .later hkept (ih.mpr (.inl h))
      · have hkept : ∀ other, ¬ rule other := fun other hother => hnone other (.here hother)
        refine .later hkept (ih.mpr (.inr ⟨fun other hother => ?_, h⟩))
        exact hnone other (.later hkept hother)

/-- Whether what is read under a name follows some rules: it is accepted as what it may be accepted
as, and refused with the fault of the first rule that is broken. -/
structure Follows (label : String) (result : Except ScenarioError α) (accepts : α → Prop)
    (rules : List Rule) : Prop where
  ok_iff : ∀ a, result = .ok a ↔ accepts a
  error_iff : ∀ e, result = .error e ↔ ∃ fault, First rules fault ∧ e = named label fault

namespace Follows

theorem congr (h : Follows label result accepts rules) (haccepts : ∀ a, accepts a ↔ accepts' a) :
    Follows label result accepts' rules :=
  ⟨fun a => (h.ok_iff a).trans (haccepts a), h.error_iff⟩

/-- Without rules there is nothing to refuse. -/
theorem accepted {a : α} (haccepts : ∀ b, accepts b ↔ b = a) :
    Follows label (.ok a) accepts [] := by
  refine ⟨fun b => ?_, fun e => iff_of_false nofun fun ⟨_, h, _⟩ => not_first_nil h⟩
  rw [haccepts]
  exact ⟨fun h => (Except.ok.inj h).symm, fun h => congrArg _ h.symm⟩

/-- What breaks the first rule is refused. -/
theorem refused (haccepts : ∀ a, ¬ accepts a) (hrule : ∀ other, rule other ↔ other = fault) :
    Follows label (.error (named label fault)) accepts (rule :: rules) := by
  have hfirst : ∀ other, First (rule :: rules) other ↔ other = fault := fun other => by
    rw [first_cons_iff, hrule, or_iff_left fun h => h.1 fault ((hrule fault).mpr rfl)]
  refine ⟨fun a => iff_of_false nofun (haccepts a), fun e => ?_⟩
  simp only [hfirst, exists_eq_left]
  exact ⟨fun h => (Except.error.inj h).symm, fun h => congrArg _ h.symm⟩

/-- A rule that is kept does not matter. -/
theorem cons (h : Follows label result accepts rules) (hkept : ∀ fault, ¬ rule fault) :
    Follows label result accepts (rule :: rules) := by
  refine ⟨h.ok_iff, fun e => (h.error_iff e).trans ?_⟩
  simp only [first_cons_iff, or_iff_right (hkept _), and_iff_right hkept]

/-- What is accepted breaks no rule, and only that. -/
theorem exists_iff (h : Follows label result accepts rules) :
    (∃ a, result = .ok a) ↔ ∀ fault, ¬ First rules fault := by
  cases result with
  | ok a =>
    refine iff_of_true ⟨a, rfl⟩ fun fault hfault => ?_
    exact nomatch (h.error_iff _).mpr ⟨fault, hfault, rfl⟩
  | error e =>
    refine iff_of_false nofun fun hnone => ?_
    obtain ⟨fault, hfault, -⟩ := (h.error_iff e).mp rfl
    exact hnone fault hfault

/-- **Readers in a row follow their rules in a row.** -/
theorem bind (h : Follows label result accepts rules)
    (hf : ∀ a, accepts a → Follows label (f a) (accepts₂ a) rules') :
    Follows label (result >>= f) (fun b => ∃ a, accepts a ∧ accepts₂ a b) (rules ++ rules') := by
  constructor
  · intro b
    rw [bind_eq_ok_iff]
    refine exists_congr fun a => ?_
    rw [h.ok_iff]
    exact and_congr_right fun ha => (hf a ha).ok_iff b
  · intro e
    rw [bind_eq_error_iff, h.error_iff]
    constructor
    · rintro (⟨fault, hfault, he⟩ | ⟨a, ha, he⟩)
      · exact ⟨fault, first_append_iff.mpr (.inl hfault), he⟩
      · obtain ⟨fault, hfault, he⟩ := ((hf a ((h.ok_iff a).mp ha)).error_iff e).mp he
        exact ⟨fault, first_append_iff.mpr (.inr ⟨h.exists_iff.mp ⟨a, ha⟩, hfault⟩), he⟩
    · rintro ⟨fault, hfault, he⟩
      rcases first_append_iff.mp hfault with hfault | ⟨hkept, hfault⟩
      · exact .inl ⟨fault, hfault, he⟩
      · obtain ⟨a, ha⟩ := h.exists_iff.mpr hkept
        exact .inr ⟨a, ha, ((hf a ((h.ok_iff a).mp ha)).error_iff e).mpr ⟨fault, hfault, he⟩⟩

end Follows

/-! ## Fields -/

/-- The kinds of fields. -/
inductive Field where
  | number (name : String)
  | speed
  | behavior

/-- What is no literal is no number. -/
def notNumber (name text : String) : Rule := fun fault =>
  (∀ x, ¬ Number.Reads text x) ∧ fault = .inl (.notNumber name text)

/-- A number is finite. -/
def notFinite (name text : String) : Rule := fun fault =>
  (∃ x, Number.Reads text x ∧ x.isFinite = false) ∧ fault = .inl (.notFinite name text)

/-- A speed is not below zero. -/
def negativeSpeed (text : String) : Rule := fun fault =>
  ∃ x, Number.Reads text x ∧ x < 0.0 ∧ fault = .inl (.negativeSpeed x)

/-- A behavior has one of the names. -/
def unknownBehavior (text : String) : Rule := fun fault =>
  (∀ b : Behavior, b.name ≠ text) ∧ fault = .inr ⟨text⟩

/-- There is one word for each field. -/
def fieldCount (fields : List Field) (words : List String) : Rule := fun fault =>
  words.length ≠ fields.length ∧ fault = .inl (.fieldCount fields.length words.length)

/-- The rules for the word in a field. -/
def Field.wordRules : Field → String → List Rule
  | number name, text => [notNumber name text, notFinite name text]
  | speed, text => [notNumber "speed" text, notFinite "speed" text, negativeSpeed text]
  | behavior, text => [unknownBehavior text]

/-- The rules for the words of a record: their number, and from left to right what holds of the
fields. -/
def recordRules (fields : List Field) (words : List String) : List Rule :=
  fieldCount fields words :: (List.zipWith Field.wordRules fields words).flatten

/-- Whether a text is a literal that says a finite float. -/
structure ReadsFinite (text : String) (x : Float) : Prop where
  reads : Number.Reads text x
  isFinite : x.isFinite = true

theorem ReadsFinite.not_notFinite {x : Float} (h : ReadsFinite text x) (name : String) :
    ∀ fault, ¬ notFinite name text fault := by
  rintro fault ⟨⟨y, hy, hover⟩, -⟩
  rw [hy.unique h.reads, h.isFinite] at hover
  exact nomatch hover

/-- **A number is a finite literal.** -/
theorem follows_number (label name text : String) :
    Follows label (number label name text) (ReadsFinite text)
      ((Field.number name).wordRules text) := by
  unfold number
  cases htext : Number.ofText? text with
  | none =>
    have hnone : ∀ x, ¬ Number.Reads text x := fun x hx => by
      rw [← Number.ofText?_eq_some_iff, htext] at hx
      exact nomatch hx
    show Follows label (.error (named label (.inl (.notNumber name text)))) _ _
    exact .refused (fun x hx => hnone x hx.reads) fun other => and_iff_right hnone
  | some x =>
    have hx : Number.Reads text x := Number.ofText?_eq_some_iff.mp htext
    dsimp only
    refine .cons ?_ fun fault h => h.1 x hx
    split
    · next hfinite =>
      have hreads : ReadsFinite text x := ⟨hx, hfinite⟩
      refine .cons (.accepted fun y => ?_) (hreads.not_notFinite name)
      exact ⟨fun hy => hy.reads.unique hx, fun hy => hy ▸ hreads⟩
    · next hover =>
      rw [Bool.not_eq_true] at hover
      show Follows label (.error (named label (.inl (.notFinite name text)))) _ _
      refine .refused (fun y hy => ?_) fun other => and_iff_right ⟨x, hx, hover⟩
      exact hy.not_notFinite name _ ⟨⟨x, hx, hover⟩, rfl⟩

/-- **A speed is a finite literal, and not below zero.** The minus sign of a zero does no harm. -/
theorem follows_speed (label text : String) :
    Follows label (speed label text) (fun x => ReadsFinite text x ∧ ¬ x < 0.0)
      (Field.speed.wordRules text) := by
  have hrow : Follows label (speed label text)
      (fun y => ∃ x, ReadsFinite text x ∧ ¬ x < 0.0 ∧ y = x)
      ((Field.number "speed").wordRules text ++ [negativeSpeed text]) := by
    refine (follows_number label "speed" text).bind fun x hx => ?_
    by_cases hbelow : x < 0.0
    · simp only [if_pos hbelow]
      show Follows label (.error (named label (.inl (.negativeSpeed x)))) _ _
      refine .refused (fun y hy => hy.1 hbelow) fun other => ?_
      constructor
      · rintro ⟨y, hy, -, rfl⟩
        rw [hy.unique hx.reads]
      · rintro rfl
        exact ⟨x, hx.reads, hbelow, rfl⟩
    · simp only [if_neg hbelow]
      refine .cons (.accepted fun y => and_iff_right hbelow) ?_
      rintro fault ⟨y, hy, hy', -⟩
      exact hbelow (hy.unique hx.reads ▸ hy')
  refine hrow.congr fun y => ?_
  constructor
  · rintro ⟨x, hx, hnonneg, rfl⟩
    exact ⟨hx, hnonneg⟩
  · rintro ⟨hy, hnonneg⟩
    exact ⟨y, hy, hnonneg, rfl⟩

theorem behavior_name (b : Behavior) : behavior b.name = .ok b := by
  cases b <;> rfl

/-- **A behavior is one of the names.** -/
theorem follows_behavior (label text : String) :
    Follows label (behavior text) (fun b => b.name = text) (Field.behavior.wordRules text) := by
  have hname : ∀ {b c : Behavior}, b.name = c.name ↔ b = c := by
    intro b c
    refine ⟨fun h => ?_, congrArg _⟩
    cases b <;> cases c <;> first | rfl | exact absurd h (by decide)
  by_cases h : ∃ b : Behavior, b.name = text
  · obtain ⟨b, rfl⟩ := h
    rw [behavior_name]
    exact .cons (.accepted fun c => hname) fun fault hfault => hfault.1 b rfl
  · have hnone : ∀ b : Behavior, b.name ≠ text := not_exists.mp h
    have hunknown : Behavior.ofName text = .error ⟨text⟩ := by
      have hfollower : text ≠ "follower" := (hnone .follower).symm
      have hclockwise : text ≠ "master_cw" := (hnone .leaderClockwise).symm
      have hcounter : text ≠ "master_ccw" := (hnone .leaderCounterClockwise).symm
      rw [Behavior.ofName, if_neg hfollower, if_neg hclockwise, if_neg hcounter]
    rw [behavior, hunknown]
    show Follows label (.error (named label (.inr ⟨text⟩))) _ _
    exact .refused hnone fun other => and_iff_right hnone

/-! ## Records -/

/-- The fields of a light. -/
def lightFields : List Field := [.number "x", .number "y", .number "intensity"]

/-- The fields of a vehicle. -/
def vehicleFields : List Field :=
  [.number "x", .number "y", .number "heading", .speed, .behavior]

/-- Whether words say a light. -/
def SayLight (words : List String) (light : Light) : Prop :=
  ∃ x y intensity, words = [x, y, intensity] ∧ ReadsFinite x light.position.x ∧
    ReadsFinite y light.position.y ∧ ReadsFinite intensity light.intensity

/-- Whether words say a vehicle. -/
def SayVehicle (words : List String) (vehicle : Vehicle) : Prop :=
  ∃ x y heading speed behavior, words = [x, y, heading, speed, behavior] ∧
    ReadsFinite x vehicle.position.x ∧ ReadsFinite y vehicle.position.y ∧
    ReadsFinite heading vehicle.heading ∧ ReadsFinite speed vehicle.speed ∧
    ¬ vehicle.speed < 0.0 ∧ vehicle.behavior.name = behavior

/-- The rules of the words, once there are enough of them. -/
theorem Follows.of_length {fields : List Field} {words : List String}
    (h : Follows label result accepts (List.zipWith Field.wordRules fields words).flatten)
    (hlength : words.length = fields.length) :
    Follows label result accepts (recordRules fields words) :=
  h.cons fun _ hcount => hcount.1 hlength

theorem Follows.of_length_ne {fields : List Field} {words : List String}
    (hlength : words.length ≠ fields.length) (haccepts : ∀ a, ¬ accepts a) :
    Follows label (.error (.record label (.fieldCount fields.length words.length))) accepts
      (recordRules fields words) := by
  show Follows label (.error (named label (.inl _))) _ _
  exact .refused haccepts fun other => and_iff_right hlength

theorem SayLight.length_eq {words : List String} {light : Light} (h : SayLight words light) :
    words.length = lightFields.length := by
  obtain ⟨x, y, intensity, rfl, -⟩ := h
  rfl

theorem SayVehicle.length_eq {words : List String} {vehicle : Vehicle}
    (h : SayVehicle words vehicle) : words.length = vehicleFields.length := by
  obtain ⟨x, y, heading, speed, behavior, rfl, -⟩ := h
  rfl

/-- **A light is read field by field.** -/
theorem follows_light (label x y intensity : String) :
    Follows label (Light.ofFields label x y intensity) (SayLight [x, y, intensity])
      (recordRules lightFields [x, y, intensity]) := by
  have hrow : Follows label (Light.ofFields label x y intensity)
      (fun light => ∃ a, ReadsFinite x a ∧ ∃ b, ReadsFinite y b ∧
        ∃ c, ReadsFinite intensity c ∧ light = ⟨⟨a, b⟩, c⟩)
      (List.zipWith Field.wordRules lightFields [x, y, intensity]).flatten :=
    (follows_number label "x" x).bind fun a _ =>
      (follows_number label "y" y).bind fun b _ =>
        (follows_number label "intensity" intensity).bind fun c _ => .accepted fun _ => Iff.rfl
  refine (hrow.congr fun light => ?_).of_length rfl
  constructor
  · rintro ⟨a, ha, b, hb, c, hc, rfl⟩
    exact ⟨x, y, intensity, rfl, ha, hb, hc⟩
  · rintro ⟨_, _, _, hwords, ha, hb, hc⟩
    cases hwords
    exact ⟨_, ha, _, hb, _, hc, rfl⟩

/-- **A vehicle is read field by field.** -/
theorem follows_vehicle (label x y heading speed behavior : String) :
    Follows label (Vehicle.ofFields label x y heading speed behavior)
      (SayVehicle [x, y, heading, speed, behavior])
      (recordRules vehicleFields [x, y, heading, speed, behavior]) := by
  have hrow : Follows label (Vehicle.ofFields label x y heading speed behavior)
      (fun vehicle => ∃ a, ReadsFinite x a ∧ ∃ b, ReadsFinite y b ∧ ∃ c, ReadsFinite heading c ∧
        ∃ d, (ReadsFinite speed d ∧ ¬ d < 0.0) ∧ ∃ e : Behavior, e.name = behavior ∧
          vehicle = ⟨⟨a, b⟩, c, d, e⟩)
      (List.zipWith Field.wordRules vehicleFields [x, y, heading, speed, behavior]).flatten := by
    rw [Vehicle.ofFields_eq]
    exact (follows_number label "x" x).bind fun a _ =>
      (follows_number label "y" y).bind fun b _ =>
        (follows_number label "heading" heading).bind fun c _ =>
          (follows_speed label speed).bind fun d _ =>
            (follows_behavior label behavior).bind fun e _ => .accepted fun _ => Iff.rfl
  refine (hrow.congr fun vehicle => ?_).of_length rfl
  constructor
  · rintro ⟨a, ha, b, hb, c, hc, d, ⟨hd, hnonneg⟩, e, he, rfl⟩
    exact ⟨x, y, heading, speed, behavior, rfl, ha, hb, hc, hd, hnonneg, he⟩
  · rintro ⟨_, _, _, _, _, hwords, ha, hb, hc, hd, hnonneg, he⟩
    cases hwords
    exact ⟨_, ha, _, hb, _, hc, _, ⟨hd, hnonneg⟩, _, he, rfl⟩

/-! ## Words -/

theorem follows_lightOfRow (label : String) (words : List String) :
    Follows label (Table.lightOfRow label words) (SayLight words)
      (recordRules lightFields words) := by
  by_cases hlength : words.length = lightFields.length
  · obtain ⟨x, y, intensity, rfl⟩ := List.length_eq_three.mp hlength
    exact follows_light ..
  · have hrefused : Table.lightOfRow label words
        = .error (.record label (.fieldCount lightFields.length words.length)) := by
      unfold Table.lightOfRow
      split
      · exact absurd rfl hlength
      · rfl
    rw [hrefused]
    exact .of_length_ne hlength fun light hlight => hlength hlight.length_eq

theorem follows_vehicleOfRow (label : String) (words : List String) :
    Follows label (Table.vehicleOfRow label words) (SayVehicle words)
      (recordRules vehicleFields words) := by
  by_cases hlength : words.length = vehicleFields.length
  · obtain ⟨x, rest, rfl⟩ := List.exists_cons_of_length_eq_add_one hlength
    obtain ⟨y, rest, rfl⟩ := List.exists_cons_of_length_eq_add_one (Nat.succ.inj hlength)
    obtain ⟨heading, speed, behavior, rfl⟩ :=
      List.length_eq_three.mp (Nat.succ.inj (Nat.succ.inj hlength))
    exact follows_vehicle ..
  · have hrefused : Table.vehicleOfRow label words
        = .error (.record label (.fieldCount vehicleFields.length words.length)) := by
      unfold Table.vehicleOfRow
      split
      · exact absurd rfl hlength
      · rfl
    rw [hrefused]
    exact .of_length_ne hlength fun vehicle hvehicle => hlength hvehicle.length_eq

theorem ofRecord_light (record : String) :
    Light.ofRecord record = Table.lightOfRow record (Text.words record) := by
  unfold Light.ofRecord Table.lightOfRow
  rfl

theorem ofRecord_vehicle (record : String) :
    Vehicle.ofRecord record = Table.vehicleOfRow record (Text.words record) := by
  unfold Vehicle.ofRecord Table.vehicleOfRow
  rfl

/-- Whether two records are read alike: as the same item, or with the same fault, each under its own
name. -/
def Alike (read : String → Except ScenarioError α) (record record' : String) : Prop :=
  ∃ result : Except (RecordFault ⊕ UnknownBehavior) α,
    read record = result.mapError (named record) ∧ read record' = result.mapError (named record')

/-- **Records are read by their grammar.** A record falls into words in one way. It is a light
exactly if these are three finite literals, which give the coordinates and the intensity in turn,
and a vehicle exactly if they are four finite literals, of which the last is not below zero, and the
name of a behavior. Every other record is refused with the fault of the first rule that is broken,
under the record itself. However its blanks are changed, as long as they keep the words apart, a
record is read alike. -/
theorem reads_grammar (record : String) : ∃ words : List String,
    (∀ others : List String,
      Text.Splits record.toList (others.map String.toList) ↔ others = words) ∧
    Follows record (Light.ofRecord record) (SayLight words) (recordRules lightFields words) ∧
    Follows record (Vehicle.ofRecord record) (SayVehicle words)
      (recordRules vehicleFields words) ∧
    ∀ record' : String, Relation.ReflTransGen Text.Respaced record.toList record'.toList →
      Alike Light.ofRecord record record' ∧ Alike Vehicle.ofRecord record record' := by
  refine ⟨Text.words record, fun others => ?_, ?_, ?_, fun record' hblanks => ⟨?_, ?_⟩⟩
  · rw [← Text.words_eq_iff]
    exact eq_comm
  · rw [ofRecord_light]
    exact follows_lightOfRow ..
  · rw [ofRecord_vehicle]
    exact follows_vehicleOfRow ..
  · obtain ⟨result, hresult⟩ := Table.labelled_lightOfRow (Text.words record)
    refine ⟨result, (ofRecord_light record).trans (hresult record), ?_⟩
    rw [ofRecord_light, ← Text.words_of_respaced hblanks]
    exact hresult record'
  · obtain ⟨result, hresult⟩ := Table.labelled_vehicleOfRow (Text.words record)
    refine ⟨result, (ofRecord_vehicle record).trans (hresult record), ?_⟩
    rw [ofRecord_vehicle, ← Text.words_of_respaced hblanks]
    exact hresult record'

example : Vehicle.ofRecord "inf 1 1 -1 leader"
    = .error (.record "inf 1 1 -1 leader" (.notFinite "x" "inf")) := by rfl

end Record

end Phototaxis
