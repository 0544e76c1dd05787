import OcppKit.Decimal.Shift
import OcppKit.Station.DeviceModel
import OcppKit.Library.Transitions

/-!
# What is written to the device model

A value that is written has to satisfy the characteristics of its variable
(`OcppKit.VariableSpec.Satisfies`): the type, the values it is restricted to, and the limits, for
the number that the text denotes. A write that is accepted is read back, it changes nothing else,
and one that is refused changes nothing (`OcppKit.DeviceModel.SetValid`).

The limits are compared with the text *as a decimal*, and that is not always the number the text
denotes. A whole number of 64 bits may be none – the least is not – and then it is not compared
at all. And a numeral of more digits than a decimal has is rounded, possibly onto a limit it is
beyond. Where the least is within the limits, and no limit lies between a number and what it is
rounded to (`OcppKit.VariableSpec.Faithful`), a write is as it should be, and only there:
`OcppKit.writesValid_iff`. So in a run in which all are, every value that was written satisfies
the characteristics of its variable.

Which values were written is kept track of beside the model (`OcppKit.Tracked`): a variable that
is declared anew brings values of its own.
-/

namespace OcppKit

/-! ### Characteristics -/

namespace VariableSpec

variable {spec : VariableSpec} {value : String}

/-- The value denotes the number: a whole number, or the number of a numeral. -/
def Denotes (spec : VariableSpec) (value : String) (q : ℚ) : Prop :=
  match spec.dataType with
  | .integer => ∃ n : ℤ, Integers.parseI64 value = some n ∧ q = n
  | .decimal => ∃ l : Literal, l.text = Utf8.encode value ∧ q = l.valueAt l.exponentValue
  | _ => False

/-- The number is within the limits. -/
def Within (spec : VariableSpec) (q : ℚ) : Prop :=
  (∀ min ∈ spec.minLimit, min.toRat ≤ q) ∧ ∀ max ∈ spec.maxLimit, q ≤ max.toRat

/-- The value is of the type of the variable, and one of those it is restricted to. -/
def OfType [TimestampText] (spec : VariableSpec) (value : String) : Prop :=
  match spec.dataType with
  | .string => True
  | .integer | .decimal => ∃ q, spec.Denotes value q
  | .dateTime => TimestampText.parses value = true
  | .boolean => value = "true" ∨ value = "false"
  | .optionList => spec.valuesList = [] ∨ value ∈ spec.valuesList
  | .sequenceList | .memberList =>
      spec.valuesList = [] ∨ ∀ item ∈ DataType.items value, item ∈ spec.valuesList

/-- **The value satisfies the characteristics of the variable.** -/
structure Satisfies [TimestampText] (spec : VariableSpec) (value : String) : Prop where
  /-- It is of its type, and one of the values it is restricted to. -/
  ofType : spec.OfType value
  /-- The number it denotes is within the limits. -/
  limits : ∀ q, spec.Denotes value q → spec.Within q

/-- **A limit lies between a number and what it is rounded to**: the number is below the minimum
and is rounded up to it or beyond, or above the maximum and is rounded down. -/
def LimitBetween (spec : VariableSpec) (q rounded : ℚ) : Prop :=
  (∃ min ∈ spec.minLimit, q < min.toRat ∧ min.toRat ≤ rounded) ∨
    ∃ max ∈ spec.maxLimit, rounded ≤ max.toRat ∧ max.toRat < q

/-- **The comparison with the limits is right**: the least whole number, which is not compared,
is within them; and none lies between the number of a numeral and what it is rounded to. -/
def Faithful (spec : VariableSpec) (value : String) : Prop :=
  match spec.dataType with
  | .integer => Integers.parseI64 value = some (-2 ^ 63) → spec.Within (-2 ^ 63 : ℤ)
  | .decimal => ∀ (l : Literal) (d : Decimal), l.text = Utf8.encode value →
      Decimal.fromStr value = .ok d → ¬spec.LimitBetween (l.valueAt l.exponentValue) d.toRat
  | _ => True

/-- A number whose rounding is within the limits is so too, unless one of them lies between. -/
theorem within_iff_of_rounded {q rounded : ℚ} (h : spec.Within rounded) :
    spec.Within q ↔ ¬spec.LimitBetween q rounded := by
  constructor
  · rintro ⟨hmin, hmax⟩ (⟨min, hmem, hlt, -⟩ | ⟨max, hmem, -, hlt⟩)
    · exact absurd (hmin min hmem) (not_le.mpr hlt)
    · exact absurd (hmax max hmem) (not_le.mpr hlt)
  · intro hnot
    refine ⟨fun min hmem => not_lt.mp fun hlt => hnot ?_,
      fun max hmem => not_lt.mp fun hlt => hnot ?_⟩
    · exact Or.inl ⟨min, hmem, hlt, h.1 min hmem⟩
    · exact Or.inr ⟨max, hmem, h.2 max hmem, hlt⟩

/-- No limit lies between a number and itself. -/
theorem not_limitBetween_self (spec : VariableSpec) (q : ℚ) : ¬spec.LimitBetween q q := by
  rintro (⟨min, -, hlt, hle⟩ | ⟨max, -, hle, hlt⟩)
  · exact absurd hle (not_le.mpr hlt)
  · exact absurd hle (not_le.mpr hlt)

/-- **A numeral that a decimal holds is not rounded**: with up to 18 digits after the point and a
mantissa that fits, the comparison is right whatever the limits are. -/
theorem faithful_of_positional (htype : spec.dataType = .decimal)
    (h : ∀ l : Literal, l.text = Utf8.encode value →
      l.exponent = none ∧ l.fractionLength ≤ 18 ∧ l.number < 2 ^ 63) : spec.Faithful value := by
  rw [Faithful, htype]
  intro l d hl hread
  obtain ⟨hpart, hscale, hfits⟩ := h l hl
  obtain ⟨d', hd', hmantissa, hscale'⟩ := Decimal.fromAscii_positional hpart hscale hfits
  have hsame : d' = d := by
    rw [hl] at hd'
    exact Except.ok.inj (hd'.symm.trans hread)
  have hvalue : l.valueAt l.exponentValue = d.toRat := by
    rw [← hsame, Decimal.toRat, hmantissa, hscale', Literal.valueAt, Literal.magnitudeAt,
      Literal.number, Literal.exponentValue, hpart, Option.map_none, Option.getD_none, zero_sub,
      zpow_neg, zpow_natCast, ← div_eq_mul_inv]
    split
    · push_cast
      rw [neg_div]
    · push_cast
      rfl
  rw [hvalue]
  exact spec.not_limitBetween_self d.toRat

theorem lt_iff {d d' : Decimal} : d.compare d' = .lt ↔ d.toRat < d'.toRat := by
  rw [Decimal.compare_eq_compare_toRat, compare_lt_iff_lt]

theorem gt_iff {d d' : Decimal} : d.compare d' = .gt ↔ d'.toRat < d.toRat := by
  rw [Decimal.compare_eq_compare_toRat, compare_gt_iff_gt]

/-- Where the text is a decimal, that is within the limits exactly if it is not excluded. -/
theorem excludes_eq_false_iff {d : Decimal} (h : Decimal.fromStr value = .ok d) :
    spec.excludes value = false ↔ spec.Within d.toRat := by
  rw [excludes, h, Within]
  rcases hmin : spec.minLimit with _ | min <;> rcases hmax : spec.maxLimit with _ | max <;>
    simp [lt_iff, gt_iff]

/-- A text that is no decimal is not excluded. -/
theorem excludes_of_error {e : ParseDecimalError}
    (h : Decimal.fromStr value = .error e) : spec.excludes value = false := by
  rw [excludes, h]

/-- A text that is a decimal is a numeral. -/
theorem exists_numeral {d : Decimal} (h : Decimal.fromStr value = .ok d) :
    ∃ l : Literal, l.text = Utf8.encode value := by
  refine Decimal.exists_literal ?_
  rw [← Decimal.fromStr, h]
  simp

variable [TimestampText] {attribute_ : Attribute}

/-- A value that is accepted is of its type. -/
theorem ofType_of_accepts (h : spec.dataType.accepts value spec.valuesList = true) :
    spec.OfType value := by
  have hlist : ∀ {p : Bool}, (spec.valuesList.isEmpty || p) = true →
      spec.valuesList = [] ∨ p = true := by
    intro p hp
    rcases Bool.or_eq_true_iff.mp hp with hp | hp
    · exact Or.inl (List.isEmpty_iff.mp hp)
    · exact Or.inr hp
  rw [OfType]
  rw [DataType.accepts.eq_def] at h
  cases htype : spec.dataType <;> rw [htype] at h <;> dsimp only at h ⊢
  case decimal =>
    rcases hread : Decimal.fromStr value with e | d
    · rw [hread] at h
      cases h
    · obtain ⟨l, hl⟩ := exists_numeral hread
      refine ⟨l.valueAt l.exponentValue, ?_⟩
      rw [Denotes, htype]
      exact ⟨l, hl, rfl⟩
  case integer =>
    obtain ⟨n, hn⟩ := Option.isSome_iff_exists.mp h
    refine ⟨n, ?_⟩
    rw [Denotes, htype]
    exact ⟨n, hn, rfl⟩
  case dateTime => exact h
  case boolean => simpa using h
  case optionList => exact (hlist h).imp id fun hmem => List.contains_iff_mem.mp hmem
  case sequenceList =>
    exact (hlist h).imp id fun hall item hitem =>
      List.contains_iff_mem.mp (List.all_eq_true.mp hall item hitem)
  case memberList =>
    exact (hlist h).imp id fun hall item hitem =>
      List.contains_iff_mem.mp (List.all_eq_true.mp hall item hitem)

/-- **A value that the variable takes satisfies its characteristics exactly if the comparison is
right.** -/
theorem satisfies_iff (h : DeviceModel.Takes spec attribute_ value) :
    spec.Satisfies value ↔ spec.Faithful value := by
  have hwithin := h.within
  have haccepts := h.accepts
  rw [numeric] at hwithin
  rw [DataType.accepts.eq_def] at haccepts
  constructor
  · rintro ⟨-, hlimits⟩
    rw [Faithful]
    split
    next htype =>
      -- the least number is no decimal, so that it has not been compared
      intro hleast
      have hdenotes : spec.Denotes value ((-2 ^ 63 : ℤ) : ℚ) := by
        rw [Denotes, htype]
        exact ⟨_, hleast, rfl⟩
      exact hlimits _ hdenotes
    next htype =>
      intro l d hl hread
      have hdenotes : spec.Denotes value (l.valueAt l.exponentValue) := by
        rw [Denotes, htype]
        exact ⟨l, hl, rfl⟩
      rw [htype] at hwithin
      have hrounded := (excludes_eq_false_iff hread).mp (by simpa using hwithin)
      exact (within_iff_of_rounded hrounded).mp (hlimits _ hdenotes)
    next => trivial
  · intro hfaithful
    refine ⟨ofType_of_accepts h.accepts, fun q hdenotes => ?_⟩
    rw [Faithful] at hfaithful
    rw [Denotes] at hdenotes
    split at hdenotes
    next htype =>
      rw [htype] at hfaithful hwithin
      obtain ⟨n, hn, rfl⟩ := hdenotes
      rcases eq_or_ne n (-2 ^ 63) with rfl | hleast
      · exact hfaithful hn
      · obtain ⟨d, hd, hvalue⟩ := Decimal.fromStr_of_parseI64 hn hleast
        rw [← hvalue]
        exact (excludes_eq_false_iff hd).mp (by simpa using hwithin)
    next htype =>
      rw [htype] at hfaithful hwithin haccepts
      dsimp only at haccepts
      rcases hread : Decimal.fromStr value with e | d
      · rw [hread] at haccepts
        cases haccepts
      · obtain ⟨l, hl, rfl⟩ := hdenotes
        have hrounded := (excludes_eq_false_iff hread).mp (by simpa using hwithin)
        exact (within_iff_of_rounded hrounded).mpr (hfaithful l d hl hread)
    next => exact hdenotes.elim

end VariableSpec

namespace DeviceModel

/-- The value of an attribute, whether or not it may be read. -/
def value (model : DeviceModel) (component : ComponentKey) (key : VariableKey)
    (attribute_ : Attribute) : Option String :=
  (model.spec component key).bind fun spec => spec.values.find attribute_

/-- The variable with its values left out. -/
def characteristics (model : DeviceModel) (component : ComponentKey) (key : VariableKey) :
    Option VariableSpec :=
  (model.spec component key).map fun spec => { spec with values := .empty }

variable [TimestampText]

/-- **A write is validated and isolated.** -/
structure SetValid (model : DeviceModel) (component : ComponentKey) (key : VariableKey)
    (attribute_ : Attribute) (value : String) : Prop where
  /-- A value that is accepted satisfies the characteristics of its variable. -/
  satisfies : (model.set component key attribute_ value).2.stored = true →
    ∃ spec, model.spec component key = some spec ∧ attribute_ ∈ spec.supported ∧
      spec.Satisfies value
  /-- And is what is read, if the variable may be read. -/
  read : (model.set component key attribute_ value).2.stored = true →
    ∀ spec, model.spec component key = some spec → spec.mutability.readable = true →
      (model.set component key attribute_ value).1.get component key attribute_ = .ok value
  /-- Every other attribute of every variable has the value it had. -/
  others : ∀ component' key' attribute', (component', key', attribute') ≠
    (component, key, attribute_) →
      (model.set component key attribute_ value).1.value component' key' attribute' =
        model.value component' key' attribute'
  /-- And every variable has the characteristics it had. -/
  declared : ∀ component' key',
    (model.set component key attribute_ value).1.characteristics component' key' =
      model.characteristics component' key'
  /-- A write that is refused changes nothing. -/
  refused : (model.set component key attribute_ value).2.stored = false →
    (model.set component key attribute_ value).1 = model

/-- The limits are compared rightly, where the write comes to that. -/
def SetFaithful (model : DeviceModel) (component : ComponentKey) (key : VariableKey)
    (attribute_ : Attribute) (value : String) : Prop :=
  ∀ spec, model.spec component key = some spec → Takes spec attribute_ value →
    spec.Faithful value

variable {model : DeviceModel} {component : ComponentKey} {key : VariableKey}
  {attribute_ : Attribute} {written : String}

omit [TimestampText] in
/-- A value that is written is there, and the others are as they were. -/
theorem value_modify_store {spec : VariableSpec} (h : model.spec component key = some spec)
    (component' : ComponentKey) (key' : VariableKey) (attribute' : Attribute) :
    (model.modify component key fun spec => spec.store attribute_ written).value component' key'
        attribute' =
      if (component', key', attribute') = (component, key, attribute_) then some written
      else model.value component' key' attribute' := by
  rw [value, spec_modify]
  by_cases hplace : component' = component ∧ key' = key
  · obtain ⟨rfl, rfl⟩ := hplace
    rw [if_pos ⟨rfl, rfl⟩, value, h, Option.map_some, Option.bind_some, Option.bind_some,
      VariableSpec.store, SortedMap.find_insert]
    simp only [Prod.mk.injEq, true_and]
  · rw [if_neg hplace, if_neg, value]
    rintro hsame
    obtain ⟨hcomponent, hrest⟩ := Prod.mk.inj hsame
    exact hplace ⟨hcomponent, (Prod.mk.inj hrest).1⟩

omit [TimestampText] in
theorem characteristics_modify (model : DeviceModel) (component : ComponentKey)
    (key : VariableKey) (f : VariableSpec → VariableSpec)
    (hf : ∀ spec, { f spec with values := .empty } = { spec with values := .empty })
    (component' : ComponentKey) (key' : VariableKey) :
    (model.modify component key f).characteristics component' key' =
      model.characteristics component' key' := by
  rw [characteristics, spec_modify, characteristics]
  split
  · rw [Option.map_map]
    exact congrArg (fun g => (model.spec component' key').map g) (funext hf)
  · rfl

/-- A write that is stored, with limits that are compared rightly. -/
theorem setValid_of_takes {spec : VariableSpec} (hspec : model.spec component key = some spec)
    (htakes : Takes spec attribute_ written) (hfaithful : spec.Faithful written)
    (hset : (model.set component key attribute_ written).1 =
      model.modify component key fun spec => spec.store attribute_ written)
    (hstored : (model.set component key attribute_ written).2.stored = true) :
    model.SetValid component key attribute_ written where
  satisfies _ := ⟨spec, hspec, htakes.supported, (VariableSpec.satisfies_iff htakes).mpr hfaithful⟩
  read := by
    rintro - spec' hspec' hreadable
    obtain rfl := Option.some.inj (hspec'.symm.trans hspec)
    have hfound : (model.set component key attribute_ written).1.spec component key =
        some (spec'.store attribute_ written) := by
      rw [hset, spec_modify, if_pos ⟨rfl, rfl⟩, hspec]
      rfl
    have hvalue : (spec'.store attribute_ written).values.find attribute_ = some written := by
      rw [VariableSpec.store, SortedMap.find_insert, if_pos rfl]
    have hreadable' : (spec'.store attribute_ written).mutability.readable = true := hreadable
    have hsupported : attribute_ ∈ (spec'.store attribute_ written).supported := htakes.supported
    rw [get_of_spec hfound, hreadable', if_neg (by simp), if_neg (not_not_intro hsupported), hvalue,
      Option.getD_some]
  others component' key' attribute' hne := by
    rw [hset, value_modify_store hspec, if_neg hne]
  declared component' key' := by
    rw [hset]
    refine characteristics_modify model component key _ ?_ component' key'
    intro spec'
    rfl
  refused hrefused := absurd (hstored.symm.trans hrefused) (by simp)

/-- A write that is refused. -/
theorem setValid_of_refused
    (hrefused : (model.set component key attribute_ written).2.stored = false)
    (hsame : (model.set component key attribute_ written).1 = model) :
    model.SetValid component key attribute_ written where
  satisfies hstored := absurd (hstored.symm.trans hrefused) (by simp)
  read hstored := absurd (hstored.symm.trans hrefused) (by simp)
  others _ _ _ _ := by rw [hsame]
  declared _ _ := by rw [hsame]
  refused _ := hsame

/-- **A write is as it should be exactly if the limits are compared rightly.** -/
theorem setValid_iff (model : DeviceModel) (component : ComponentKey) (key : VariableKey)
    (attribute_ : Attribute) (written : String) :
    model.SetValid component key attribute_ written ↔
      model.SetFaithful component key attribute_ written := by
  rcases model.set_cases component key attribute_ written with
    ⟨spec, hspec, htakes, hset⟩ | ⟨hnot, hrefused, hsame⟩
  · have hmodel := congrArg Prod.fst hset
    have hstored : (model.set component key attribute_ written).2.stored = true := by
      rw [hset]
      cases spec.rebootRequired <;> rfl
    constructor
    · rintro hvalid spec' hspec' htakes'
      obtain ⟨spec'', hspec'', -, hsatisfies⟩ := hvalid.satisfies hstored
      obtain rfl := Option.some.inj (hspec''.symm.trans hspec')
      exact (VariableSpec.satisfies_iff htakes').mp hsatisfies
    · intro hfaithful
      exact setValid_of_takes hspec htakes (hfaithful spec hspec htakes) hmodel hstored
  · refine iff_of_true (setValid_of_refused hrefused hsame) ?_
    rintro spec hspec htakes
    exact absurd htakes (hnot spec hspec)

end DeviceModel

/-! ### What was written -/

/-- Where a value is: an attribute of a variable of a component. -/
abbrev AttributePlace := ComponentKey × VariableKey × Attribute

/-- **A model, and where its values were written**: not declared with the variable. -/
structure Tracked where
  /-- The model. -/
  model : DeviceModel
  /-- The places that were written. -/
  written : List AttributePlace

namespace Tracked

/-- No variable is declared. -/
def new : Tracked := ⟨.new, []⟩

/-- A variable is declared anew: none of its values was written. -/
def forget (written : List AttributePlace) (component : ComponentKey) (key : VariableKey) :
    List AttributePlace :=
  written.filter fun place => ¬(place.1 = component ∧ place.2.1 = key)

/-- A variable of the catalogue is declared. -/
def declareVariable (s : Tracked) (component : ComponentKey) (standard : StandardVariable) :
    Tracked :=
  let declared := s.model.declareVariable component standard
  ⟨declared.1,
    if declared.2 then forget s.written component (DeviceModel.standardSpec standard).key
    else s.written⟩

/-- The variables of a list are declared. -/
def declareAll (s : Tracked) (component : ComponentKey) (variables_ : List StandardVariable) :
    Tracked :=
  variables_.foldl (fun s standard => s.declareVariable component standard) s

variable [TimestampText]

/-- **An operation, with what was written.** -/
def apply (catalogue : String → Option StandardComponent) (s : Tracked)
    (operation : DeviceModel.Operation) : Tracked :=
  match operation with
  | .declare component spec =>
      ⟨s.model.declare component spec, forget s.written component spec.key⟩
  | .declareStandard component =>
      match catalogue component with
      | none => s
      | some standard => s.declareAll { name := standard.name } standard.variables_
  | .set component key attribute_ value =>
      let set := s.model.set component key attribute_ value
      ⟨set.1, if set.2.stored then (component, key, attribute_) :: s.written else s.written⟩
  | .get .. | .report .. | .paginate .. => s

omit [TimestampText] in
theorem model_declareAll (s : Tracked) (component : ComponentKey)
    (variables_ : List StandardVariable) :
    (s.declareAll component variables_).model =
      (DeviceModel.declareAll component s.model variables_).1 := by
  induction variables_ generalizing s with
  | nil => rfl
  | cons standard variables_ ih => exact ih (s.declareVariable component standard)

/-- The model is what the operations make of it. -/
theorem model_apply (catalogue : String → Option StandardComponent) (s : Tracked)
    (operation : DeviceModel.Operation) :
    (s.apply catalogue operation).model = (s.model.apply catalogue operation).1 := by
  cases operation with
  | declareStandard component =>
      rw [apply, DeviceModel.apply, DeviceModel.declareStandard]
      cases catalogue component with
      | none => rfl
      | some standard => exact s.model_declareAll _ _
  | _ => rfl

/-- **Every value that was written satisfies the characteristics of its variable.** -/
def Valid (s : Tracked) : Prop :=
  ∀ component key attribute_, (component, key, attribute_) ∈ s.written →
    ∃ spec value, s.model.spec component key = some spec ∧
      spec.values.find attribute_ = some value ∧ spec.Satisfies value

variable {s : Tracked}

theorem valid_new : new.Valid := by
  rintro component key attribute_ hmem
  cases hmem

/-- A variable that is declared leaves the others as they were. -/
theorem Valid.declare (h : s.Valid) (component : ComponentKey) (spec : VariableSpec) :
    Valid ⟨s.model.declare component spec, forget s.written component spec.key⟩ := by
  rintro component' key' attribute_ hmem
  obtain ⟨hmem, hnot⟩ := List.mem_filter.mp hmem
  obtain ⟨spec', value, hspec, hvalue, hsatisfies⟩ := h component' key' attribute_ hmem
  refine ⟨spec', value, ?_, hvalue, hsatisfies⟩
  rw [DeviceModel.spec_declare, if_neg (of_decide_eq_true hnot)]
  exact hspec

/-- One more attribute that is supported changes no value and none that is taken. -/
theorem Valid.supports (h : s.Valid) (component : ComponentKey) (key : VariableKey)
    (attribute_ : Attribute) :
    Valid ⟨s.model.modify component key fun existing => existing.supports attribute_,
      s.written⟩ := by
  rintro component' key' attribute' hmem
  obtain ⟨spec, value, hspec, hvalue, hsatisfies⟩ := h component' key' attribute' hmem
  rw [DeviceModel.spec_modify]
  split
  · rw [hspec]
    exact ⟨spec.supports attribute_, value, rfl, hvalue, ⟨hsatisfies.ofType, hsatisfies.limits⟩⟩
  · exact ⟨spec, value, hspec, hvalue, hsatisfies⟩

theorem Valid.declareVariable (h : s.Valid) (component : ComponentKey)
    (standard : StandardVariable) : (s.declareVariable component standard).Valid := by
  rw [Tracked.declareVariable, DeviceModel.declareVariable]
  split
  next attribute_ hattribute =>
    split
    · exact h.supports component _ attribute_
    · exact h.declare component ((DeviceModel.standardSpec standard).supports attribute_)
  next => exact h.declare component (DeviceModel.standardSpec standard)

theorem Valid.declareAll (h : s.Valid) (component : ComponentKey)
    (variables_ : List StandardVariable) : (s.declareAll component variables_).Valid := by
  induction variables_ generalizing s with
  | nil => exact h
  | cons standard variables_ ih => exact ih (h.declareVariable component standard)

/-- A write with limits that are compared rightly writes a value that satisfies the
characteristics. -/
theorem Valid.set (h : s.Valid) {component : ComponentKey} {key : VariableKey}
    {attribute_ : Attribute} {value : String}
    (hfaithful : s.model.SetFaithful component key attribute_ value)
    (catalogue : String → Option StandardComponent) :
    (s.apply catalogue (.set component key attribute_ value)).Valid := by
  rw [apply]
  rcases s.model.set_cases component key attribute_ value with
    ⟨spec, hspec, htakes, hset⟩ | ⟨-, hrefused, hsame⟩
  · rw [hset]
    dsimp only
    have hnew : (s.model.modify component key fun spec => spec.store attribute_ value).spec
        component key = some (spec.store attribute_ value) := by
      rw [DeviceModel.spec_modify, if_pos ⟨rfl, rfl⟩, hspec]
      rfl
    have hhere : ∀ attribute' value', spec.Satisfies value' →
        (spec.store attribute_ value).values.find attribute' = some value' →
        ∃ spec' value', (s.model.modify component key fun spec =>
          spec.store attribute_ value).spec component key = some spec' ∧
          spec'.values.find attribute' = some value' ∧ spec'.Satisfies value' := by
      intro attribute' value' hsatisfies hvalue
      exact ⟨_, value', hnew, hvalue, ⟨hsatisfies.ofType, hsatisfies.limits⟩⟩
    rw [if_pos (by cases spec.rebootRequired <;> rfl)]
    rintro component' key' attribute' hmem
    dsimp only at hmem
    by_cases hplace : component' = component ∧ key' = key
    · obtain ⟨rfl, rfl⟩ := hplace
      by_cases hattribute : attribute' = attribute_
      · subst hattribute
        refine hhere attribute' value ?_ ?_
        · exact (VariableSpec.satisfies_iff htakes).mpr (hfaithful spec hspec htakes)
        · rw [VariableSpec.store, SortedMap.find_insert, if_pos rfl]
      · have hold : (component', key', attribute') ∈ s.written := by
          rcases List.mem_cons.mp hmem with heq | hmem
          · exact absurd (Prod.mk.inj (Prod.mk.inj heq).2).2 hattribute
          · exact hmem
        obtain ⟨spec', value', hspec', hvalue, hsatisfies⟩ := h component' key' attribute' hold
        obtain rfl := Option.some.inj (hspec'.symm.trans hspec)
        refine hhere attribute' value' hsatisfies ?_
        rw [VariableSpec.store, SortedMap.find_insert, if_neg hattribute, hvalue]
    · have hold : (component', key', attribute') ∈ s.written := by
        rcases List.mem_cons.mp hmem with heq | hmem
        · exact absurd ⟨(Prod.mk.inj heq).1, (Prod.mk.inj (Prod.mk.inj heq).2).1⟩ hplace
        · exact hmem
      rw [DeviceModel.spec_modify, if_neg hplace]
      exact h component' key' attribute' hold
  · rw [hrefused, hsame]
    exact h

/-- The writes among the operations are as they should be. -/
def WriteValid (s : Tracked) : DeviceModel.Operation → Prop
  | .set component key attribute_ value => s.model.SetValid component key attribute_ value
  | .declare .. | .declareStandard .. | .get .. | .report .. | .paginate .. => True

/-- The limits are compared rightly in the writes among the operations. -/
def WriteFaithful (s : Tracked) : DeviceModel.Operation → Prop
  | .set component key attribute_ value => s.model.SetFaithful component key attribute_ value
  | .declare .. | .declareStandard .. | .get .. | .report .. | .paginate .. => True

theorem writeValid_iff (s : Tracked) (operation : DeviceModel.Operation) :
    s.WriteValid operation ↔ s.WriteFaithful operation := by
  cases operation with
  | set component key attribute_ value => exact s.model.setValid_iff component key attribute_ value
  | _ => exact Iff.rfl

/-- **What was written stays valid.** -/
theorem Valid.apply (h : s.Valid) (catalogue : String → Option StandardComponent)
    {operation : DeviceModel.Operation} (hfaithful : s.WriteFaithful operation) :
    (s.apply catalogue operation).Valid := by
  cases operation with
  | declare component spec => exact h.declare component spec
  | declareStandard component =>
      rw [Tracked.apply]
      cases catalogue component with
      | none => exact h
      | some standard => exact h.declareAll _ _
  | set component key attribute_ value => exact h.set hfaithful catalogue
  | _ => exact h

/-- One operation of a run; there is always a state after it. -/
def step (catalogue : String → Option StandardComponent) (s : Tracked)
    (operation : DeviceModel.Operation) : Option Tracked :=
  some (s.apply catalogue operation)

/-- **A run does to the model what the operations do.** -/
theorem exists_run (catalogue : String → Option StandardComponent) (s : Tracked)
    (operations : List DeviceModel.Operation) :
    ∃ s', Transitions.run (step catalogue) s operations = some s' ∧
      s'.model = s.model.run catalogue operations := by
  induction operations generalizing s with
  | nil => exact ⟨s, rfl, rfl⟩
  | cons operation operations ih =>
      obtain ⟨s', hrun, hmodel⟩ := ih (s.apply catalogue operation)
      refine ⟨s', Transitions.run_cons.mpr ⟨_, rfl, hrun⟩, ?_⟩
      rw [hmodel, model_apply]
      rfl

end Tracked

/-- **Writes are validated and isolated exactly if the limits are compared rightly**, and then
every value that was written satisfies the characteristics of its variable. -/
theorem writesValid_iff [TimestampText] (catalogue : String → Option StandardComponent)
    (operations : List DeviceModel.Operation) :
    (Transitions.EachStep (Tracked.step catalogue) Tracked.WriteValid .new operations ↔
      Transitions.EachStep (Tracked.step catalogue) Tracked.WriteFaithful .new operations) ∧
    (Transitions.EachStep (Tracked.step catalogue) Tracked.WriteFaithful .new operations →
      ∃ s, Transitions.run (Tracked.step catalogue) .new operations = some s ∧
        s.model = DeviceModel.new.run catalogue operations ∧ s.Valid) := by
  refine ⟨⟨?_, ?_⟩, fun hfaithful => ?_⟩
  · exact Transitions.EachStep.mono fun s operation => (s.writeValid_iff operation).mp
  · exact Transitions.EachStep.mono fun s operation => (s.writeValid_iff operation).mpr
  · obtain ⟨s, hrun, hmodel⟩ := Tracked.exists_run catalogue .new operations
    refine ⟨s, hrun, hmodel, ?_⟩
    refine Transitions.run_invariant Tracked.Valid ?_ Tracked.valid_new hfaithful hrun
    rintro s operation s' hvalid hfaithful hstep
    obtain rfl := Option.some.inj hstep
    exact hvalid.apply catalogue hfaithful

end OcppKit

namespace OcppKit.Reference

/-! ### The least whole number -/

/-- A whole number that is not to be negative. -/
def countdown : VariableSpec :=
  { VariableSpec.new "Countdown" .integer with
    mutability := .readWrite
    minLimit := some .zero }

/-- Its component. -/
def controller : ComponentKey := { name := "Controller" }

/-- **A number far below the least is accepted.** -/
theorem limit_skipped : ¬∀ (timestamps : TimestampText)
    (catalogue : String → Option StandardComponent) (operations : List DeviceModel.Operation),
    Transitions.EachStep (@Tracked.step timestamps catalogue) Tracked.WriteValid .new
      operations := by
  intro h
  have hleast : Integers.parseI64 "-9223372036854775808" = some (-2 ^ 63) := by decide +kernel
  let _ := epochOnly
  obtain ⟨-, hrest⟩ := h epochOnly (fun _ => none)
    [.declare controller countdown, .set controller countdown.key .actual "-9223372036854775808"]
  obtain ⟨hvalid, -⟩ := hrest _ rfl
  have hfaithful := (DeviceModel.setValid_iff _ _ _ _ _).mp hvalid
  have hfound : (DeviceModel.new.declare controller countdown).spec controller countdown.key =
      some countdown := by
    rw [DeviceModel.spec_declare, if_pos ⟨rfl, rfl⟩]
  have htakes : DeviceModel.Takes countdown .actual "-9223372036854775808" := by
    refine ⟨rfl, rfl, Finset.mem_singleton_self _, congrArg Option.isSome hleast, ?_⟩
    rw [VariableSpec.excludes_of_error (Decimal.fromStr_of_least hleast), Bool.and_false]
  have hwithin := hfaithful countdown hfound htakes hleast
  have hzero := hwithin.1 .zero rfl
  rw [show Decimal.zero.toRat = 0 from by simp [Decimal.zero, Decimal.toRat, Decimal.fromI64]]
    at hzero
  norm_num at hzero

end OcppKit.Reference
