import OcppKit.Station.DeviceModel

/-!
# Values that are written and not read

Passwords and keys are values of the device model like any other, in variables that are declared
`WriteOnly`. Two models that differ in such values only are the same with the values left out
(`OcppKit.DeviceModel.masked`), and nothing that is done with them tells them apart: a read is
refused before the value is looked up, a write is accepted or refused for what the variable was
declared with, and an inventory has the attributes without their values
(`OcppKit.DeviceModel.answers_eq`).

What may be read is in a full inventory as it is read: every attribute that is supported is
there, and one that has no value is there without one, and is read as the empty text
(`OcppKit.DeviceModel.ListsAll`).
-/

namespace OcppKit

/-! ### Values left out -/

namespace VariableSpec

/-- The variable without the values that are not to be read. -/
def masked (spec : VariableSpec) : VariableSpec :=
  if spec.mutability = .writeOnly then { spec with values := .empty } else spec

variable (spec : VariableSpec)

/-- The characteristics are as they were, and so are values that may be read. -/
theorem masked_eq : ∃ values, spec.masked = { spec with values := values } ∧
    (spec.mutability.readable = true → values = spec.values) := by
  rw [masked]
  split
  next h => exact ⟨.empty, rfl, by simp [Mutability.readable, h]⟩
  next h => exact ⟨spec.values, rfl, fun _ => rfl⟩

@[simp] theorem masked_key : spec.masked.key = spec.key := by
  rw [masked]
  split <;> rfl

@[simp] theorem masked_mutability : spec.masked.mutability = spec.mutability := by
  rw [masked]
  split <;> rfl

@[simp] theorem masked_constant : spec.masked.constant = spec.constant := by
  rw [masked]
  split <;> rfl

@[simp] theorem masked_rebootRequired : spec.masked.rebootRequired = spec.rebootRequired := by
  rw [masked]
  split <;> rfl

@[simp] theorem masked_supported : spec.masked.supported = spec.supported := by
  rw [masked]
  split <;> rfl

@[simp] theorem masked_dataType : spec.masked.dataType = spec.dataType := by
  rw [masked]
  split <;> rfl

@[simp] theorem masked_valuesList : spec.masked.valuesList = spec.valuesList := by
  rw [masked]
  split <;> rfl

@[simp] theorem numeric_masked : spec.masked.numeric = spec.numeric := by
  rw [numeric, masked_dataType, numeric]

@[simp] theorem excludes_masked (value : String) :
    spec.masked.excludes value = spec.excludes value := by
  rw [masked]
  split <;> rfl

theorem masked_masked : spec.masked.masked = spec.masked := by
  rw [masked, masked_mutability]
  split
  next h => rw [masked, if_pos h]
  next => rfl

theorem masked_supports (attribute_ : Attribute) :
    (spec.supports attribute_).masked = spec.masked.supports attribute_ := by
  rw [masked, masked]
  change (if spec.mutability = .writeOnly then _ else _) = _
  split <;> rfl

/-- What is written is left out as well. -/
theorem masked_store (attribute_ : Attribute) (value : String) :
    (spec.store attribute_ value).masked = (spec.masked.store attribute_ value).masked := by
  by_cases h : spec.mutability = .writeOnly
  · have hstore : ∀ spec' : VariableSpec, spec'.mutability = .writeOnly →
        (spec'.store attribute_ value).masked = { spec' with values := .empty } := by
      intro spec' h'
      rw [masked, store, if_pos h']
    rw [hstore _ h, hstore _ ((masked_mutability spec).trans h), masked, if_pos h]
  · rw [masked, masked, masked, if_neg h]

end VariableSpec

namespace DeviceModel

/-- **The model without the values that are not to be read.** -/
def masked (model : DeviceModel) : DeviceModel :=
  ⟨model.components.map fun variables_ => variables_.map VariableSpec.masked⟩

variable {model model' : DeviceModel}

theorem find_masked (model : DeviceModel) (component : ComponentKey) :
    model.masked.components.find component =
      (model.components.find component).map fun variables_ =>
        variables_.map VariableSpec.masked :=
  SortedMap.find_map _ _ _

theorem spec_masked (model : DeviceModel) (component : ComponentKey) (key : VariableKey) :
    model.masked.spec component key = (model.spec component key).map VariableSpec.masked := by
  rw [spec, find_masked, spec]
  rcases model.components.find component with _ | variables_
  · rfl
  · exact SortedMap.find_map _ _ _

theorem masked_masked (model : DeviceModel) : model.masked.masked = model.masked := by
  refine DeviceModel.ext (SortedMap.ext_find fun component => ?_)
  rw [find_masked, find_masked, Option.map_map]
  refine Option.map_congr fun variables_ _ => SortedMap.ext_find fun key => ?_
  rw [Function.comp_apply, SortedMap.find_map, SortedMap.find_map, Option.map_map]
  exact Option.map_congr fun spec _ => spec.masked_masked

/-! ### Operations -/

theorem masked_declare (model : DeviceModel) (component : ComponentKey) (spec : VariableSpec) :
    (model.declare component spec).masked = model.masked.declare component spec.masked := by
  refine DeviceModel.ext ?_
  change SortedMap.map _ (SortedMap.insert _ _ _) = SortedMap.insert _ _ _
  rw [SortedMap.map_insert, SortedMap.map_insert, find_masked, VariableSpec.masked_key]
  rcases model.components.find component with _ | variables_
  · rfl
  · rfl

theorem masked_modify {f g : VariableSpec → VariableSpec}
    (h : ∀ spec, (f spec).masked = g spec.masked) (model : DeviceModel)
    (component : ComponentKey) (key : VariableKey) :
    (model.modify component key f).masked = model.masked.modify component key g := by
  refine DeviceModel.ext ?_
  exact SortedMap.map_modify (fun variables_ => SortedMap.map_modify h variables_ key) _ _

/-- **A read does not see the values that are left out.** -/
theorem get_masked (model : DeviceModel) (component : ComponentKey) (key : VariableKey)
    (attribute_ : Attribute) :
    model.masked.get component key attribute_ = model.get component key attribute_ := by
  rw [get, find_masked, get]
  rcases model.components.find component with _ | variables_
  · rfl
  simp only [Option.map_some, SortedMap.find_map]
  rcases variables_.find key with _ | spec
  · rfl
  simp only [Option.map_some, VariableSpec.masked_mutability, VariableSpec.masked_supported]
  split
  · rfl
  next hreadable =>
    obtain ⟨values, heq, hvalues⟩ := spec.masked_eq
    rw [heq, hvalues (by simpa using hreadable)]

/-- **Nor does an inventory.** -/
theorem datum_masked (component : ComponentKey) (key : VariableKey) (spec : VariableSpec) :
    datum component key spec.masked = datum component key spec := by
  obtain ⟨values, heq, hvalues⟩ := spec.masked_eq
  rw [heq, datum, datum]
  dsimp only [VariableSpec.attributes]
  cases hreadable : spec.mutability.readable with
  | false => rfl
  | true => rw [hvalues hreadable]

theorem includes_masked (base : ReportBase) (key : VariableKey) (spec : VariableSpec) :
    includes base key spec.masked = includes base key spec := by
  cases base <;> simp [includes]

theorem report_masked (model : DeviceModel) (base : ReportBase)
    (componentFilter variableFilter : Option String) :
    model.masked.report base componentFilter variableFilter =
      model.report base componentFilter variableFilter := by
  rw [report, masked, SortedMap.map, List.flatMap_map, report]
  refine List.flatMap_congr fun entry _ => ?_
  obtain ⟨component, variables_⟩ := entry
  dsimp only [SortedMap.map]
  rw [List.filterMap_map]
  refine if_congr Iff.rfl rfl (List.filterMap_congr fun entry _ => ?_)
  simp only [Function.comp_apply, datum_masked, includes_masked]

variable [TimestampText]

/-- **A write is answered for what the variable was declared with**, and what it writes is left
out if it is not to be read. -/
theorem set_masked (model : DeviceModel) (component : ComponentKey) (key : VariableKey)
    (attribute_ : Attribute) (value : String) :
    (model.masked.set component key attribute_ value).2 =
        (model.set component key attribute_ value).2 ∧
      (model.masked.set component key attribute_ value).1.masked =
        (model.set component key attribute_ value).1.masked := by
  rw [set, find_masked, set]
  rcases model.components.find component with _ | variables_
  · exact ⟨rfl, model.masked_masked⟩
  simp only [Option.map_some, SortedMap.find_map]
  rcases variables_.find key with _ | spec
  · exact ⟨rfl, model.masked_masked⟩
  simp only [Option.map_some, VariableSpec.masked_mutability, VariableSpec.masked_constant,
    VariableSpec.masked_supported, VariableSpec.masked_dataType, VariableSpec.masked_valuesList,
    VariableSpec.numeric_masked, VariableSpec.excludes_masked, VariableSpec.masked_rebootRequired]
  split
  · exact ⟨rfl, model.masked_masked⟩
  split
  · exact ⟨rfl, model.masked_masked⟩
  split
  · exact ⟨rfl, model.masked_masked⟩
  split
  · exact ⟨rfl, model.masked_masked⟩
  refine ⟨rfl, ?_⟩
  have hstore := fun spec : VariableSpec => spec.masked_store attribute_ value
  dsimp only
  rw [masked_modify (g := fun spec => (spec.store attribute_ value).masked) hstore,
    masked_modify (g := fun spec => (spec.store attribute_ value).masked) hstore, masked_masked]

/-! ### Runs -/

omit [TimestampText] in
theorem declareVariable_of_masked (h : model.masked = model'.masked) (component : ComponentKey)
    (standard : StandardVariable) :
    (model.declareVariable component standard).1.masked =
        (model'.declareVariable component standard).1.masked ∧
      (model.declareVariable component standard).2 =
        (model'.declareVariable component standard).2 := by
  have hdeclare : ∀ spec, (model.declare component spec).masked =
      (model'.declare component spec).masked := by
    intro spec
    rw [masked_declare, masked_declare, h]
  have hknown : ∀ key, (model.spec component key).isSome = (model'.spec component key).isSome := by
    intro key
    have hspec := congrArg (fun m => (m.spec component key).isSome) h
    simpa only [spec_masked, Option.isSome_map] using hspec
  rw [declareVariable, declareVariable]
  split
  next attribute_ _ =>
    rw [hknown]
    split
    · have hsupports := fun spec : VariableSpec => spec.masked_supports attribute_
      refine ⟨?_, rfl⟩
      rw [masked_modify (g := fun spec => spec.supports attribute_) hsupports,
        masked_modify (g := fun spec => spec.supports attribute_) hsupports, h]
    · exact ⟨hdeclare _, rfl⟩
  next => exact ⟨hdeclare _, rfl⟩

omit [TimestampText] in
theorem declareAll_of_masked (h : model.masked = model'.masked) (component : ComponentKey)
    (variables_ : List StandardVariable) :
    (declareAll component model variables_).1.masked =
        (declareAll component model' variables_).1.masked ∧
      (declareAll component model variables_).2 = (declareAll component model' variables_).2 := by
  induction variables_ generalizing model model' with
  | nil => exact ⟨h, rfl⟩
  | cons standard variables_ ih =>
      obtain ⟨hmodel, hdeclared⟩ := declareVariable_of_masked h component standard
      obtain ⟨hrest, hcount⟩ := ih hmodel
      rw [declareAll, declareAll]
      refine ⟨hrest, ?_⟩
      rw [hdeclared, hcount]

/-- **What an operation returns does not depend on values that are not to be read**, and it makes
nothing else depend on them. -/
theorem apply_of_masked (h : model.masked = model'.masked)
    (catalogue : String → Option StandardComponent) (operation : Operation) :
    (model.apply catalogue operation).1.masked = (model'.apply catalogue operation).1.masked ∧
      (model.apply catalogue operation).2 = (model'.apply catalogue operation).2 := by
  cases operation with
  | declare component spec =>
      refine ⟨?_, rfl⟩
      rw [apply, apply, masked_declare, masked_declare, h]
  | declareStandard component =>
      rw [apply, apply, declareStandard, declareStandard]
      cases catalogue component with
      | none => exact ⟨h, rfl⟩
      | some standard =>
          obtain ⟨hmodel, hcount⟩ := declareAll_of_masked h { name := standard.name }
            standard.variables_
          exact ⟨hmodel, congrArg (fun count => Output.declared (some count)) hcount⟩
  | get component key attribute_ =>
      refine ⟨h, ?_⟩
      rw [apply, apply, ← get_masked model, h, get_masked]
  | set component key attribute_ value =>
      obtain ⟨hstatus, hmodel⟩ := model.set_masked component key attribute_ value
      obtain ⟨hstatus', hmodel'⟩ := model'.set_masked component key attribute_ value
      rw [apply, apply]
      refine ⟨?_, ?_⟩
      · rw [← hmodel, ← hmodel', h]
      · rw [← hstatus, ← hstatus', h]
  | report base componentFilter variableFilter =>
      refine ⟨h, ?_⟩
      rw [apply, apply, ← report_masked model, h, report_masked]
  | paginate base componentFilter variableFilter perPage =>
      refine ⟨h, ?_⟩
      rw [apply, apply, ← report_masked model, h, report_masked]

/-- What a list of operations returns. -/
def answers (catalogue : String → Option StandardComponent) :
    DeviceModel → List Operation → List Output
  | _, [] => []
  | model, operation :: operations =>
      (model.apply catalogue operation).2 ::
        answers catalogue (model.apply catalogue operation).1 operations

/-- **Values that are not to be read change no answer.** -/
theorem answers_eq (h : model.masked = model'.masked)
    (catalogue : String → Option StandardComponent) (operations : List Operation) :
    answers catalogue model operations = answers catalogue model' operations := by
  induction operations generalizing model model' with
  | nil => rfl
  | cons operation operations ih =>
      obtain ⟨hmodel, houtput⟩ := apply_of_masked h catalogue operation
      rw [answers, answers, houtput, ih hmodel]

/-! ### The full inventory -/

/-- **A model and its full inventory**: every variable that is declared has one line, with the
attributes it supports, and each attribute is there as it is read. -/
structure ListsAll (model : DeviceModel) : Prop where
  /-- The variables that have a line are those that are declared. -/
  declared : ∀ component key,
    (∃ line ∈ model.report .fullInventory none none,
      line.component = component ∧ line.variable_ = key) ↔
        (model.spec component key).isSome = true
  /-- They have one line each. -/
  once : ((model.report .fullInventory none none).map fun line =>
    (line.component, line.variable_)).Nodup
  /-- A line has the attributes that are supported. -/
  supported : ∀ line ∈ model.report .fullInventory none none,
    ∀ spec ∈ model.spec line.component line.variable_,
      (line.attributes.map Prod.fst).Nodup ∧
        ∀ attribute_, attribute_ ∈ line.attributes.map Prod.fst ↔ attribute_ ∈ spec.supported
  /-- An attribute that may be read is there with the value it has, if it has one, and is read as
  that value, or as the empty text. -/
  read : ∀ line ∈ model.report .fullInventory none none,
    ∀ spec ∈ model.spec line.component line.variable_, ∀ entry ∈ line.attributes,
      spec.mutability.readable = true → entry.2.2 = spec.values.find entry.1 ∧
        model.get line.component line.variable_ entry.1 = .ok (entry.2.2.getD "")
  /-- One that may not is there without a value, and a read of it is refused. -/
  hidden : ∀ line ∈ model.report .fullInventory none none,
    ∀ spec ∈ model.spec line.component line.variable_, ∀ entry ∈ line.attributes,
      spec.mutability.readable = false → entry.2.2 = none ∧
        model.get line.component line.variable_ entry.1 = .error .rejected

omit [TimestampText] in
/-- The lines of the full inventory are those of the variables. -/
theorem mem_report_full {line : ReportDatum} :
    line ∈ model.report .fullInventory none none ↔
      ∃ component key spec, model.spec component key = some spec ∧
        line = datum component key spec := by
  simp only [report, Option.any_none, Bool.false_eq_true, if_false, includes, Bool.true_eq_false,
    List.mem_flatMap, List.mem_filterMap, Option.some.injEq, Prod.exists, spec,
    Option.bind_eq_some_iff, SortedMap.find_eq_some_iff]
  constructor
  · rintro ⟨component, variables_, hcomponent, key, spec, hkey, rfl⟩
    exact ⟨component, key, spec, ⟨variables_, hcomponent, hkey⟩, rfl⟩
  · rintro ⟨component, key, spec, ⟨variables_, hcomponent, hkey⟩, rfl⟩
    exact ⟨component, variables_, hcomponent, key, spec, hkey, rfl⟩

omit [TimestampText] in
/-- A line of the full inventory is that of the variable that is found. -/
theorem eq_datum {line : ReportDatum} (h : line ∈ model.report .fullInventory none none)
    {found : VariableSpec} (hfound : found ∈ model.spec line.component line.variable_) :
    line = datum line.component line.variable_ found := by
  obtain ⟨component, key, spec, hspec, rfl⟩ := mem_report_full.mp h
  obtain rfl := Option.some.inj (hfound.symm.trans hspec)
  rfl

omit [TimestampText] in
theorem map_fst_attributes (component : ComponentKey) (key : VariableKey) (found : VariableSpec) :
    (datum component key found).attributes.map Prod.fst = found.attributes := by
  rw [datum, List.map_map]
  exact List.map_id _

omit [TimestampText] in
/-- An attribute of a line is one that is supported, with the value it may be reported with. -/
theorem mem_attributes_datum {component : ComponentKey} {key : VariableKey} {found : VariableSpec}
    {entry : Attribute × Mutability × Option String}
    (h : entry ∈ (datum component key found).attributes) : entry.1 ∈ found.supported ∧
      entry.2.2 = if found.mutability.readable then found.values.find entry.1 else none := by
  obtain ⟨attribute_, hmem, rfl⟩ := List.mem_map.mp h
  exact ⟨VariableSpec.mem_attributes.mp hmem, rfl⟩

omit [TimestampText] in
/-- No two lines are of one variable. -/
theorem nodup_report (model : DeviceModel) :
    ((model.report .fullInventory none none).map fun line =>
      (line.component, line.variable_)).Nodup := by
  have hlines : (model.report .fullInventory none none).map
      (fun line => (line.component, line.variable_)) =
        model.components.entries.flatMap fun entry =>
          entry.2.keys.map fun key => (entry.1, key) := by
    rw [report, List.map_flatMap]
    refine List.flatMap_congr fun entry _ => ?_
    simp only [Option.any_none, Bool.false_eq_true, if_false, includes, Bool.true_eq_false,
      SortedMap.keys, List.map_map, List.filterMap_eq_map']
    rfl
  rw [hlines, List.nodup_flatMap]
  refine ⟨fun entry _ => ?_, ?_⟩
  · exact entry.2.nodup_keys.map fun key key' h => (Prod.mk.inj h).2
  · refine (List.pairwise_map.mp model.components.nodup_keys).imp ?_
    rintro entry entry' hne pair hpair hpair'
    obtain ⟨key, -, rfl⟩ := List.mem_map.mp hpair
    obtain ⟨key', -, heq⟩ := List.mem_map.mp hpair'
    exact hne (Prod.mk.inj heq).1.symm

omit [TimestampText] in
/-- **The full inventory is what is read.** -/
theorem listsAll (model : DeviceModel) : model.ListsAll where
  declared component key := by
    constructor
    · rintro ⟨line, hline, rfl, rfl⟩
      obtain ⟨component, key, spec, hspec, rfl⟩ := mem_report_full.mp hline
      exact Option.isSome_iff_exists.mpr ⟨spec, hspec⟩
    · intro h
      obtain ⟨spec, hspec⟩ := Option.isSome_iff_exists.mp h
      exact ⟨datum component key spec, mem_report_full.mpr ⟨component, key, spec, hspec, rfl⟩,
        rfl, rfl⟩
  once := model.nodup_report
  supported line hline spec hspec := by
    rw [eq_datum hline hspec, map_fst_attributes]
    refine ⟨List.Nodup.filter _ (by simp [Attribute.all]), fun attribute_ => ?_⟩
    exact VariableSpec.mem_attributes
  read line hline spec hspec entry hentry hreadable := by
    rw [eq_datum hline hspec] at hentry
    obtain ⟨hsupported, hvalue⟩ := mem_attributes_datum hentry
    rw [hreadable, if_pos rfl] at hvalue
    refine ⟨hvalue, ?_⟩
    rw [get_of_spec hspec, hreadable, if_neg (by simp), if_neg (not_not_intro hsupported), hvalue]
  hidden line hline spec hspec entry hentry hreadable := by
    rw [eq_datum hline hspec] at hentry
    obtain ⟨-, hvalue⟩ := mem_attributes_datum hentry
    rw [hreadable, if_neg (by simp)] at hvalue
    refine ⟨hvalue, ?_⟩
    rw [get_of_spec hspec, hreadable, if_pos rfl]

end DeviceModel

/-- **Values that are written and not read do not show**: models that differ in such values only
give the same answers to every list of operations. And a full inventory has what is declared, and
the values that are read. -/
theorem writeOnly_hidden [TimestampText] (catalogue : String → Option StandardComponent) :
    (∀ model model' : DeviceModel, model.masked = model'.masked →
      ∀ operations, model.answers catalogue operations = model'.answers catalogue operations) ∧
    ∀ model : DeviceModel, model.ListsAll :=
  ⟨fun _ _ h => DeviceModel.answers_eq h catalogue, DeviceModel.listsAll⟩

end OcppKit

namespace OcppKit.Reference

/-! ### Two passwords -/

/-- A password that is written and not read. -/
def basicAuthPassword (value : String) : VariableSpec :=
  { VariableSpec.new "BasicAuthPassword" .string with
    mutability := .writeOnly
    values := SortedMap.empty.insert .actual value }

/-- A station with a password. -/
def secured (value : String) : DeviceModel :=
  DeviceModel.new.declare { name := "SecurityCtrlr" } (basicAuthPassword value)

theorem masked_secured (value value' : String) :
    (secured value).masked = (secured value').masked := rfl

/-- A CSMS asks for everything, changes the password, and asks again. -/
def inquiry : List DeviceModel.Operation :=
  [.paginate .fullInventory none none 1,
    .set { name := "SecurityCtrlr" } { name := "BasicAuthPassword" } .actual "three",
    .report .fullInventory none none,
    .get { name := "SecurityCtrlr" } { name := "BasicAuthPassword" } .actual]

/-- Stations with different passwords answer it alike. -/
theorem writeOnly_hidden_secured :
    @DeviceModel.answers epochOnly (fun _ => none) (secured "one") inquiry =
      @DeviceModel.answers epochOnly (fun _ => none) (secured "two") inquiry :=
  (@writeOnly_hidden epochOnly fun _ => none).1 _ _ (masked_secured "one" "two") _

end OcppKit.Reference
