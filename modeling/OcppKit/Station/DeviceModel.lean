import OcppKit.Decimal.Spelled
import OcppKit.Externals
import OcppKit.Library.SortedMap
import OcppKit.Transport.Security

/-!
# The device model

A 2.x station has components, and a component has variables (`OcppKit.DeviceModel`). A variable
is declared with its characteristics – the type of its values, whether it is read or written, the
values it is restricted to – and with the attributes it supports, each of which may have a value
(`OcppKit.VariableSpec`). A CSMS reads an attribute (`OcppKit.DeviceModel.get`), writes one
(`OcppKit.DeviceModel.set`), and asks for an inventory (`OcppKit.DeviceModel.report`), which it is
sent in pages (`OcppKit.DeviceModel.paginate`).

What is done to a model is seen in the variable that is found under its two keys
(`OcppKit.DeviceModel.spec`): an operation changes it at one place or not at all. What a write
does is said once, in `OcppKit.DeviceModel.set_cases`.

Timestamps are read by a library: which texts are one is a parameter
(`OcppKit.TimestampText`).
-/

namespace OcppKit

/-! ### Variables -/

/-- Which attribute of a variable is meant. -/
inductive Attribute where
  /-- The value in effect. -/
  | actual
  /-- The value the operator wants to reach. -/
  | target
  /-- The lower bound of the accepted range. -/
  | minSet
  /-- The upper bound of the accepted range. -/
  | maxSet
deriving Repr

namespace Attribute

/-- Its place in the order. -/
def place : Attribute → ℕ
  | actual => 0
  | target => 1
  | minSet => 2
  | maxSet => 3

theorem place_injective : Function.Injective place := by
  rintro (_ | _ | _ | _) (_ | _ | _ | _) h <;> first | rfl | cases h

instance : LinearOrder Attribute := LinearOrder.lift' place place_injective

/-- The attributes, in their order. -/
def all : List Attribute := [actual, target, minSet, maxSet]

theorem mem_all (attribute_ : Attribute) : attribute_ ∈ all := by
  cases attribute_ <;> simp [all]

/-- Parses a wire value. -/
def fromWire (value : String) : Option Attribute :=
  if value = "Actual" then some actual
  else if value = "Target" then some target
  else if value = "MinSet" then some minSet
  else if value = "MaxSet" then some maxSet
  else none

end Attribute

/-- Whether a variable can be written. -/
inductive Mutability where
  /-- Reads only. -/
  | readOnly
  /-- Writes only: passwords and keys, which are never reported back. -/
  | writeOnly
  /-- Reads and writes. -/
  | readWrite
deriving DecidableEq, Repr

/-- Whether the value may be reported. -/
def Mutability.readable (mutability : Mutability) : Bool := mutability ≠ .writeOnly

/-- Whether the value may be written. -/
def Mutability.writable (mutability : Mutability) : Bool := mutability ≠ .readOnly

/-- What a value has to parse as. -/
inductive DataType where
  /-- Free text. -/
  | string
  /-- A decimal number. -/
  | decimal
  /-- A whole number. -/
  | integer
  /-- A timestamp. -/
  | dateTime
  /-- `true` or `false`. -/
  | boolean
  /-- One of a list of values. -/
  | optionList
  /-- Some of a list of values, with commas between them. -/
  | sequenceList
  /-- Some of a list of values, with commas between them, in any order. -/
  | memberList
deriving DecidableEq, Repr

namespace DataType

/-- Parses a data type, as the schemas spell it. -/
def fromWire (value : String) : Option DataType :=
  if value = "string" then some string
  else if value = "decimal" then some decimal
  else if value = "integer" then some integer
  else if value = "dateTime" then some dateTime
  else if value = "boolean" then some boolean
  else if value = "OptionList" then some optionList
  else if value = "SequenceList" then some sequenceList
  else if value = "MemberList" then some memberList
  else none

/-- The items of a list, without the white space around them. -/
def items (value : String) : List String :=
  (value.toList.splitOn ',').map fun item => String.ofList (trimSpace item)

/-- **Whether a value is a valid instance of this type**, given the values it is restricted to. -/
def accepts [TimestampText] (dataType : DataType) (value : String) (valuesList : List String) :
    Bool :=
  match dataType with
  | string => true
  | boolean => value = "true" || value = "false"
  | integer => (Integers.parseI64 value).isSome
  | decimal => (Decimal.fromStr value).isOk
  | dateTime => TimestampText.parses value
  | optionList => valuesList.isEmpty || valuesList.contains value
  | sequenceList | memberList =>
      valuesList.isEmpty || (items value).all fun item => valuesList.contains item

end DataType

/-- Identifies one component. -/
@[ext]
structure ComponentKey where
  /-- Its name. -/
  name : String
  /-- Which instance, when there are several. -/
  instance_ : Option String := none
  /-- The EVSE it belongs to. -/
  evse : Option ℕ := none
  /-- The connector of the EVSE. -/
  connector : Option ℕ := none
deriving Repr

/-- The fields, in the order they are compared in. -/
def ComponentKey.fields (key : ComponentKey) :
    String ×ₗ WithBot String ×ₗ WithBot ℕ ×ₗ WithBot ℕ :=
  toLex (key.name, toLex (key.instance_, toLex (key.evse, key.connector)))

theorem ComponentKey.fields_injective : Function.Injective ComponentKey.fields := by
  intro key key' h
  obtain ⟨hname, h⟩ := Prod.mk.inj (toLex.injective h)
  obtain ⟨hinstance, h⟩ := Prod.mk.inj (toLex.injective h)
  obtain ⟨hevse, hconnector⟩ := Prod.mk.inj (toLex.injective h)
  exact ComponentKey.ext hname hinstance hevse hconnector

instance : LinearOrder ComponentKey :=
  LinearOrder.lift' ComponentKey.fields ComponentKey.fields_injective

/-- Identifies one variable of a component. -/
@[ext]
structure VariableKey where
  /-- Its name. -/
  name : String
  /-- Which instance. -/
  instance_ : Option String := none
deriving Repr

/-- The fields, in the order they are compared in. -/
def VariableKey.fields (key : VariableKey) : String ×ₗ WithBot String :=
  toLex (key.name, key.instance_)

theorem VariableKey.fields_injective : Function.Injective VariableKey.fields := by
  intro key key' h
  obtain ⟨hname, hinstance⟩ := Prod.mk.inj (toLex.injective h)
  exact VariableKey.ext hname hinstance

instance : LinearOrder VariableKey :=
  LinearOrder.lift' VariableKey.fields VariableKey.fields_injective

/-- **How a variable is declared**, and the values it has. -/
structure VariableSpec where
  /-- Which variable it is. -/
  key : VariableKey
  /-- The type of its values. -/
  dataType : DataType
  /-- Whether it can be written. -/
  mutability : Mutability
  /-- The unit. -/
  unit : Option String
  /-- The values it is restricted to. -/
  valuesList : List String
  /-- The least number it takes. -/
  minLimit : Option Decimal
  /-- The greatest number it takes. -/
  maxLimit : Option Decimal
  /-- Whether the value survives a reboot. -/
  persistent : Bool
  /-- Whether the value can never change. -/
  constant : Bool
  /-- Whether a write takes effect with a reboot. -/
  rebootRequired : Bool
  /-- The attributes it supports, whether or not they have a value. -/
  supported : Finset Attribute
  /-- The values. -/
  values : SortedMap Attribute String

namespace VariableSpec

/-- Declares a variable. -/
def new (name : String) (dataType : DataType) : VariableSpec where
  key := { name }
  dataType := dataType
  mutability := .readOnly
  unit := none
  valuesList := []
  minLimit := none
  maxLimit := none
  persistent := true
  constant := false
  rebootRequired := false
  supported := {.actual}
  values := .empty

/-- The variable with an attribute it supports, without a value. -/
def supports (spec : VariableSpec) (attribute_ : Attribute) : VariableSpec :=
  { spec with supported := insert attribute_ spec.supported }

/-- The attributes it supports, in their order. -/
def attributes (spec : VariableSpec) : List Attribute :=
  Attribute.all.filter (· ∈ spec.supported)

theorem mem_attributes {spec : VariableSpec} {attribute_ : Attribute} :
    attribute_ ∈ spec.attributes ↔ attribute_ ∈ spec.supported := by
  simp [attributes, Attribute.mem_all]

/-- The variable with a value written. -/
def store (spec : VariableSpec) (attribute_ : Attribute) (value : String) : VariableSpec :=
  { spec with values := spec.values.insert attribute_ value }

/-- Whether the number a value parses as is outside the limits. -/
def excludes (spec : VariableSpec) (value : String) : Bool :=
  match Decimal.fromStr value with
  | .ok number =>
      spec.minLimit.any (fun min => number.compare min = .lt) ||
        spec.maxLimit.any (fun max => number.compare max = .gt)
  | .error _ => false

/-- Whether its numbers are compared with the limits. -/
def numeric (spec : VariableSpec) : Bool :=
  spec.dataType = .integer || spec.dataType = .decimal

end VariableSpec

/-! ### The registry -/

/-- What a read is refused with. -/
inductive GetStatus where
  /-- No such component. -/
  | unknownComponent
  /-- No such variable in that component. -/
  | unknownVariable
  /-- The variable does not have that attribute. -/
  | notSupportedAttributeType
  /-- The variable is not to be read. -/
  | rejected
deriving DecidableEq, Repr

/-- What a write is answered with. -/
inductive SetStatus where
  /-- Stored and in effect. -/
  | accepted
  /-- Stored, but only in effect after a reboot. -/
  | rebootRequired
  /-- No such component. -/
  | unknownComponent
  /-- No such variable in that component. -/
  | unknownVariable
  /-- The variable does not have that attribute. -/
  | notSupportedAttributeType
  /-- The variable is not to be written, or the value is not one it takes. -/
  | rejected
deriving DecidableEq, Repr

/-- Whether the value was stored. -/
def SetStatus.stored : SetStatus → Bool
  | accepted | rebootRequired => true
  | unknownComponent | unknownVariable | notSupportedAttributeType | rejected => false

/-- One line of an inventory. -/
structure ReportDatum where
  /-- Which component. -/
  component : ComponentKey
  /-- Which variable. -/
  variable_ : VariableKey
  /-- Its attributes and their values. -/
  attributes : List (Attribute × Mutability × Option String)
  /-- Whether it can be written. -/
  mutability : Mutability
  /-- The type of its values. -/
  dataType : DataType
  /-- The unit. -/
  unit : Option String
  /-- The values it is restricted to. -/
  valuesList : List String
  /-- The least number it takes. -/
  minLimit : Option Decimal
  /-- The greatest number it takes. -/
  maxLimit : Option Decimal
  /-- Whether the value survives a reboot. -/
  persistent : Bool
  /-- Whether the value can never change. -/
  constant : Bool

/-- Which part of the inventory is asked for. -/
inductive ReportBase where
  /-- All of it. -/
  | fullInventory
  /-- What can be configured. -/
  | configurationInventory
  /-- What sums the station up. -/
  | summaryInventory
deriving DecidableEq, Repr

/-- One variable of a standard component. -/
structure StandardVariable where
  /-- Its name. -/
  name : String
  /-- Which instance. -/
  instance_ : Option String
  /-- The attribute that is meant. -/
  attribute_ : Option String
  /-- The type of its values. -/
  dataType : Option String
  /-- The unit. -/
  unit : Option String

/-- One component of the standard catalogue. -/
structure StandardComponent where
  /-- Its name. -/
  name : String
  /-- Its variables. -/
  variables_ : List StandardVariable

/-- **The registry of components and variables.** -/
@[ext]
structure DeviceModel where
  /-- The components, and the variables of each. -/
  components : SortedMap ComponentKey (SortedMap VariableKey VariableSpec)

namespace DeviceModel

/-- An empty registry. -/
def new : DeviceModel := ⟨.empty⟩

/-- The variable that is found under the two keys. -/
def spec (model : DeviceModel) (component : ComponentKey) (key : VariableKey) :
    Option VariableSpec :=
  (model.components.find component).bind fun variables_ => variables_.find key

/-- The registry with a variable changed, if it is declared. -/
def modify (model : DeviceModel) (component : ComponentKey) (key : VariableKey)
    (f : VariableSpec → VariableSpec) : DeviceModel :=
  ⟨model.components.modify component fun variables_ => variables_.modify key f⟩

/-- **Declares a variable**, or replaces it. -/
def declare (model : DeviceModel) (component : ComponentKey) (spec : VariableSpec) :
    DeviceModel :=
  ⟨model.components.insert component
    (((model.components.find component).getD .empty).insert spec.key spec)⟩

/-- What a variable of the catalogue is declared as. -/
def standardSpec (standard : StandardVariable) : VariableSpec :=
  { VariableSpec.new standard.name ((standard.dataType.bind DataType.fromWire).getD .string) with
    key := ⟨standard.name, standard.instance_⟩
    unit := standard.unit }

/-- Declares a variable of the catalogue. A variable that is there only has one more attribute, if
one is named besides the first. -/
def declareVariable (model : DeviceModel) (component : ComponentKey)
    (standard : StandardVariable) : DeviceModel × Bool :=
  let spec := standardSpec standard
  match (standard.attribute_.bind Attribute.fromWire).filter (· ≠ .actual) with
  | some attribute_ =>
      if (model.spec component spec.key).isSome then
        (model.modify component spec.key fun existing => existing.supports attribute_, false)
      else (model.declare component (spec.supports attribute_), true)
  | none => (model.declare component spec, true)

/-- Declares the variables of a list, and counts them. -/
def declareAll (component : ComponentKey) :
    DeviceModel → List StandardVariable → DeviceModel × ℕ
  | model, [] => (model, 0)
  | model, standard :: variables_ =>
      let declared := model.declareVariable component standard
      let rest := declareAll component declared.1 variables_
      (rest.1, if declared.2 then rest.2 + 1 else rest.2)

/-- **Declares a component of the catalogue**, and says how many variables that are. -/
def declareStandard (model : DeviceModel) (catalogue : String → Option StandardComponent)
    (component : String) : DeviceModel × Option ℕ :=
  match catalogue component with
  | none => (model, none)
  | some standard =>
      let declared := declareAll { name := standard.name } model standard.variables_
      (declared.1, some declared.2)

/-- **Reads one attribute.** -/
def get (model : DeviceModel) (component : ComponentKey) (key : VariableKey)
    (attribute_ : Attribute) : Except GetStatus String :=
  match model.components.find component with
  | none => .error .unknownComponent
  | some variables_ =>
  match variables_.find key with
  | none => .error .unknownVariable
  | some spec =>
  if spec.mutability.readable = false then .error .rejected
  else if attribute_ ∉ spec.supported then .error .notSupportedAttributeType
  else .ok ((spec.values.find attribute_).getD "")

/-- **Writes one attribute**, if the variable is to be written and takes the value. -/
def set [TimestampText] (model : DeviceModel) (component : ComponentKey) (key : VariableKey)
    (attribute_ : Attribute) (value : String) : DeviceModel × SetStatus :=
  match model.components.find component with
  | none => (model, .unknownComponent)
  | some variables_ =>
  match variables_.find key with
  | none => (model, .unknownVariable)
  | some spec =>
  if spec.mutability.writable = false || spec.constant then (model, .rejected)
  else if attribute_ ∉ spec.supported then (model, .notSupportedAttributeType)
  else if spec.dataType.accepts value spec.valuesList = false then (model, .rejected)
  else if spec.numeric && spec.excludes value then (model, .rejected)
  else
    (model.modify component key fun spec => spec.store attribute_ value,
      if spec.rebootRequired then .rebootRequired else .accepted)

/-- Whether a variable belongs to a summary. -/
def isSummaryVariable (name : String) : Bool :=
  ["AvailabilityState", "Active", "Problem", "Tripped", "Overload", "Fallback"].contains name

/-- Whether a variable is in that part of the inventory. -/
def includes (base : ReportBase) (key : VariableKey) (spec : VariableSpec) : Bool :=
  match base with
  | .fullInventory => true
  | .configurationInventory => spec.mutability.writable
  | .summaryInventory => isSummaryVariable key.name

/-- The line of a variable. -/
def datum (component : ComponentKey) (key : VariableKey) (spec : VariableSpec) : ReportDatum where
  component := component
  variable_ := key
  attributes := spec.attributes.map fun attribute_ =>
    (attribute_, spec.mutability,
      if spec.mutability.readable then spec.values.find attribute_ else none)
  mutability := spec.mutability
  dataType := spec.dataType
  unit := spec.unit
  valuesList := spec.valuesList
  minLimit := spec.minLimit
  maxLimit := spec.maxLimit
  persistent := spec.persistent
  constant := spec.constant

/-- **An inventory**, of the components and variables of these names if there is one. -/
def report (model : DeviceModel) (base : ReportBase)
    (componentFilter variableFilter : Option String) : List ReportDatum :=
  model.components.entries.flatMap fun (component, variables_) =>
    if componentFilter.any (· ≠ component.name) then []
    else
      variables_.entries.filterMap fun (key, spec) =>
        if variableFilter.any (· ≠ key.name) then none
        else if includes base key spec = false then none
        else some (datum component key spec)

/-- Pages of a number of lines, the last of which may have fewer. -/
def chunks (perPage : ℕ) : List ReportDatum → List (List ReportDatum)
  | [] => []
  | line :: data =>
      (line :: data.take (perPage - 1)) :: chunks perPage (data.drop (perPage - 1))
termination_by data => data.length
decreasing_by
  rw [List.length_drop, List.length_cons]
  omega

/-- Pages with their numbers, and whether another follows. -/
def numbered : ℤ → List (List ReportDatum) → List (ℤ × Bool × List ReportDatum)
  | _, [] => []
  | seq, chunk :: rest => (seq, !rest.isEmpty, chunk) :: numbered (seq + 1) rest

/-- **Splits a report into pages.** -/
def paginate (data : List ReportDatum) (perPage : ℕ) : List (ℤ × Bool × List ReportDatum) :=
  if data = [] then [(0, false, [])]
  else numbered 0 (chunks (max perPage 1) data)

/-- What is done with a registry. -/
inductive Operation where
  /-- A variable is declared. -/
  | declare (component : ComponentKey) (spec : VariableSpec)
  /-- A component of the catalogue is declared. -/
  | declareStandard (component : String)
  /-- An attribute is read. -/
  | get (component : ComponentKey) (key : VariableKey) (attribute_ : Attribute)
  /-- An attribute is written. -/
  | set (component : ComponentKey) (key : VariableKey) (attribute_ : Attribute) (value : String)
  /-- An inventory is asked for. -/
  | report (base : ReportBase) (componentFilter variableFilter : Option String)
  /-- An inventory is asked for in pages. -/
  | paginate (base : ReportBase) (componentFilter variableFilter : Option String) (perPage : ℕ)

/-- What an operation returns. -/
inductive Output where
  /-- Nothing. -/
  | nothing
  /-- How many variables were declared. -/
  | declared (count : Option ℕ)
  /-- A value, or why there is none. -/
  | value (result : Except GetStatus String)
  /-- What a write is answered with. -/
  | status (status : SetStatus)
  /-- An inventory. -/
  | data (data : List ReportDatum)
  /-- Pages. -/
  | pages (pages : List (ℤ × Bool × List ReportDatum))

/-- **An operation**: the registry afterwards, and what is returned. -/
def apply [TimestampText] (catalogue : String → Option StandardComponent) (model : DeviceModel) :
    Operation → DeviceModel × Output
  | .declare component spec => (model.declare component spec, .nothing)
  | .declareStandard component =>
      ((model.declareStandard catalogue component).1,
        .declared (model.declareStandard catalogue component).2)
  | .get component key attribute_ => (model, .value (model.get component key attribute_))
  | .set component key attribute_ value =>
      ((model.set component key attribute_ value).1,
        .status (model.set component key attribute_ value).2)
  | .report base componentFilter variableFilter =>
      (model, .data (model.report base componentFilter variableFilter))
  | .paginate base componentFilter variableFilter perPage =>
      (model, .pages (paginate (model.report base componentFilter variableFilter) perPage))

/-- What a list of operations makes of a registry. -/
def run [TimestampText] (catalogue : String → Option StandardComponent) (model : DeviceModel)
    (operations : List Operation) : DeviceModel :=
  operations.foldl (fun model operation => (model.apply catalogue operation).1) model

/-! ### What is found afterwards -/

variable {model : DeviceModel} {component : ComponentKey} {key : VariableKey}
  {attribute_ : Attribute}

theorem spec_modify (model : DeviceModel) (component : ComponentKey) (key : VariableKey)
    (f : VariableSpec → VariableSpec) (component' : ComponentKey) (key' : VariableKey) :
    (model.modify component key f).spec component' key' =
      if component' = component ∧ key' = key then (model.spec component' key').map f
      else model.spec component' key' := by
  rw [spec, modify, SortedMap.find_modify]
  by_cases hcomponent : component' = component
  · rw [if_pos hcomponent, spec]
    rcases model.components.find component' with _ | variables_
    · simp
    · simp only [Option.map_some, Option.bind_some, SortedMap.find_modify, hcomponent, true_and]
  · rw [if_neg hcomponent, if_neg fun h => hcomponent h.1, spec]

theorem spec_declare (model : DeviceModel) (component : ComponentKey) (declared : VariableSpec)
    (component' : ComponentKey) (key' : VariableKey) :
    (model.declare component declared).spec component' key' =
      if component' = component ∧ key' = declared.key then some declared
      else model.spec component' key' := by
  rw [spec, declare, SortedMap.find_insert]
  by_cases hcomponent : component' = component
  · rw [if_pos hcomponent, Option.bind_some, SortedMap.find_insert, hcomponent, spec]
    simp only [true_and]
    refine if_congr Iff.rfl rfl ?_
    rcases model.components.find component with _ | variables_
    · rfl
    · rfl
  · rw [if_neg hcomponent, if_neg fun h => hcomponent h.1, spec]

/-- A variable that is found is read as its attribute says. -/
theorem get_of_spec {spec : VariableSpec} (h : model.spec component key = some spec)
    (attribute_ : Attribute) : model.get component key attribute_ =
      if spec.mutability.readable = false then .error .rejected
      else if attribute_ ∉ spec.supported then .error .notSupportedAttributeType
      else .ok ((spec.values.find attribute_).getD "") := by
  obtain ⟨variables_, hcomponent, hvariable⟩ := Option.bind_eq_some_iff.mp h
  rw [get, hcomponent]
  dsimp only
  rw [hvariable]

/-- The variable is to be written, has the attribute, and takes the value. -/
structure Takes [TimestampText] (spec : VariableSpec) (attribute_ : Attribute) (value : String) :
    Prop where
  /-- It is to be written. -/
  writable : spec.mutability.writable = true
  /-- It can change. -/
  variable_ : spec.constant = false
  /-- It has the attribute. -/
  supported : attribute_ ∈ spec.supported
  /-- The value is of its type. -/
  accepts : spec.dataType.accepts value spec.valuesList = true
  /-- The number that is read is within the limits. -/
  within : (spec.numeric && spec.excludes value) = false

/-- **What a write does**: a variable that takes the value has it, and otherwise nothing
happens. -/
theorem set_cases [TimestampText] (model : DeviceModel) (component : ComponentKey)
    (key : VariableKey) (attribute_ : Attribute) (value : String) :
    (∃ spec, model.spec component key = some spec ∧ Takes spec attribute_ value ∧
      model.set component key attribute_ value =
        (model.modify component key fun spec => spec.store attribute_ value,
          if spec.rebootRequired then .rebootRequired else .accepted)) ∨
    ((∀ spec ∈ model.spec component key, ¬Takes spec attribute_ value) ∧
      (model.set component key attribute_ value).2.stored = false ∧
      (model.set component key attribute_ value).1 = model) := by
  rw [spec, set]
  rcases model.components.find component with _ | variables_
  · exact Or.inr ⟨by simp, rfl, rfl⟩
  dsimp only [Option.bind_some]
  rcases variables_.find key with _ | spec
  · exact Or.inr ⟨by simp, rfl, rfl⟩
  dsimp only
  have honly : ∀ {φ : VariableSpec → Prop}, φ spec → ∀ spec' ∈ some spec, φ spec' := by
    rintro φ hφ _ ⟨⟩
    exact hφ
  split
  next h =>
    refine Or.inr ⟨honly fun htakes => ?_, rfl, rfl⟩
    simp [htakes.writable, htakes.variable_] at h
  next hwritable =>
  split
  next h => exact Or.inr ⟨honly fun htakes => h htakes.supported, rfl, rfl⟩
  next hsupported =>
  split
  next h =>
    refine Or.inr ⟨honly fun htakes => ?_, rfl, rfl⟩
    exact absurd (htakes.accepts.symm.trans h) (by simp)
  next haccepts =>
  split
  next h =>
    refine Or.inr ⟨honly fun htakes => ?_, rfl, rfl⟩
    exact absurd (htakes.within.symm.trans h) (by simp)
  next hwithin =>
    simp only [Bool.or_eq_true, decide_eq_true_eq, not_or, Bool.not_eq_true, Bool.not_eq_false]
      at hwritable
    exact Or.inl ⟨spec, rfl, ⟨hwritable.1, hwritable.2, not_not.mp hsupported,
      by simpa using haccepts, by simpa using hwithin⟩, rfl⟩

end DeviceModel

end OcppKit

namespace OcppKit.Reference

/-- A reader of timestamps that knows the epoch. -/
abbrev epochOnly : TimestampText := ⟨fun text => text = "1970-01-01T00:00:00Z"⟩

end OcppKit.Reference
