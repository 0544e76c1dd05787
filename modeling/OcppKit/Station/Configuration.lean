import OcppKit.Library.Integers
import OcppKit.Library.SortedMap

/-!
# The configuration keys

A 1.6 station has a flat list of configuration keys, each with an access class and a type
(`OcppKit.ConfigurationKeys`). A CSMS writes one (`OcppKit.ConfigurationKeys.set`) and asks for
some, or for all (`OcppKit.ConfigurationKeys.report`).

The `AuthorizationKey` is a password: it is to be written and not read. No access class says so,
and a report has it with its value as any other key. So two registries that differ in it alone
are told apart by a report that covers it, until the value they differ in is overwritten:
`OcppKit.ConfigurationKeys.report_same_iff`. The registries are compared with the value masked
(`OcppKit.ConfigurationKeys.masked`), and every operation keeps them equal but for it
(`OcppKit.ConfigurationKeys.masked_run`).
-/

namespace OcppKit

/-! ### Keys -/

/-- What a change of the configuration is answered with. -/
inductive ConfigurationStatus where
  /-- Stored and in effect. -/
  | accepted
  /-- The key is read-only, or the value does not fit its type. -/
  | rejected
  /-- Stored, but only in effect after a reboot. -/
  | rebootRequired
  /-- This station does not implement the key. -/
  | notSupported
deriving DecidableEq, Repr

/-- The type a key's value has to parse as. -/
inductive ValueType where
  /-- Free text. -/
  | text
  /-- A whole number. -/
  | integer
  /-- `true` or `false`. -/
  | boolean
  /-- A comma-separated list. -/
  | csvList
deriving DecidableEq, Repr

/-- Whether a value is a valid instance of this type. -/
def ValueType.accepts (valueType : ValueType) (value : String) : Bool :=
  match valueType with
  | .text | .csvList => true
  | .integer => (Integers.parseI64 value).isSome
  | .boolean => value = "true" || value = "false"

/-- How a key behaves. -/
inductive Access where
  /-- Reported, never written. -/
  | readOnly
  /-- Writable, in effect immediately. -/
  | readWrite
  /-- Writable, in effect after a reboot. -/
  | rebootRequired
deriving DecidableEq, Repr

/-- One configuration key. -/
structure ConfigurationKey where
  /-- Its name. -/
  name : String
  /-- Whether and how it can be written. -/
  access : Access
  /-- The type of its value. -/
  valueType : ValueType
  /-- The feature profile it belongs to. -/
  profile : String
  /-- The current value; `none` is implemented but unset. -/
  value : Option String
deriving DecidableEq, Repr

/-- A key with a value. -/
def ConfigurationKey.with (key : ConfigurationKey) (value : String) : ConfigurationKey :=
  { key with value := some value }

/-- A key with its value left out. -/
def ConfigurationKey.unset (key : ConfigurationKey) : ConfigurationKey := { key with value := none }

/-- Whether a change of the key is stored. -/
def ConfigurationKey.takes (key : ConfigurationKey) (value : String) : Bool :=
  key.access ≠ .readOnly && key.valueType.accepts value

namespace ConfigurationKeys

/-- A key without a value. -/
def key (name : String) (access : Access) (valueType : ValueType) (profile : String) :
    ConfigurationKey :=
  ⟨name, access, valueType, profile, none⟩

/-- The standard keys, by feature profile. -/
def defaults : List ConfigurationKey :=
  [ (key "HeartbeatInterval" .readWrite .integer "Core").with "300",
    (key "AllowOfflineTxForUnknownId" .readWrite .boolean "Core").with "false",
    (key "AuthorizationCacheEnabled" .readWrite .boolean "Core").with "true",
    (key "AuthorizeRemoteTxRequests" .readOnly .boolean "Core").with "false",
    (key "ClockAlignedDataInterval" .readWrite .integer "Core").with "0",
    (key "ConnectionTimeOut" .readWrite .integer "Core").with "60",
    (key "ConnectorPhaseRotation" .readWrite .csvList "Core").with "Unknown",
    (key "GetConfigurationMaxKeys" .readOnly .integer "Core").with "50",
    (key "LocalAuthorizeOffline" .readWrite .boolean "Core").with "true",
    (key "LocalPreAuthorize" .readWrite .boolean "Core").with "false",
    (key "MeterValuesAlignedData" .readWrite .csvList "Core").with "",
    (key "MeterValuesSampledData" .readWrite .csvList "Core").with "Energy.Active.Import.Register",
    (key "MeterValueSampleInterval" .readWrite .integer "Core").with "60",
    (key "NumberOfConnectors" .readOnly .integer "Core").with "1",
    (key "ResetRetries" .readWrite .integer "Core").with "3",
    (key "StopTransactionOnEVSideDisconnect" .readWrite .boolean "Core").with "true",
    (key "StopTransactionOnInvalidId" .readWrite .boolean "Core").with "true",
    (key "StopTxnAlignedData" .readWrite .csvList "Core").with "",
    (key "StopTxnSampledData" .readWrite .csvList "Core").with "",
    (key "SupportedFeatureProfiles" .readOnly .csvList "Core").with
      "Core,FirmwareManagement,LocalAuthListManagement,Reservation,SmartCharging,RemoteTrigger",
    (key "TransactionMessageAttempts" .readWrite .integer "Core").with "3",
    (key "TransactionMessageRetryInterval" .readWrite .integer "Core").with "60",
    (key "UnlockConnectorOnEVSideDisconnect" .readWrite .boolean "Core").with "true",
    (key "WebSocketPingInterval" .readWrite .integer "Core").with "60",
    -- local authorization list
    (key "LocalAuthListEnabled" .readWrite .boolean "LocalAuthListManagement").with "true",
    (key "LocalAuthListMaxLength" .readOnly .integer "LocalAuthListManagement").with "0",
    (key "SendLocalListMaxLength" .readOnly .integer "LocalAuthListManagement").with "0",
    -- reservation
    (key "ReserveConnectorZeroSupported" .readOnly .boolean "Reservation").with "false",
    -- smart charging
    (key "ChargeProfileMaxStackLevel" .readOnly .integer "SmartCharging").with "3",
    (key "ChargingScheduleAllowedChargingRateUnit" .readOnly .csvList "SmartCharging").with
      "Current,Power",
    (key "ChargingScheduleMaxPeriods" .readOnly .integer "SmartCharging").with "10",
    (key "MaxChargingProfilesInstalled" .readOnly .integer "SmartCharging").with "10",
    -- security
    key "AuthorizationKey" .readWrite .text "Security",
    (key "SecurityProfile" .readWrite .integer "Security").with "1",
    (key "AdditionalRootCertificateCheck" .readOnly .boolean "Security").with "false",
    (key "CertificateSignedMaxChainSize" .readOnly .integer "Security").with "0",
    (key "CertificateStoreMaxLength" .readOnly .integer "Security").with "0",
    key "CpoName" .readWrite .text "Security",
    -- connection profile
    (key "ConnectionUrl" .rebootRequired .text "Core").with "" ]

/-- **Every default passes its own check.** -/
theorem defaults_accepted :
    ∀ key ∈ defaults, ∀ value ∈ key.value, key.valueType.accepts value = true := by
  decide

end ConfigurationKeys

/-! ### The registry -/

/-- **The registry of a station's configuration keys**, each under its name. -/
structure ConfigurationKeys where
  /-- The keys. -/
  keys : SortedMap String ConfigurationKey
  /-- They are under their names. -/
  named : ∀ entry ∈ keys.entries, entry.2.name = entry.1

namespace ConfigurationKeys

/-- A station that implements no keys at all. -/
def new : ConfigurationKeys := ⟨.empty, nofun⟩

/-- Declares a key, or replaces it. -/
def declare (registry : ConfigurationKeys) (key : ConfigurationKey) : ConfigurationKeys where
  keys := registry.keys.insert key.name key
  named entry hentry := by
    rcases SortedMap.mem_insert_iff.mp hentry with rfl | ⟨-, hentry⟩
    · rfl
    · exact registry.named entry hentry

/-- The standard keys, declared. -/
def withDefaults : ConfigurationKeys := defaults.foldl declare new

/-- Removes a key, so that it is reported as unknown. -/
def remove (registry : ConfigurationKeys) (name : String) : ConfigurationKeys where
  keys := registry.keys.remove name
  named entry hentry := registry.named entry (SortedMap.mem_remove_iff.mp hentry).2

/-- Reads a key. -/
def get (registry : ConfigurationKeys) (name : String) : Option ConfigurationKey :=
  registry.keys.find name

/-- The registry with the value of a key changed, if it is declared. -/
def modify (registry : ConfigurationKeys) (name : String) (value : Option String) :
    ConfigurationKeys where
  keys := registry.keys.modify name fun key => { key with value }
  named entry hentry := by
    obtain ⟨entry', hentry', rfl⟩ := List.mem_map.mp hentry
    have hname := registry.named entry' hentry'
    rw [SortedMap.modifyEntry]
    split
    · exact hname
    · exact hname

/-- **Applies a change of the configuration.** -/
def set (registry : ConfigurationKeys) (name value : String) :
    ConfigurationKeys × ConfigurationStatus :=
  match registry.get name with
  | none => (registry, .notSupported)
  | some key =>
      if key.access = .readOnly || !key.valueType.accepts value then (registry, .rejected)
      else
        (registry.modify name (some value),
          if key.access = .rebootRequired then .rebootRequired else .accepted)

/-- **Answers a request for keys**: those that are known, and the names that are not. Without a
request it is all of them. -/
def report (registry : ConfigurationKeys) (requested : List String) :
    List ConfigurationKey × List String :=
  if requested = [] then (registry.keys.entries.map Prod.snd, [])
  else
    (requested.filterMap registry.get, requested.filter fun name => (registry.get name).isNone)

/-- What is done to a registry. -/
inductive Operation where
  /-- A key is declared. -/
  | declare (key : ConfigurationKey)
  /-- A key is removed. -/
  | remove (name : String)
  /-- A key is written. -/
  | set (name value : String)

/-- What an operation makes of a registry. -/
def apply (registry : ConfigurationKeys) : Operation → ConfigurationKeys
  | .declare key => registry.declare key
  | .remove name => registry.remove name
  | .set name value => (registry.set name value).1

/-- What a list of operations makes of a registry. -/
def run (registry : ConfigurationKeys) (operations : List Operation) : ConfigurationKeys :=
  operations.foldl apply registry

/-! ### What is found afterwards -/

theorem ext_get {registry registry' : ConfigurationKeys}
    (h : ∀ name, registry.get name = registry'.get name) : registry = registry' := by
  obtain ⟨keys, named⟩ := registry
  obtain ⟨keys', named'⟩ := registry'
  obtain rfl : keys = keys' := SortedMap.ext_find h
  rfl

theorem name_of_get {registry : ConfigurationKeys} {name : String} {key : ConfigurationKey}
    (h : registry.get name = some key) : key.name = name :=
  registry.named (name, key) (SortedMap.find_eq_some_iff.mp h)

@[simp] theorem get_declare (registry : ConfigurationKeys) (key : ConfigurationKey)
    (name : String) :
    (registry.declare key).get name = if name = key.name then some key else registry.get name :=
  SortedMap.find_insert _ _ _ _

@[simp] theorem get_remove (registry : ConfigurationKeys) (name name' : String) :
    (registry.remove name).get name' = if name' = name then none else registry.get name' :=
  SortedMap.find_remove _ _ _

@[simp] theorem get_modify (registry : ConfigurationKeys) (name : String) (value : Option String)
    (name' : String) : (registry.modify name value).get name' =
      if name' = name then (registry.get name').map fun key => { key with value }
      else registry.get name' :=
  SortedMap.find_modify _ _ _ _

/-- **What a write does**: a key that takes the value has it, and otherwise nothing happens. -/
theorem set_cases (registry : ConfigurationKeys) (name value : String) :
    (∃ key, registry.get name = some key ∧ key.takes value = true ∧
      (registry.set name value).1 = registry.modify name (some value)) ∨
    ((∀ key ∈ registry.get name, key.takes value = false) ∧
      (registry.set name value).1 = registry) := by
  rw [set]
  rcases hget : registry.get name with _ | key
  · exact Or.inr ⟨nofun, rfl⟩
  · dsimp only
    split
    next h =>
      refine Or.inr ⟨?_, rfl⟩
      rintro _ ⟨⟩
      rw [ConfigurationKey.takes]
      rcases (by simpa using h : key.access = .readOnly ∨ key.valueType.accepts value = false)
        with h | h
      · simp [h]
      · simp [h]
    next h => exact Or.inl ⟨key, rfl, by simpa [ConfigurationKey.takes] using h, rfl⟩

/-! ### Two registries that differ in one value -/

/-- The registry with the value of a key left out. -/
def masked (registry : ConfigurationKeys) (secret : String) : ConfigurationKeys :=
  registry.modify secret none

@[simp] theorem get_masked (registry : ConfigurationKeys) (secret name : String) :
    (registry.masked secret).get name =
      if name = secret then (registry.get name).map ConfigurationKey.unset else registry.get name :=
  get_modify _ _ _ _

/-- **Registries that differ in one value only**: what is found is elsewhere the same, and there
the same but for the value. -/
theorem masked_eq_iff {registry registry' : ConfigurationKeys} {secret : String} :
    registry.masked secret = registry'.masked secret ↔
      (∀ name ≠ secret, registry.get name = registry'.get name) ∧
        (registry.get secret).map ConfigurationKey.unset =
          (registry'.get secret).map ConfigurationKey.unset := by
  constructor
  · intro h
    have hget := fun name => congrArg (fun r : ConfigurationKeys => r.get name) h
    simp only [get_masked] at hget
    refine ⟨fun name hname => ?_, ?_⟩
    · simpa only [if_neg hname] using hget name
    · simpa only [if_true] using hget secret
  · rintro ⟨hother, hsecret⟩
    refine ext_get fun name => ?_
    rw [get_masked, get_masked]
    split
    next heq => rw [heq, hsecret]
    next hne => exact hother name hne

/-- Registries that also agree in that value are the same. -/
theorem eq_of_masked {registry registry' : ConfigurationKeys} {secret : String}
    (h : registry.masked secret = registry'.masked secret)
    (hsecret : registry.get secret = registry'.get secret) : registry = registry' := by
  refine ext_get fun name => ?_
  rcases eq_or_ne name secret with rfl | hname
  · exact hsecret
  · exact (masked_eq_iff.mp h).1 name hname

/-- Every key they have is in both the same but for the value. -/
theorem unset_get_of_masked {registry registry' : ConfigurationKeys} {secret : String}
    (h : registry.masked secret = registry'.masked secret) (name : String) :
    (registry.get name).map ConfigurationKey.unset =
      (registry'.get name).map ConfigurationKey.unset := by
  rcases eq_or_ne name secret with rfl | hname
  · exact (masked_eq_iff.mp h).2
  · rw [(masked_eq_iff.mp h).1 name hname]

/-- Keys that are the same but for the value take the same values. -/
theorem takes_of_unset {key key' : ConfigurationKey} (h : key.unset = key'.unset) (value : String) :
    key.takes value = key'.takes value := by
  change key.unset.takes value = key'.unset.takes value
  rw [h]

/-- Where one registry takes a value, the other has the key and takes it too. -/
theorem exists_takes_of_masked {registry registry' : ConfigurationKeys} {secret : String}
    (h : registry.masked secret = registry'.masked secret) {name value : String}
    {key : ConfigurationKey}
    (hkey : registry.get name = some key) (htakes : key.takes value = true) :
    ∃ key', registry'.get name = some key' ∧ key'.takes value = true := by
  have hunset := unset_get_of_masked h name
  rw [hkey] at hunset
  obtain ⟨key', hkey', hsame⟩ := Option.map_eq_some_iff.mp hunset.symm
  exact ⟨key', hkey', (takes_of_unset hsame value).trans htakes⟩

/-- **An operation keeps the registries the same but for the value.** -/
theorem masked_apply {registry registry' : ConfigurationKeys} {secret : String}
    (h : registry.masked secret = registry'.masked secret) (operation : Operation) :
    (registry.apply operation).masked secret = (registry'.apply operation).masked secret := by
  obtain ⟨hother, hsecret⟩ := masked_eq_iff.mp h
  cases operation with
  | declare key =>
      refine masked_eq_iff.mpr ⟨fun name hname => ?_, ?_⟩
      · rw [apply, apply, get_declare, get_declare, hother name hname]
      · rw [apply, apply, get_declare, get_declare]
        split
        · rfl
        · exact hsecret
  | remove name' =>
      refine masked_eq_iff.mpr ⟨fun name hname => ?_, ?_⟩
      · rw [apply, apply, get_remove, get_remove, hother name hname]
      · rw [apply, apply, get_remove, get_remove]
        split
        · rfl
        · exact hsecret
  | set name' value =>
      rw [apply, apply]
      rcases registry.set_cases name' value with ⟨key, hkey, htakes, hset⟩ | ⟨hrefused, hset⟩
      · obtain ⟨key', hkey', htakes'⟩ := exists_takes_of_masked h hkey htakes
        rcases registry'.set_cases name' value with ⟨-, -, -, hset'⟩ | ⟨hrefused', -⟩
        · -- both have the new value
          rw [hset, hset']
          refine masked_eq_iff.mpr ⟨fun name hname => ?_, ?_⟩
          · rw [get_modify, get_modify, hother name hname]
          · rw [get_modify, get_modify]
            split
            · have hvalue := congrArg
                (Option.map fun key : ConfigurationKey => { key with value := some value }) hsecret
              rw [Option.map_map, Option.map_map] at hvalue
              exact congrArg (Option.map ConfigurationKey.unset) hvalue
            · exact hsecret
        · exact absurd htakes' (by simp [hrefused' key' hkey'])
      · rcases registry'.set_cases name' value with ⟨key', hkey', htakes', -⟩ | ⟨-, hset'⟩
        · obtain ⟨key, hkey, htakes⟩ := exists_takes_of_masked h.symm hkey' htakes'
          exact absurd htakes (by simp [hrefused key hkey])
        · rw [hset, hset', h]

/-- **And after any run.** -/
theorem masked_run {registry registry' : ConfigurationKeys} {secret : String}
    (h : registry.masked secret = registry'.masked secret) (operations : List Operation) :
    (registry.run operations).masked secret = (registry'.run operations).masked secret := by
  induction operations generalizing registry registry' with
  | nil => exact h
  | cons operation operations ih => exact ih (masked_apply h operation)

/-! ### Overwriting a value -/

/-- The operation decides what becomes of a key, whatever its value was. -/
def Operation.overwrites (key : ConfigurationKey) : Operation → Bool
  | .declare key' => key'.name = key.name
  | .remove name => name = key.name
  | .set name value => name = key.name && key.takes value

/-- An operation that does not overwrite the key leaves it. -/
theorem get_apply_of_not_overwrites {registry : ConfigurationKeys} {key : ConfigurationKey}
    {operation : Operation} (hkey : registry.get key.name = some key)
    (h : operation.overwrites key = false) :
    (registry.apply operation).get key.name = some key := by
  cases operation with
  | declare key' =>
      have hne : key'.name ≠ key.name := by simpa [Operation.overwrites] using h
      rw [apply, get_declare, if_neg hne.symm, hkey]
  | remove name =>
      have hne : name ≠ key.name := by simpa [Operation.overwrites] using h
      rw [apply, get_remove, if_neg hne.symm, hkey]
  | set name value =>
      rw [apply]
      rcases registry.set_cases name value with ⟨key', hkey', htakes, hset⟩ | ⟨-, hset⟩
      · have hne : key.name ≠ name := by
          rintro rfl
          obtain rfl := Option.some.inj (hkey.symm.trans hkey')
          simp [Operation.overwrites, htakes] at h
        rw [hset, get_modify, if_neg hne, hkey]
      · rw [hset, hkey]

/-- An operation that overwrites the key makes the same of both registries. -/
theorem get_apply_of_overwrites {registry registry' : ConfigurationKeys}
    {key key' : ConfigurationKey}
    {operation : Operation} (hkey : registry.get key.name = some key)
    (hkey' : registry'.get key.name = some key') (hsame : key.unset = key'.unset)
    (h : operation.overwrites key = true) :
    (registry.apply operation).get key.name = (registry'.apply operation).get key.name := by
  cases operation with
  | declare added =>
      have heq : added.name = key.name := by simpa [Operation.overwrites] using h
      rw [apply, apply, get_declare, get_declare, if_pos heq.symm, if_pos heq.symm]
  | remove name =>
      obtain rfl : name = key.name := by simpa [Operation.overwrites] using h
      rw [apply, apply, get_remove, get_remove, if_pos rfl, if_pos rfl]
  | set name value =>
      obtain ⟨rfl, htakes⟩ : name = key.name ∧ key.takes value = true := by
        simpa [Operation.overwrites] using h
      have htakes' : key'.takes value = true := (takes_of_unset hsame value).symm.trans htakes
      have hset := (registry.set_cases key.name value).resolve_right fun hrefused =>
        absurd htakes (by simp [hrefused.1 key hkey])
      have hset' := (registry'.set_cases key.name value).resolve_right fun hrefused =>
        absurd htakes' (by simp [hrefused.1 key' hkey'])
      obtain ⟨-, -, -, hset⟩ := hset
      obtain ⟨-, -, -, hset'⟩ := hset'
      rw [apply, apply, hset, hset', get_modify, get_modify, if_pos rfl, if_pos rfl, hkey, hkey']
      have hvalue := congrArg (fun key : ConfigurationKey => { key with value := some value }) hsame
      exact congrArg some hvalue

/-- **After a run the two registries are the same**, exactly if they were, or if the value was
overwritten. -/
theorem run_eq_iff {registry registry' : ConfigurationKeys} {secret : String}
    (h : registry.masked secret = registry'.masked secret) (operations : List Operation) :
    registry.run operations = registry'.run operations ↔
      registry.get secret = registry'.get secret ∨
        ∃ key ∈ registry.get secret, ∃ operation ∈ operations,
          operation.overwrites key = true := by
  induction operations generalizing registry registry' with
  | nil =>
      constructor
      · intro heq
        exact Or.inl (congrArg (fun r : ConfigurationKeys => r.get secret) heq)
      · rintro (hsecret | ⟨-, -, operation, hmem, -⟩)
        · exact eq_of_masked h hsecret
        · exact absurd hmem List.not_mem_nil
  | cons operation operations ih =>
      change (registry.apply operation).run operations = (registry'.apply operation).run operations
        ↔ _
      rw [ih (masked_apply h operation)]
      have hunset := (masked_eq_iff.mp h).2
      rcases hkey : registry.get secret with _ | key
      · -- the key is declared in neither
        have hnone : registry'.get secret = none := by simpa [hkey] using hunset
        have hsame := eq_of_masked h (hkey.trans hnone.symm)
        rw [hnone, hsame]
        simp
      obtain ⟨key', hkey', hsame⟩ : ∃ key', registry'.get secret = some key' ∧
          key'.unset = key.unset := by
        rw [hkey] at hunset
        exact Option.map_eq_some_iff.mp hunset.symm
      obtain rfl := name_of_get hkey
      rcases hover : operation.overwrites key with _ | _
      · have hover' : operation.overwrites key' = false := by
          rw [← hover]
          have hname : key'.name = key.name := name_of_get hkey'
          cases operation with
          | declare added => simp only [Operation.overwrites, hname]
          | remove name => simp only [Operation.overwrites, hname]
          | set name value =>
              simp only [Operation.overwrites, hname]
              rw [takes_of_unset hsame]
        have hname : key'.name = key.name := name_of_get hkey'
        have hleft := get_apply_of_not_overwrites hkey hover
        have hright := get_apply_of_not_overwrites (hname.symm ▸ hkey') hover'
        rw [hname] at hright
        rw [hleft, hright, hkey']
        simp [hover]
      · refine iff_of_true ?_ (Or.inr ⟨key, rfl, operation, List.mem_cons_self, hover⟩)
        exact Or.inl (get_apply_of_overwrites hkey hkey' hsame.symm hover)

/-! ### What is reported -/

/-- The keys of a registry are what it reports when all are asked for. -/
theorem eq_of_values {registry registry' : ConfigurationKeys}
    (h : registry.keys.entries.map Prod.snd = registry'.keys.entries.map Prod.snd) :
    registry = registry' := by
  have hentries : ∀ r : ConfigurationKeys,
      (r.keys.entries.map Prod.snd).map (fun key => (key.name, key)) = r.keys.entries := by
    intro r
    rw [List.map_map]
    refine (List.map_congr_left fun entry hentry => ?_).trans (List.map_id _)
    exact Prod.ext (r.named entry hentry) rfl
  obtain ⟨keys, named⟩ := registry
  obtain ⟨keys', named'⟩ := registry'
  obtain rfl : keys = keys' :=
    SortedMap.ext ((hentries ⟨keys, named⟩).symm.trans ((congrArg _ h).trans
      (hentries ⟨keys', named'⟩)))
  rfl

/-- **A report tells two registries apart that differ in one value**, if it covers it. -/
theorem report_eq_iff {registry registry' : ConfigurationKeys} {secret : String}
    (h : registry.masked secret = registry'.masked secret) (requested : List String) :
    registry.report requested = registry'.report requested ↔
      registry = registry' ∨ (requested ≠ [] ∧ secret ∉ requested) := by
  constructor
  · intro hreport
    rw [report, report] at hreport
    split at hreport
    next =>
      exact Or.inl (eq_of_values (Prod.ext_iff.mp hreport).1)
    next hne =>
      refine or_iff_not_imp_right.mpr fun hcovered => ?_
      have hmem : secret ∈ requested := by
        by_contra hmem
        exact hcovered ⟨hne, hmem⟩
      have hknown : requested.filterMap registry.get = requested.filterMap registry'.get :=
        (Prod.ext_iff.mp hreport).1
      have hfound : ∀ {r r' : ConfigurationKeys} {key : ConfigurationKey},
          requested.filterMap r.get = requested.filterMap r'.get →
          r.get secret = some key → r'.get secret = some key := by
        intro r r' key hknown hkey
        have hin : key ∈ requested.filterMap r.get := List.mem_filterMap.mpr ⟨secret, hmem, hkey⟩
        rw [hknown] at hin
        obtain ⟨name, -, hname⟩ := List.mem_filterMap.mp hin
        rwa [← name_of_get hkey, name_of_get hname]
      refine eq_of_masked h (Option.ext fun key => ?_)
      exact ⟨hfound hknown, hfound hknown.symm⟩
  · rintro (rfl | ⟨hne, hnot⟩)
    · rfl
    · have hget : ∀ name ∈ requested, registry.get name = registry'.get name := by
        rintro name hmem
        refine (masked_eq_iff.mp h).1 name ?_
        rintro rfl
        exact hnot hmem
      rw [report, report, if_neg hne, if_neg hne]
      refine Prod.ext (List.filterMap_congr hget) (List.filter_congr fun name hmem => ?_)
      rw [hget name hmem]

/-- **The answers to a CSMS depend on the `AuthorizationKey`**: after any operations the reports
of two registries that differ in its value alone are the same, exactly if the value is the same,
if it was overwritten, or if the key is not asked for. -/
theorem report_same_iff {registry registry' : ConfigurationKeys}
    (h : registry.masked "AuthorizationKey" = registry'.masked "AuthorizationKey")
    (operations : List Operation) (requested : List String) :
    (registry.run operations).report requested = (registry'.run operations).report requested ↔
      registry.get "AuthorizationKey" = registry'.get "AuthorizationKey" ∨
        (∃ key ∈ registry.get "AuthorizationKey", ∃ operation ∈ operations,
          operation.overwrites key = true) ∨
        (requested ≠ [] ∧ "AuthorizationKey" ∉ requested) := by
  rw [report_eq_iff (masked_run h operations), run_eq_iff h, or_assoc]

end ConfigurationKeys

end OcppKit

namespace OcppKit.Reference

/-! ### A password read back -/

/-- A station that implements the key, as the standard keys declare it. -/
def keyed : ConfigurationKeys :=
  ConfigurationKeys.new.declare
    (ConfigurationKeys.key "AuthorizationKey" .readWrite .text "Security")

/-- With a password. -/
def firstPassword : ConfigurationKeys := (keyed.set "AuthorizationKey" "one").1

/-- With another. -/
def otherPassword : ConfigurationKeys := (keyed.set "AuthorizationKey" "two").1

theorem masked_firstPassword :
    firstPassword.masked "AuthorizationKey" = otherPassword.masked "AuthorizationKey" := rfl

/-- They are told apart when all keys are asked for, and no longer when the password is
changed. -/
theorem report_same_iff_firstPassword :
    ¬(firstPassword.run []).report [] = (otherPassword.run []).report [] ∧
      (firstPassword.run [.set "AuthorizationKey" "secret"]).report [] =
        (otherPassword.run [.set "AuthorizationKey" "secret"]).report [] := by
  constructor
  · rw [ConfigurationKeys.report_same_iff masked_firstPassword]
    decide
  · exact (ConfigurationKeys.report_same_iff masked_firstPassword _ _).mpr (by decide)

/-- **The `AuthorizationKey` is read back.** -/
theorem authorizationKey_reported : ¬∀ (registry registry' : ConfigurationKeys)
    (operations : List ConfigurationKeys.Operation) (requested : List String),
    registry.masked "AuthorizationKey" = registry'.masked "AuthorizationKey" →
      (registry.run operations).report requested = (registry'.run operations).report requested := by
  intro h
  exact absurd (h firstPassword otherPassword [] [] masked_firstPassword) (by decide)

end OcppKit.Reference
