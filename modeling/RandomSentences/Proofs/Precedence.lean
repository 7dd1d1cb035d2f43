import RandomSentences.Config.Load
import RandomSentences.Files.Tree
import RandomSentences.Proofs.Decoding

/-!
# Which source a field is read from

Three sources can say something on a field of a store's configuration: a variable of the
environment, a key of a document, and the default. A configuration is loaded field by field: the
first of the three that says something on a field decides about it, and what the others say on it,
or any source on other fields, does not matter. `StoreConfig.load_of_isPlain` says so for
environments in which no two variables compete for a field (`Environment.IsPlain`).

* **Reading.** `ConfigField.Takes` says what becomes of a field with a given setting, without
  mentioning how settings are decoded, and `StoreConfig.ofSettings_eq_ok_iff` and
  `StoreConfig.ofSettings_eq_error_iff` that a configuration is put together by it, or fails for the
  first field, in the order of their names, that takes nothing.
* **The environment.** `Environment.value?` is what an environment says on a field. It only looks at
  the variables that are named for the field, and `Settings.ofEnvironment_of_isPlain` says that
  in a plain environment the passing over and overriding of variables comes to no more.
* **The file.** `StoreConfig.readDocument_cases` says which file is read for a path, and when it
  ends the loading.
-/

namespace RandomSentences

/-! ### Reading settings -/

namespace ConfigField

/-- What the value of a field is. -/
abbrev Value : ConfigField → Type
  | db => Int64
  | host => String
  | keyPrefix => Option String
  | password => Option String
  | port => UInt16

end ConfigField

/-- The value of a field. -/
def StoreConfig.get (config : StoreConfig) : (field : ConfigField) → field.Value
  | .db => config.db
  | .host => config.host
  | .keyPrefix => config.keyPrefix
  | .password => config.password
  | .port => config.port

namespace ConfigField

/-- `field.Takes setting x`: the field has the value `x` if `setting` is what is set for it. Nothing
that is set leaves it at its default; a number must be an integer of the field's width; the password
and the key prefix take all that can be written as a text. -/
inductive Takes : (field : ConfigField) → Option ConfigValue → field.Value → Prop
  | unset (field : ConfigField) : Takes field none (StoreConfig.default.get field)
  | db (n : Int64) : Takes db (some (.integer n.toInt)) n
  | host (text : String) : Takes host (some (.text text)) text
  | keyPrefix {value : ConfigValue} {text : String} (h : value.scalarText? = some text) :
      Takes keyPrefix (some value) (some text)
  | password {value : ConfigValue} {text : String} (h : value.scalarText? = some text) :
      Takes password (some value) (some text)
  | port (n : UInt16) : Takes port (some (.integer n.toNat)) n

/-- Whether a field takes any value if something is set for it. -/
def Fits (field : ConfigField) (setting : Option ConfigValue) : Prop :=
  ∃ x, field.Takes setting x

/-- What is wrong with a value that does not fit a field: an integer is out of range where a number
is asked for, and all else is of a wrong type. -/
def fault (field : ConfigField) (value : ConfigValue) : ConfigError :=
  match field, value with
  | db, .integer _ => .outOfRange db
  | port, .integer _ => .outOfRange port
  | field, _ => .wrongType field

/-- A fault names its field. -/
theorem field?_fault (field : ConfigField) (value : ConfigValue) :
    (field.fault value).field? = some field := by
  cases field <;> cases value <;> rfl

end ConfigField

namespace ConfigValue

theorem toInt64_toInt (field : ConfigField) (n : Int64) :
    toInt64 field (.integer n.toInt) = .ok n := by
  rw [toInt64, if_pos ⟨Int64.minValue_le_toInt n, Int64.toInt_le n⟩, Int64.ofInt_toInt]

theorem toUInt16_toNat (field : ConfigField) (n : UInt16) :
    toUInt16 field (.integer n.toNat) = .ok n := by
  have hrange : (0 : Int) ≤ n.toNat ∧ (n.toNat : Int) < UInt16.size :=
    ⟨Int.natCast_nonneg _, Int.ofNat_lt.mpr n.toNat_lt_size⟩
  rw [toUInt16, if_pos hrange, Int.toNat_natCast, UInt16.ofNat_toNat]

end ConfigValue

namespace ConfigField

/-- How a field is decoded from what is set for it. -/
def decode : (field : ConfigField) → ConfigValue → Except ConfigError field.Value
  | db => ConfigValue.toInt64 db
  | host => ConfigValue.toText host
  | keyPrefix => ConfigValue.toScalarText keyPrefix
  | password => ConfigValue.toScalarText password
  | port => ConfigValue.toUInt16 port

variable {field : ConfigField} {value : ConfigValue}

theorem decode_of_takes {x : field.Value} (h : field.Takes (some value) x) :
    field.decode value = .ok x := by
  cases h with
  | db n => exact ConfigValue.toInt64_toInt db n
  | host text => rfl
  | keyPrefix h => rw [decode, ConfigValue.toScalarText, h]
  | password h => rw [decode, ConfigValue.toScalarText, h]
  | port n => exact ConfigValue.toUInt16_toNat port n

/-- A value that a field does not take is refused. -/
theorem fits_or_decode_eq_error (field : ConfigField) (value : ConfigValue) :
    field.Fits (some value) ∨ field.decode value = .error (field.fault value) := by
  cases field with
  | db =>
    cases value with
    | integer n =>
      by_cases hrange : Int64.minValue.toInt ≤ n ∧ n ≤ Int64.maxValue.toInt
      · obtain ⟨x, rfl⟩ : ∃ x : Int64, x.toInt = n :=
          ⟨Int64.ofInt n, Int64.toInt_ofInt_of_le hrange.1 (Int.lt_add_one_of_le hrange.2)⟩
        exact .inl ⟨x, .db x⟩
      · exact .inr (if_neg hrange)
    | _ => exact .inr rfl
  | host =>
    cases value with
    | text s => exact .inl ⟨s, .host s⟩
    | _ => exact .inr rfl
  | keyPrefix =>
    cases value with
    | compound => exact .inr rfl
    | _ => exact .inl ⟨_, .keyPrefix rfl⟩
  | password =>
    cases value with
    | compound => exact .inr rfl
    | _ => exact .inl ⟨_, .password rfl⟩
  | port =>
    cases value with
    | integer n =>
      by_cases hrange : 0 ≤ n ∧ n < UInt16.size
      · obtain ⟨k, rfl⟩ := Int.eq_ofNat_of_zero_le hrange.1
        obtain ⟨x, rfl⟩ : ∃ x : UInt16, x.toNat = k :=
          ⟨UInt16.ofNat k, UInt16.toNat_ofNat_of_lt' (Int.ofNat_lt.mp hrange.2)⟩
        exact .inl ⟨x, .port x⟩
      · exact .inr (if_neg hrange)
    | _ => exact .inr rfl

end ConfigField

namespace Settings

variable {settings : Settings} {field : ConfigField}

/-- The value of a field by some settings. -/
def readField (settings : Settings) (field : ConfigField) : Except ConfigError field.Value :=
  settings.read field (StoreConfig.default.get field) fun _ => field.decode

theorem readField_eq_ok_iff {x : field.Value} :
    settings.readField field = .ok x ↔ field.Takes (settings field) x := by
  rw [readField, read]
  cases hsetting : settings field with
  | none =>
    constructor
    · intro h
      exact Except.ok.inj h ▸ .unset field
    · rintro ⟨⟩
      rfl
  | some value =>
    refine ⟨fun h => ?_, ConfigField.decode_of_takes⟩
    rcases field.fits_or_decode_eq_error value with ⟨y, hy⟩ | hfault
    · have hsame := (ConfigField.decode_of_takes hy).symm.trans h
      exact Except.ok.inj hsame ▸ hy
    · exact absurd (hfault.symm.trans h) (by simp)

/-- A field takes one value only. -/
theorem takes_unique {setting : Option ConfigValue} {x y : field.Value}
    (hx : field.Takes setting x) (hy : field.Takes setting y) : x = y := by
  have hreadx : readField (fun _ => setting) field = .ok x := readField_eq_ok_iff.mpr hx
  have hready : readField (fun _ => setting) field = .ok y := readField_eq_ok_iff.mpr hy
  exact Except.ok.inj (hreadx.symm.trans hready)

theorem exists_readField_eq_ok_iff :
    (∃ x, settings.readField field = .ok x) ↔ field.Fits (settings field) :=
  exists_congr fun _ => readField_eq_ok_iff

theorem readField_eq_error_iff {cause : ConfigError} :
    settings.readField field = .error cause ↔
      ∃ value, settings field = some value ∧ ¬ field.Fits (some value) ∧
        cause = field.fault value := by
  have hfits : (∃ x, settings.readField field = .ok x) ↔ field.Fits (settings field) :=
    exists_readField_eq_ok_iff
  rw [readField, read] at hfits ⊢
  cases hsetting : settings field with
  | none => simp
  | some value =>
    rw [hsetting] at hfits
    rcases field.fits_or_decode_eq_error value with hfit | hfault
    · obtain ⟨x, hx⟩ := hfits.mpr hfit
      simp [hx, hfit]
    · have hmisfit : ¬ field.Fits (some value) := by
        rw [← hfits]
        simp [hfault]
      simp [hfault, hmisfit, eq_comm]

end Settings

namespace ConfigField

/-- The fields whose names come before that of a field. -/
def before : ConfigField → List ConfigField
  | db => []
  | host => [db]
  | keyPrefix => [db, host]
  | password => [db, host, keyPrefix]
  | port => [db, host, keyPrefix, password]

theorem mem_before_iff {field other : ConfigField} :
    other ∈ field.before ↔ other.key < field.key := by
  cases field <;> cases other <;> decide

end ConfigField

namespace StoreConfig

variable {settings : Settings}

theorem ofSettings_eq (settings : Settings) :
    ofSettings settings = (do
      let db ← settings.readField .db
      let host ← settings.readField .host
      let keyPrefix ← settings.readField .keyPrefix
      let password ← settings.readField .password
      let port ← settings.readField .port
      return ⟨host, port, password, db, keyPrefix⟩) :=
  rfl

theorem ofSettings_of_readField {config : StoreConfig}
    (h : ∀ field, settings.readField field = .ok (config.get field)) :
    ofSettings settings = .ok config := by
  simp only [ofSettings_eq, h, bind, Except.bind]
  rfl

/-- The fields are decoded in the order of their names, up to the first that cannot be. -/
theorem ofSettings_of_readField_eq_error {field : ConfigField} {cause : ConfigError}
    (hbefore : ∀ other ∈ field.before, ∃ x, settings.readField other = .ok x)
    (hcause : settings.readField field = .error cause) : ofSettings settings = .error cause := by
  cases field <;> simp only [ConfigField.before, List.forall_mem_cons] at hbefore
  case db => simp only [ofSettings_eq, hcause, bind, Except.bind]
  case host =>
    obtain ⟨⟨db, hdb⟩, -⟩ := hbefore
    simp only [ofSettings_eq, hdb, hcause, bind, Except.bind]
  case keyPrefix =>
    obtain ⟨⟨db, hdb⟩, ⟨host, hhost⟩, -⟩ := hbefore
    simp only [ofSettings_eq, hdb, hhost, hcause, bind, Except.bind]
  case password =>
    obtain ⟨⟨db, hdb⟩, ⟨host, hhost⟩, ⟨keyPrefix, hkeyPrefix⟩, -⟩ := hbefore
    simp only [ofSettings_eq, hdb, hhost, hkeyPrefix, hcause, bind, Except.bind]
  case port =>
    obtain ⟨⟨db, hdb⟩, ⟨host, hhost⟩, ⟨keyPrefix, hkeyPrefix⟩, ⟨password, hpassword⟩, -⟩ := hbefore
    simp only [ofSettings_eq, hdb, hhost, hkeyPrefix, hpassword, hcause, bind, Except.bind]

/-- Either all fields can be decoded, or there is a first that cannot be. -/
theorem exists_readField (settings : Settings) :
    (∃ config : StoreConfig, ∀ field, settings.readField field = .ok (config.get field)) ∨
      ∃ field cause, settings.readField field = .error cause ∧
        ∀ other ∈ field.before, ∃ x, settings.readField other = .ok x := by
  cases hdb : settings.readField .db with
  | error cause => exact .inr ⟨.db, cause, hdb, by simp [ConfigField.before]⟩
  | ok db =>
    cases hhost : settings.readField .host with
    | error cause => exact .inr ⟨.host, cause, hhost, by simp [ConfigField.before, hdb]⟩
    | ok host =>
      cases hkeyPrefix : settings.readField .keyPrefix with
      | error cause =>
        exact .inr ⟨.keyPrefix, cause, hkeyPrefix, by simp [ConfigField.before, hdb, hhost]⟩
      | ok keyPrefix =>
        cases hpassword : settings.readField .password with
        | error cause =>
          exact .inr ⟨.password, cause, hpassword,
            by simp [ConfigField.before, hdb, hhost, hkeyPrefix]⟩
        | ok password =>
          cases hport : settings.readField .port with
          | error cause =>
            exact .inr ⟨.port, cause, hport,
              by simp [ConfigField.before, hdb, hhost, hkeyPrefix, hpassword]⟩
          | ok port =>
            refine .inl ⟨⟨host, port, password, db, keyPrefix⟩, fun field => ?_⟩
            cases field <;> assumption

/-- A configuration is what all fields take. -/
theorem ofSettings_eq_ok_iff {config : StoreConfig} :
    ofSettings settings = .ok config ↔
      ∀ field : ConfigField, field.Takes (settings field) (config.get field) := by
  simp only [← Settings.readField_eq_ok_iff]
  refine ⟨fun h => ?_, ofSettings_of_readField⟩
  rcases exists_readField settings with ⟨other, hother⟩ | ⟨field, cause, hcause, hbefore⟩
  · exact Except.ok.inj ((ofSettings_of_readField hother).symm.trans h) ▸ hother
  · exact absurd (h.symm.trans (ofSettings_of_readField_eq_error hbefore hcause)) (by simp)

/-- No configuration is made if a field takes nothing; the first such field, in the order of names,
is at fault. -/
theorem ofSettings_eq_error_iff {cause : ConfigError} :
    ofSettings settings = .error cause ↔
      ∃ (field : ConfigField) (value : ConfigValue), settings field = some value ∧
        ¬ field.Fits (some value) ∧ cause = field.fault value ∧
        ∀ other : ConfigField, other.key < field.key → other.Fits (settings other) := by
  simp only [← Settings.exists_readField_eq_ok_iff, ← ConfigField.mem_before_iff]
  constructor
  · intro h
    rcases exists_readField settings with ⟨other, hother⟩ | ⟨field, other, hother, hbefore⟩
    · exact absurd (h.symm.trans (ofSettings_of_readField hother)) (by simp)
    · have hsame := h.symm.trans (ofSettings_of_readField_eq_error hbefore hother)
      obtain ⟨value, hvalue, hmisfit, hfault⟩ := Settings.readField_eq_error_iff.mp hother
      exact ⟨field, value, hvalue, hmisfit, (Except.error.inj hsame).trans hfault, hbefore⟩
  · rintro ⟨field, value, hvalue, hmisfit, hfault, hbefore⟩
    exact ofSettings_of_readField_eq_error hbefore
      (Settings.readField_eq_error_iff.mpr ⟨value, hvalue, hmisfit, hfault⟩)

end StoreConfig

/-! ### What an environment says -/

namespace ConfigField

/-- Whether the text of a field's variable is taken verbatim. -/
def isVerbatim : ConfigField → Bool
  | keyPrefix => true
  | password => true
  | _ => false

/-- The parts of a variable's name after that of the field, if the variable is named for it. -/
def inner? (field : ConfigField) (name : String) : Option (List (List Char)) :=
  match (Environment.unprefixed? name).map fun key => Text.pieces (· == '.') (Text.trim key) with
  | some (key :: inner) =>
    if key = field.key.toList ∧ inner.any List.isEmpty = false then some inner else none
  | _ => none

/-- Whether a variable with some name is named for a field, in any spelling: the case of letters
and blanks around the name do not matter, and the name may go on after a point. -/
def IsNamedBy (field : ConfigField) (name : String) : Prop :=
  (field.inner? name).isSome = true
  deriving Decidable

/-- What a variable that is named for a field says on it. The texts of some are taken verbatim, and
the variable for the port, in capitals, says nothing if it holds a text that is no port; any other
text is what it looks like. A variable with a longer name gives the field parts. Bytes that are no
text say nothing where a text is taken verbatim, and elsewhere what they are shown as looks like. -/
def said? (field : ConfigField) (v : String × List UInt8) : Option ConfigValue :=
  if field.isVerbatim then
    (Utf8.text? v.2).map .text
  else if v.1 = port.variableName ∧ Environment.isForeignPort v.2 = true then
    none
  else
    (field.inner? v.1).map fun inner =>
      if inner = [] then Variable.value (Utf8.display v.2) else .compound

theorem isNamedBy_variableName (field : ConfigField) : field.IsNamedBy field.variableName := by
  cases field <;> decide

theorem unprefixed?_variableName (field : ConfigField) :
    Environment.unprefixed? field.variableName = some field.key.toList := by
  cases field <;> decide

/-- The name of a field is that of no other. -/
theorem key_toList_inj {field other : ConfigField} (h : field.key.toList = other.key.toList) :
    field = other := by
  cases field <;> cases other <;> first | rfl | exact absurd h (by decide)

/-- A variable's name says the name of one field at most after the common start. -/
theorem eq_of_unprefixed? {field other : ConfigField} {name : String}
    (hnamed : field.IsNamedBy name)
    (hkey : Environment.unprefixed? name = some other.key.toList) : field = other := by
  have hpieces : Text.pieces (· == '.') (Text.trim other.key.toList) = [other.key.toList] := by
    cases other <;> decide
  simp only [IsNamedBy, inner?, hkey, Option.map_some, hpieces] at hnamed
  split at hnamed
  · rename_i h
    exact (key_toList_inj h.1).symm
  · simp at hnamed

end ConfigField

namespace Environment

/-- The variables that are named for a field. -/
def variablesFor (env : Environment) (field : ConfigField) : Environment :=
  env.filter fun v => field.IsNamedBy v.1

/-- What an environment says on a field: what the first variable says that is named for it. -/
def value? (env : Environment) (field : ConfigField) : Option ConfigValue :=
  (env.variablesFor field).head?.bind field.said?

/-- No two variables compete for a field, and the names of those whose texts are taken verbatim are
in capitals. -/
structure IsPlain (env : Environment) : Prop where
  length_variablesFor_le : ∀ field, (env.variablesFor field).length ≤ 1
  capitals : ∀ field : ConfigField, field.isVerbatim = true → ∀ v ∈ env.variablesFor field,
    v.1 = field.variableName

variable {env : Environment} {field : ConfigField} {v w : String × List UInt8}

theorem mem_variablesFor_iff : v ∈ env.variablesFor field ↔ v ∈ env ∧ field.IsNamedBy v.1 := by
  simp [variablesFor]

theorem verbatim?_eq (env : Environment) (field : ConfigField) :
    env.verbatim? field =
      if field.isVerbatim then ((env.lookup field.variableName).bind Utf8.text?).map .text
      else none := by
  cases field <;> rfl

/-- Where a text is taken verbatim, the variable in capitals has no other say. -/
theorem any_skips_variableName (env : Environment) (hverbatim : field.isVerbatim = true) :
    (unprefixed? field.variableName).any env.skips = true := by
  rw [field.unprefixed?_variableName, Option.any_some]
  cases field with
  | keyPrefix | password => simp [skips]
  | _ => cases hverbatim

/-- What a variable says on a field, unless it is passed over. -/
theorem valueFor?_eq (env : Environment) (field : ConfigField) (v : String × List UInt8) :
    env.valueFor? field v =
      if (unprefixed? v.1).any env.skips = true then none
      else (field.inner? v.1).map fun inner =>
        if inner = [] then Variable.value (Utf8.display v.2) else .compound := by
  obtain ⟨name, bytes⟩ := v
  simp only [valueFor?, nameParts?, ConfigField.inner?]
  cases unprefixed? name with
  | none => simp
  | some key =>
    by_cases hskips : env.skips key = true
    · simp [hskips]
    · simp only [Option.map_some, Option.bind_eq_bind, Option.bind_some, Option.any_some, hskips]
      -- a name without parts, or with an empty one, says nothing; apart from that the first part
      -- decides
      generalize Text.pieces _ _ = parts
      cases parts with
      | nil => rfl
      | cons part inner =>
        by_cases hpart : part = field.key.toList
        · have hkey : field.key.toList.isEmpty = false := by cases field <;> decide
          have hparts : (part :: inner).any List.isEmpty = inner.any List.isEmpty := by
            rw [List.any_cons, hpart, hkey, Bool.false_or]
          dsimp only
          rw [hparts]
          cases inner.any List.isEmpty with
          | true => simp [hpart]
          | false => cases inner <;> simp [hpart]
        · cases (part :: inner).any List.isEmpty with
          | true => simp [hpart]
          | false => cases inner <;> simp [hpart]

namespace IsPlain

variable (hplain : env.IsPlain)

include hplain

theorem eq_of_mem_variablesFor (hv : v ∈ env.variablesFor field)
    (hw : w ∈ env.variablesFor field) : v = w := by
  have hlength := hplain.length_variablesFor_le field
  rcases hvariables : env.variablesFor field with _ | ⟨u, _ | ⟨u', rest⟩⟩
  · simp [hvariables] at hv
  · simp only [hvariables, List.mem_singleton] at hv hw
    rw [hv, hw]
  · simp [hvariables] at hlength

/-- A variable in capitals holds what it is found with. -/
theorem lookup_variableName_eq_some_iff {bytes : List UInt8} :
    env.lookup field.variableName = some bytes ↔ (field.variableName, bytes) ∈ env := by
  have hmem {other : List UInt8} (h : env.lookup field.variableName = some other) :
      (field.variableName, other) ∈ env := by
    obtain ⟨before, after, henv, -⟩ := List.lookup_eq_some_iff.mp h
    simp [henv]
  refine ⟨hmem, fun h => ?_⟩
  cases hlookup : env.lookup field.variableName with
  | none => simpa using List.lookup_eq_none_iff.mp hlookup _ h
  | some other =>
    have hnamed := field.isNamedBy_variableName
    -- the first variable of this name is the one that is named for the field
    have hsame := hplain.eq_of_mem_variablesFor (mem_variablesFor_iff.mpr ⟨hmem hlookup, hnamed⟩)
      (mem_variablesFor_iff.mpr ⟨h, hnamed⟩)
    rw [(Prod.mk.inj hsame).2]

/-- A variable for a field that is not read verbatim is passed over only in one case: it is the
variable for the port, in capitals, and holds a text that is no port. -/
theorem any_skips_iff (hverbatim : field.isVerbatim = false) (hv : v ∈ env.variablesFor field) :
    (unprefixed? v.1).any env.skips = true ↔
      v.1 = ConfigField.port.variableName ∧ isForeignPort v.2 = true := by
  obtain ⟨henv, hnamed⟩ := mem_variablesFor_iff.mp hv
  rw [Option.any_eq_true]
  constructor
  · rintro ⟨key, hkey, hskips⟩
    simp only [skips, Bool.or_eq_true, Bool.and_eq_true, beq_iff_eq] at hskips
    -- each of the three names that can be passed over is that of the field itself
    obtain (hpassword | hkeyPrefix) | ⟨hport, hforeign⟩ := hskips
    · obtain rfl := ConfigField.eq_of_unprefixed? hnamed (hpassword ▸ hkey)
      cases hverbatim
    · obtain rfl := ConfigField.eq_of_unprefixed? hnamed (hkeyPrefix ▸ hkey)
      cases hverbatim
    · obtain rfl := ConfigField.eq_of_unprefixed? hnamed (hport ▸ hkey)
      obtain ⟨bytes, hlookup, hbytes⟩ := (Option.any_eq_true _ _).mp hforeign
      have hcapitals := hplain.lookup_variableName_eq_some_iff.mp hlookup
      have hsame := hplain.eq_of_mem_variablesFor hv (mem_variablesFor_iff.mpr
        ⟨hcapitals, ConfigField.isNamedBy_variableName _⟩)
      rw [hsame]
      exact ⟨rfl, hbytes⟩
  · rintro ⟨hname, hforeign⟩
    refine ⟨ConfigField.port.key.toList,
      hname ▸ ConfigField.port.unprefixed?_variableName, ?_⟩
    have hlookup : env.lookup ConfigField.port.variableName = some v.2 :=
      hplain.lookup_variableName_eq_some_iff.mpr (hname ▸ henv)
    have hforeignPort : env.hasForeignPort = true := by simp [hasForeignPort, hlookup, hforeign]
    simp [skips, hforeignPort]

end IsPlain

end Environment

/-- If only one element of a list has a result, it is the first result that is found. -/
theorem findSome?_eq_of_mem {α β : Type} {f : α → Option β} {a : α} {as : List α} (ha : a ∈ as)
    (h : ∀ b ∈ as, b ≠ a → f b = none) : as.findSome? f = f a := by
  induction as with
  | nil => cases ha
  | cons b as ih =>
    rw [List.findSome?_cons]
    by_cases hb : b = a
    · subst hb
      cases hf : f b with
      | some x => rfl
      | none =>
        rw [List.findSome?_eq_none_iff]
        intro c hc
        by_cases hcb : c = b
        · rw [hcb, hf]
        · exact h c (List.mem_cons_of_mem _ hc) hcb
    · rw [h b (List.mem_cons_self ..) hb]
      exact ih ((List.mem_cons.mp ha).resolve_left (Ne.symm hb)) fun c hc =>
        h c (List.mem_cons_of_mem _ hc)

namespace Settings

open Environment

variable {env : Environment} {field : ConfigField} {v : String × List UInt8}

/-- A variable that is not named for a field says nothing on it. -/
theorem valueFor?_eq_none (h : ¬ field.IsNamedBy v.1) : env.valueFor? field v = none := by
  rw [valueFor?_eq, Option.not_isSome_iff_eq_none.mp h]
  simp

theorem ofEnvironment_of_variablesFor_eq_nil (h : env.variablesFor field = []) :
    ofEnvironment env field = none := by
  have hnone : ∀ v ∈ env, ¬ field.IsNamedBy v.1 := by
    intro v hv hnamed
    have hmem := mem_variablesFor_iff.mpr ⟨hv, hnamed⟩
    simp [h] at hmem
  have hlookup : env.lookup field.variableName = none := by
    rw [List.lookup_eq_none_iff]
    intro v hv
    have hne : field.variableName ≠ v.1 := fun h => hnone v hv (h ▸ field.isNamedBy_variableName)
    simpa using hne
  have hfind : env.reverse.findSome? (env.valueFor? field) = none := by
    rw [List.findSome?_eq_none_iff]
    exact fun v hv => valueFor?_eq_none (hnone v (List.mem_reverse.mp hv))
  rw [ofEnvironment, verbatim?_eq, hlookup, hfind]
  simp

theorem ofEnvironment_of_mem_variablesFor (hplain : env.IsPlain)
    (hv : v ∈ env.variablesFor field) : ofEnvironment env field = field.said? v := by
  -- which of several variables comes last does not matter, as there is only one
  have hfind : env.reverse.findSome? (env.valueFor? field) = env.valueFor? field v := by
    refine findSome?_eq_of_mem (List.mem_reverse.mpr (mem_variablesFor_iff.mp hv).1) ?_
    intro w hw hne
    refine valueFor?_eq_none fun hnamed => hne ?_
    exact hplain.eq_of_mem_variablesFor
      (mem_variablesFor_iff.mpr ⟨List.mem_reverse.mp hw, hnamed⟩) hv
  rw [ofEnvironment, verbatim?_eq, hfind, ConfigField.said?]
  cases hverbatim : field.isVerbatim with
  | true =>
    have hname := hplain.capitals field hverbatim v hv
    have hlookup : env.lookup field.variableName = some v.2 :=
      hplain.lookup_variableName_eq_some_iff.mpr (hname ▸ (mem_variablesFor_iff.mp hv).1)
    have hskips := any_skips_variableName env hverbatim
    simp [hlookup, valueFor?_eq, hname, hskips]
  | false => simp [valueFor?_eq, hplain.any_skips_iff hverbatim hv]

/-- In a plain environment, all that is said on a field is said by its own variable. -/
theorem ofEnvironment_of_isPlain (hplain : env.IsPlain) (field : ConfigField) :
    ofEnvironment env field = env.value? field := by
  rw [value?]
  cases hvariables : env.variablesFor field with
  | nil => exact ofEnvironment_of_variablesFor_eq_nil hvariables
  | cons v rest =>
    exact ofEnvironment_of_mem_variablesFor hplain (hvariables ▸ List.mem_cons_self ..)

end Settings

/-! ### The file -/

/-- `files.FindsUpwards path place`: of the places where a path is looked for, this is the first
that holds a file. -/
structure Snapshot.FindsUpwards (files : Snapshot) (path place : FilePath) : Prop where
  hasFile : files.hasFile place = true
  exists_before : ∃ before after, path.upwards files.depth = before ++ place :: after ∧
    ∀ other ∈ before, files.hasFile other = false

theorem Snapshot.findsUpwards_iff {files : Snapshot} {path place : FilePath} :
    files.FindsUpwards path place ↔
      (path.upwards files.depth).find? files.hasFile = some place := by
  rw [List.find?_eq_some_iff_append]
  constructor
  · rintro ⟨hfile, before, after, hsplit, hbefore⟩
    exact ⟨hfile, before, after, hsplit, fun other hother => by simp [hbefore other hother]⟩
  · rintro ⟨hfile, before, after, hsplit, hbefore⟩
    exact ⟨hfile, before, after, hsplit, fun other hother => by simpa using hbefore other hother⟩

namespace StoreConfig

section

variable {files : Snapshot} {path place : FilePath}

theorem readDocument_of_text {text : String} {document : TomlEntries}
    (hfinds : files.FindsUpwards path place) (htext : files.readText place = .ok text)
    (hread : Toml.read text = some document) : readDocument files path = .ok document := by
  have hbind : (files.readText place).toOption.bind Toml.read = some document := by
    rw [htext]
    exact hread
  rw [readDocument, Snapshot.findsUpwards_iff.mp hfinds]
  simp only [hbind]

/-- A file that is found but cannot be read, or is no document, is not passed over. -/
theorem readDocument_of_forall_text (hfinds : files.FindsUpwards path place)
    (hread : ∀ text, files.readText place = .ok text → Toml.read text = none) :
    readDocument files path = .error .invalidFile := by
  have hbind : (files.readText place).toOption.bind Toml.read = none := by
    cases htext : files.readText place with
    | error cause => rfl
    | ok text => exact hread text htext
  rw [readDocument, Snapshot.findsUpwards_iff.mp hfinds]
  simp only [hbind]

/-- The first place with a file decides: its document is read, or it ends the loading. Where no
place has a file there are no settings. -/
theorem readDocument_cases (files : Snapshot) (path : FilePath) :
    ((∀ place ∈ path.upwards files.depth, files.hasFile place = false) ∧
      readDocument files path = .ok []) ∨
    ∃ place, files.FindsUpwards path place ∧
      ((∃ text document, files.readText place = .ok text ∧ Toml.read text = some document ∧
          readDocument files path = .ok document) ∨
        ((∀ text, files.readText place = .ok text → Toml.read text = none) ∧
          readDocument files path = .error .invalidFile)) := by
  cases hfind : (path.upwards files.depth).find? files.hasFile with
  | none =>
    refine .inl ⟨fun place hplace => by simpa using List.find?_eq_none.mp hfind place hplace, ?_⟩
    rw [readDocument, hfind]
  | some place =>
    have hfinds := Snapshot.findsUpwards_iff.mpr hfind
    refine .inr ⟨place, hfinds, ?_⟩
    by_cases hread : ∃ text document, files.readText place = .ok text ∧
        Toml.read text = some document
    · obtain ⟨text, document, htext, hdocument⟩ := hread
      exact .inl ⟨text, document, htext, hdocument, readDocument_of_text hfinds htext hdocument⟩
    · have hnone : ∀ text, files.readText place = .ok text → Toml.read text = none :=
        fun text htext => Option.eq_none_iff_forall_ne_some.mpr fun document hdocument =>
          hread ⟨text, document, htext, hdocument⟩
      exact .inr ⟨hnone, readDocument_of_forall_text hfinds hnone⟩

end

end StoreConfig

/-! ### Loading -/

namespace StoreConfig

/-- The settings that count: what the environment says on a field, or else the document. -/
def winners (document : TomlEntries) (env : Environment) : Settings :=
  fun field => (env.value? field).or (Settings.ofDocument document field)

variable {files : Snapshot} {path : Option FilePath} {document : TomlEntries} {env : Environment}

/-- A configuration is loaded from the environment above the document, if this can be read. -/
theorem load_eq_ofSources (hdocument : path.elim (.ok []) (readDocument files) = .ok document) :
    load files path env = ofSources document env := by
  cases path with
  | none =>
    obtain rfl := Except.ok.inj hdocument
    rfl
  | some path =>
    have hread : readDocument files path = .ok document := hdocument
    rw [load, hread]
    rfl

/-- A configuration is loaded from the settings that count. -/
theorem load_eq_ofSettings (hdocument : path.elim (.ok []) (readDocument files) = .ok document)
    (hplain : env.IsPlain) : load files path env = ofSettings (winners document env) := by
  have hwinners : (Settings.ofEnvironment env).above (Settings.ofDocument document) =
      winners document env := by
    funext field
    rw [Settings.above, Settings.ofEnvironment_of_isPlain hplain, winners]
  rw [load_eq_ofSources hdocument, ofSources, hwinners]

/-- **A field is read from the first source that says something on it.** In an environment where no
two variables compete for a field, and with a file that can be read or none:

* A configuration is loaded exactly if every field takes the setting that counts for it: that of the
  environment, or else that of the file, or else its default.
* Loading fails exactly if the setting that counts does not fit some field, with a fault that names
  the first such field in the order of names.
* A field has the same value in two configurations that are loaded from sources which say the same
  on it, whatever they say on other fields.
* What a file says on a field does not matter, not even for a failure, if the environment says
  something on it. -/
theorem load_of_isPlain (hdocument : path.elim (.ok []) (readDocument files) = .ok document)
    (hplain : env.IsPlain) :
    (∀ config, load files path env = .ok config ↔
      ∀ field : ConfigField, field.Takes (winners document env field) (config.get field)) ∧
    (∀ cause, load files path env = .error cause ↔
      ∃ (field : ConfigField) (value : ConfigValue), winners document env field = some value ∧
        ¬ field.Fits (some value) ∧ cause = field.fault value ∧ cause.field? = some field ∧
        ∀ other : ConfigField, other.key < field.key → other.Fits (winners document env other)) ∧
    ∀ (files' : Snapshot) (path' : Option FilePath) (document' : TomlEntries)
      (env' : Environment), path'.elim (.ok []) (readDocument files') = .ok document' →
      env'.IsPlain →
      (∀ (field : ConfigField) config config', env.variablesFor field = env'.variablesFor field →
        document.lookup field.key = document'.lookup field.key →
        load files path env = .ok config → load files' path' env' = .ok config' →
        config.get field = config'.get field) ∧
      ((∀ field, env.variablesFor field = env'.variablesFor field) →
        (∀ field, env.value? field = none →
          document.lookup field.key = document'.lookup field.key) →
        load files path env = load files' path' env') := by
  have hload := load_eq_ofSettings hdocument hplain
  rw [hload]
  refine ⟨fun _ => ofSettings_eq_ok_iff, fun cause => ?_,
    fun files' path' document' env' hdocument' hplain' => ?_⟩
  · rw [ofSettings_eq_error_iff]
    constructor
    · rintro ⟨field, value, hvalue, hmisfit, rfl, hbefore⟩
      exact ⟨field, value, hvalue, hmisfit, rfl, field.field?_fault value, hbefore⟩
    · rintro ⟨field, value, hvalue, hmisfit, hfault, -, hbefore⟩
      exact ⟨field, value, hvalue, hmisfit, hfault, hbefore⟩
  rw [load_eq_ofSettings hdocument' hplain']
  have hvalue {field : ConfigField} (h : env.variablesFor field = env'.variablesFor field) :
      env.value? field = env'.value? field := by
    rw [Environment.value?, Environment.value?, h]
  have hentry {field : ConfigField} (h : document.lookup field.key = document'.lookup field.key) :
      Settings.ofDocument document field = Settings.ofDocument document' field := by
    rw [Settings.ofDocument, Settings.ofDocument, h]
  constructor
  · intro field config config' hvariables hlookup h h'
    have hsame : winners document' env' field = winners document env field := by
      rw [winners, winners, hvalue hvariables, hentry hlookup]
    have htakes := ofSettings_eq_ok_iff.mp h field
    have htakes' := ofSettings_eq_ok_iff.mp h' field
    rw [hsame] at htakes'
    exact Settings.takes_unique htakes htakes'
  -- the two files say the same wherever the environment leaves the word to them
  · intro hvariables hlookup
    congr 1
    funext field
    rw [winners, winners, ← hvalue (hvariables field)]
    cases hset : env.value? field with
    | some value => rfl
    | none => rw [Option.none_or, Option.none_or, hentry (hlookup field hset)]

/-- Two files with settings: in one of them, that for the host is no text, and in the other it is
left out. -/
def cellar : Snapshot :=
  Snapshot.ofTree (.directory [
    (Utf8.encode "store.toml", .file (Utf8.encode "host = 5\nport = 6380\n")),
    (Utf8.encode "spare.toml", .file (Utf8.encode "port = 6380\n"))])

theorem readDocument_store :
    (some (Utf8.encode "store.toml")).elim (.ok []) (readDocument cellar) =
      .ok [("host", .integer 5), ("port", .integer 6380)] := by
  have hfinds : cellar.FindsUpwards (Utf8.encode "store.toml") (Utf8.encode "store.toml") :=
    Snapshot.findsUpwards_iff.mpr (by decide +kernel)
  have htext : cellar.readText (Utf8.encode "store.toml") = .ok "host = 5\nport = 6380\n" := by
    decide +kernel
  refine readDocument_of_text hfinds htext ?_
  rw [Toml.read]
  simp only [String.reduceToList]
  rfl

theorem readDocument_spare :
    (some (Utf8.encode "spare.toml")).elim (.ok []) (readDocument cellar) =
      .ok [("port", .integer 6380)] := by
  have hfinds : cellar.FindsUpwards (Utf8.encode "spare.toml") (Utf8.encode "spare.toml") :=
    Snapshot.findsUpwards_iff.mpr (by decide +kernel)
  have htext : cellar.readText (Utf8.encode "spare.toml") = .ok "port = 6380\n" := by
    decide +kernel
  refine readDocument_of_text hfinds htext ?_
  rw [Toml.read]
  simp only [String.reduceToList]
  rfl

/-- An environment that links services, with a host beside the foreign port. The key prefix is no
text. -/
def linked : Environment :=
  [("REDIS_HOST", Utf8.encode "cache.local"), ("redis_db", Utf8.encode "2"),
    ("REDIS_PORT", Utf8.encode "tcp://10.0.0.11:6379"), ("REDIS_PASSWORD", Utf8.encode "0123"),
    ("REDIS_KEY_PREFIX", [0xFF])]

theorem isPlain_linked : linked.IsPlain := by
  constructor <;> intro field <;> cases field <;> decide

/-- What the environment says, and of the file the port. -/
theorem takes_winners_linked (field : ConfigField) :
    field.Takes (winners [("host", .integer 5), ("port", .integer 6380)] linked field)
      (get ⟨"cache.local", 6380, some "0123", 2, none⟩ field) := by
  have hwinner : winners [("host", .integer 5), ("port", .integer 6380)] linked field =
      match field with
      | .db => some (.integer 2)
      | .host => some (.text "cache.local")
      | .keyPrefix => none
      | .password => some (.text "0123")
      | .port => some (.integer 6380) := by
    cases field <;> decide +kernel
  rw [hwinner]
  cases field with
  | db => exact .db 2
  | host => exact .host "cache.local"
  | keyPrefix => exact .unset .keyPrefix
  | password => exact .password rfl
  | port => exact .port 6380

/-- The host of the file is looked at, and refused, only if the environment says nothing on it. -/
theorem load_of_isPlain_cellar :
    linked.IsPlain ∧ Environment.IsPlain [] ∧
      load cellar (some (Utf8.encode "store.toml")) linked =
        .ok ⟨"cache.local", 6380, some "0123", 2, none⟩ ∧
      load cellar (some (Utf8.encode "store.toml")) linked =
        load cellar (some (Utf8.encode "spare.toml")) linked ∧
      (∀ config, load cellar none linked = .ok config → config.password = some "0123") ∧
      load cellar (some (Utf8.encode "store.toml")) [] = .error (.wrongType .host) := by
  have hempty : Environment.IsPlain [] := by
    constructor <;> intro field <;> simp [Environment.variablesFor]
  obtain ⟨hok, -, hother⟩ := load_of_isPlain readDocument_store isPlain_linked
  have hloaded := (hok _).mpr takes_winners_linked
  obtain ⟨-, hspare⟩ := hother cellar (some (Utf8.encode "spare.toml")) _ linked
    readDocument_spare isPlain_linked
  obtain ⟨hnone, -⟩ := hother cellar none [] linked rfl isPlain_linked
  obtain ⟨-, herror, -⟩ := load_of_isPlain readDocument_store hempty
  refine ⟨isPlain_linked, hempty, hloaded, hspare (fun _ => rfl) fun field hfield => ?_,
    fun config hconfig => ?_, ?_⟩
  · cases field with
    | host => exact absurd hfield (by decide +kernel)
    | _ => rfl
  · exact (hnone .password _ config rfl rfl hloaded hconfig).symm
  · refine (herror _).mpr ⟨.host, .integer 5, rfl, ?_, rfl, rfl, fun other hbefore => ?_⟩
    · rintro ⟨x, ⟨⟩⟩
    · have hdb : other ∈ ConfigField.before .host := ConfigField.mem_before_iff.mpr hbefore
      rw [List.mem_singleton.mp hdb]
      exact ⟨_, .unset .db⟩

end StoreConfig

end RandomSentences
