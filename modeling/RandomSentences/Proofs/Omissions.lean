import RandomSentences.Config.Json
import RandomSentences.Proofs.Records

/-!
# Configurations survive JSON, with omissions

A configuration is read back from the JSON object that is written of it. Fields may be left out of
the object and come in any order: then the fields that are left out have their defaults
(`StoreConfig.keeping`).

There are two ways from a text to a configuration. It is read directly, or its value is held in
memory first, where strings have to be texts, numbers have to be in range, the nesting is limited,
and of several members with one key the last remains (`Json.settle?`). For an object whose keys are
names of fields, each at most once, both ways end alike: fields have plain values only
(`Json.IsPlain`), and these are held as they are, while a value that is not plain is not plain once
it is held either.
-/

namespace RandomSentences

namespace Json

/-! ### Values held in memory -/

/-- A value that a field may have: no array and no object, and one that can be held. -/
inductive IsPlain : Json → Prop
  | null : IsPlain null
  | bool (value : Bool) : IsPlain (bool value)
  | number {literal : JsonNumber} {value : JsonNumber.Value} : literal.value? = some value →
      IsPlain (number literal)
  | string (text : String) : IsPlain (ofString text)

variable {value held : Json} {members : List (String × Json)}

theorem IsPlain.hold?_eq (h : IsPlain value) : hold? value = some value := by
  cases h with
  | number hvalue => simp [hold?, hvalue]
  | _ => simp [hold?, ofString]

theorem IsPlain.depth_eq (h : IsPlain value) : depth value = 0 := by
  cases h <;> simp [depth, ofString]

/-- A value that is plain once it is held has not been changed. -/
theorem eq_of_hold? (hheld : hold? value = some held) (h : IsPlain held) : value = held := by
  cases value with
  | string text =>
    obtain ⟨text, rfl, rfl⟩ := Option.map_eq_some_iff.mp hheld
    rfl
  | number literal =>
    obtain ⟨-, -, rfl⟩ := Option.map_eq_some_iff.mp hheld
    rfl
  | array items =>
    obtain ⟨items, -, rfl⟩ := Option.map_eq_some_iff.mp hheld
    cases h
  | object members =>
    obtain ⟨members, -, rfl⟩ := Option.map_eq_some_iff.mp hheld
    cases h
  | _ => exact Option.some.inj hheld

theorem lastMembers_of_nodup {members : List (Option String × Json)}
    (h : (members.map Prod.fst).Nodup) : lastMembers members = members := by
  induction members with
  | nil => rfl
  | cons member members ih =>
    obtain ⟨hnone, hnodup⟩ := List.nodup_cons.mp h
    rw [lastMembers, if_neg (by simpa using hnone), ih hnodup]

theorem nodup_some_members (h : (members.map Prod.fst).Nodup) :
    ((members.map fun (key, value) => (some key, value)).map Prod.fst).Nodup := by
  rw [map_fst_members]
  exact h.map (Option.some_injective _)

theorem hold?_ofMembers (hnodup : (members.map Prod.fst).Nodup)
    (h : ∀ member ∈ members, IsPlain member.2) :
    hold? (ofMembers members) = some (ofMembers members) := by
  have hmembers : holdMembers? (members.map fun (key, value) => (some key, value)) =
      some (members.map fun (key, value) => (some key, value)) := by
    clear hnodup
    induction members with
    | nil => rfl
    | cons member members ih =>
      obtain ⟨hmember, hmembers⟩ := List.forall_mem_cons.mp h
      simp [holdMembers?, hmember.hold?_eq, ih hmembers]
  rw [ofMembers, hold?, hmembers, Option.map_some,
    lastMembers_of_nodup (nodup_some_members hnodup)]

theorem depth_ofMembers (h : ∀ member ∈ members, IsPlain member.2) :
    depth (ofMembers members) = 1 := by
  have hmembers : depthOfMembers (members.map fun (key, value) => (some key, value)) = 0 := by
    induction members with
    | nil => rfl
    | cons member members ih =>
      obtain ⟨hmember, hmembers⟩ := List.forall_mem_cons.mp h
      simp [depthOfMembers, hmember.depth_eq, ih hmembers]
  rw [ofMembers, depth, hmembers]

/-- An object without nesting whose keys are distinct is held as it is. -/
theorem settle?_ofMembers (hnodup : (members.map Prod.fst).Nodup)
    (h : ∀ member ∈ members, IsPlain member.2) :
    settle? (ofMembers members) = some (ofMembers members) := by
  rw [settle?, depth_ofMembers h, if_pos (by decide), hold?_ofMembers hnodup h]

/-- The members of an object are held one by one, and they are the same members again if the values
that they have then are plain. -/
theorem exists_ofMembers_of_hold? (hnodup : (members.map Prod.fst).Nodup)
    (h : hold? (ofMembers members) = some held) :
    ∃ others, held = ofMembers others ∧ others.map Prod.fst = members.map Prod.fst ∧
      ((∀ other ∈ others, IsPlain other.2) → others = members) := by
  have hmembers : ∀ heldMembers,
      holdMembers? (members.map fun (key, value) => (some key, value)) = some heldMembers →
        ∃ others : List (String × Json),
          heldMembers = (others.map fun (key, value) => (some key, value)) ∧
            others.map Prod.fst = members.map Prod.fst ∧
              ((∀ other ∈ others, IsPlain other.2) → others = members) := by
    clear h hnodup
    induction members with
    | nil =>
      intro heldMembers hheld
      obtain rfl := Option.some.inj hheld
      exact ⟨[], rfl, rfl, fun _ => rfl⟩
    | cons member members ih =>
      intro heldMembers hheld
      obtain ⟨key, value⟩ := member
      obtain ⟨heldValue, hvalue, hrest⟩ := Option.bind_eq_some_iff.mp hheld
      obtain ⟨heldRest, hmore, heq⟩ := Option.bind_eq_some_iff.mp hrest
      obtain ⟨others, rfl, hkeys, hothers⟩ := ih heldRest hmore
      obtain rfl := Option.some.inj heq
      refine ⟨(key, heldValue) :: others, rfl, by rw [List.map_cons, List.map_cons, hkeys], ?_⟩
      intro hplain
      obtain ⟨hfirst, hplain⟩ := List.forall_mem_cons.mp hplain
      rw [eq_of_hold? hvalue hfirst, hothers hplain]
  obtain ⟨heldMembers, hheld, rfl⟩ := Option.map_eq_some_iff.mp h
  obtain ⟨others, rfl, hkeys, hothers⟩ := hmembers heldMembers hheld
  refine ⟨others, ?_, hkeys, hothers⟩
  rw [lastMembers_of_nodup (nodup_some_members (hkeys ▸ hnodup)), ofMembers]

/-- Takes a value as a record once it is held in memory. -/
def ofHeld? {α : Type} (ofJson? : Json → Option α) (value : Json) : Option α :=
  (settle? value).bind ofJson?

/-- Where all fields of a record are plain, it makes no difference whether an object with these
keys is held in memory before it is taken as the record. -/
theorem ofHeld?_ofMembers {α : Type} {ofJson? : Json → Option α}
    (hnodup : (members.map Prod.fst).Nodup)
    (hplain : ∀ others a, others.map Prod.fst = members.map Prod.fst →
      ofJson? (ofMembers others) = some a → ∀ other ∈ others, IsPlain other.2) :
    ofHeld? ofJson? (ofMembers members) = ofJson? (ofMembers members) := by
  ext a
  constructor
  · intro h
    obtain ⟨held, hheld, ha⟩ := Option.bind_eq_some_iff.mp h
    obtain ⟨-, hheld⟩ := Option.ite_none_right_eq_some.mp hheld
    obtain ⟨others, rfl, hkeys, hothers⟩ := exists_ofMembers_of_hold? hnodup hheld
    rwa [hothers (hplain others a hkeys ha)] at ha
  · intro ha
    rw [ofHeld?, settle?_ofMembers hnodup (hplain members a rfl ha), Option.bind_some, ha]

/-! ### Scalars -/

/-- A value that is read as an optional text: the text as it is written, or an integer in place of
its digits. -/
inductive IsScalar : Json → Option String → Prop
  | option (text : Option String) : IsScalar (ofOption text) text
  | integer {n : Int} : IsInteger64 n → IsScalar (number (.ofInt n)) (some (toString n))

theorem scalarText?_of_isScalar {text : Option String} (h : IsScalar value text) :
    scalarText? value = some text := by
  cases h with
  | option =>
    cases text with
    | none => rfl
    | some text => rfl
  | integer hn =>
    rename_i n
    have hvalue : (JsonNumber.ofInt n).value? = some (.integer n) := by
      rw [JsonNumber.value?, integer?_ofInt hn]
    rw [scalarText?, hvalue, Option.map_some, JsonNumber.Value.text, Decimal.intText_eq_toString]

theorem isPlain_of_integer? {n : Int} (h : value.integer? = some n) : IsPlain value := by
  cases value with
  | number literal =>
    have hn : literal.integer? = some n := h
    have hvalue : literal.value? = some (.integer n) := by rw [JsonNumber.value?, hn]
    exact .number hvalue
  | _ => cases h

theorem isPlain_of_text? {text : String} (h : value.text? = some text) : IsPlain value := by
  cases value with
  | string given =>
    obtain rfl : given = some text := h
    exact .string text
  | _ => cases h

theorem isPlain_of_scalarText? {text : Option String} (h : scalarText? value = some text) :
    IsPlain value := by
  cases value with
  | null => exact .null
  | bool value => exact .bool value
  | number literal =>
    obtain ⟨held, hheld, -⟩ := Option.map_eq_some_iff.mp h
    exact .number hheld
  | string given =>
    obtain ⟨text, rfl, -⟩ := Option.map_eq_some_iff.mp h
    exact .string text
  | array items => cases h
  | object members => cases h

theorem fieldOr_ite {α : Type} {fallback a : α} {decode : Json → Option α}
    (h : decode value = some a) (given : Bool) :
    fieldOr fallback decode (if given then some value else none) =
      some (if given then a else fallback) := by
  cases given with
  | false => rfl
  | true => exact h

theorem integerWithin?_ofInt {n least greatest : Int} (hn : IsInteger64 n) (hleast : least ≤ n)
    (hgreatest : n ≤ greatest) :
    integerWithin? least greatest (number (.ofInt n)) = some n := by
  rw [integerWithin?, integer?, integer?_ofInt hn]
  simp [hleast, hgreatest]

end Json

namespace StoreConfig

variable {config : StoreConfig} {members : List (String × Json)} {password keyPrefix : Json}

/-- The names of the fields. -/
def fieldNames : List String :=
  ["host", "port", "password", "db", "key_prefix"]

/-- The fields of a configuration, where the password and the key prefix have given values. -/
def fieldsWith (config : StoreConfig) (password keyPrefix : Json) : List (String × Json) :=
  [("host", .ofString config.host), ("port", .number (.ofNat config.port.toNat)),
    ("password", password), ("db", .number (.ofInt config.db.toInt)), ("key_prefix", keyPrefix)]

/-- The fields of a configuration. -/
def fields (config : StoreConfig) : List (String × Json) :=
  config.fieldsWith (.ofOption config.password) (.ofOption config.keyPrefix)

/-- A configuration in which only some fields are kept, and the others have their defaults. -/
def keeping (config : StoreConfig) (kept : String → Bool) : StoreConfig where
  host := if kept "host" then config.host else default.host
  port := if kept "port" then config.port else default.port
  password := if kept "password" then config.password else default.password
  db := if kept "db" then config.db else default.db
  keyPrefix := if kept "key_prefix" then config.keyPrefix else default.keyPrefix

theorem isInteger64_port (port : UInt16) : Json.IsInteger64 port.toNat := by
  have hlt := port.toNat_lt
  constructor <;> omega

theorem isInteger64_db (db : Int64) : Json.IsInteger64 db.toInt := by
  have hle := db.le_toInt
  have hlt := db.toInt_lt
  constructor <;> omega

theorem integerWithin?_port (port : UInt16) :
    Json.integerWithin? 0 (UInt16.size - 1) (.number (.ofNat port.toNat)) =
      some (port.toNat : Int) := by
  have hlt : port.toNat < UInt16.size := port.toNat_lt
  rw [← JsonNumber.ofInt_natCast]
  exact Json.integerWithin?_ofInt (isInteger64_port port) (by omega) (by omega)

theorem integerWithin?_db (db : Int64) :
    Json.integerWithin? Int64.minValue.toInt Int64.maxValue.toInt (.number (.ofInt db.toInt)) =
      some db.toInt :=
  Json.integerWithin?_ofInt (isInteger64_db db) db.minValue_le_toInt db.toInt_le

/-- Where each field is given or left out, the configuration has the given fields and the defaults
for the others. -/
theorem ofJson?_of_fields? {value : Json} (hpassword : Json.IsScalar password config.password)
    (hkeyPrefix : Json.IsScalar keyPrefix config.keyPrefix) (kept : String → Bool)
    (h : value.fields? fieldNames = some (fieldNames.map fun name =>
      ((config.fieldsWith password keyPrefix).filter fun field => kept field.1).lookup name)) :
    ofJson? value = some (config.keeping kept) := by
  have hfound : (fieldNames.map fun name =>
      ((config.fieldsWith password keyPrefix).filter fun field => kept field.1).lookup name) =
      [if kept "host" then some (.ofString config.host) else none,
        if kept "port" then some (.number (.ofNat config.port.toNat)) else none,
        if kept "password" then some password else none,
        if kept "db" then some (.number (.ofInt config.db.toInt)) else none,
        if kept "key_prefix" then some keyPrefix else none] := by
    simp only [Json.lookup_filter]
    rfl
  rw [hfound] at h
  have hhost : (Json.ofString config.host).text? = some config.host := rfl
  rw [ofJson?, ← fieldNames, h]
  simp only [Option.bind_eq_bind, Option.bind_some, Json.fieldOr_ite hhost,
    Json.fieldOr_ite (integerWithin?_port config.port),
    Json.fieldOr_ite (Json.scalarText?_of_isScalar hpassword),
    Json.fieldOr_ite (integerWithin?_db config.db),
    Json.fieldOr_ite (Json.scalarText?_of_isScalar hkeyPrefix)]
  refine congrArg some ?_
  rw [keeping, mk.injEq]
  refine ⟨rfl, ?_, rfl, ?_, rfl⟩
  · cases kept "port" <;> simp
  · cases kept "db" <;> simp

theorem nodup_fieldsWith (config : StoreConfig) (password keyPrefix : Json) :
    ((config.fieldsWith password keyPrefix).map Prod.fst).Nodup := by
  simp [fieldsWith]

/-- The kept fields are found in any order. -/
theorem ofJson?_ofMembers (hpassword : Json.IsScalar password config.password)
    (hkeyPrefix : Json.IsScalar keyPrefix config.keyPrefix) (kept : String → Bool)
    (hperm : members.Perm
      ((config.fieldsWith password keyPrefix).filter fun field => kept field.1)) :
    ofJson? (.ofMembers members) = some (config.keeping kept) := by
  have hnodup : (((config.fieldsWith password keyPrefix).filter
      fun field => kept field.1).map Prod.fst).Nodup :=
    (nodup_fieldsWith config password keyPrefix).sublist (List.filter_sublist.map _)
  have hobject : Json.IsObjectOf fieldNames ((config.fieldsWith password keyPrefix).filter
      fun field => kept field.1) (.ofMembers members) :=
    ⟨[], members, by simp, by rwa [List.append_nil], rfl⟩
  exact ofJson?_of_fields? hpassword hkeyPrefix kept (Json.fields?_of_isObjectOf hnodup hobject)

/-- A value in which all fields are given, in either form. -/
theorem ofJson?_of_isRecordOf {value : Json} (h : Json.IsRecordOf config.fields value) :
    ofJson? value = some config := by
  have hfound : (config.fields.map fun field => some field.2) = fieldNames.map fun name =>
      (config.fields.filter fun _ => true).lookup name := rfl
  have hnodup : (config.fields.map Prod.fst).Nodup := nodup_fieldsWith config _ _
  have hfields := Json.fields?_of_isRecordOf hnodup h
  rw [hfound] at hfields
  exact ofJson?_of_fields? (.option config.password) (.option config.keyPrefix) (fun _ => true)
    hfields

/-- Only plain values are taken as fields. -/
theorem isPlain_of_ofJson? (hnodup : (members.map Prod.fst).Nodup)
    (h : ofJson? (.ofMembers members) = some config) {member : String × Json}
    (hmember : member ∈ members) (hname : member.1 ∈ fieldNames) : Json.IsPlain member.2 := by
  have hcount := List.nodup_iff_count_le_one.mp hnodup
  have hlookup : members.lookup member.1 = some member.2 :=
    (Json.lookup_eq_some_iff_of_count (hcount _)).mpr hmember
  rw [ofJson?, ← fieldNames, Json.fields?_ofMembers fun name _ => hcount name] at h
  simp only [Option.bind_eq_bind, Option.bind_some, fieldNames, List.map_cons, List.map_nil] at h
  obtain ⟨host, hhost, h⟩ := Option.bind_eq_some_iff.mp h
  obtain ⟨port, hport, h⟩ := Option.bind_eq_some_iff.mp h
  obtain ⟨password, hpassword, h⟩ := Option.bind_eq_some_iff.mp h
  obtain ⟨db, hdb, h⟩ := Option.bind_eq_some_iff.mp h
  obtain ⟨keyPrefix, hkeyPrefix, -⟩ := Option.bind_eq_some_iff.mp h
  simp only [fieldNames, List.mem_cons, List.not_mem_nil, or_false] at hname
  rcases hname with hname | hname | hname | hname | hname <;> rw [hname] at hlookup
  · rw [hlookup] at hhost
    exact Json.isPlain_of_text? hhost
  · rw [hlookup] at hport
    exact Json.isPlain_of_integer? (Option.filter_eq_some_iff.mp hport).1
  · rw [hlookup] at hpassword
    exact Json.isPlain_of_scalarText? hpassword
  · rw [hlookup] at hdb
    exact Json.isPlain_of_integer? (Option.filter_eq_some_iff.mp hdb).1
  · rw [hlookup] at hkeyPrefix
    exact Json.isPlain_of_scalarText? hkeyPrefix

/-- An object whose keys are names of fields, each at most once, is taken as the same configuration
whether it is held in memory first or not. -/
theorem ofHeld?_ofJson? (hnodup : (members.map Prod.fst).Nodup)
    (hnames : ∀ name ∈ members.map Prod.fst, name ∈ fieldNames) :
    Json.ofHeld? ofJson? (.ofMembers members) = ofJson? (.ofMembers members) := by
  refine Json.ofHeld?_ofMembers hnodup fun others config hkeys hconfig other hother => ?_
  refine isPlain_of_ofJson? (hkeys ▸ hnodup) hconfig hother (hnames _ ?_)
  exact hkeys ▸ List.mem_map_of_mem hother

theorem isWritable_fields : ∀ field ∈ config.fields, Json.IsWritable field.2 := by
  have hoption : ∀ text : Option String, Json.IsWritable (.ofOption text)
    | some text => Json.isWritable_ofString text
    | none => Json.isWritable_null
  simp only [fields, fieldsWith, List.forall_mem_cons, List.not_mem_nil, false_implies,
    implies_true, and_true]
  exact ⟨Json.isWritable_ofString _, Json.isWritable_integer false _, hoption _,
    Json.isWritable_integer _ _, hoption _⟩

/-- A configuration is read back from what is written. Fields may be left out, which then have their
defaults, and come in any order; an integer of 64 bits for the password or the key prefix stands for
its digits. Whether the text is read directly or its value is held in memory first makes no
difference, as long as the keys are names of fields and distinct. -/
theorem readsBack_with_omissions :
    (∀ config : StoreConfig, Json.ReadsBack ofJson? config.toJson config.fields config) ∧
    (∀ (config : StoreConfig) (kept : String → Bool) (password keyPrefix : Json)
      (members : List (String × Json)) (text : String),
      Json.IsScalar password config.password → Json.IsScalar keyPrefix config.keyPrefix →
      members.Perm ((config.fieldsWith password keyPrefix).filter fun field => kept field.1) →
      Json.IsDocument (.ofMembers members) text →
      Json.decode? ofJson? text = some (config.keeping kept)) ∧
    (∀ (members : List (String × Json)) (text : String), (members.map Prod.fst).Nodup →
      (∀ name ∈ members.map Prod.fst, name ∈ fieldNames) →
      Json.IsDocument (.ofMembers members) text →
      Json.decode? (Json.ofHeld? ofJson?) text = Json.decode? ofJson? text) := by
  refine ⟨fun config => ?_, ?_, ?_⟩
  · exact Json.readsBack_of_isRecordOf isWritable_fields fun value hvalue =>
      ofJson?_of_isRecordOf hvalue
  · intro config kept password keyPrefix members text hpassword hkeyPrefix hperm htext
    rw [Json.decode?_of_isDocument htext, ofJson?_ofMembers hpassword hkeyPrefix kept hperm]
  · intro members text hnodup hnames htext
    rw [Json.decode?_of_isDocument htext, Json.decode?_of_isDocument htext,
      ofHeld?_ofJson? hnodup hnames]

theorem readsBack_with_omissions_largest :
    Json.decode? (Json.ofHeld? ofJson?)
      "\x7b\x22key_prefix\x22:\x22\x22,\x22password\x22:18446744073709551615\x7d" =
        some ⟨"127.0.0.1", 6379, some "18446744073709551615", 0, some ""⟩ := by
  obtain ⟨-, homissions, hheld⟩ := readsBack_with_omissions
  let members : List (String × Json) :=
    [("key_prefix", .ofString ""), ("password", .number (.ofInt (2 ^ 64 - 1)))]
  have hmembers : ∀ member ∈ members, Json.IsWritable member.2 :=
    List.forall_mem_cons.mpr ⟨Json.isWritable_ofString "",
      List.forall_mem_singleton.mpr (Json.isWritable_integer false (2 ^ 64 - 1))⟩
  have htext : Json.IsDocument (.ofMembers members)
      "\x7b\x22key_prefix\x22:\x22\x22,\x22password\x22:18446744073709551615\x7d" :=
    (Json.isWritable_ofMembers hmembers).isDocument (by decide +kernel)
  rw [hheld members _ (by decide) (by decide) htext]
  exact homissions ⟨"cellar", 7000, some "18446744073709551615", -3, some ""⟩
    (fun name => name ∈ ["password", "key_prefix"]) _ _ members _
    (.integer (by constructor <;> decide)) (.option (some "")) (.swap _ _ _) htext

end StoreConfig

end RandomSentences
