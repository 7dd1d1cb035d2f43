import Mathlib.Data.List.Count
import Mathlib.Data.List.Nodup
import RandomSentences.Json.Fields
import RandomSentences.Proofs.JsonText

/-!
# Records and their JSON texts

A record is known by the names of its fields, and a value gives it in one of two forms. An object
has a member for each field that is given, in any order, and members with other names
(`Json.IsObjectOf`); an array has the values of all fields in order. Whatever the order and whatever
the other members are, the same values are found (`Json.fields?_of_isObjectOf`).

A value that lacks a field or repeats one gives no record, which `Json.Lacks` and `Json.Repeats`
say of both forms. All this is about values; `Json.read_of_isDocument` carries it over to texts.
-/

namespace RandomSentences

theorem JsonNumber.ofInt_natCast (n : Nat) : ofInt n = ofNat n := by
  simp [ofInt, ofNat]

namespace Json

/-! ### Integers -/

/-- An integer of 64 bits, with a sign or without one. -/
def IsInteger64 (n : Int) : Prop :=
  -2 ^ 63 ≤ n ∧ n < 2 ^ 64

/-- An integer that is written in digits is read as this integer. -/
theorem integer?_ofInt {n : Int} (h : IsInteger64 n) : (JsonNumber.ofInt n).integer? = some n := by
  obtain ⟨hmin, hmax⟩ := h
  have hbound : Nat.pow 2 63 = 2 ^ 63 := rfl
  simp only [JsonNumber.integer?, JsonNumber.ofInt, Decimal.ofDigits_digits, UInt64.size, hbound,
    decide_eq_true_eq]
  by_cases hneg : n < 0
  · simp only [hneg]
    rw [if_neg (by decide), if_pos (by decide), if_pos (by omega)]
    exact congrArg some (by omega)
  · simp only [hneg]
    rw [if_neg (by decide), if_neg (by decide), if_pos (by omega)]
    exact congrArg some (by omega)

/-! ### Looking up a key -/

section Lookup

variable {κ β : Type} [BEq κ] [LawfulBEq κ] {entries others : List (κ × β)} {key : κ} {value : β}

theorem lookup_eq_some_iff_of_count (h : (entries.map Prod.fst).count key ≤ 1) :
    entries.lookup key = some value ↔ (key, value) ∈ entries := by
  induction entries with
  | nil => simp
  | cons entry entries ih =>
    obtain ⟨other, given⟩ := entry
    rw [List.map_cons, List.count_cons] at h
    rw [List.lookup_cons, List.mem_cons, Prod.mk.injEq]
    by_cases hkey : key = other
    · subst hkey
      have hnone : (key, value) ∉ entries := fun hmem => by
        have hpos : 0 < (entries.map Prod.fst).count key :=
          List.count_pos_iff.mpr (List.mem_map_of_mem (f := Prod.fst) hmem)
        rw [beq_self_eq_true, if_pos rfl] at h
        omega
      simp [hnone, eq_comm]
    · have hother : (key == other) = false := beq_false_of_ne hkey
      simp [hother, hkey, ih (Nat.le_trans (Nat.le_add_right ..) h)]

/-- Where a key occurs once at most, the order of the entries makes no difference. -/
theorem lookup_eq_of_perm (hperm : entries.Perm others)
    (h : (others.map Prod.fst).count key ≤ 1) : entries.lookup key = others.lookup key := by
  have hcount : (entries.map Prod.fst).count key ≤ 1 := by
    rwa [(hperm.map Prod.fst).count_eq]
  ext value
  rw [lookup_eq_some_iff_of_count hcount, lookup_eq_some_iff_of_count h, hperm.mem_iff]

theorem lookup_filter (p : κ → Bool) (entries : List (κ × β)) (key : κ) :
    (entries.filter fun entry => p entry.1).lookup key =
      if p key then entries.lookup key else none := by
  induction entries with
  | nil => simp
  | cons entry entries ih =>
    obtain ⟨other, value⟩ := entry
    by_cases hkey : key = other
    · subst hkey
      cases hp : p key <;> simp [hp, ih]
    · have hother : (key == other) = false := beq_false_of_ne hkey
      cases hp : p other <;> simp [hp, ih, List.lookup_cons, hother]

end Lookup

/-! ### Objects and arrays -/

/-- An object with the given members, in any order, and with others whose names are none of the
record's. -/
def IsObjectOf (names : List String) (fields : List (String × Json)) (value : Json) : Prop :=
  ∃ others members : List (String × Json), (∀ member ∈ others, member.1 ∉ names) ∧
    members.Perm (fields ++ others) ∧ value = ofMembers members

/-- A value that gives all fields of a record, in either form. -/
def IsRecordOf (fields : List (String × Json)) (value : Json) : Prop :=
  IsObjectOf (fields.map Prod.fst) fields value ∨ value = array (fields.map Prod.snd)

/-- A value without one of the fields. -/
inductive Lacks (names : List String) : Json → Prop
  | object {members : List (Option String × Json)} {name : String} : name ∈ names →
      some name ∉ members.map Prod.fst → Lacks names (object members)
  | array {items : List Json} : items.length < names.length → Lacks names (array items)

/-- A value with several members for one of the fields, or with items for more than there are. -/
inductive Repeats (names : List String) : Json → Prop
  | object {members : List (Option String × Json)} {name : String} : name ∈ names →
      1 < (members.map Prod.fst).count (some name) → Repeats names (object members)
  | array {items : List Json} : names.length < items.length → Repeats names (array items)

/-- A value gives a field, which has a place among the record's, as some other value. -/
inductive Gives (names : List String) (name : String) (field : Json) : Json → Prop
  | object {members : List (Option String × Json)} : (some name, field) ∈ members →
      Gives names name field (object members)
  | array {items : List Json} : items[names.idxOf name]? = some field →
      Gives names name field (array items)

variable {names : List String} {fields members : List (String × Json)} {value field : Json}
  {name : String}

theorem map_fst_members (members : List (String × Json)) :
    (members.map fun (key, value) => (some key, value)).map Prod.fst =
      (members.map Prod.fst).map some := by
  simp

theorem count_some_members (name : String) (members : List (String × Json)) :
    ((members.map fun (key, value) => (some key, value)).map Prod.fst).count (some name) =
      (members.map Prod.fst).count name := by
  rw [map_fst_members]
  exact List.count_map_of_injective _ some (Option.some_injective _) name

theorem lookup_some_members (name : String) (members : List (String × Json)) :
    (members.map fun (key, value) => (some key, value)).lookup (some name) =
      members.lookup name := by
  induction members with
  | nil => rfl
  | cons member members ih =>
    rw [List.map_cons, List.lookup_cons, List.lookup_cons, ih]
    rfl

theorem fields?_ofMembers (h : ∀ name ∈ names, (members.map Prod.fst).count name ≤ 1) :
    fields? names (ofMembers members) = some (names.map fun name => members.lookup name) := by
  have hkeys : ((members.map fun (key, value) => (some key, value)).map Prod.fst).all
      Option.isSome = true := by simp
  have hcounts : (names.all fun name => decide
      (((members.map fun (key, value) => (some key, value)).map Prod.fst).count (some name) ≤ 1)) =
        true := by
    simp only [List.all_eq_true, decide_eq_true_eq, count_some_members]
    exact h
  rw [ofMembers, fields?]
  simp only [hkeys, hcounts, Bool.and_self, if_true, lookup_some_members]

/-- The fields are found in an object, wherever they stand and whatever stands beside them. -/
theorem fields?_of_isObjectOf (hnodup : (fields.map Prod.fst).Nodup)
    (h : IsObjectOf names fields value) :
    fields? names value = some (names.map fun name => fields.lookup name) := by
  obtain ⟨others, members, hothers, hperm, rfl⟩ := h
  have hcount : ∀ name ∈ names, ((fields ++ others).map Prod.fst).count name ≤ 1 := by
    intro name hname
    have hnone : name ∉ others.map Prod.fst := fun hmem => by
      obtain ⟨member, hmember, rfl⟩ := List.mem_map.mp hmem
      exact hothers member hmember hname
    rw [List.map_append, List.count_append, List.count_eq_zero_of_not_mem hnone]
    exact List.nodup_iff_count_le_one.mp hnodup name
  rw [fields?_ofMembers fun name hname => by
    rw [(hperm.map Prod.fst).count_eq]
    exact hcount name hname]
  refine congrArg some (List.map_congr_left fun name hname => ?_)
  rw [lookup_eq_of_perm hperm (hcount name hname), List.lookup_append]
  have hnone : others.lookup name = none :=
    List.lookup_eq_none_iff.mpr fun member hmember => bne_iff_ne.mpr fun hkey =>
      hothers member hmember (hkey ▸ hname)
  rw [hnone, Option.or_none]

/-- The fields of a record are found in either form. -/
theorem fields?_of_isRecordOf (hnodup : (fields.map Prod.fst).Nodup)
    (h : IsRecordOf fields value) :
    fields? (fields.map Prod.fst) value = some (fields.map fun field => some field.2) := by
  rcases h with hobject | rfl
  · rw [fields?_of_isObjectOf hnodup hobject, List.map_map]
    refine congrArg some (List.map_congr_left fun field hfield => ?_)
    exact (lookup_eq_some_iff_of_count (List.nodup_iff_count_le_one.mp hnodup _)).mpr hfield
  · rw [fields?, if_pos (by simp)]
    refine congrArg some (List.ext_getElem (by simp) fun i _ hi => ?_)
    simp only [List.length_map] at hi
    simp [hi]

/-- A field that is lacking is not found. -/
theorem none_mem_of_lacks (h : Lacks names value) {found : List (Option Json)}
    (hfound : fields? names value = some found) : none ∈ found := by
  cases h with
  | object hname hnone =>
    rename_i members name
    obtain ⟨-, heq⟩ := Option.ite_none_right_eq_some.mp hfound
    obtain rfl := Option.some.inj heq
    refine List.mem_map.mpr ⟨name, hname, List.lookup_eq_none_iff.mpr fun member hmember => ?_⟩
    refine bne_iff_ne.mpr fun hkey => hnone ?_
    exact hkey ▸ List.mem_map_of_mem hmember
  | array hlength =>
    rename_i items
    obtain ⟨-, heq⟩ := Option.ite_none_right_eq_some.mp hfound
    obtain rfl := Option.some.inj heq
    refine List.mem_map.mpr ⟨(names[items.length], items.length), ?_, by simp⟩
    exact List.mem_zipIdx_iff_getElem?.mpr (List.getElem?_eq_getElem hlength)

/-- A field that is given is found in its place, if the fields are found at all. -/
theorem getElem?_of_gives (h : Gives names name field value) (hname : name ∈ names)
    {found : List (Option Json)} (hfound : fields? names value = some found) :
    found[names.idxOf name]? = some (some field) := by
  cases h with
  | object hmember =>
    rename_i members
    obtain ⟨hall, heq⟩ := Option.ite_none_right_eq_some.mp hfound
    obtain rfl := Option.some.inj heq
    rw [Bool.and_eq_true, List.all_eq_true, List.all_eq_true] at hall
    have hcount : (members.map Prod.fst).count (some name) ≤ 1 := of_decide_eq_true (hall.2 _ hname)
    rw [List.getElem?_map, List.getElem?_idxOf hname, Option.map_some,
      (lookup_eq_some_iff_of_count hcount).mpr hmember]
  | array hitem =>
    obtain ⟨-, heq⟩ := Option.ite_none_right_eq_some.mp hfound
    obtain rfl := Option.some.inj heq
    have hplace := List.idxOf_lt_length_iff.mpr hname
    simp [hplace, hitem]

/-- Where a field is repeated, none is found. -/
theorem fields?_of_repeats (h : Repeats names value) : fields? names value = none := by
  cases h with
  | object hname hcount =>
    refine if_neg fun hall => ?_
    rw [Bool.and_eq_true, List.all_eq_true, List.all_eq_true] at hall
    have hle := of_decide_eq_true (hall.2 _ hname)
    omega
  | array hlength => exact if_neg (by omega)

/-! ### Reading records from texts -/

/-- Reads a whole text and takes it as a record. -/
def decode? {α : Type} (ofJson? : Json → Option α) (text : String) : Option α :=
  (read text).bind ofJson?

theorem decode?_of_isDocument {α : Type} {ofJson? : Json → Option α} {text : String}
    (h : IsDocument value text) : decode? ofJson? text = ofJson? value := by
  rw [decode?, read_of_isDocument h, Option.bind_some]

/-- What is written of something as a record gives it back: as a value, as a text on one line or on
several, and as any text with its fields in either form. -/
structure ReadsBack {α : Type} (ofJson? : Json → Option α) (json : Json)
    (fields : List (String × Json)) (a : α) : Prop where
  eq_ofMembers : json = ofMembers fields
  of_value : ofJson? json = some a
  of_line : decode? ofJson? (String.ofList (print json)) = some a
  of_lines : decode? ofJson? (String.ofList (printPretty 0 json)) = some a
  of_text : ∀ value text, IsRecordOf fields value → IsDocument value text →
    decode? ofJson? text = some a

theorem readsBack_of_isRecordOf {α : Type} {ofJson? : Json → Option α} {a : α}
    (hwritable : ∀ field ∈ fields, IsWritable field.2)
    (h : ∀ value, IsRecordOf fields value → ofJson? value = some a) :
    ReadsBack ofJson? (ofMembers fields) fields a := by
  have hrecord : IsRecordOf fields (ofMembers fields) :=
    .inl ⟨[], fields, by simp, by rw [List.append_nil], rfl⟩
  have hjson := isWritable_ofMembers hwritable
  have hvalue := h _ hrecord
  refine ⟨rfl, hvalue, ?_, ?_, fun value text hvalue htext => ?_⟩
  · rw [decode?_of_isDocument (isDocument_ofList hjson.line), hvalue]
  · rw [decode?_of_isDocument (isDocument_ofList (hjson.lines 0)), hvalue]
  · rw [decode?_of_isDocument htext, h value hvalue]

end Json

end RandomSentences
