import Mathlib.Data.List.TakeWhile
import RandomSentences.Proofs.Count
import RandomSentences.Proofs.Decoding
import RandomSentences.Proofs.Precedence

/-!
# The variable for the port

An environment that links services puts an address into the variable for the port, in capitals. Two
readers see this variable. One looks at the trimmed text alone and decides whether it is a port; if
it is none, the variable is passed over. The other takes the text for whatever it looks like, as it
does with all other variables. They agree on every text: what the first lets through is an integer
for the second, and in the range of a port (`Variable.value_of_isPortText`).

So with a port in it the variable decides on the field alone, and with any other text it makes no
difference at all, which is `StoreConfig.load_of_portVariable`. Both ask that no other spelling of
its name is in the environment, and the first also that no variable goes on within the field, after
a point: such a one would take its place (`StoreConfig.not_settles_of_part`).

All this is about texts. Bytes that are none are let through by the first reader, and the second
takes the text that they are shown as.
-/

namespace RandomSentences

/-! ### Texts that are ports -/

/-- A text that is a port between blanks: digits that stand for it, after a plus sign or none. -/
def IsPortText (text : String) (port : UInt16) : Prop :=
  ∃ r : Reading, r.chars = text.toList ∧ r.sign ≠ ['-'] ∧ r.digits ≠ [] ∧
    (∀ c ∈ r.rest, Text.isBlank c = true) ∧ r.magnitude = port.toNat

namespace Environment

variable {text : String} {port : UInt16}

theorem isPortText_iff : IsPortText text port ↔ plainPort? text = some port.toNat := by
  have hread : plainPort? text = some port.toNat ↔
      Decimal.natural? (Text.trim text.toList) = some port.toNat := by
    simp [plainPort?, port.toNat_lt_size]
  rw [hread, Decimal.natural?_eq_some_iff]
  constructor
  · rintro ⟨r, hchars, hminus, hne, hrest, hvalue⟩
    have hsign : r.sign = ['+'] ∨ r.sign = [] :=
      (r.sign_cases.resolve_left hminus).imp_right And.left
    have htrim : Text.trim (r.blanks ++ (r.sign ++ r.digits) ++ r.rest) = r.sign ++ r.digits := by
      refine Text.trim_of_enclosed r.isBlank_blanks hrest (fun c hc => ?_) fun c hc => ?_
      · refine r.not_isBlank_head c ?_
        rw [← List.append_assoc, List.head?_append, hc, Option.some_or]
        exact rfl
      · rw [List.getLast?_append_of_ne_nil _ hne] at hc
        exact Reading.not_isBlank_of_isDigit (r.isDigit_digits c (List.mem_of_getLast? hc))
    refine ⟨r.sign, r.digits, ?_, hsign, hne, r.isDigit_digits, ?_⟩
    · rw [← hchars, ← htrim]
      simp [Reading.chars]
    · rw [r.ofDigits_digits, hvalue]
  · rintro ⟨sign, digits, htrim, hsign, hne, hdigits, hvalue⟩
    obtain ⟨before, after, htext, hbefore, hafter⟩ := Text.exists_eq_append_trim text.toList
    -- the digits end before the blanks after them
    have hend : ∀ c ∈ after.head?, c.isDigit = false := by
      intro c hc
      by_contra hdigit
      have hblank := hafter c (List.mem_of_head? hc)
      rw [Reading.not_isBlank_of_isDigit (by simpa using hdigit)] at hblank
      cases hblank
    let r := Reading.withDigits before sign digits after hbefore (.inr hsign) hne hdigits hend
    refine ⟨r, ?_, ?_, hne, hafter, ?_⟩
    · rw [htext, htrim]
      simp [r, Reading.chars, Reading.withDigits]
    · rcases hsign with rfl | rfl <;> simp [r, Reading.withDigits]
    · rw [← r.ofDigits_digits]
      exact hvalue

theorem isForeignPort_encode (text : String) :
    isForeignPort (Utf8.encode text) = (plainPort? text).isNone := by
  rw [isForeignPort, Utf8.text?_encode, Option.any_some]

theorem plainPort?_eq_none_iff : plainPort? text = none ↔ ∀ port, ¬ IsPortText text port := by
  simp only [isPortText_iff]
  refine ⟨fun h port => by simp [h], fun h => ?_⟩
  rw [Option.eq_none_iff_forall_ne_some]
  intro n hn
  have hlt : n < UInt16.size := by simpa using (Option.filter_eq_some_iff.mp hn).2
  exact h (UInt16.ofNat n) (by rw [hn, UInt16.toNat_ofNat_of_lt' hlt])

end Environment

namespace Variable

variable {cs : List Char} {text : String}

theorem trim_skipSpace (cs : List Char) : Text.trim (skipSpace cs) = Text.trim cs := by
  have hspace : ∀ c ∈ cs.takeWhile isSpace, Text.isBlank c = true := by
    intro c hc
    have h := List.all_eq_true.mp List.all_takeWhile c hc
    simp only [isSpace, Bool.or_eq_true, beq_iff_eq] at h
    rcases h with (((rfl | rfl) | rfl) | rfl) | rfl <;> decide
  have htrim : Text.trim (cs.takeWhile isSpace ++ skipSpace cs ++ []) = Text.trim (skipSpace cs) :=
    Text.trim_append_append (skipSpace cs) hspace (by simp)
  rw [List.append_nil, skipSpace, List.takeWhile_append_dropWhile] at htrim
  rw [skipSpace, htrim]

/-- The characters of ports and of blanks. -/
def isPortChar (c : Char) : Bool :=
  Text.isBlank c || c == '+' || c.isDigit

theorem not_isSeparator_of_isPortChar {c : Char} (h : isPortChar c = true) :
    isSeparator c = false := by
  rw [Bool.eq_false_iff]
  intro hseparator
  simp only [isSeparator, Bool.or_eq_true, beq_iff_eq] at hseparator
  rcases hseparator with (((rfl | rfl) | rfl) | rfl) | rfl <;> exact absurd h (by decide)

/-- A text of such characters only is taken as a plain one. -/
theorem readValue_of_isPortChar (fuel : Nat) (h : ∀ c ∈ cs, isPortChar c = true) :
    readValue (fuel + 1) cs = some (ofPlain cs, []) := by
  have hrest : ∀ c ∈ skipSpace cs, isPortChar c = true := fun c hc =>
    h c ((List.dropWhile_suffix isSpace).mem hc)
  have hplain : ofPlain (skipSpace cs) = ofPlain cs := by
    simp only [ofPlain, trim_skipSpace]
  have hword {word : List Char} {c : Char} (hc : c ∈ word) (hother : isPortChar c = false) :
      Text.dropWord? word (skipSpace cs) = none := by
    rw [Option.eq_none_iff_forall_ne_some]
    intro rest hsome
    have hmem : c ∈ skipSpace cs := by
      rw [Text.dropWord?_eq_some_iff.mp hsome]
      exact List.mem_append_left _ hc
    rw [hrest c hmem] at hother
    cases hother
  have hplainChars : ∀ c ∈ skipSpace cs, (!isSeparator c) = true := fun c hc => by
    rw [not_isSeparator_of_isPortChar (hrest c hc), Bool.not_false]
  have htrue : Text.dropWord? "true".toList (skipSpace cs) = none :=
    hword (c := 't') (by decide) (by decide)
  have hfalse : Text.dropWord? "false".toList (skipSpace cs) = none :=
    hword (c := 'f') (by decide) (by decide)
  rw [readValue, htrue, hfalse, ← hplain]
  have hstart {c : Char} {rest : List Char} (heq : skipSpace cs = c :: rest) :
      isPortChar c = true := hrest c (by simp [heq])
  split
  case h_1 hsome => cases hsome
  case h_2 hsome _ => cases hsome
  -- none of the characters that begin another value can stand there
  case h_3 heq _ _ | h_4 heq _ _ | h_5 heq _ _ | h_6 heq _ _ | h_7 heq _ _ =>
    exact absurd (hstart heq) (by decide)
  case h_8 =>
    rw [List.takeWhile_eq_self_iff.mpr hplainChars, List.dropWhile_eq_nil_iff.mpr hplainChars]
    rfl

theorem ofPlain_of_natural? {n : Nat} (h : Decimal.natural? (Text.trim cs) = some n)
    (hn : n < UInt64.size) : ofPlain cs = .integer n := by
  have hpoint : (Text.trim cs).contains '.' = false := by
    obtain ⟨sign, digits, htrim, hsign, -, hdigits, -⟩ := Decimal.natural?_eq_some_iff.mp h
    rw [List.contains_eq_mem, decide_eq_false_iff_not, htrim, List.mem_append]
    rintro (hmem | hmem)
    · rcases hsign with rfl | rfl <;> simp at hmem
    · exact absurd (hdigits '.' hmem) (by decide)
  have hfits : (some n).filter (fun n => decide (n < UInt64.size)) = some n :=
    Option.filter_some_pos (by simpa using hn)
  simp only [ofPlain, h, hpoint, hfits, Bool.false_and, Bool.false_eq_true, if_false]

theorem isPortChar_of_isPortText {port : UInt16} (h : IsPortText text port) :
    ∀ c ∈ text.toList, isPortChar c = true := by
  obtain ⟨r, hchars, hminus, -, hrest, -⟩ := h
  intro c hc
  rw [← hchars, Reading.chars, List.mem_append, List.mem_append, List.mem_append] at hc
  rw [isPortChar, Bool.or_eq_true, Bool.or_eq_true, beq_iff_eq]
  rcases hc with hblank | hsign | hdigit | hblank
  · exact .inl (.inl (r.isBlank_blanks c hblank))
  · rcases r.sign_cases.resolve_left hminus with hplus | ⟨hnone, -⟩
    · exact .inl (.inr (by simpa [hplus] using hsign))
    · simp [hnone] at hsign
  · exact .inr (r.isDigit_digits c hdigit)
  · exact .inl (.inl (hrest c hblank))

/-- The value of a text that is a port is this port. -/
theorem value_of_isPortText {port : UInt16} (h : IsPortText text port) :
    value text = .integer port.toNat := by
  have hnumber := (Option.filter_eq_some_iff.mp (Environment.isPortText_iff.mp h)).1
  have hlt : port.toNat < UInt64.size := by
    have hport := port.toNat_lt
    simp only [UInt64.size]
    omega
  rw [value, readValue_of_isPortChar _ (isPortChar_of_isPortText h)]
  exact ofPlain_of_natural? hnumber hlt

end Variable

/-! ### What the variable says -/

theorem findSome?_filter_eq {α β : Type} {p : α → Bool} {f g : α → Option β} {as : List α}
    (h : ∀ a ∈ as, f a = if p a = true then g a else none) :
    (as.filter p).findSome? g = as.findSome? f := by
  rw [← List.head?_filterMap, ← List.head?_filterMap, List.filterMap_filter,
    List.filterMap_congr fun a ha => (h a ha).symm]

namespace ConfigField

/-- Whether a variable has the name of a field's variable, in any spelling, and does not go on. -/
def IsSpelledBy (field : ConfigField) (name : String) : Prop :=
  field.inner? name = some []
  deriving Decidable

theorem isSpelledBy_variableName (field : ConfigField) : field.IsSpelledBy field.variableName := by
  cases field <;> decide

end ConfigField

namespace Environment

variable {env : Environment} {text : String}

/-- The environment without a variable. -/
def without (env : Environment) (name : String) : Environment :=
  env.filter fun v => v.1 != name

theorem lookup_without {name other : String} (h : name ≠ other) :
    (env.without other).lookup name = env.lookup name := by
  rw [List.lookup_eq_findSome?, List.lookup_eq_findSome?, without]
  refine findSome?_filter_eq fun v _ => ?_
  by_cases hname : v.1 = other
  · simp [hname, h]
  · simp [hname]

section

variable (hmem : (ConfigField.port.variableName, Utf8.encode text) ∈ env)
  (hspelling : ∀ v ∈ env, ConfigField.port.IsSpelledBy v.1 →
    v = (ConfigField.port.variableName, Utf8.encode text))

include hmem hspelling

theorem lookup_portVariable :
    env.lookup ConfigField.port.variableName = some (Utf8.encode text) := by
  cases hlookup : env.lookup ConfigField.port.variableName with
  | none => simpa using List.lookup_eq_none_iff.mp hlookup _ hmem
  | some other =>
    obtain ⟨before, after, henv, -⟩ := List.lookup_eq_some_iff.mp hlookup
    have hother := hspelling (ConfigField.port.variableName, other) (by simp [henv])
      (ConfigField.isSpelledBy_variableName _)
    rw [(Prod.mk.inj hother).2]

theorem hasForeignPort_eq : env.hasForeignPort = (plainPort? text).isNone := by
  rw [hasForeignPort, lookup_portVariable hmem hspelling, Option.any_some, isForeignPort_encode]

/-- With a port in it, the variable decides, unless another goes on within the field. -/
theorem ofEnvironment_port {port : UInt16} (hport : IsPortText text port)
    (hwhole : ∀ v ∈ env, ConfigField.port.IsNamedBy v.1 → ConfigField.port.IsSpelledBy v.1) :
    Settings.ofEnvironment env .port = some (.integer port.toNat) := by
  have hforeign : env.hasForeignPort = false := by
    rw [hasForeignPort_eq hmem hspelling, isPortText_iff.mp hport]
    rfl
  have hskips : (unprefixed? ConfigField.port.variableName).any env.skips = false := by
    rw [ConfigField.unprefixed?_variableName, Option.any_some, skips, hforeign]
    decide
  have hsays : env.valueFor? .port (ConfigField.port.variableName, Utf8.encode text) =
      some (.integer port.toNat) := by
    rw [valueFor?_eq, hskips, ConfigField.isSpelledBy_variableName, Utf8.display_encode,
      Variable.value_of_isPortText hport]
    rfl
  have hfind : env.reverse.findSome? (env.valueFor? .port) =
      env.valueFor? .port (ConfigField.port.variableName, Utf8.encode text) := by
    refine findSome?_eq_of_mem (List.mem_reverse.mpr hmem) fun v hv hne => ?_
    have hv := List.mem_reverse.mp hv
    exact Settings.valueFor?_eq_none fun hnamed => hne (hspelling v hv (hwhole v hv hnamed))
  rw [Settings.ofEnvironment, verbatim?_eq, hfind, hsays]
  rfl

omit hmem in
/-- A variable with another name is passed over or not, whether there is a foreign port or none. -/
theorem any_skips_without {v : String × List UInt8} (hv : v ∈ env)
    (hname : v.1 ≠ ConfigField.port.variableName) :
    (unprefixed? v.1).any (env.without ConfigField.port.variableName).skips =
      (unprefixed? v.1).any env.skips := by
  cases hkey : unprefixed? v.1 with
  | none => rfl
  | some key =>
    have hother : (key == ConfigField.port.key.toList) = false := by
      rw [beq_eq_false_iff_ne]
      rintro rfl
      have hspelled : ConfigField.port.IsSpelledBy v.1 := by
        rw [ConfigField.IsSpelledBy, ConfigField.inner?, hkey]
        decide
      exact hname (congrArg Prod.fst (hspelling v hv hspelled))
    simp only [Option.any_some, skips, hother, Bool.false_and]

/-- If there is no port in it, the variable makes no difference. -/
theorem ofEnvironment_without (hport : plainPort? text = none) :
    Settings.ofEnvironment (env.without ConfigField.port.variableName) =
      Settings.ofEnvironment env := by
  funext field
  have hverbatim : (env.without ConfigField.port.variableName).verbatim? field =
      env.verbatim? field := by
    rw [verbatim?_eq, verbatim?_eq]
    cases hverbatim : field.isVerbatim with
    | true =>
      have hother : field.variableName ≠ ConfigField.port.variableName := by
        cases field with
        | keyPrefix | password => decide
        | _ => cases hverbatim
      rw [lookup_without hother]
    | false => rfl
  have hforeign : env.hasForeignPort = true := by
    rw [hasForeignPort_eq hmem hspelling, hport]
    rfl
  have hskipped : (unprefixed? ConfigField.port.variableName).any env.skips = true := by
    rw [ConfigField.unprefixed?_variableName, Option.any_some, skips, hforeign]
    decide
  have hfind : (env.without ConfigField.port.variableName).reverse.findSome?
      ((env.without ConfigField.port.variableName).valueFor? field) =
        env.reverse.findSome? (env.valueFor? field) := by
    rw [without, ← List.filter_reverse, ← without]
    refine findSome?_filter_eq fun v hv => ?_
    by_cases hname : v.1 = ConfigField.port.variableName
    · rw [valueFor?_eq, hname, if_pos hskipped]
      simp
    · rw [valueFor?_eq, valueFor?_eq,
        any_skips_without hspelling (List.mem_reverse.mp hv) hname]
      simp [hname]
  rw [Settings.ofEnvironment, Settings.ofEnvironment, hverbatim, hfind]

end

end Environment

/-! ### Loading -/

namespace StoreConfig

variable {files : Snapshot} {path : Option FilePath} {document : TomlEntries} {env : Environment}
  {text : String}

/-- `Settles result field x`: a configuration was loaded and has the value `x` for the field, or
another field is at fault. -/
def Settles (result : Except ConfigError StoreConfig) (field : ConfigField) (x : field.Value) :
    Prop :=
  (∃ config, result = .ok config ∧ config.get field = x) ∨
    ∃ cause other, result = .error cause ∧ cause.field? = some other ∧ other ≠ field

/-- A field that takes what is set for it has this value, or another field is at fault. -/
theorem settles_ofSettings {settings : Settings} {field : ConfigField} {x : field.Value}
    (h : field.Takes (settings field) x) : Settles (ofSettings settings) field x := by
  cases hresult : ofSettings settings with
  | ok config =>
    exact .inl ⟨config, rfl, Settings.takes_unique (ofSettings_eq_ok_iff.mp hresult field) h⟩
  | error cause =>
    obtain ⟨other, value, hvalue, hmisfit, hcause, -⟩ := ofSettings_eq_error_iff.mp hresult
    refine .inr ⟨cause, other, rfl, by rw [hcause, ConfigField.field?_fault], ?_⟩
    rintro rfl
    exact hmisfit (hvalue ▸ ⟨x, h⟩)

/-- **A variable for the port never breaks loading.** Where the name of this variable has no other
spelling in an environment, and with a file that can be read or none:

* If its text is a port, and no variable goes on within the field, a configuration has this port or
  another field is at fault, and what the file says on the port does not matter.
* If its text is no port, it is as if the variable were not there. -/
theorem load_of_portVariable
    (hdocument : path.elim (.ok []) (readDocument files) = .ok document)
    (hmem : ("REDIS_PORT", Utf8.encode text) ∈ env)
    (hspelling : ∀ v ∈ env, ConfigField.port.IsSpelledBy v.1 →
      v = ("REDIS_PORT", Utf8.encode text)) :
    (∀ port, IsPortText text port →
      (∀ v ∈ env, ConfigField.port.IsNamedBy v.1 → ConfigField.port.IsSpelledBy v.1) →
      Settles (load files path env) .port port ∧
      ∀ (files' : Snapshot) (path' : Option FilePath) (document' : TomlEntries),
        path'.elim (.ok []) (readDocument files') = .ok document' →
        (∀ field : ConfigField, field ≠ .port →
          document'.lookup field.key = document.lookup field.key) →
        load files' path' env = load files path env) ∧
    ((∀ port, ¬ IsPortText text port) →
      load files path env = load files path (env.without "REDIS_PORT")) := by
  constructor
  · intro port hport hwhole
    have hsays := Environment.ofEnvironment_port hmem hspelling hport hwhole
    refine ⟨?_, fun files' path' document' hdocument' hlookup => ?_⟩
    · rw [load_eq_ofSources hdocument, ofSources]
      refine settles_ofSettings ?_
      rw [Settings.above, hsays, Option.some_or]
      exact .port port
    · rw [load_eq_ofSources hdocument, load_eq_ofSources hdocument', ofSources, ofSources]
      congr 1
      funext field
      by_cases hfield : field = .port
      · rw [Settings.above, Settings.above, hfield, hsays, Option.some_or, Option.some_or]
      · rw [Settings.above, Settings.above, Settings.ofDocument, Settings.ofDocument,
          hlookup field hfield]
  · intro hnone
    have hforeign := Environment.plainPort?_eq_none_iff.mpr hnone
    rw [load_eq_ofSources hdocument, load_eq_ofSources hdocument, ofSources, ofSources]
    exact congrArg (fun settings => ofSettings (Settings.above settings _))
      (Environment.ofEnvironment_without hmem hspelling hforeign).symm

/-- A port between blanks, with a sign and a zero before it. -/
def padded : Environment :=
  [("REDIS_PORT", Utf8.encode " +06390\n"), ("REDIS_DB", Utf8.encode "2")]

/-- The file says something on the port only, which the variable does not let through; an address
in the variable changes nothing. -/
theorem load_of_portVariable_cellar :
    IsPortText " +06390\n" 6390 ∧ (∀ port, ¬ IsPortText "tcp://10.0.0.11:6379" port) ∧
      Settles (load cellar none padded) .port 6390 ∧
      load cellar (some (Utf8.encode "spare.toml")) padded = load cellar none padded ∧
      load cellar (some (Utf8.encode "store.toml")) linked =
        load cellar (some (Utf8.encode "store.toml")) (linked.without "REDIS_PORT") := by
  have hport : IsPortText " +06390\n" 6390 := Environment.isPortText_iff.mpr (by decide)
  have hforeign : ∀ port, ¬ IsPortText "tcp://10.0.0.11:6379" port :=
    Environment.plainPort?_eq_none_iff.mp (by decide)
  have hpadded : ("REDIS_PORT", Utf8.encode " +06390\n") ∈ padded := by simp [padded]
  have hlinked : ("REDIS_PORT", Utf8.encode "tcp://10.0.0.11:6379") ∈ linked := by simp [linked]
  have hnothing : (none : Option FilePath).elim (.ok []) (readDocument cellar) = .ok [] := rfl
  obtain ⟨hsettles, hother⟩ :=
    (load_of_portVariable hnothing hpadded (by decide +kernel)).1 6390 hport (by decide)
  refine ⟨hport, hforeign, hsettles, hother _ _ _ readDocument_spare fun field hfield => ?_, ?_⟩
  · cases field with
    | port => exact absurd rfl hfield
    | _ => rfl
  · exact (load_of_portVariable readDocument_store hlinked (by decide +kernel)).2 hforeign

/-- A variable that goes on after a point takes the place of the port. -/
theorem not_settles_of_part :
    ¬ ∀ (files : Snapshot) (path : Option FilePath) (document : TomlEntries) (env : Environment)
      (text : String) (port : UInt16),
      path.elim (.ok []) (readDocument files) = .ok document →
      ("REDIS_PORT", Utf8.encode text) ∈ env →
      (∀ v ∈ env, ConfigField.port.IsSpelledBy v.1 → v = ("REDIS_PORT", Utf8.encode text)) →
      IsPortText text port → Settles (load files path env) .port port := by
  intro h
  let env : Environment :=
    [("REDIS_PORT", Utf8.encode "6390"), ("REDIS_PORT.ADDR", Utf8.encode "10.0.0.11")]
  have hport : IsPortText "6390" 6390 := Environment.isPortText_iff.mpr (by decide)
  have hload : load cellar none env = .error (.wrongType .port) := by decide +kernel
  have hmem : ("REDIS_PORT", Utf8.encode "6390") ∈ env := List.mem_cons_self ..
  rcases h cellar none [] env "6390" 6390 rfl hmem (by decide +kernel) hport with
    ⟨config, hok, -⟩ | ⟨cause, other, herror, hfield, hother⟩
  · rw [hload] at hok
    cases hok
  · rw [hload] at herror
    obtain rfl := Except.error.inj herror
    exact hother (Option.some.inj hfield).symm

end StoreConfig

end RandomSentences
