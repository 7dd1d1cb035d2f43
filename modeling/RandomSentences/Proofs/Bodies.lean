import RandomSentences.Proofs.Records
import RandomSentences.Service.Body

/-!
# The bodies of responses survive JSON

A batch of sentences has a count, which fits into 64 bits, and sentences that may be any texts; a
failure has any text as its message. Both are read back from the JSON that is written of them, and
from any other JSON text that gives their fields, as an object or as an array.

A text that lacks a field or repeats one is refused, and so is one in which the count is a number
that counts nothing (`JsonNumber.IsNoCount`): if it is an integer at all, it is below zero.
-/

namespace RandomSentences

namespace JsonNumber

/-- A number that counts nothing: it is negative, has a fraction or an exponent, or does not fit
into 64 bits. -/
def IsNoCount (literal : JsonNumber) : Prop :=
  literal.negative = true ∨ literal.fraction ≠ none ∨ literal.exponent ≠ none ∨
    UInt64.size ≤ Decimal.ofDigits 10 literal.whole

theorem integer?_of_isNoCount {literal : JsonNumber} (h : literal.IsNoCount) {n : Int}
    (hn : literal.integer? = some n) : n < 0 := by
  obtain ⟨hwhole, hn⟩ := Option.ite_none_left_eq_some.mp hn
  rw [Bool.or_eq_true, Option.isSome_iff_ne_none, Option.isSome_iff_ne_none, not_or] at hwhole
  by_cases hneg : literal.negative = true
  · simp only [hneg, if_true] at hn
    obtain ⟨⟨hpos, -⟩, heq⟩ := Option.ite_none_right_eq_some.mp hn
    obtain rfl := Option.some.inj heq
    omega
  · -- of the other reasons not one is left
    simp only [hneg] at hn
    obtain ⟨hsmall, -⟩ := Option.ite_none_right_eq_some.mp hn
    rcases h with h | h | h | h
    · exact absurd h hneg
    · exact absurd h hwhole.1
    · exact absurd h hwhole.2
    · omega

end JsonNumber

namespace SentenceBatch

variable {batch : SentenceBatch} {value : Json}

/-- The fields of a batch. -/
def fields (batch : SentenceBatch) : List (String × Json) :=
  [("count", .number (.ofNat batch.count)), ("sentences", .array (batch.sentences.map .ofString))]

theorem mapM_text?_map_ofString (texts : List String) :
    (texts.map Json.ofString).mapM Json.text? = some texts := by
  rw [List.mapM_map]
  exact (List.mapM_pure (f := id)).trans (congrArg some (List.map_id texts))

theorem ofJson?_of_isRecordOf (hcount : batch.count < UInt64.size)
    (h : Json.IsRecordOf batch.fields value) : ofJson? value = some batch := by
  have hnodup : (batch.fields.map Prod.fst).Nodup := by
    simp [fields]
  have hfields : value.fields? ["count", "sentences"] =
      some [some (.number (.ofNat batch.count)), some (.array (batch.sentences.map .ofString))] :=
    Json.fields?_of_isRecordOf hnodup h
  have hinteger : (JsonNumber.ofNat batch.count).integer? = some (batch.count : Int) := by
    have hbound : Json.IsInteger64 batch.count := by
      rw [UInt64.size] at hcount
      constructor <;> omega
    rw [← JsonNumber.ofInt_natCast, Json.integer?_ofInt hbound]
  have hsentences := mapM_text?_map_ofString batch.sentences
  rw [ofJson?, hfields]
  simp only [Option.bind_eq_bind, Option.bind_some, Json.integer?, hinteger, Json.items?,
    hsentences]
  exact if_pos (Int.natCast_nonneg _)

theorem isWritable_fields : ∀ field ∈ batch.fields, Json.IsWritable field.2 := by
  simp only [fields, List.forall_mem_cons, List.not_mem_nil, false_implies, implies_true, and_true]
  refine ⟨Json.isWritable_integer false batch.count, Json.isWritable_array fun item hitem => ?_⟩
  obtain ⟨text, -, rfl⟩ := List.mem_map.mp hitem
  exact Json.isWritable_ofString text

/-- Whatever is read as a batch has both fields, and the first of them is its count. -/
theorem exists_fields_of_ofJson? (h : ofJson? value = some batch) :
    ∃ count sentences, value.fields? ["count", "sentences"] = some [some count, some sentences] ∧
      count.integer? = some (batch.count : Int) := by
  obtain ⟨found, hfound, hmatch⟩ := Option.bind_eq_some_iff.mp h
  split at hmatch
  · rename_i count sentences
    obtain ⟨n, hn, hrest⟩ := Option.bind_eq_some_iff.mp hmatch
    obtain ⟨items, -, hrest⟩ := Option.bind_eq_some_iff.mp hrest
    obtain ⟨hnonneg, hrest⟩ := Option.ite_none_right_eq_some.mp hrest
    obtain ⟨texts, -, hbatch⟩ := Option.bind_eq_some_iff.mp hrest
    obtain rfl := Option.some.inj hbatch
    exact ⟨count, sentences, hfound, by rw [hn, Int.toNat_of_nonneg hnonneg]⟩
  · cases hmatch

theorem ofJson?_eq_none_of_lacks (h : Json.Lacks ["count", "sentences"] value) :
    ofJson? value = none := by
  refine Option.eq_none_iff_forall_ne_some.mpr fun batch hbatch => ?_
  obtain ⟨count, sentences, hfields, -⟩ := exists_fields_of_ofJson? hbatch
  simpa using Json.none_mem_of_lacks h hfields

theorem ofJson?_eq_none_of_repeats (h : Json.Repeats ["count", "sentences"] value) :
    ofJson? value = none := by
  rw [ofJson?, Json.fields?_of_repeats h]
  rfl

theorem ofJson?_eq_none_of_isNoCount {literal : JsonNumber} (hliteral : literal.IsNoCount)
    (h : Json.Gives ["count", "sentences"] "count" (.number literal) value) :
    ofJson? value = none := by
  refine Option.eq_none_iff_forall_ne_some.mpr fun batch hbatch => ?_
  obtain ⟨count, sentences, hfields, hcount⟩ := exists_fields_of_ofJson? hbatch
  have hgiven := Json.getElem?_of_gives h (by decide) hfields
  obtain rfl : count = .number literal := by simpa using hgiven
  have hnegative := JsonNumber.integer?_of_isNoCount hliteral hcount
  omega

end SentenceBatch

namespace ErrorBody

variable {body : ErrorBody} {value : Json}

/-- The only field of a failure. -/
def fields (body : ErrorBody) : List (String × Json) :=
  [("error", .ofString body.error)]

theorem ofJson?_of_isRecordOf (h : Json.IsRecordOf body.fields value) :
    ofJson? value = some body := by
  have hnodup : (body.fields.map Prod.fst).Nodup := by
    simp [fields]
  have hfields : value.fields? ["error"] = some [some (.ofString body.error)] :=
    Json.fields?_of_isRecordOf hnodup h
  rw [ofJson?, hfields]
  rfl

theorem ofJson?_eq_none_of_lacks (h : Json.Lacks ["error"] value) : ofJson? value = none := by
  refine Option.eq_none_iff_forall_ne_some.mpr fun body hbody => ?_
  obtain ⟨found, hfound, hmatch⟩ := Option.bind_eq_some_iff.mp hbody
  split at hmatch
  · simpa using Json.none_mem_of_lacks h hfound
  · cases hmatch

theorem ofJson?_eq_none_of_repeats (h : Json.Repeats ["error"] value) : ofJson? value = none := by
  rw [ofJson?, Json.fields?_of_repeats h]
  rfl

end ErrorBody

/-- Both kinds of bodies are read back from what is written, and from any other text that gives
their fields. Nothing is read where a field is lacking or repeated, or where the count is a number
that counts nothing. -/
theorem readsBack_bodies :
    (∀ batch : SentenceBatch, batch.count < UInt64.size →
      Json.ReadsBack SentenceBatch.ofJson? batch.toJson batch.fields batch) ∧
    (∀ body : ErrorBody, Json.ReadsBack ErrorBody.ofJson? body.toJson body.fields body) ∧
    (∀ value text, Json.IsDocument value text →
      (Json.Lacks ["count", "sentences"] value ∨ Json.Repeats ["count", "sentences"] value ∨
        ∃ literal : JsonNumber, literal.IsNoCount ∧
          Json.Gives ["count", "sentences"] "count" (.number literal) value) →
      Json.decode? SentenceBatch.ofJson? text = none) ∧
    (∀ value text, Json.IsDocument value text →
      (Json.Lacks ["error"] value ∨ Json.Repeats ["error"] value) →
      Json.decode? ErrorBody.ofJson? text = none) := by
  refine ⟨fun batch hcount => ?_, fun body => ?_, fun value text htext h => ?_,
    fun value text htext h => ?_⟩
  · exact Json.readsBack_of_isRecordOf SentenceBatch.isWritable_fields fun value hvalue =>
      SentenceBatch.ofJson?_of_isRecordOf hcount hvalue
  · refine Json.readsBack_of_isRecordOf (fun field hfield => ?_) fun value hvalue =>
      ErrorBody.ofJson?_of_isRecordOf hvalue
    obtain rfl := List.mem_singleton.mp hfield
    exact Json.isWritable_ofString body.error
  · rw [Json.decode?_of_isDocument htext]
    rcases h with hlacks | hrepeats | ⟨literal, hliteral, hgives⟩
    · exact SentenceBatch.ofJson?_eq_none_of_lacks hlacks
    · exact SentenceBatch.ofJson?_eq_none_of_repeats hrepeats
    · exact SentenceBatch.ofJson?_eq_none_of_isNoCount hliteral hgives
  · rw [Json.decode?_of_isDocument htext]
    rcases h with hlacks | hrepeats
    · exact ErrorBody.ofJson?_eq_none_of_lacks hlacks
    · exact ErrorBody.ofJson?_eq_none_of_repeats hrepeats

theorem readsBack_bodies_samples :
    Json.decode? SentenceBatch.ofJson? "[18446744073709551615,[\x22\x5c\x22\x5cn\x22]]" =
      some ⟨2 ^ 64 - 1, ["\x22\n"]⟩ ∧
    Json.decode? ErrorBody.ofJson? "\x7b\x22more\x22:[null],\x22error\x22:\x22\x5c\x5c\x22\x7d" =
      some ⟨"\x5c"⟩ ∧
    Json.decode? SentenceBatch.ofJson? "\x7b\x22count\x22:-1,\x22sentences\x22:[]\x7d" = none ∧
    Json.decode? ErrorBody.ofJson? "[]" = none := by
  obtain ⟨hbatch, hbody, hnobatch, hnobody⟩ := readsBack_bodies
  have hsentences := Json.isWritable_array (List.forall_mem_singleton.mpr
    (Json.isWritable_ofString "\x22\n"))
  have hnothing : Json.IsWritable (.array []) := Json.isWritable_array (by simp)
  refine ⟨?_, ?_, ?_, ?_⟩
  · refine (hbatch ⟨2 ^ 64 - 1, ["\x22\n"]⟩ (by decide)).of_text _ _ (.inr rfl) ?_
    have hvalue := Json.isWritable_array (List.forall_mem_cons.mpr
      ⟨Json.isWritable_integer false (2 ^ 64 - 1), List.forall_mem_singleton.mpr hsentences⟩)
    exact hvalue.isDocument (by decide +kernel)
  · refine (hbody ⟨"\x5c"⟩).of_text _ _ (.inl ⟨[("more", .array [.null])],
      [("more", .array [.null]), ("error", .ofString "\x5c")], by decide, .swap _ _ _, rfl⟩) ?_
    refine Json.IsWritable.isDocument (Json.isWritable_ofMembers ?_) (by decide +kernel)
    exact List.forall_mem_cons.mpr ⟨Json.isWritable_array (List.forall_mem_singleton.mpr
      Json.isWritable_null), List.forall_mem_singleton.mpr (Json.isWritable_ofString _)⟩
  · refine hnobatch (.ofMembers [("count", .number (.ofInt (-1))), ("sentences", .array [])]) _ ?_
      (.inr (.inr ⟨.ofInt (-1), .inl rfl, .object (List.mem_cons_self ..)⟩))
    refine Json.IsWritable.isDocument (Json.isWritable_ofMembers ?_) (by decide +kernel)
    exact List.forall_mem_cons.mpr ⟨Json.isWritable_integer true 1,
      List.forall_mem_singleton.mpr hnothing⟩
  · exact hnobody _ _ (hnothing.isDocument (by decide)) (.inl (.array (by decide)))

end RandomSentences
