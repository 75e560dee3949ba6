import ShellCore.Proofs.Json.Fields
import ShellCore.Shell.Config

namespace ShellCore

/-!
# Records through JSON

Each record is read from its document as it was. Where the document is an object that
stands for the whole record, it may be given any further fields. Each part has a lemma of
its own, so a record only puts together the lemmas of its fields.
-/

namespace Json

/-- What is written of a record is read as it, also if the record was itself read. -/
structure ReadsBack
    (write : α → Json)
    (read? : Json → Option α) :
    Prop where
  written :
    ∀ record : α,
      read? (write record) = some record
  rewritten :
    ∀ (document : Json) (record : α),
      read? document = some record →
        read? (write record) = some record

/-- A record is an object, which is read as the record whatever fields it is given more. -/
structure ReadsExtended
    (write : α → Json)
    (read? : Json → Option α) :
    Prop extends ReadsBack write read? where
  isObject :
    ∀ record : α,
      ∃ fields, write record = .object fields
  extended :
    ∀ (record : α) (added : List (String × Json)),
      (write record).LacksAll added →
        read? ((write record).withFields added) = some record

theorem ReadsBack.of_written
    {write : α → Json}
    {read? : Json → Option α}
    (written : ∀ record : α, read? (write record) = some record) :
    ReadsBack write read? where
  written := written
  rewritten := fun _ record _ => written record

/-- A record of listed fields is read back if reading only needs an object that has them. -/
theorem ReadsExtended.of_fields
    {write : α → Json}
    {read? : Json → Option α}
    (fields : α → List (String × Json))
    (writes : ∀ record : α, write record = ofFields (fields record))
    (distinct : ∀ record : α, ((fields record).map (·.1)).Nodup)
    (reads :
      ∀ (record : α) (held : List (String × Json)),
        Has (fields record) held → read? (.object held) = some record) :
    ReadsExtended write read? := by
  have extended :
      ∀ (record : α) (added : List (String × Json)),
        (write record).LacksAll added →
          read? ((write record).withFields added) = some record := by
    intro record added lacks
    rw [writes record] at lacks ⊢
    exact reads record _ (has_withFields (distinct record) lacks)
  have written : ∀ record : α, read? (write record) = some record := by
    intro record
    have unchanged : (write record).withFields [] = write record := by
      rw [writes record]
      rfl
    simpa [unchanged] using extended record [] (by simp [LacksAll])
  exact {
    toReadsBack := .of_written written
    isObject := fun record => ⟨_, writes record⟩
    extended := extended
  }

section Parts

/-- An integer within the bounds is read as it is. -/
theorem integerIn?_ofInt
    {low high value : Int}
    (above : low ≤ value)
    (below : value ≤ high) :
    (ofInt value).integerIn? low high = some value := by
  simp [ofInt, integerIn?, integer?, above, below]

@[simp] theorem word32?_ofNat
    (word : UInt32) :
    (ofNat word.toNat).word32? = some word := by
  have small : word.toNat < UInt32.size := word.toNat_lt
  have read : (ofNat word.toNat).integerIn? 0 (UInt32.size - 1) = some (word.toNat : Int) :=
    integerIn?_ofInt (by omega) (by omega)
  rw [word32?, read]
  simp

@[simp] theorem word64?_ofNat
    (word : UInt64) :
    (ofNat word.toNat).word64? = some word := by
  have small : word.toNat < UInt64.size := word.toNat_lt
  have read : (ofNat word.toNat).integerIn? 0 (UInt64.size - 1) = some (word.toNat : Int) :=
    integerIn?_ofInt (by omega) (by omega)
  rw [word64?, read]
  simp

@[simp] theorem int32?_ofInt
    (word : Int32) :
    (ofInt word.toInt).int32? = some word := by
  have read := integerIn?_ofInt word.minValue_le_toInt word.toInt_le
  rw [int32?, read]
  simp

/-- A list is read back if its items are. -/
theorem listOf?_map
    {encode : α → Json}
    {decode : Json → Option α}
    (written : ∀ item : α, decode (encode item) = some item)
    (items : List α) :
    (Json.array (items.map encode)).listOf? decode = some items := by
  show (items.map encode).mapM decode = some items
  induction items with
  | nil => rfl
  | cons item rest inductionHypothesis =>
      simp [List.mapM_cons, written item, inductionHypothesis]

end Parts

end Json

section Handles

@[simp] theorem SpanId.ofJson?_toJson
    (span : SpanId) :
    SpanId.ofJson? span.toJson = some span := by
  simp [SpanId.ofJson?, SpanId.toJson, SpanId.index]

@[simp] theorem LineId.ofJson?_toJson
    (line : LineId) :
    LineId.ofJson? line.toJson = some line := by
  simp [LineId.ofJson?, LineId.toJson, LineId.index]

@[simp] theorem SourceId.ofJson?_toJson
    (source : SourceId) :
    SourceId.ofJson? source.toJson = some source := by
  simp [SourceId.ofJson?, SourceId.toJson, SourceId.index]

end Handles

section Choices

@[simp] theorem ControlKeyword.ofJson?_toJson
    (keyword : ControlKeyword) :
    ControlKeyword.ofJson? keyword.toJson = some keyword :=
  ofWord?_word keyword

@[simp] theorem TokenKind.ofJson?_toJson
    (kind : TokenKind) :
    TokenKind.ofJson? kind.toJson = some kind := by
  cases kind with
  | control keyword =>
      show (ControlKeyword.ofJson? keyword.toJson).map TokenKind.control = some (.control keyword)
      simp
  | _ => rfl

namespace Provenance

/-- The content of a kind is read from any object that has it. -/
theorem ofContent?_of_has
    (provenance : Provenance)
    {held : List (String × Json)}
    (has : Json.Has provenance.contentFields held) :
    ofContent? provenance.kindName (.object held) = some provenance := by
  have contents := has.recordFields?
  cases provenance <;>
    simp_all [contentFields, kindName, ofContent?, ofNoContent?, Json.string?]

theorem kind_not_mem_contentFields
    (provenance : Provenance) :
    "kind" ∉ provenance.contentFields.map (·.1) := by
  cases provenance <;> simp [contentFields]

theorem nodup_contentFields
    (provenance : Provenance) :
    (provenance.contentFields.map (·.1)).Nodup := by
  cases provenance <;> simp [contentFields]

/-- The kind stands among the fields of the content, and is left out before those are read. -/
theorem readsExtended :
    Json.ReadsExtended toJson ofJson? := by
  apply Json.ReadsExtended.of_fields
    (fun provenance : Provenance =>
      ("kind", .string provenance.kindName) :: provenance.contentFields)
    (fun _ => rfl)
  · intro provenance
    exact List.nodup_cons.mpr
      ⟨kind_not_mem_contentFields provenance, nodup_contentFields provenance⟩
  · intro provenance held has
    have kind : Json.findField? "kind" held = some (.string provenance.kindName) :=
      has ("kind", .string provenance.kindName) (by simp)
    have content :
        Json.Has provenance.contentFields (held.filter fun field => field.1 ≠ "kind") := by
      intro field member
      have different : field.1 ≠ "kind" := by
        intro same
        apply kind_not_mem_contentFields provenance
        rw [← same]
        exact List.mem_map_of_mem member
      rw [Json.findField?_filter_ne different]
      exact has field (by simp [member])
    have read := ofContent?_of_has provenance content
    simpa [ofJson?, kind, Json.string?] using read

@[simp] theorem ofJson?_toJson
    (provenance : Provenance) :
    ofJson? provenance.toJson = some provenance :=
  readsExtended.written provenance

end Provenance

end Choices

section Structures

theorem Token.readsExtended :
    Json.ReadsExtended Token.toJson Token.ofJson? := by
  apply Json.ReadsExtended.of_fields _ (fun _ => rfl)
  · intro token
    simp
  · intro token held has
    have contents := has.recordFields?
    simp only [List.map_cons, List.map_nil] at contents
    simp [Token.ofJson?, contents, Json.string?]

theorem SourceLine.readsExtended :
    Json.ReadsExtended SourceLine.toJson SourceLine.ofJson? := by
  apply Json.ReadsExtended.of_fields _ (fun _ => rfl)
  · intro line
    simp
  · intro line held has
    have contents := has.recordFields?
    simp only [List.map_cons, List.map_nil] at contents
    simp [SourceLine.ofJson?, contents, Json.string?]

theorem StatusArray.readsExtended :
    Json.ReadsExtended StatusArray.toJson StatusArray.ofJson? := by
  apply Json.ReadsExtended.of_fields _ (fun _ => rfl)
  · intro statuses
    simp
  · intro statuses held has
    have contents := has.recordFields?
    have codes := Json.listOf?_map Json.int32?_ofInt statuses.codes
    have locations := Json.listOf?_map SpanId.ofJson?_toJson statuses.locations
    simp only [List.map_cons, List.map_nil] at contents
    simp [StatusArray.ofJson?, contents, codes, locations]

theorem CommandStatus.readsExtended :
    Json.ReadsExtended CommandStatus.toJson CommandStatus.ofJson? := by
  apply Json.ReadsExtended.of_fields _ (fun _ => rfl)
  · intro statuses
    simp
  · intro statuses held has
    have contents := has.recordFields?
    have stages := Json.listOf?_map Json.int32?_ofInt statuses.stages
    simp only [List.map_cons, List.map_nil] at contents
    simp [CommandStatus.ofJson?, contents, stages, Json.bool?]

namespace Config

@[simp] theorem limitOfJson?_ofOption
    (limit : Option UInt64) :
    limitOfJson? (Json.ofOption (fun word => .ofNat word.toNat) limit) = some limit := by
  cases limit with
  | none => rfl
  | some word =>
      show (Json.ofNat word.toNat).word64?.map some = some (some word)
      simp

theorem readsExtended :
    Json.ReadsExtended toJson ofJson? := by
  apply Json.ReadsExtended.of_fields _ (fun _ => rfl)
  · intro config
    simp
  · intro config held has
    have contents := has.recordFields?
    have limited : withLimit (.object held) = .object held := by
      have limit : (Json.findField? "saved_lines_soft_limit" held).isSome :=
        has.isSome (by simp)
      simp [withLimit, limit]
    simp only [List.map_cons, List.map_nil] at contents
    simp [ofJson?, limited, contents, Json.string?, Json.bool?]

end Config

end Structures

/--
Every record is read back from its document, and so is what is written again of any
document that a record is read from. Those that are objects of fields may be given
any others.
-/
theorem records_are_read_back :
    Json.ReadsExtended Provenance.toJson Provenance.ofJson? ∧
      Json.ReadsBack TokenKind.toJson TokenKind.ofJson? ∧
      Json.ReadsExtended Token.toJson Token.ofJson? ∧
      Json.ReadsExtended SourceLine.toJson SourceLine.ofJson? ∧
      Json.ReadsExtended StatusArray.toJson StatusArray.ofJson? ∧
      Json.ReadsExtended CommandStatus.toJson CommandStatus.ofJson? ∧
      Json.ReadsExtended Config.toJson Config.ofJson? :=
  ⟨Provenance.readsExtended, .of_written TokenKind.ofJson?_toJson, Token.readsExtended,
    SourceLine.readsExtended, StatusArray.readsExtended, CommandStatus.readsExtended,
    Config.readsExtended⟩

/-- Fields that a provenance of another kind would have, or none. -/
def strayFields : List (String × Json) :=
  [("path", .null), ("note", .array []), ("path", .string "kind")]

theorem stray_fields_are_ignored :
    (Provenance.eval ⟨7⟩).toJson.LacksAll strayFields ∧
      (Provenance.eval ⟨7⟩).toJson.withFields strayFields =
        .object [("kind", .string "eval"), ("note", .array []), ("origin", .ofNat 7),
          ("path", .string "kind")] ∧
      Provenance.ofJson? ((Provenance.eval ⟨7⟩).toJson.withFields strayFields) =
        some (.eval ⟨7⟩) := by
  have lacks : (Provenance.eval ⟨7⟩).toJson.LacksAll strayFields := by
    intro field isStray
    simp only [strayFields, List.mem_cons, List.not_mem_nil, or_false] at isStray
    rcases isStray with rfl | rfl | rfl <;> rfl
  exact ⟨lacks, rfl, records_are_read_back.1.extended (.eval ⟨7⟩) strayFields lacks⟩

end ShellCore
