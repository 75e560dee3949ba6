import ShellCore.Source.Record

namespace ShellCore.Json

/-!
# The fields of an object

A field that is put in an object is found there, and every other one as before. An object
of named fields hence gives a record their contents in the order in which the record names
them, whatever fields of other names the object is given.
-/

/-- A list of fields with more of them put at their places, one after another. -/
def insertFields
    (fields added : List (String × Json)) :
    List (String × Json) :=
  added.foldl (fun ordered field => insertField field.1 field.2 ordered) fields

/-- An object that is given more fields; no other document takes any. -/
def withFields
    (added : List (String × Json)) :
    Json →
    Json
  | .object fields => .object (insertFields fields added)
  | document => document

/-- None of the fields has the name of one that the document has. -/
def LacksAll
    (document : Json)
    (added : List (String × Json)) :
    Prop :=
  ∀ field ∈ added, document.field? field.1 = none

section Finding

theorem findField?_cons
    (name : String)
    (field : String × Json)
    (rest : List (String × Json)) :
    findField? name (field :: rest) =
      if field.1 = name then some field.2 else findField? name rest := by
  by_cases same : field.1 = name <;> simp [findField?, same]

/-- Wherever a field is put, it is the one found under its name, and hides no other name. -/
theorem findField?_insertField
    (name other : String)
    (value : Json)
    (fields : List (String × Json)) :
    findField? other (insertField name value fields) =
      if name = other then some value else findField? other fields := by
  induction fields with
  | nil => exact findField?_cons other (name, value) []
  | cons field rest inductionHypothesis =>
      by_cases same : name = field.1
      · simp_all [insertField, findField?_cons]
      -- The order decides on the place only: no name is found in front of an equal one.
      · by_cases before : name < field.1
        · simp [insertField, same, before, findField?_cons]
        · by_cases found : field.1 = other
          · have different : name ≠ other := found ▸ same
            simp [insertField, same, before, findField?_cons, if_pos found, different]
          · simp [insertField, same, before, findField?_cons, found, inductionHypothesis]

theorem findField?_insertFields_of_not_mem
    {name : String}
    {added : List (String × Json)}
    (absent : name ∉ added.map (·.1))
    (fields : List (String × Json)) :
    findField? name (insertFields fields added) = findField? name fields := by
  induction added generalizing fields with
  | nil => rfl
  | cons field rest inductionHypothesis =>
      obtain ⟨different, absentLater⟩ : name ≠ field.1 ∧ name ∉ rest.map (·.1) := by
        simpa using absent
      calc findField? name (insertFields fields (field :: rest))
          = findField? name (insertField field.1 field.2 fields) :=
            inductionHypothesis absentLater (insertField field.1 field.2 fields)
        _ = findField? name fields := by
            simp [findField?_insertField, Ne.symm different]

/-- Of fields with names of their own, each is found whatever was there before. -/
theorem findField?_insertFields_of_mem
    {added : List (String × Json)}
    (distinct : (added.map (·.1)).Nodup)
    {field : String × Json}
    (member : field ∈ added)
    (fields : List (String × Json)) :
    findField? field.1 (insertFields fields added) = some field.2 := by
  induction added generalizing fields with
  | nil => simp at member
  | cons first rest inductionHypothesis =>
      obtain ⟨firstAbsent, distinctRest⟩ := List.nodup_cons.mp distinct
      rcases List.mem_cons.mp member with rfl | later
      · calc findField? field.1 (insertFields fields (field :: rest))
            = findField? field.1 (insertField field.1 field.2 fields) :=
              findField?_insertFields_of_not_mem firstAbsent _
          _ = some field.2 := by simp [findField?_insertField]
      · exact inductionHypothesis distinctRest later (insertField first.1 first.2 fields)

/-- Leaving out the fields of one name keeps those of every other. -/
theorem findField?_filter_ne
    {name other : String}
    (different : other ≠ name)
    (fields : List (String × Json)) :
    findField? other (fields.filter fun field => field.1 ≠ name) = findField? other fields := by
  induction fields with
  | nil => rfl
  | cons field rest inductionHypothesis =>
      by_cases named : field.1 = name
      · have missed : field.1 ≠ other := fun same => different (same ▸ named)
        simpa [named, findField?_cons, Ne.symm different] using inductionHypothesis
      · by_cases found : field.1 = other <;>
          simp_all [findField?_cons]

end Finding

section Reading

/-- The object has each of the fields. -/
def Has
    (fields : List (String × Json))
    (held : List (String × Json)) :
    Prop :=
  ∀ field ∈ fields, findField? field.1 held = some field.2

theorem Has.isSome
    {name : String}
    {fields held : List (String × Json)}
    (has : Has fields held)
    (named : name ∈ fields.map (·.1)) :
    (findField? name held).isSome := by
  obtain ⟨field, member, rfl⟩ := List.mem_map.mp named
  simp [has field member]

/-- An object with all fields of a record gives their contents, in the order of the record. -/
theorem Has.recordFields?
    {fields held : List (String × Json)}
    (has : Has fields held) :
    (Json.object held).recordFields? (fields.map (·.1)) = some (fields.map (·.2)) := by
  show (fields.map (·.1)).mapM (fun name => findField? name held) = some (fields.map (·.2))
  induction fields with
  | nil => rfl
  | cons field rest inductionHypothesis =>
      have first : findField? field.1 held = some field.2 := has field (by simp)
      have later : Has rest held := fun other member => has other (by simp [member])
      simp [List.mapM_cons, first, inductionHypothesis later]

/-- The object of fields has them all, and still does with more fields of other names. -/
theorem has_withFields
    {fields added : List (String × Json)}
    (distinct : (fields.map (·.1)).Nodup)
    (lacks : (ofFields fields).LacksAll added) :
    Has fields (insertFields (insertFields [] fields) added) := by
  intro field member
  have found : findField? field.1 (insertFields [] fields) = some field.2 :=
    findField?_insertFields_of_mem distinct member []
  have absent : field.1 ∉ added.map (·.1) := by
    intro taken
    obtain ⟨other, otherMember, sameName⟩ := List.mem_map.mp taken
    have missing : findField? other.1 (insertFields [] fields) = none :=
      lacks other otherMember
    simp [sameName, found] at missing
  rw [findField?_insertFields_of_not_mem absent, found]

end Reading

end ShellCore.Json
