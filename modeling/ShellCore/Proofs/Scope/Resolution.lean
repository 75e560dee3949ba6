import ShellCore.Proofs.Scope.Bindings

namespace ShellCore.Scope

/-!
# Where names resolve

A name resolves to the innermost frame that binds it, and to the root frame if none
does. That is the frame whose binding a lookup finds, and the only one that a global
assignment or a removal touches; a local assignment touches the innermost frame.
-/

/-- A name resolves to the innermost frame that binds it, else to the root frame. -/
structure Resolves
    (scope : Scope)
    (name : String)
    (level : Nat) :
    Prop where
  isFrame : level < scope.depth
  isInnermost : ∀ closer < level, scope.bound? closer name = none
  binds : (scope.bound? level name).isSome ∨ level + 1 = scope.depth

/-- One scope has become another by what happened to one name in one frame. -/
structure ChangesBinding
    (before after : Scope)
    (name : String)
    (level : Nat)
    (binding : Option Value) :
    Prop where
  depth : after.depth = before.depth
  changed : after.bound? level name = binding
  /-- Other names, and the same name in other frames, are bound as they were. -/
  kept : ∀ place other,
    ¬ (place = level ∧ other = name) → after.bound? place other = before.bound? place other
  /-- Nothing but variables differs. -/
  rest : ∃ inner root, after = { before with inner := inner, root := root }

section Frames

variable {scope : Scope}
variable {name : String}
variable {unbound outer : List Frame}
variable {frame : Frame}

theorem depth_eq_length
    (scope : Scope) :
    scope.depth = scope.frames.length := by
  simp [depth, frames]

/-- What a frame binds, found by the place of the frame. -/
theorem bound?_eq
    (scope : Scope)
    (level : Nat)
    (name : String) :
    scope.bound? level name = scope.frames[level]?.bind (·.get? name) := by
  simp [bound?, bindings, List.getD_eq_getElem?_getD, Option.map_eq_bind]
  cases scope.frames[level]? <;> simp

theorem bound?_of_depth_le
    {level : Nat}
    (isOutside : scope.depth ≤ level) :
    scope.bound? level name = none := by
  rw [depth_eq_length] at isOutside
  simp [bound?_eq, List.getElem?_eq_none isOutside]

/-- A search that passes some frames and stops at the next resolves the name there. -/
theorem resolves_of_frames
    (shape : scope.frames = unbound ++ frame :: outer)
    (areUnbound : ∀ other ∈ unbound, Table.get? other name = none)
    (stops : (frame.get? name).isSome ∨ outer = []) :
    scope.Resolves name unbound.length where
  isFrame := by simp [depth_eq_length, shape]
  isInnermost := by
    intro closer isCloser
    have isUnbound := areUnbound unbound[closer] (List.getElem_mem isCloser)
    rw [bound?_eq, shape, List.getElem?_append_left isCloser, List.getElem?_eq_getElem isCloser]
    exact isUnbound
  binds := by
    apply stops.imp
    · intro isBound
      simpa [bound?_eq, shape] using isBound
    · intro isLast
      simp [depth_eq_length, shape, isLast]

/-- Setting a name in one frame changes that binding only. -/
theorem changes_of_frames
    {before after : Scope}
    {binding : Option Value}
    (shape : before.frames = unbound ++ frame :: outer)
    (changedShape : after.frames = unbound ++ frame.set name binding :: outer)
    (rest : ∃ inner root, after = { before with inner := inner, root := root }) :
    ChangesBinding before after name unbound.length binding where
  depth := by simp [depth_eq_length, shape, changedShape]
  changed := by simp [bound?_eq, changedShape, Table.get?_set]
  kept := by
    intro place other isOther
    rw [bound?_eq, bound?_eq, shape, changedShape]
    rcases Nat.lt_trichotomy place unbound.length with isCloser | isPlace | isFarther
    · rw [List.getElem?_append_left isCloser, List.getElem?_append_left isCloser]
    · have distinct : other ≠ name := fun same => isOther ⟨isPlace, same⟩
      simp [isPlace, Table.get?_set, distinct]
    · obtain ⟨behind, rfl⟩ := Nat.exists_eq_add_of_lt isFarther
      simp [List.getElem?_append_right, Nat.add_assoc]
  rest := rest

/-- Every name resolves somewhere. -/
theorem exists_resolves
    (scope : Scope)
    (name : String) :
    ∃ level, scope.Resolves name level := by
  obtain ⟨unbound, frame, outer, areUnbound, stops, shape, _⟩ :=
    scope.frames_setGlobal name .null
  exact ⟨unbound.length, resolves_of_frames shape areUnbound stops⟩

/-- A name resolves to one frame only. -/
theorem Resolves.unique
    {level other : Nat}
    (resolves : scope.Resolves name level)
    (alsoResolves : scope.Resolves name other) :
    other = level := by
  have noCloser :
      ∀ {closer farther : Nat},
        scope.Resolves name closer → scope.Resolves name farther → ¬ closer < farther := by
    intro closer farther first second isCloser
    have isUnbound := second.isInnermost closer isCloser
    have isInner := second.isFrame
    rcases first.binds with isBound | isRoot
    · simp [isUnbound] at isBound
    · omega
  apply Nat.le_antisymm
  · exact Nat.le_of_not_lt (noCloser resolves alsoResolves)
  · exact Nat.le_of_not_lt (noCloser alsoResolves resolves)

end Frames

section Lookups

variable {scope : Scope}
variable {name : String}

/-- A lookup finds the first binding from the innermost frame outward. -/
theorem get?_eq_some_iff
    {value : Value} :
    scope.get? name = some value ↔
      ∃ level,
        scope.bound? level name = some value ∧
          ∀ closer < level, scope.bound? closer name = none := by
  unfold get?
  rw [List.findSome?_eq_some_iff]
  constructor
  · rintro ⟨unbound, frame, outer, shape, binds, areUnbound⟩
    refine ⟨unbound.length, by simp [bound?_eq, shape, binds], ?_⟩
    exact (resolves_of_frames shape areUnbound (.inl (by simp [binds]))).isInnermost
  · rintro ⟨level, binding, isInnermost⟩
    rw [bound?_eq, Option.bind_eq_some_iff] at binding
    obtain ⟨frame, isPlace, binds⟩ := binding
    obtain ⟨isFrame, rfl⟩ := List.getElem?_eq_some_iff.mp isPlace
    refine ⟨scope.frames.take level, _, scope.frames.drop (level + 1), by simp, binds, ?_⟩
    intro frame isMember
    obtain ⟨closer, isCloser, rfl⟩ := List.mem_take_iff_getElem.mp isMember
    have isUnbound := isInnermost closer (by omega)
    rwa [bound?_eq, List.getElem?_eq_getElem] at isUnbound

theorem get?_of_innermost
    {level : Nat}
    (isInnermost : ∀ closer < level, scope.bound? closer name = none)
    (isBound : (scope.bound? level name).isSome) :
    scope.get? name = scope.bound? level name := by
  obtain ⟨value, binding⟩ := Option.isSome_iff_exists.mp isBound
  rw [binding]
  exact get?_eq_some_iff.mpr ⟨level, binding, isInnermost⟩

/-- A lookup finds nothing if no frame binds the name. -/
theorem get?_of_unbound
    (isUnbound : ∀ level, scope.bound? level name = none) :
    scope.get? name = none := by
  apply Option.eq_none_iff_forall_ne_some.mpr
  intro value found
  obtain ⟨level, binding, _⟩ := get?_eq_some_iff.mp found
  simp [isUnbound] at binding

/-- A lookup finds what is bound where the name resolves. -/
theorem Resolves.get?_eq
    {level : Nat}
    (resolves : scope.Resolves name level) :
    scope.get? name = scope.bound? level name := by
  by_cases isBound : (scope.bound? level name).isSome
  · exact get?_of_innermost resolves.isInnermost isBound
  have isRoot := resolves.binds.resolve_left isBound
  rw [Option.not_isSome_iff_eq_none] at isBound
  rw [isBound]
  apply get?_of_unbound
  intro place
  rcases Nat.lt_trichotomy place level with isCloser | rfl | isFarther
  · exact resolves.isInnermost place isCloser
  · exact isBound
  · exact bound?_of_depth_le (by omega)

/-- A name that keeps its bindings everywhere is looked up as before. -/
theorem get?_congr
    {before after : Scope}
    (same : ∀ level, after.bound? level name = before.bound? level name) :
    after.get? name = before.get? name := by
  apply Option.ext
  intro value
  rw [get?_eq_some_iff, get?_eq_some_iff]
  simp only [same]

end Lookups

section Removals

theorem unbind?_eq_some
    {name : String}
    {value : Value}
    {inner left : List Frame}
    (found : unbind? name inner = some (value, left)) :
    ∃ unbound frame outer,
      (∀ other ∈ unbound, Table.get? other name = none) ∧
        frame.get? name = some value ∧
        inner = unbound ++ frame :: outer ∧
        left = unbound ++ frame.erase name :: outer := by
  induction inner generalizing left with
  | nil => cases found
  | cons first rest inductionHypothesis =>
      unfold unbind? at found
      split at found
      next held binds =>
        cases found
        exact ⟨[], first, rest, by simp, binds, rfl, rfl⟩
      next isUnbound =>
        obtain ⟨⟨held, others⟩, foundLater, same⟩ := Option.map_eq_some_iff.mp found
        cases same
        obtain ⟨unbound, frame, outer, areUnbound, binds, rfl, rfl⟩ :=
          inductionHypothesis foundLater
        refine ⟨first :: unbound, frame, outer, ?_, binds, rfl, rfl⟩
        intro other isMember
        rcases List.mem_cons.mp isMember with rfl | isLater
        · exact isUnbound
        · exact areUnbound other isLater

theorem unbind?_eq_none
    {name : String}
    {inner : List Frame}
    (none : unbind? name inner = none) :
    ∀ frame ∈ inner, Table.get? frame name = Option.none := by
  induction inner with
  | nil => simp
  | cons first rest inductionHypothesis =>
      unfold unbind? at none
      split at none
      · cases none
      next isUnbound =>
        have later := inductionHypothesis (Option.map_eq_none_iff.mp none)
        intro frame isMember
        rcases List.mem_cons.mp isMember with rfl | isLater
        · exact isUnbound
        · exact later frame isLater

/-- A name is removed from the first frame that binds it, else from the root. -/
theorem frames_remove
    (scope : Scope)
    (name : String) :
    ∃ unbound frame outer,
      (∀ other ∈ unbound, Table.get? other name = none) ∧
        ((frame.get? name).isSome ∨ outer = []) ∧
        scope.frames = unbound ++ frame :: outer ∧
        (scope.remove name).1 = frame.get? name ∧
        (scope.remove name).2.frames = unbound ++ frame.erase name :: outer := by
  unfold remove
  split
  next value left found =>
    obtain ⟨unbound, frame, outer, areUnbound, binds, inner, rfl⟩ := unbind?_eq_some found
    refine ⟨unbound, frame, outer ++ [scope.root], areUnbound, ?_, ?_, binds.symm, ?_⟩
    · exact .inl (by rw [binds]; rfl)
    · simp [frames, inner]
    · simp [frames]
  next none =>
    exact ⟨scope.inner, scope.root, [], unbind?_eq_none none, .inr rfl, rfl, rfl, rfl⟩

theorem remove_frame
    (scope : Scope)
    (name : String) :
    ∃ inner root, (scope.remove name).2 = { scope with inner := inner, root := root } := by
  unfold remove
  split <;> exact ⟨_, _, rfl⟩

end Removals

section Changes

variable {scope : Scope}
variable {name : String}
variable {level : Nat}

/-- A local assignment changes the innermost frame only. -/
theorem set_changes
    (scope : Scope)
    (name : String)
    (value : Value) :
    ChangesBinding scope (scope.set name value) name 0 (some value) := by
  cases shape : scope.frames with
  | nil => simp [frames] at shape
  | cons frame outer =>
      have opened : scope.frames = [] ++ frame :: outer := shape
      apply changes_of_frames opened
      · simp [frames_set, shape, Table.set]
      · exact scope.set_frame name value

/-- A global assignment changes the binding that a lookup finds, or adds one to the root. -/
theorem Resolves.setGlobal_changes
    (resolves : scope.Resolves name level)
    (value : Value) :
    ChangesBinding scope (scope.setGlobal name value) name level (some value) := by
  obtain ⟨unbound, frame, outer, areUnbound, stops, shape, changedShape⟩ :=
    scope.frames_setGlobal name value
  obtain rfl := resolves.unique (resolves_of_frames shape areUnbound stops)
  exact changes_of_frames shape changedShape (scope.setGlobal_frame name value)

/-- A removal takes away the binding that a lookup finds, and yields it. -/
theorem Resolves.remove_changes
    (resolves : scope.Resolves name level) :
    (scope.remove name).1 = scope.get? name ∧
      ChangesBinding scope (scope.remove name).2 name level none := by
  obtain ⟨unbound, frame, outer, areUnbound, stops, shape, taken, changedShape⟩ :=
    scope.frames_remove name
  obtain rfl := resolves.unique (resolves_of_frames shape areUnbound stops)
  refine ⟨?_, changes_of_frames shape changedShape (scope.remove_frame name)⟩
  rw [taken, resolves.get?_eq, bound?_eq, shape]
  simp

namespace ChangesBinding

variable {before after : Scope}
variable {binding : Option Value}

/-- Of another name a lookup finds what it found. -/
theorem get?_of_ne
    {other : String}
    (changes : ChangesBinding before after name level binding)
    (distinct : other ≠ name) :
    after.get? other = before.get? other := by
  apply get?_congr
  intro place
  apply changes.kept
  exact fun same => distinct same.2

/-- What is bound where the name resolved, or in front of it, is found. -/
theorem get?_self
    {value : Value}
    (changes : ChangesBinding before after name level (some value))
    (isInnermost : ∀ closer < level, before.bound? closer name = none) :
    after.get? name = some value := by
  rw [← changes.changed]
  apply get?_of_innermost
  · intro closer isCloser
    rw [changes.kept closer name (by omega), isInnermost closer isCloser]
  · simp [changes.changed]

/-- Where a binding was taken away, a lookup finds the next one further out. -/
theorem get?_uncovered
    {value : Value}
    (changes : ChangesBinding before after name level none)
    (isInnermost : ∀ closer < level, before.bound? closer name = none) :
    after.get? name = some value ↔
      ∃ next,
        level < next ∧ before.bound? next name = some value ∧
          ∀ between, level < between → between < next → before.bound? between name = none := by
  have kept : ∀ place, place ≠ level → after.bound? place name = before.bound? place name :=
    fun place isOther => changes.kept place name fun same => isOther same.1
  rw [get?_eq_some_iff]
  constructor
  · rintro ⟨next, binding, isNext⟩
    have isOther : next ≠ level := by
      rintro rfl
      simp [changes.changed] at binding
    rw [kept next isOther] at binding
    have isFarther : level < next := by
      apply Nat.lt_of_le_of_ne _ isOther.symm
      apply Nat.le_of_not_lt
      intro isCloser
      simp [isInnermost next isCloser] at binding
    refine ⟨next, isFarther, binding, ?_⟩
    intro between isBehind isBefore
    rw [← kept between (by omega), isNext between isBefore]
  · rintro ⟨next, isFarther, binding, isNext⟩
    refine ⟨next, by rw [kept next (by omega), binding], ?_⟩
    intro closer isCloser
    by_cases isTaken : closer = level
    · rw [isTaken, changes.changed]
    rw [kept closer isTaken]
    by_cases isBefore : closer < level
    · exact isInnermost closer isBefore
    · exact isNext closer (by omega) isCloser

end ChangesBinding

end Changes

end ShellCore.Scope
