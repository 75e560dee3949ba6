import ShellCore.Scope

namespace ShellCore

/-!
# The bindings of a name

In each frame of a scope a name is bound or not. A frame that binds a name shields
the frames below it from assignments to that name, and no assignment takes a
binding away. So what a call leaves of the bindings of a name is what its caller
had, but for values of bindings that were there, and for the root frame.
-/

namespace Scope

/-- What a name is bound to in each frame, innermost first. -/
def bindings
    (scope : Scope)
    (name : String) :
    List (Option Value) :=
  scope.frames.map fun frame => frame.get? name

/-- What a name is bound to in a frame, counted from the innermost. -/
def bound?
    (scope : Scope)
    (level : Nat)
    (name : String) :
    Option Value :=
  (scope.bindings name).getD level none

theorem bindings_ne_nil
    (scope : Scope)
    (name : String) :
    scope.bindings name ≠ [] := by
  simp [bindings, frames]

@[simp] theorem length_bindings
    (scope : Scope)
    (name : String) :
    (scope.bindings name).length = scope.depth := by
  simp [bindings, frames, depth]

section Assignments

/-- An assignment changes nothing but variables. -/
theorem set_frame
    (scope : Scope)
    (name : String)
    (value : Value) :
    ∃ inner root, scope.set name value = { scope with inner := inner, root := root } := by
  unfold set
  split <;> exact ⟨_, _, rfl⟩

theorem setGlobal_frame
    (scope : Scope)
    (name : String)
    (value : Value) :
    ∃ inner root, scope.setGlobal name value = { scope with inner := inner, root := root } := by
  unfold setGlobal
  split <;> exact ⟨_, _, rfl⟩

theorem frames_set
    (scope : Scope)
    (name : String)
    (value : Value) :
    (scope.set name value).frames = scope.frames.modifyHead (·.insert name value) := by
  unfold set
  split
  next isRoot => simp [frames, isRoot]
  next frame outer inner => simp [frames, inner]

@[simp] theorem bindings_set_self
    (scope : Scope)
    (name : String)
    (value : Value) :
    (scope.set name value).bindings name = some value :: (scope.bindings name).tail := by
  unfold bindings
  rw [frames_set]
  cases shape : scope.frames with
  | nil => simp [frames] at shape
  | cons frame outer => simp

theorem bindings_set_of_ne
    (scope : Scope)
    {name other : String}
    (value : Value)
    (distinct : other ≠ name) :
    (scope.set name value).bindings other = scope.bindings other := by
  unfold bindings
  rw [frames_set]
  cases scope.frames with
  | nil => rfl
  | cons frame outer => simp [Table.get?_insert_of_ne, distinct]

theorem rebind?_eq_some
    {name : String}
    {value : Value}
    {inner rebound : List Frame}
    (found : rebind? name value inner = some rebound) :
    ∃ unbound frame outer,
      (∀ other ∈ unbound, Table.get? other name = none) ∧
        (frame.get? name).isSome ∧
        inner = unbound ++ frame :: outer ∧
        rebound = unbound ++ frame.insert name value :: outer := by
  induction inner generalizing rebound with
  | nil => cases found
  | cons first rest inductionHypothesis =>
      unfold rebind? at found
      split at found
      next binds =>
        cases found
        exact ⟨[], first, rest, by simp, binds, rfl, rfl⟩
      next bindsNot =>
        obtain ⟨others, foundLater, rfl⟩ := Option.map_eq_some_iff.mp found
        obtain ⟨unbound, frame, outer, areUnbound, binds, rfl, rfl⟩ :=
          inductionHypothesis foundLater
        refine ⟨first :: unbound, frame, outer, ?_, binds, rfl, rfl⟩
        intro other isMember
        rcases List.mem_cons.mp isMember with rfl | isLater
        · simpa [Table.contains] using bindsNot
        · exact areUnbound other isLater

theorem rebind?_eq_none
    {name : String}
    {value : Value}
    {inner : List Frame}
    (none : rebind? name value inner = none) :
    ∀ frame ∈ inner, Table.get? frame name = Option.none := by
  induction inner with
  | nil => simp
  | cons first rest inductionHypothesis =>
      unfold rebind? at none
      split at none
      · cases none
      next bindsNot =>
        have later := inductionHypothesis (Option.map_eq_none_iff.mp none)
        intro frame isMember
        rcases List.mem_cons.mp isMember with rfl | isLater
        · simpa [Table.contains] using bindsNot
        · exact later frame isLater

/-- A variable that is not local is assigned in the first frame that binds it, or in the root. -/
theorem frames_setGlobal
    (scope : Scope)
    (name : String)
    (value : Value) :
    ∃ unbound frame outer,
      (∀ other ∈ unbound, Table.get? other name = none) ∧
        ((frame.get? name).isSome ∨ outer = []) ∧
        scope.frames = unbound ++ frame :: outer ∧
        (scope.setGlobal name value).frames = unbound ++ frame.insert name value :: outer := by
  unfold setGlobal
  split
  next rebound found =>
    obtain ⟨unbound, frame, outer, areUnbound, binds, inner, rfl⟩ := rebind?_eq_some found
    refine ⟨unbound, frame, outer ++ [scope.root], areUnbound, .inl binds, ?_, ?_⟩
    · simp [frames, inner]
    · simp [frames]
  next none =>
    exact ⟨scope.inner, scope.root, [], rebind?_eq_none none, .inr rfl, rfl, rfl⟩

theorem bindings_setGlobal_of_ne
    (scope : Scope)
    {name other : String}
    (value : Value)
    (distinct : other ≠ name) :
    (scope.setGlobal name value).bindings other = scope.bindings other := by
  obtain ⟨unbound, frame, outer, _, _, before, after⟩ := scope.frames_setGlobal name value
  simp [bindings, before, after, Table.get?_insert_of_ne, distinct]

end Assignments

section Calls

theorem bindParams_frame
    (scope : Scope)
    (params : List String)
    (args : List Value) :
    ∃ inner root,
      scope.bindParams params args = { scope with inner := inner, root := root } := by
  induction params generalizing scope args with
  | nil => exact ⟨_, _, rfl⟩
  | cons param rest inductionHypothesis =>
      cases args with
      | nil => exact ⟨_, _, rfl⟩
      | cons arg others =>
          obtain ⟨_, _, first⟩ := scope.set_frame param arg
          obtain ⟨inner, root, bound⟩ := inductionHypothesis (scope.set param arg) others
          refine ⟨inner, root, ?_⟩
          unfold bindParams
          rw [bound, first]

/-- A call finds the functions that its caller holds. -/
@[simp] theorem functions_enterCall
    (scope : Scope)
    (function : Function)
    (args : List Value) :
    (scope.enterCall function args).functions = scope.functions := by
  unfold enterCall
  obtain ⟨_, _, bound⟩ := bindParams_frame
    (scope.pushFrame.setPositional function.name (args.map Value.display)) function.params args
  rw [bound]
  rfl

/-- What a call defines stays defined. -/
@[simp] theorem functions_leaveCall
    (scope caller : Scope) :
    (scope.leaveCall caller).functions = scope.functions := by
  unfold leaveCall popFrame?
  split <;> rfl

/-- Parameters are bound in the innermost frame, as far as there are arguments. -/
theorem frames_bindParams
    {scope : Scope}
    {frame : Frame}
    {outer : List Frame}
    (shape : scope.frames = frame :: outer)
    (params : List String)
    (args : List Value) :
    ∃ bound : Frame,
      (scope.bindParams params args).frames = bound :: outer ∧
        ∀ name,
          (frame.get? name).isSome ∨ name ∈ params.take args.length →
          (bound.get? name).isSome := by
  induction params generalizing scope frame args with
  | nil => exact ⟨frame, shape, by simp⟩
  | cons param rest inductionHypothesis =>
      cases args with
      | nil => exact ⟨frame, shape, by simp⟩
      | cons arg others =>
          have first : (scope.set param arg).frames = frame.insert param arg :: outer := by
            simp [frames_set, shape]
          obtain ⟨bound, frames, binds⟩ := inductionHypothesis first others
          refine ⟨bound, frames, fun name isBound => binds name ?_⟩
          by_cases same : name = param
          · simp [same]
          · simpa [Table.get?_insert_of_ne, same] using isBound

/-- In the frame of a call the parameters are bound; below it are the frames of the caller. -/
theorem bindings_enterCall
    (scope : Scope)
    (function : Function)
    (args : List Value)
    (name : String) :
    ∃ binding : Option Value,
      (scope.enterCall function args).bindings name = binding :: scope.bindings name ∧
        (name ∈ function.params.take args.length → binding.isSome) := by
  have opened :
      (scope.pushFrame.setPositional function.name (args.map Value.display)).frames =
        .empty :: scope.frames :=
    rfl
  obtain ⟨bound, frames, binds⟩ := frames_bindParams opened function.params args
  refine ⟨bound.get? name, ?_, fun isParam => binds name (.inr isParam)⟩
  unfold bindings enterCall
  rw [frames]
  rfl

theorem bindings_leaveCall
    {scope : Scope}
    {name : String}
    {binding : Option Value}
    {outer : List (Option Value)}
    (shape : scope.bindings name = binding :: outer)
    (isInner : outer ≠ [])
    (caller : Scope) :
    (scope.leaveCall caller).bindings name = outer := by
  unfold bindings frames at shape
  cases inner : scope.inner with
  | nil =>
      rw [inner] at shape
      cases shape
      contradiction
  | cons frame rest =>
      rw [inner] at shape
      cases shape
      simp [leaveCall, popFrame?, inner, bindings, frames, setPositional]

/-- If a call changes the bindings of a name in its own frame only, it changes none at its end. -/
theorem bindings_of_call
    {before ended : Scope}
    {function : Function}
    {args : List Value}
    {name : String}
    (sameTail :
      (ended.bindings name).tail = ((before.enterCall function args).bindings name).tail) :
    (ended.leaveCall before).bindings name = before.bindings name := by
  obtain ⟨binding, entered, _⟩ := before.bindings_enterCall function args name
  -- behind the binding in the frame of the call are those of the caller
  rw [entered, List.tail_cons] at sameTail
  cases shape : ended.bindings name with
  | nil => exact absurd shape (ended.bindings_ne_nil name)
  | cons later outer =>
      rw [shape, List.tail_cons] at sameTail
      subst sameTail
      exact bindings_leaveCall shape (before.bindings_ne_nil name) before

/-- What a call leaves alone far enough below its own frame is the same at its end. -/
theorem drop_bindings_of_call
    {before ended : Scope}
    {function : Function}
    {args : List Value}
    {name : String}
    {count : Nat}
    (same :
      (ended.bindings name).drop (count + 1) =
        ((before.enterCall function args).bindings name).drop (count + 1))
    (isInner : 1 < ended.depth) :
    ((ended.leaveCall before).bindings name).drop count = (before.bindings name).drop count := by
  obtain ⟨binding, entered, _⟩ := before.bindings_enterCall function args name
  rw [entered, List.drop_succ_cons] at same
  rw [← length_bindings ended name] at isInner
  cases shape : ended.bindings name with
  | nil => exact absurd shape (ended.bindings_ne_nil name)
  | cons later outer =>
      rw [shape, List.drop_succ_cons] at same
      have hasOuter : outer ≠ [] := by
        rintro rfl
        simp [shape] at isInner
      rw [bindings_leaveCall shape hasOuter before, same]

/-- Behind a frame that was entered there is another one to go back to. -/
theorem popFrame?_isSome
    {scope : Scope}
    (isInner : 1 < scope.depth) :
    scope.popFrame?.isSome := by
  unfold popFrame?
  split
  next isRoot => simp [depth, isRoot] at isInner
  next => rfl

@[simp] theorem depth_enterCall
    (scope : Scope)
    (function : Function)
    (args : List Value) :
    (scope.enterCall function args).depth = scope.depth + 1 := by
  obtain ⟨binding, entered, _⟩ := scope.bindings_enterCall function args ""
  rw [← length_bindings _ "", entered, List.length_cons, length_bindings]

end Calls

/--
What becomes of the bindings of a name, innermost first. No binding is taken away;
only the root frame may get one, or the innermost frame if the name is local there;
and below a frame that binds the name nothing changes.
-/
inductive Rebound : Prop → List (Option Value) → List (Option Value) → Prop where
  | root {isLocal binding later} :
      (binding.isSome → later.isSome) →
      Rebound isLocal [binding] [later]
  | frame {isLocal binding later outer laterOuter} :
      (binding.isSome → later.isSome) →
      (later.isSome → binding.isSome ∨ isLocal) →
      (binding.isSome → laterOuter = outer) →
      Rebound False outer laterOuter →
      Rebound isLocal (binding :: outer) (later :: laterOuter)

namespace Rebound

variable {isLocal : Prop}

theorem refl
    {bindings : List (Option Value)}
    (isScope : bindings ≠ []) :
    Rebound isLocal bindings bindings := by
  induction bindings generalizing isLocal with
  | nil => contradiction
  | cons binding outer inductionHypothesis =>
      cases outer with
      | nil => exact .root id
      | cons next rest => exact .frame id .inl (fun _ => rfl) (inductionHypothesis (by simp))

theorem trans
    {left middle right : List (Option Value)}
    (earlier : Rebound isLocal left middle)
    (later : Rebound isLocal middle right) :
    Rebound isLocal left right := by
  induction earlier generalizing right with
  | root firstKeeps =>
      cases later with
      | root secondKeeps => exact .root fun isBound => secondKeeps (firstKeeps isBound)
      | frame _ _ _ none => cases none
  | frame firstKeeps firstAdds firstShields outer inductionHypothesis =>
      cases later with
      | root _ => cases outer
      | frame secondKeeps secondAdds secondShields laterOuter =>
          refine .frame ?_ ?_ ?_ (inductionHypothesis laterOuter)
          · exact fun isBound => secondKeeps (firstKeeps isBound)
          · exact fun isBound => (secondAdds isBound).elim firstAdds .inr
          · exact fun isBound =>
              (secondShields (firstKeeps isBound)).trans (firstShields isBound)

theorem weaken
    {before after : List (Option Value)}
    (rebound : Rebound False before after) :
    Rebound isLocal before after := by
  cases rebound with
  | root keeps => exact .root keeps
  | frame keeps adds shields outer =>
      exact .frame keeps (fun isBound => .inl ((adds isBound).resolve_right id)) shields outer

theorem length_eq
    {before after : List (Option Value)}
    (rebound : Rebound isLocal before after) :
    after.length = before.length := by
  induction rebound with
  | root => rfl
  | frame _ _ _ _ inductionHypothesis => simp [inductionHypothesis]

theorem ne_nil
    {before after : List (Option Value)}
    (rebound : Rebound isLocal before after) :
    after ≠ [] := by
  cases rebound <;> simp

/-- Below the innermost frame nothing is local, and a binding in that frame shields the rest. -/
theorem tail
    {binding : Option Value}
    {outer after : List (Option Value)}
    (rebound : Rebound isLocal (binding :: outer) after)
    (isInner : outer ≠ []) :
    ∃ later laterOuter,
      after = later :: laterOuter ∧
        Rebound False outer laterOuter ∧
        (binding.isSome → laterOuter = outer) := by
  cases rebound with
  | root => contradiction
  | frame _ _ shields inner => exact ⟨_, _, rfl, inner, shields⟩

section Levels

variable {before after : List (Option Value)}
variable (rebound : Rebound isLocal before after)
variable (level : Nat)

include rebound

/-- No frame loses a binding. -/
theorem kept
    (isBound : (before.getD level none).isSome) :
    (after.getD level none).isSome := by
  induction rebound generalizing level with
  | root keeps =>
      cases level with
      | zero => exact keeps isBound
      | succ level => cases isBound
  | frame keeps _ _ _ inductionHypothesis =>
      cases level with
      | zero => exact keeps isBound
      | succ level => exact inductionHypothesis level isBound

/-- Only the root frame gets a binding, or the innermost one by a local assignment. -/
theorem added
    (isInner : level + 1 < before.length)
    (isBound : (after.getD level none).isSome) :
    (before.getD level none).isSome ∨ level = 0 ∧ isLocal := by
  induction rebound generalizing level with
  | root => simp at isInner
  | frame _ adds _ _ inductionHypothesis =>
      cases level with
      | zero => exact (adds isBound).imp_right fun isLocal => ⟨rfl, isLocal⟩
      | succ level =>
          have outer := inductionHypothesis level (by simpa using isInner) isBound
          exact .inl (outer.resolve_right fun impossible => impossible.2)

/-- Below a frame that binds the name, its values are what they were. -/
theorem shielded
    (isBound : (before.getD level none).isSome)
    {below : Nat}
    (isBelow : level < below) :
    after.getD below none = before.getD below none := by
  induction rebound generalizing level below with
  | root =>
      cases below with
      | zero => cases isBelow
      | succ below => rfl
  | frame _ _ shields _ inductionHypothesis =>
      cases below with
      | zero => cases isBelow
      | succ below =>
          cases level with
          | zero =>
              rw [shields isBound]
              rfl
          | succ level => exact inductionHypothesis level isBound (Nat.lt_of_succ_lt_succ isBelow)

/-- So the bindings from there on are the same. -/
theorem drop_eq
    (isBound : (before.getD level none).isSome)
    {count : Nat}
    (isBelow : level < count) :
    after.drop count = before.drop count := by
  induction rebound generalizing level count with
  | root =>
      cases count with
      | zero => cases isBelow
      | succ count => simp
  | frame _ _ shields _ inductionHypothesis =>
      cases count with
      | zero => cases isBelow
      | succ count =>
          cases level with
          | zero =>
              rw [shields isBound]
              rfl
          | succ level => exact inductionHypothesis level isBound (Nat.lt_of_succ_lt_succ isBelow)

end Levels

theorem of_set
    (scope : Scope)
    {name : String}
    (value : Value)
    (holds : isLocal) :
    Rebound isLocal (scope.bindings name) ((scope.set name value).bindings name) := by
  rw [bindings_set_self]
  cases shape : scope.bindings name with
  | nil => exact absurd shape (scope.bindings_ne_nil name)
  | cons binding outer =>
      cases outer with
      | nil => exact .root fun _ => rfl
      | cons next rest =>
          exact .frame (fun _ => rfl) (fun _ => .inr holds) (fun _ => rfl) (refl (by simp))

/-- An assignment that is not local rebinds a name where it is bound, else in the root frame. -/
theorem of_setGlobal
    (scope : Scope)
    (name : String)
    (value : Value) :
    Rebound False (scope.bindings name) ((scope.setGlobal name value).bindings name) := by
  obtain ⟨unbound, frame, outer, areUnbound, binds, before, after⟩ :=
    scope.frames_setGlobal name value
  unfold bindings
  rw [before, after]
  clear before after
  induction unbound with
  | nil =>
      cases outer with
      | nil => exact .root fun _ => by simp
      | cons next rest =>
          have isBound : (frame.get? name).isSome := binds.resolve_right (by simp)
          exact .frame (fun _ => by simp) (fun _ => .inl isBound) (fun _ => rfl)
            (refl (by simp))
  | cons first rest inductionHypothesis =>
      have isUnbound : first.get? name = none := areUnbound first (.head rest)
      refine .frame id .inl ?_ (inductionHypothesis fun other isLater =>
        areUnbound other (.tail first isLater))
      intro isBound
      simp [isUnbound] at isBound

/--
When a call is left, its frame is gone. No name is local in what is left, and what
was bound as a parameter is what it was.
-/
theorem of_call
    {before ended : Scope}
    {function : Function}
    {args : List Value}
    {name : String}
    (rebound :
      Rebound isLocal ((before.enterCall function args).bindings name) (ended.bindings name)) :
    Rebound False (before.bindings name) ((ended.leaveCall before).bindings name) ∧
      (name ∈ function.params.take args.length →
        (ended.leaveCall before).bindings name = before.bindings name) := by
  obtain ⟨binding, entered, isParam⟩ := before.bindings_enterCall function args name
  rw [entered] at rebound
  obtain ⟨later, outer, shape, inner, shields⟩ := rebound.tail (before.bindings_ne_nil name)
  rw [bindings_leaveCall shape inner.ne_nil before]
  exact ⟨inner, fun isMember => shields (isParam isMember)⟩

end Rebound

end Scope

end ShellCore
