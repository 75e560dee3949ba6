import ShellCore.Wiring.Assembly

namespace ShellCore

/-!
# Connections that are made

Connecting a set that is not connected makes every connection, be it that the host
lets itself be wired or not. Connecting a set once more takes none of its
connections away.
-/

/-- What is made stays made. -/
theorem Connection.mem_make
    {connection : Connection}
    {made : List Connection}
    (isMade : connection ∈ made)
    (wanted : List Connection) :
    connection ∈ (make made wanted).2 := by
  induction wanted generalizing made with
  | nil => exact isMade
  | cons next rest inductionHypothesis =>
      unfold make
      split
      · exact isMade
      · exact inductionHypothesis (List.mem_cons_of_mem next isMade)

/-- Where nothing is made yet, everything can be. -/
theorem Connection.make_all :
    make [] all = (.ok (), all.reverse) :=
  rfl

namespace Assembly

variable {find : SetId → Option α} {set : SetId} {before after : Host}

theorem connect_makes_all
    {made : List Connection}
    (connected : connect find set [] before = (.ok (), made, after)) :
    ∀ connection, connection ∈ made := by
  unfold connect at connected
  rw [Connection.make_all] at connected
  dsimp only at connected
  split at connected
  · cases connected
  · obtain ⟨-, rfl, -⟩ := (Prod.mk.inj connected).imp_right Prod.mk.inj
    intro connection
    exact List.mem_reverse.mpr connection.mem_all

theorem mem_connect
    {connection : Connection}
    {made : List Connection}
    (isMade : connection ∈ made) :
    connection ∈ (connect find set made before).2.1 := by
  have stays : connection ∈ (Connection.make made Connection.all).2 :=
    Connection.mem_make isMade Connection.all
  unfold connect
  split
  next makes =>
    rw [makes] at stays
    exact stays
  next makes =>
    rw [makes] at stays
    split <;> exact stays

/-- A set that has its connections is refused at the first of them. -/
theorem connect_all_again :
    connect find set Connection.all.reverse before =
      (.error (.alreadyWired Connection.arithToWord.name), Connection.all.reverse, before) :=
  rfl

/-- A host that refuses leaves the set with its connections. -/
theorem connect_refused
    {error : WiringError}
    (refused : before.wire set = .error error) :
    connect find set [] before = (.error error, Connection.all.reverse, before) := by
  simp only [connect, Connection.make_all, refused]

theorem check_all :
    check find Connection.all.reverse before = before.check find :=
  rfl

theorem check_none :
    check find [] before = .error (.missing Connection.arithToWord.name) :=
  rfl

theorem connect_wired
    (wires : before.wire set = .ok after) :
    connect find set [] before = (after.check find, Connection.all.reverse, after) := by
  simp only [connect, Connection.make_all, wires, check_all]

/-- A set with all its connections passes in each of its components where its host does. -/
theorem checkComponent_all
    (passes : before.check find = .ok ())
    (component : Component) :
    checkComponent find Connection.all.reverse before component = .ok () := by
  cases component with
  | host => exact passes
  | _ => rfl

end Assembly

end ShellCore
