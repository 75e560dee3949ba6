namespace ShellCore

/-!
# Links

A link leads from one component to another without keeping it. It is set at most
once, and what it leads to may be dropped before the link is; so every use of a
link asks whether its target is still alive.
-/

/-- The component that holds a link, and the name of the link there. -/
structure LinkName where
  component : String
  link : String
  deriving Repr, DecidableEq

namespace LinkName

/-- The text of a link's name. -/
def display
    (name : LinkName) :
    String :=
  name.component ++ "." ++ name.link

end LinkName

/-- Why a link cannot be set or followed. -/
inductive WiringError where
  | missing (name : LinkName)
  | alreadyWired (name : LinkName)
  | dangling (name : LinkName)
  deriving Repr, DecidableEq

namespace WiringError

/-- The text of an error. -/
def message :
    WiringError →
    String
  | .missing name => name.display ++ " was never wired"
  | .alreadyWired name => name.display ++ " was wired twice"
  | .dangling name => name.display ++ " points at a component that was dropped"

end WiringError

/-- A link to components known by handles of type `α`. -/
structure Link (α : Type) where
  name : LinkName
  target : Option α
  deriving Repr

namespace Link

/-- A link that is not set. -/
def unset
    (name : LinkName) :
    Link α where
  name := name
  target := none

/-- Whether the link is set, be its target alive or not. -/
def isSet
    (link : Link α) :
    Bool :=
  link.target.isSome

/-- Set the link, unless it is set. -/
def set
    (link : Link α)
    (target : α) :
    Except WiringError (Link α) :=
  match link.target with
  | none => .ok { link with target := some target }
  | some _ => .error (.alreadyWired link.name)

/-- What the link leads to, if it is set and its target is found alive. -/
def follow
    (link : Link α)
    (find : α → Option β) :
    Except WiringError β :=
  match link.target with
  | none => .error (.missing link.name)
  | some target =>
      match find target with
      | some found => .ok found
      | none => .error (.dangling link.name)

/-- Check that the link is set and its target alive. -/
def check
    (link : Link α)
    (find : α → Option β) :
    Except WiringError Unit :=
  (link.follow find).map fun _ => ()

/-- The state of the link as a text. -/
def describe
    (link : Link α) :
    String :=
  "Link \x7b link: " ++ link.name.display ++ ", set: " ++
    (if link.isSet then "true" else "false") ++ " \x7d"

end Link

end ShellCore
