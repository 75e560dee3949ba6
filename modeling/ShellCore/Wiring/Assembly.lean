import ShellCore.Host.Basic

namespace ShellCore.Assembly

/-!
# Connecting a set

A set is connected once: every connection inside it is made, the host is wired
to call it back, and then all of it is checked. What was made before a failure
stays made, and a host that was wired before stays wired as it is.
-/

/-- Check the connections of a set and the host that it owns a share of. -/
def check
    (find : SetId → Option α)
    (made : List Connection)
    (host : Host) :
    Except WiringError Unit :=
  match Connection.check made Connection.all with
  | .error error => .error error
  | .ok () => host.check find

/-- Check one component of a set. -/
def checkComponent
    (find : SetId → Option α)
    (made : List Connection)
    (host : Host)
    (component : Component) :
    Except WiringError Unit :=
  match component with
  | .host => host.check find
  | component => Connection.check made (Connection.ofComponent component)

/-- Connect a set, and yield its connections and its host after that. -/
def connect
    (find : SetId → Option α)
    (set : SetId)
    (made : List Connection)
    (host : Host) :
    Except WiringError Unit × List Connection × Host :=
  match Connection.make made Connection.all with
  | (.error error, made) => (.error error, made, host)
  | (.ok (), made) =>
      match host.wire set with
      | .error error => (.error error, made, host)
      | .ok host => (check find made host, made, host)

end ShellCore.Assembly
