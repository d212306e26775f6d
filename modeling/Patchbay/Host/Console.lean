/-!
# Console posts

Posts carry one of four levels, from most to least severe. A history keeps the
posts it receives, oldest first.
-/

namespace Patchbay

/-- The severity of a console post. -/
inductive ConsoleLevel where
  | fatal
  | error
  | normal
  | log
  deriving DecidableEq, Repr, Inhabited

namespace ConsoleLevel

/-- The levels from most to least severe. -/
def all : List ConsoleLevel := [fatal, error, normal, log]

/-- The rank of a level, zero for the most severe. -/
def rank : ConsoleLevel → Nat
  | fatal => 0
  | error => 1
  | normal => 2
  | log => 3

/-- The name of a level. -/
def name : ConsoleLevel → String
  | fatal => "fatal"
  | error => "error"
  | normal => "normal"
  | log => "log"

end ConsoleLevel

/-- A console post. -/
structure Post where
  level : ConsoleLevel
  text : String
  deriving DecidableEq, Repr, Inhabited

/-- Recorded posts, oldest first. -/
structure History where
  posts : List Post := []
  deriving DecidableEq, Repr, Inhabited

namespace History

/-- Record one more post. -/
def add (history : History) (post : Post) : History := ⟨history.posts ++ [post]⟩

/-- The number of posts at exactly a level. -/
def count (history : History) (level : ConsoleLevel) : Nat :=
  history.posts.countP fun post => post.level == level

/-- The number of posts at a level or a more severe one. -/
def countTo (history : History) (level : ConsoleLevel) : Nat :=
  history.posts.countP fun post => post.level.rank ≤ level.rank

end History

/-- The severity of a line in the program's own log. -/
inductive LogLevel where
  | error
  | warn
  | info
  | debug
  deriving DecidableEq, Repr

/-- The name of a log level. -/
def LogLevel.name : LogLevel → String
  | .error => "error"
  | .warn => "warn"
  | .info => "info"
  | .debug => "debug"

/-- The log level of a post that no console takes. -/
def ConsoleLevel.logLevel : ConsoleLevel → LogLevel
  | .fatal | .error => .error
  | .normal => .info
  | .log => .debug

end Patchbay
