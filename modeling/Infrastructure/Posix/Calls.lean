import Infrastructure.Concurrency.Program
import Infrastructure.Text.Glob

/-! The calls by which a program removes files. -/

namespace Infrastructure.Posix

open Text

inductive Errno where
  | notExist
  | other
  deriving DecidableEq

/-- `removeMatches` looks for the files that match a pattern and removes each of them. -/
inductive Call where
  | remove (path : Path)
  | removeAll (path : Path)
  | removeMatches (pattern : Path)

abbrev SysProg := Concurrency.Program Call fun _ => Except Errno Unit

def Sys.remove (path : Path) : SysProg (Except Errno Unit) :=
  Concurrency.Program.perform (Call.remove path)

def Sys.removeAll (path : Path) : SysProg (Except Errno Unit) :=
  Concurrency.Program.perform (Call.removeAll path)

def Sys.removeMatches (pattern : Path) : SysProg (Except Errno Unit) :=
  Concurrency.Program.perform (Call.removeMatches pattern)

/-- What a call takes away, going by the texts of the paths. -/
def Takes (t : Path) : Call → Prop
  | .remove path => t = path
  | .removeAll path => AtOrBelow path t
  | .removeMatches pattern => pattern.Matches t

end Infrastructure.Posix
