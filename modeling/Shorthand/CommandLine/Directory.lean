import Shorthand.CommandLine.Run
/-!
# The program in a directory

What the program does in a directory that holds a given set of text files, told by their paths from there.
-/
namespace Shorthand.CommandLine

/-- A directory as the paths of its files and what is in them. -/
structure Directory where
  files : List (List String × Text)

namespace Directory

/-- The parts of a path, without those that stay where they are. -/
def parts (path : String) : List String := (path.splitOn "/").filter fun p => p != "" && p != "."

/-- There is a directory at the place that the parts lead to. -/
def hasDirectory (d : Directory) (place : List String) : Bool :=
  place = [] || d.files.any fun f => place.isPrefixOf f.1 && f.1 != place

def contents (d : Directory) (path : String) : Contents :=
  let place := parts path
  if path = "" || path.startsWith "/" then .error .notFound
  else
    match d.files.find? fun f => f.1 = place with
    | some f => if path.endsWith "/" || path.endsWith "/." then .error .notADirectory else .ok f.2
    | none =>
      if d.hasDirectory place then .error .isADirectory
      else if d.files.any fun f => f.1.isPrefixOf place then .error .notADirectory
      else .error .notFound

/-- A file at a path can be opened for writing, if need be as a new one. -/
def opens (d : Directory) (path : String) : Bool :=
  match d.contents path with
  | .ok _ => true
  | .error .notFound =>
    path != "" && !path.startsWith "/" && !path.endsWith "/" && d.hasDirectory (parts path).dropLast
  | .error _ => false

/-- The directory with an empty file at a path where there was none. -/
def touch (d : Directory) (path : String) : Directory :=
  match d.contents path with
  | .error .notFound => ⟨d.files ++ [(parts path, [])]⟩
  | _ => d

/-- What the program does with an invocation.  Opening the log file may create it. -/
def replay (d : Directory) (i : Invocation) : Outcome :=
  let logOpens := (i.log.map d.opens).getD true
  let d := if logOpens then (i.log.map d.touch).getD d else d
  CommandLine.replay i logOpens ((i.settings.map d.contents).getD (.error .notFound)) (d.contents i.script)

end Directory
end Shorthand.CommandLine
