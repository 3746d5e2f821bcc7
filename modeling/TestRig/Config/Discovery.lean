import TestRig.Config.Document
import TestRig.Text.Quoted
import TestRig.Text.Split

/-!
# Finding a configuration

A configuration is read from the file that was asked for, or else from the first that exists of
the file that the environment names, a file in the working directory and one in the home
directory; without any of them it is the default. The environment may then change two limits.
-/

namespace TestRig

/-! ## Files -/

/-- Where the way to a file begins. -/
inductive Base where
  | working
  | home
  | root
  deriving DecidableEq, Repr, Inhabited

/-- A place in a file system: the names on the way from a base. From the working directory the way
may first lead upwards. -/
structure Location where
  base : Base := .working
  names : List String
  deriving DecidableEq, Repr, Inhabited

/-- What a program sees around it: the environment and the files. -/
structure Surroundings where
  environment : List (String × String) := []
  /-- Texts of files. The directories on the way to them exist. -/
  files : List (Location × String) := []
  /-- Directories without files that are known. -/
  directories : List Location := []
  deriving Repr, Inhabited

/-- The parts of a path between slashes. -/
def pathParts (path : String) : List String :=
  (Text.splitAll '/' path.toList).map String.ofList

/-- The paths of the directories on the way of a path. -/
def pathsOnTheWay (path : String) : List String :=
  let parts := pathParts path
  ((List.range parts.length).map fun n => "/".intercalate (parts.take n)).filter (!·.isEmpty)

namespace Location

/-- The name that leads upwards. -/
def upwards : String := ".."

/-- Follow one name. The root has nothing above it. -/
def follow (l : Location) (name : String) : Location :=
  if name.isEmpty || name == "." then l
  else if name == upwards then
    match l.names.getLast? with
    | some last =>
      if last == upwards then { l with names := l.names ++ [name] }
      else { l with names := l.names.dropLast }
    | none => if l.base = .root then l else { l with names := [name] }
  else { l with names := l.names ++ [name] }

/-- Where the way of a path begins. -/
def start (path : String) : Location :=
  { base := if path.startsWith "/" then .root else .working, names := [] }

/-- The location that a path leads to, if it leads through directories only. -/
def ofPath (path : String) : Location := (pathParts path).foldl follow (start path)

/-- A path that leads to the location. -/
def toPath (home : String) (l : Location) : String :=
  let first := match l.base with
    | .working => "."
    | .home => home
    | .root => ""
  "/".intercalate (first :: l.names)

/-- Whether it is the base or above it. -/
def isAbove (l : Location) : Bool := l.names.all (· == upwards)

end Location

namespace Surroundings

/-- The value of a variable of the environment. -/
def valueOf? (w : Surroundings) (name : String) : Option String := w.environment.lookup name

/-- The text of the file at a location. -/
def fileAt? (w : Surroundings) (l : Location) : Option String := w.files.lookup l

/-- Whether there is a directory at a location. -/
def isDirectory (w : Surroundings) (l : Location) : Bool :=
  l.isAbove || w.directories.contains l
    || w.files.any fun f =>
      f.1.base == l.base && l.names.length < f.1.names.length
        && f.1.names.take l.names.length == l.names

/-- The location that a path leads to. The way leads through directories that exist, and the empty
path leads nowhere. -/
def locate? (w : Surroundings) (path : String) : Option Location :=
  if path.isEmpty then none
  else
    (pathParts path).foldlM
      (fun l name => if w.isDirectory l then some (l.follow name) else none) (.start path)

/-- The text of the file that a path leads to. -/
def read? (w : Surroundings) (path : String) : Option String := (w.locate? path).bind w.fileAt?

/-- Whether there is a file or a directory at a location. -/
def hasLocation (w : Surroundings) (l : Location) : Bool :=
  (w.fileAt? l).isSome || w.isDirectory l

/-- Whether a path leads to a file or to a directory. -/
def pathExists (w : Surroundings) (path : String) : Bool := (w.locate? path).any w.hasLocation

/-- Write a file, if the way to it exists and there is no directory in its place. -/
def write? (w : Surroundings) (path text : String) : Option Surroundings :=
  (w.locate? path).bind fun l =>
    if w.isDirectory l then none
    else some { w with files := (l, text) :: w.files.filter (·.1 != l) }

end Surroundings

/-! ## Configurations from files -/

/-- Where a configuration was found. -/
inductive ConfigSource where
  | path (p : String)
  /-- The file in the home directory. -/
  | home
  deriving DecidableEq, Repr

/-- Why no configuration could be loaded. -/
inductive LoadError where
  /-- The file that was asked for cannot be used. -/
  | atPath (path : String)
  /-- The file that was found cannot be read. -/
  | unreadable
  /-- The file that was found describes no configuration. -/
  | malformed
  deriving DecidableEq, Repr

namespace Config

/-- The variable that names a file. -/
def pathVariable : String := "TB_CONFIG_PATH"

/-- The file in the working directory. -/
def localPath : String := "./testbench.yaml"

/-- The file in the home directory. -/
def homeLocation : Location := { base := .home, names := [".testbench", "config.yaml"] }

/-- Where a configuration is found if no file is asked for. -/
def discover (w : Surroundings) : Option ConfigSource :=
  match (w.valueOf? pathVariable).filter w.pathExists with
  | some p => some (.path p)
  | none =>
    if w.pathExists localPath then some (.path localPath)
    else if w.hasLocation homeLocation then some .home
    else none

/-- The text of a configuration file. -/
def sourceText? (w : Surroundings) : ConfigSource → Option String
  | .path p => w.read? p
  | .home => w.fileAt? homeLocation

/-- The variable that bounds the common phase `run`. -/
def timeoutVariable : String := "TB_PHASE_TIMEOUT"

/-- The variable that bounds how often a phase goes back to execute. -/
def roundsVariable : String := "TB_MAX_READY_TO_END"

/-- The variables of the environment that matter. -/
def variableNames : List String := [pathVariable, timeoutVariable, roundsVariable]

/-- The number that a text of decimal digits writes, if it is below the limit. A plus sign may be in
front. -/
def countOfText? (s : String) : Option Nat :=
  (Yaml.natOfDigits? 10 (Yaml.dropSign ['+'] s.toList)).filter (· < Field.roundLimit)

/-- Change the limits that the environment has values for. Values that cannot be read are passed
over. -/
def withEnvironment (w : Surroundings) (c : Config) : Config :=
  let phases := c.settings.phases
  let phases := match (w.valueOf? timeoutVariable).bind Duration.parse? with
    | some d => { phases with timeout := some d }
    | none => phases
  let phases := match (w.valueOf? roundsVariable).bind countOfText? with
    | some n => { phases with maxReadyToEnd := n }
    | none => phases
  { c with settings := { c.settings with phases } }

/-- Load the configuration from a file that is asked for, or from where one is found. -/
def load (w : Surroundings) (asked : Option String) : Except LoadError Config :=
  let found : Except LoadError Config :=
    match asked with
    | some p =>
      match (w.read? p).bind ofText? with
      | some c => .ok c
      | none => .error (.atPath p)
    | none =>
      match discover w with
      | none => .ok {}
      | some source =>
        match sourceText? w source with
        | none => .error .unreadable
        | some text =>
          match ofText? text with
          | some c => .ok c
          | none => .error .malformed
  found.map (withEnvironment w)

end Config

end TestRig
