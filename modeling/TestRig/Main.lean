import TestRig.CommandLine.Commands

/-!
# The program

The program looks at the environment and at the files that its command line leads to, does what it
is asked for, prints what came of it and writes the files that changed.
-/

namespace TestRig.CommandLine

/-- See what is at a path: a file, a directory or nothing. -/
def lookAt (w : Surroundings) (l : Location) (path : String) : IO Surroundings :=
  (do
    let text ← IO.FS.readFile path
    return { w with files := (l, text) :: w.files }) <|>
  (do
    let _ ← IO.FS.realPath path
    return { w with directories := l :: w.directories }) <|>
  pure w

/-- See everything that may matter to a command. -/
def lookAround (i : Invocation) (home : String) : IO Surroundings := do
  let mut w : Surroundings := {}
  for name in Config.variableNames do
    if let some value ← IO.getEnv name then
      w := { w with environment := (name, value) :: w.environment }
  for path in pathsOf i w do
    for p in pathsOnTheWay path ++ [path] do
      w ← lookAt w (.ofPath p) p
  lookAt w Config.homeLocation (Config.homeLocation.toPath home)

/-- Do what an invocation asks for. Gives the exit code. -/
def execute (i : Invocation) : IO UInt32 := do
  let home := (← IO.getEnv "HOME").getD ""
  let w ← lookAround i home
  let outcome := perform i (runName (← IO.rand 0 (Nat.pow 2 128 - 1))) w
  for o in outcome.output do
    IO.println o.text
  for (l, text) in outcome.surroundings.files do
    if w.fileAt? l != some text then
      IO.FS.writeFile (l.toPath home) text
  match outcome.failure with
  | none => return 0
  | some causes =>
    for t in failureLines causes do
      IO.eprintln t
    return 1

end TestRig.CommandLine

open TestRig.CommandLine in
/-- Read the command line and do what it asks for. -/
def main (args : List String) : IO UInt32 := do
  match Invocation.ofArguments args with
  | .ok i => execute i
  | .error e =>
    if e.isHelp then
      IO.println e.message
      return 0
    else
      IO.eprintln ("error: " ++ e.message)
      return 2
