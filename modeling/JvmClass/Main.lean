import JvmClass.Report

/-!
# JvmClass.Main — the command line.
-/

open JvmClass

/-- Prints a report. -/
def deliver (r : Report) : IO UInt32 := do
  IO.print r.output
  IO.eprint r.errors
  pure r.status.toUInt32

/-- Reports on the class file at the path that is given as the first argument. -/
def main (args : List String) : IO UInt32 := do
  match args with
  | [] => deliver .usage
  | path :: _ =>
    match ← (IO.FS.readBinFile path).toBaseIO with
    | .ok contents => deliver (.ofFile path contents.toList)
    | .error e => deliver (.unreadable path (toString e))
