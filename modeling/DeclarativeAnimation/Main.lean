import DeclarativeAnimation.CommandLine.Execution

/-! The program on the command line. -/

open DeclarativeAnimation CommandLine

def readFile? (path : String) : IO (Option String) := do
  try
    return some (← IO.FS.readFile path)
  catch _ => return none

def main (words : List String) : IO UInt32 := do
  match (Invocation.ofWords words : Except Misuse (Invocation .binary64)) with
  | .error .help =>
    IO.println "usage: smilkit [--log-level LEVEL] (serve | compile | states) ..."
    return 0
  | .error .wrong =>
    IO.eprintln "usage: smilkit [--log-level LEVEL] (serve | compile | states) ..."
    return 2
  | .ok invocation =>
    let content ← match invocation.command.file? with
      | some path => readFile? path
      | none => pure none
    let report := execute invocation content
    report.output.forM (IO.println ·)
    report.errors.forM (IO.eprintln ·)
    match report.result with
    | .ok status => return status.toUInt32
    | .error fault =>
      IO.eprintln fault.message
      return 1
