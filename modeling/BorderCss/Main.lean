import BorderCss.CommandLine

/-!
# The program

Reads the arguments and, if they name one, the theme file; prints the report and exits with its
code.
-/

open BorderCss in
/-- Runs the command line. -/
def main (arguments : List String) : IO UInt32 := do
  let report ← match Invocation.read arguments with
    | .error wrong => pure wrong.report
    | .ok invocation => do
      let bytes ← match invocation.file? with
        | none => pure none
        | some file => (some <$> IO.FS.readBinFile file) <|> pure none
      pure (invocation.report bytes)
  (← IO.getStdout).putStr report.out
  (← IO.getStderr).putStr report.err
  return UInt32.ofNat report.code
