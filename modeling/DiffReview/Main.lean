import DiffReview.Service.CommandLine

/-!
# The program

Reviews the diff in a file, or the one on standard input if no file or `-` is given.
-/

def main (args : List String) : IO UInt32 := do
  let outcome ← match args with
    | [] | "-" :: _ => DiffReview.Outcome.ofText <$> (do (← IO.getStdin).readToEnd)
    | path :: _ => DiffReview.Outcome.ofInput <$> IO.FS.readFile path
  IO.print outcome.stdout
  IO.eprint outcome.stderr
  return outcome.exitCode.toUInt32
