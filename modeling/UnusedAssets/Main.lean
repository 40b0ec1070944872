import UnusedAssets.CommandLine.Snapshot

/-!
# The program

Reads the surroundings of a run as a snapshot from the standard input and takes the words of the
command line. After the output and the diagnostics of the run, the files that it changed follow on
the standard error, as lines of a snapshot.
-/

open UnusedAssets CommandLine

/-- The lines of a stream up to its end, without their line ends. -/
partial def readLines (input : IO.FS.Stream) (lines : Array String) : IO (List String) := do
  let line ← input.getLine
  if line = "" then return lines.toList
  readLines input (lines.push (String.ofList (line.toList.filter (· ≠ '\n'))))

def main (words : List String) : IO UInt32 := do
  match Snapshot.read? (← readLines (← IO.getStdin) #[]) with
  | none =>
    IO.eprintln "The standard input is no snapshot."
    return 2
  | some w =>
    let r := execute w words
    IO.print r.output
    for d in r.diagnostics do
      IO.eprint (d.write w.now.text)
    for line in Snapshot.changes w r do
      IO.eprintln line
    return UInt32.ofNat r.exit
