import ClusterPlan.CommandLine.Run
import Std.Time.DateTime.Timestamp

/-!
The command as a program: files of the system, standard output and the clock of the machine.
-/

namespace ClusterPlan

def systemHost : CommandLine.Host IO where
  read path := do
    try return some (← IO.FS.readFile path) catch _ => return none
  write path text := do
    try
      IO.FS.writeFile path text
      return true
    catch _ => return false
  print text := IO.print text
  clock := do return (← Std.Time.Timestamp.now).toSecondsSinceUnixEpoch.val

end ClusterPlan

def main (args : List String) : IO UInt32 := do
  let ending ← ClusterPlan.CommandLine.run ClusterPlan.systemHost args
  match ending with
  | .finished => pure ()
  | .misused =>
      IO.eprintln <|
        "usage: --platform FILE [--config FILE] [--now TIME] [--passes COUNT] " ++
          "[--interval SECONDS] [--gantt-csv FILE]"
  | .failed cause => IO.eprintln cause.message
  return UInt32.ofNat ending.exitCode
