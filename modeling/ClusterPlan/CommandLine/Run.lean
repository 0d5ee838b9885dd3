import ClusterPlan.CommandLine.Arguments
import ClusterPlan.Controller
import ClusterPlan.Document.Files
import ClusterPlan.Gantt.Csv

/-!
Runs passes over a platform and prints what they decide. Files, output and the clock belong to the
host, so the same run can be had over files in memory.
-/

namespace ClusterPlan.CommandLine

/-- What a run needs from its surroundings. Writing tells whether it worked. -/
structure Host (m : Type → Type) where
  read : String → m (Option String)
  write : String → String → m Bool
  print : String → m Unit
  clock : m Int

inductive Ending where
  | finished
  | failed (cause : Error)
  | misused
  deriving DecidableEq, Repr

namespace Ending

def exitCode : Ending → Nat
  | finished => 0
  | failed _ => 1
  | misused => 2

end Ending

def decisionLine (d : Decision) : String :=
  let outcome := Text.padRight 12 d.outcome.text
  let state := Text.padRight 10 d.state.text
  let message := d.note.text
  let job := d.job
  s!"  job {job}  {outcome}  {state}  {message}"

def powerLine (e : EnergyDecision) : String :=
  "  sleep " ++ Text.quotedList e.sleepNodes ++ "  wakeup " ++ Text.quotedList e.wakeupNodes

/-- The lines of one pass, passes counted from one. -/
def passLines (number : Nat) (r : Report) : List String :=
  let now := r.now
  s!"Pass {number} at {now}" ::
    (r.decisions.map decisionLine ++ r.powerOrder?.toList.map powerLine)

variable {m : Type → Type} [Monad m]

/-- Runs `count` passes and prints each of them. `time` is when the next pass takes place, unless the
clock of the host tells. -/
def runPasses (host : Host m) (interval : Int) :
    (count number : Nat) → Option Int → Controller → Store → ExceptT Error m Store
  | 0, _, _, _, store => return store
  | count + 1, number, time, controller, store => do
      let now ← match time with | some t => pure t | none => host.clock
      let result ← ofExcept (controller.run store now)
      for line in passLines number result.report do
        host.print (line ++ "\n")
      runPasses host interval count (number + 1) (time.map (· + interval))
        { controller with matcher := result.matcher } result.store

def runWith (host : Host m) (args : Arguments) : ExceptT Error m Unit := do
  let config ← match args.config with
    | some path => Document.loadConfig host.read path
    | none => pure Config.default
  let (store, time) ← Document.loadPlatform host.read config args.platform
  let controller : Controller :=
    { config := config
      order := JobOrder.oldestFirst
      notifier := .silent
      power := .recording (config.energy.map EnergySaving.wakeup)
      matcher := .empty }
  let store ← runPasses host args.interval args.passes 1 (args.now <|> time) controller store
  match args.ganttCsv with
  | none => return ()
  | some path => unless ← host.write path (Gantt.csv store.gantt) do throw .unreadableFile

/-- The whole command: reads the arguments, loads, runs, and writes the chart if asked to. -/
def run (host : Host m) (words : List String) : m Ending := do
  match Arguments.read? words with
  | none => return .misused
  | some args =>
      match ← (runWith host args).run with
      | .ok () => return .finished
      | .error e => return .failed e

end ClusterPlan.CommandLine
