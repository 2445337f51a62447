import ServingLifecycle.Metrics
import ServingLifecycle.Number.Shortest
/-!
# The text exposition of metrics

One family after the other by name, in each family one series after the other by label values. A
histogram shows for every bound how many samples are not above it, then their sum and their number. A
family without series is left out.
-/
namespace ServingLifecycle.Metrics

inductive MetricKind
  | counter | histogram
deriving DecidableEq, Repr

def MetricKind.name : MetricKind → String
  | counter => "counter"
  | histogram => "histogram"

structure Family where
  name : String
  help : String
  kind : MetricKind
  lines : List String

/-- Writes backslashes, quotes and line ends so that a label value stays on its line. -/
def escapeLabel (value : String) : String :=
  String.ofList (value.toList.flatMap fun c =>
    if c = '\\' then ['\\', '\\']
    else if c = '"' then ['\\', '"']
    else if c = '\n' then ['\\', 'n']
    else [c])

/-- One line: the name, the labels and the number. -/
def sampleLine (name : String) (labels : List (String × String)) (value : String) : String :=
  let shown := labels.map fun l => l.1 ++ "=\"" ++ escapeLabel l.2 ++ "\""
  name ++ "\x7b" ++ ",".intercalate shown ++ "\x7d " ++ value

/-- The upper bounds of the histogram's buckets, in seconds. -/
def bounds : List Float := [0.01, 0.1, 0.5, 1.0, 5.0, 15.0, 60.0, 300.0]

def actionsName : String := "deployer_actions_total"
def failuresName : String := "deployer_failures_total"
def durationName : String := "deployer_action_duration_seconds"

def histogramLines (action : Action) (samples : List Float) : List String :=
  let bucket (le : String) (n : Nat) : String :=
    sampleLine (durationName ++ "_bucket") [("action", action.name), ("le", le)] (toString n)
  bounds.map (fun b => bucket (Number.text b) (samples.countP (· ≤ b)))
    ++ [bucket "+Inf" samples.length,
      sampleLine (durationName ++ "_sum") [("action", action.name)]
        (Number.text (samples.foldl (· + ·) 0.0)),
      sampleLine (durationName ++ "_count") [("action", action.name)] (toString samples.length)]

def durationFamily (m : Metrics) : Family where
  name := durationName
  help := "Time spent per deployment action"
  kind := .histogram
  lines :=
    ((m.durations.map Prod.fst).eraseDups.mergeSort fun a b => a.name ≤ b.name).flatMap fun a =>
      histogramLines a (m.samples a)

def actionsFamily (m : Metrics) : Family where
  name := actionsName
  help := "Deployment actions completed, by action"
  kind := .counter
  lines := (m.actions.mergeSort fun a b => a.1.name ≤ b.1.name).map fun s =>
    sampleLine actionsName [("action", s.1.name)] (toString s.2)

def failuresFamily (m : Metrics) : Family where
  name := failuresName
  help := "Deployment actions that failed, by action and error kind"
  kind := .counter
  lines :=
    let before (a b : (Action × String) × Nat) : Bool :=
      a.1.1.name < b.1.1.name || (a.1.1.name == b.1.1.name && a.1.2 ≤ b.1.2)
    (m.failures.mergeSort before).map fun s =>
      sampleLine failuresName [("action", s.1.1.name), ("kind", s.1.2)] (toString s.2)

/-- The families that have series, by name. -/
def families (m : Metrics) : List Family :=
  [m.durationFamily, m.actionsFamily, m.failuresFamily].filter fun f => !f.lines.isEmpty

def exposition (m : Metrics) : List String :=
  m.families.flatMap fun f =>
    ("# HELP " ++ f.name ++ " " ++ f.help) :: ("# TYPE " ++ f.name ++ " " ++ f.kind.name) :: f.lines

end ServingLifecycle.Metrics
