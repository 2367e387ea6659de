import PreviewApps.Binary64
import PreviewApps.Cluster.Program
import PreviewApps.Labels
import PreviewApps.LogLine
import PreviewApps.Text.Lines

/-!
Logs of a service. The API server filters by whole seconds of age, and the lines it sends are then
filtered exactly.
-/

namespace PreviewApps.Cluster

/-- Whole seconds of a span in microseconds, rounded to double precision and cut toward zero. -/
def wholeSeconds (span : Int) : Int :=
  let (n, d) := Binary64.nearest span.natAbs 1000000
  if span < 0 then -(n / d : Nat) else (n / d : Nat)

/-- The age limit for the server: a second more than has passed, and at least one. -/
def sinceSeconds (now start : Timestamp) : Int :=
  max 1 (wholeSeconds (now.instant - start.instant) + 1)

/-- Takes the lines that are not before the start, and stops behind the one that fills the limit. -/
def takeLines (start : Option Timestamp) (limit : Int) :
    Nat → List String → Except Fault (List LogLine)
  | _, [] => .ok []
  | taken, l :: ls => match LogLine.read l with
    | .untimed => takeLines start limit taken ls
    | .impossible => .error .impossibleTime
    | .timed line =>
      if start.any fun t => line.time.instant < t.instant then takeLines start limit taken ls
      else if limit ≤ taken + 1 then .ok [line]
      else do
        let rest ← takeLines start limit (taken + 1) ls
        pure (line :: rest)

/-- An empty answer is an empty log. -/
def logText (log : Json) : Except Fault String :=
  match log with
  | .str s => .ok s
  | j => if j.truthy then .error .malformed else .ok ""

def podName (pod : Json) : Except Fault String :=
  match pod.path ["metadata", "name"] with
  | .str n => .ok n
  | _ => .error .missingMember

def logs (app : AppName) (service : String) (start : Option Timestamp) (limit : Int)
    (now : Timestamp) : Program (Option (List LogLine)) := do
  let start := start.map (·.assumeUtc)
  let selector := (Labels.ofNamed app service).selector
  match ← .may [404] (.listPods service) (.list .pods app.namespaceId selector) with
  | none => pure none
  | some found => match found.items with
    | [] => pure none
    | pod :: _ => do
      let name ← .ofExcept (podName pod)
      let call := .podLog app.namespaceId name (start.map (sinceSeconds now))
      match ← .may [400, 404] (.readLogs name) call with
      | none => pure none
      | some log => do
        let text ← .ofExcept (logText log)
        let lines ← .ofExcept (takeLines start limit 0 (Text.lines text))
        pure (some lines)

end PreviewApps.Cluster
