/-!
Router rules: boolean expressions over matchers, with their meaning under a truth assignment to
matchers.
-/

namespace PreviewApps

inductive Rule
  | matcher (name : String) (args : List String)
  | not (e : Rule)
  | and (l r : Rule)
  | or (l r : Rule)
  deriving DecidableEq

namespace Rule

def knownMatchers : List String :=
  ["Host", "HostHeader", "HostRegexp", "Path", "PathPrefix", "PathRegexp", "Method", "Header",
    "Headers", "HeadersRegexp", "HeaderRegexp", "Query", "QueryRegexp", "ClientIP"]

/-- The quote around arguments in rule texts. -/
def backtick : Char := Char.ofNat 96

def holds (truth : String → List String → Bool) : Rule → Bool
  | matcher n as => truth n as
  | not e => !holds truth e
  | and l r => holds truth l && holds truth r
  | or l r => holds truth l || holds truth r

/-- Both rules must match. -/
def merge (base other : Rule) : Rule := and base other

def pathPrefix (segments : List String) : Rule :=
  matcher "PathPrefix" [String.join (segments.map ("/" ++ ·)) ++ "/"]

theorem holds_merge (truth : String → List String → Bool) (a b : Rule) :
    (a.merge b).holds truth = (a.holds truth && b.holds truth) := rfl

end Rule

end PreviewApps
