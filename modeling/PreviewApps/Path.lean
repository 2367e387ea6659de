import PreviewApps.Text.Order
import PreviewApps.Text.Split

/-!
Lexical file paths. Empty and `.` components vanish and `..` stays; exactly two leading slashes are
a root of their own.
-/

namespace PreviewApps

namespace Path

inductive Root
  | relative
  | single
  | double
  deriving DecidableEq

def Root.text : Root → String
  | relative => ""
  | single => "/"
  | double => "//"

def isComponent (s : String) : Bool := !s.isEmpty && s != "." && !s.toList.contains '/'

end Path

structure Path where
  root : Path.Root
  components : List String
  valid : ∀ c ∈ components, Path.isComponent c = true
  deriving DecidableEq

namespace Path

def ofComponents (root : Root) (cs : List String) : Path :=
  ⟨root, cs.filter isComponent, fun _ h => (List.mem_filter.1 h).2⟩

def rootOf (cs : List Char) : Root :=
  match (cs.takeWhile (· == '/')).length with
  | 0 => .relative
  | 2 => .double
  | _ => .single

def ofString (s : String) : Path :=
  ofComponents (rootOf s.toList) ((Text.pieces '/' s.toList).map String.ofList)

def toString (p : Path) : String :=
  if p.root = .relative ∧ p.components = [] then "."
  else p.root.text ++ String.intercalate "/" p.components

def parent (p : Path) : Path :=
  ⟨p.root, p.components.dropLast, fun c h => p.valid c (List.dropLast_subset _ h)⟩

/-- The last component; empty where there is none. -/
def name (p : Path) : String := p.components.getLast?.getD ""

/-- The root, if there is one, and the components. -/
def parts (p : Path) : List String :=
  if p.root = .relative then p.components else p.root.text :: p.components

/-- The path `q` read from `p`; a rooted `q` replaces `p`. -/
def join (p q : Path) : Path :=
  if q.root = .relative then
    ⟨p.root, p.components ++ q.components, fun c h =>
      (List.mem_append.1 h).elim (p.valid c) (q.valid c)⟩
  else q

def dashed (s : String) : String := s.map fun c => if c = '.' then '-' else c

def namelessParts : List String := ["/", "", ".", ".."]

/-- The parts that name something, each with `-` for `.`, joined by `-`. -/
def volumeName (p : Path) : String :=
  String.intercalate "-" ((p.parts.filter fun c => !namelessParts.contains c).map dashed)

def secretKey (p : Path) : String := dashed p.name

end Path

/-- Contents by path, in the order in which the paths were first given. -/
abbrev Files := List (Path × String)

end PreviewApps
