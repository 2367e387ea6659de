/-! Finite maps as lists of pairs in the order of first insertion. -/

namespace PreviewApps.Assoc

variable {κ ν : Type} [BEq κ]

/-- A new value for a key that is present keeps the key's place. -/
def insert (k : κ) (v : ν) : List (κ × ν) → List (κ × ν)
  | [] => [(k, v)]
  | e :: r => if k == e.1 then (e.1, v) :: r else e :: insert k v r

def erase (k : κ) : List (κ × ν) → List (κ × ν)
  | [] => []
  | e :: r => if k == e.1 then r else e :: erase k r

def ofList (es : List (κ × ν)) : List (κ × ν) := es.foldl (fun m e => insert e.1 e.2 m) []

/-- Leaves the map as it is when the key is present. -/
def insertNew (k : κ) (v : ν) (m : List (κ × ν)) : List (κ × ν) :=
  if (m.lookup k).isSome then m else m ++ [(k, v)]

/-- Puts an element behind those of its key. -/
def addToGroup (f : ν → κ) (m : List (κ × List ν)) (x : ν) : List (κ × List ν) :=
  insert (f x) ((m.lookup (f x)).getD [] ++ [x]) m

/-- Groups the elements by key, in the order of each key's first element. -/
def groupBy (f : ν → κ) (xs : List ν) : List (κ × List ν) := xs.foldl (addToGroup f) []

@[simp] theorem lookup_insert_self [LawfulBEq κ] (k : κ) (v : ν) (m : List (κ × ν)) :
    (insert k v m).lookup k = some v := by
  induction m with
  | nil => simp [insert]
  | cons e r ih =>
    obtain ⟨a, b⟩ := e
    by_cases h : k = a
    · simp [insert, h]
    · simp [insert, List.lookup_cons, beq_false_of_ne h, ih]

theorem lookup_insert_of_ne [LawfulBEq κ] {k k' : κ} (h : k' ≠ k) (v : ν) (m : List (κ × ν)) :
    (insert k v m).lookup k' = m.lookup k' := by
  induction m with
  | nil => simp [insert, List.lookup_cons, beq_false_of_ne h]
  | cons e r ih =>
    obtain ⟨a, b⟩ := e
    by_cases he : k = a
    · subst he; simp [insert, List.lookup_cons, beq_false_of_ne h]
    · simp [insert, he, List.lookup_cons, ih]

end PreviewApps.Assoc
