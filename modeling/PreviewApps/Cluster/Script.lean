import PreviewApps.Cluster.Server

/-!
A server with a script: answers prepared per operation are given out in order before the server
itself is asked, and every call is recorded.
-/

namespace PreviewApps.Cluster

/-- Answers that are still pending stand under the name of the operation they are for. -/
structure ScriptedServer where
  server : Server
  pending : List (String × List (Option Answer))
  calls : List Call

namespace ScriptedServer

/-- The next prepared answer of an operation; a prepared `none` leaves the call to the server. -/
def next (operation : String) (s : ScriptedServer) : Option Answer × ScriptedServer :=
  match s.pending.lookup operation with
  | some (a :: rest) => (a, { s with pending := Assoc.insert operation rest s.pending })
  | _ => (none, s)

def answer (operationOf : Call → String) (c : Call) (s : ScriptedServer) :
    Answer × ScriptedServer :=
  let (prepared, s) := next (operationOf c) { s with calls := s.calls ++ [c] }
  match prepared with
  | some a => (a, s)
  | none =>
    let (a, server) := s.server.answer c
    (a, { s with server })

end ScriptedServer

end PreviewApps.Cluster
