import Shorthand.Session.Editing
/-!
# Hosts

An editor with several documents open and one service for all of them.  The service attends to one document at a time.
-/
namespace Shorthand

/-- A service and the documents it serves. -/
structure Host where
  service : Service
  documents : List Document
  deriving Repr

namespace Host

/-- The service attending to the document at `i`. -/
def session? (h : Host) (i : Nat) : Option Session := h.documents[i]?.map fun document => ⟨h.service, document⟩

/-- The host after a session on the document at `i`. -/
def put (h : Host) (i : Nat) (s : Session) : Host := ⟨s.service, h.documents.set i s.document⟩

def on (h : Host) (i : Nat) (f : Session → Session) : Host :=
  match h.session? i with
  | none => h
  | some s => h.put i (f s)

/-- Every document comes to the front, one after the other. -/
def activateAll (h : Host) : Host :=
  (List.range h.documents.length).foldl (fun h i => h.on i fun s => s.after .activated) h

/-- Ends all tracking, in the documents at `indices` and in those that are gone. -/
def shutdown (h : Host) (indices : List Nat) : Host :=
  let h := indices.foldl (fun h i => h.on i Session.stop) h
  { h with service := { h.service with trackers := .empty, carets := .empty, completionAsked := false } }

end Host
end Shorthand
