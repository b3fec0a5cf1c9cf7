import AccessControl.Document

/-!
The store behind a directory: one document, replaced as a whole. A store may fail to write or to read; a
failed write leaves its content as it was.
-/

namespace AccessControl

/-- A store with its content. The faults say how the next write or read fails, if it does; `puts` counts
the writes tried. -/
structure Store where
  content : Option ByteArray
  putFault : Option AccessError
  getFault : Option AccessError
  puts : Nat

namespace Store

def empty : Store := ⟨none, none, none, 0⟩

def get (s : Store) : Except AccessError (Option ByteArray) :=
  match s.getFault with
  | some e => .error e
  | none => .ok s.content

def put (s : Store) (bytes : ByteArray) : Except AccessError Unit × Store :=
  match s.putFault with
  | some e => (.error e, { s with puts := s.puts + 1 })
  | none => (.ok (), { s with content := some bytes, puts := s.puts + 1 })

/-- The directory that the content describes; a store never written holds an empty one. -/
def directoryOf : Option ByteArray → Except AccessError Directory
  | some bytes => (Document.ofBytes bytes).map Document.directory
  | none => .ok .empty

def load (s : Store) : Except AccessError Directory := do directoryOf (← s.get)

end Store

end AccessControl
