import ModelSchema.Host.Basic

/-!
# Writing through a buffer

A writer holds back what it is given until its buffer is full, and then writes all of it. Where two
writers share a file, the one that writes later wins, so it matters when each of them does.
-/

namespace ModelSchema.Host

/-- A file that is being written: how much of the text is in it, and what is held back. -/
structure Writer where
  path : Path
  position : Nat
  pending : String
deriving DecidableEq, Repr

namespace Writer

/-- How many bytes are held back at most. -/
def capacity : Nat := 8192

def start (path : Path) : Writer := ⟨path, 0, ""⟩

/-- What goes to the file when a piece of text arrives, and what is held back then. A piece that
would fill the buffer alone is not held back. -/
def split (pending piece : String) : String × String :=
  if capacity ≤ piece.utf8ByteSize then (pending ++ piece, "")
  else if pending.utf8ByteSize + piece.utf8ByteSize ≤ capacity then ("", pending ++ piece)
  else (pending, piece)

/-- Nothing is lost. -/
theorem split_append (pending piece : String) :
    (split pending piece).1 ++ (split pending piece).2 = pending ++ piece := by
  unfold split
  split
  · simp
  · split
    · simp
    · rfl

variable {m : Type → Type} [Monad m] (host : Host m)

/-- Write a text at the current position, and hold back another one. -/
def write (writer : Writer) (text rest : String) : m (Except Failure Writer) := do
  if text.isEmpty then return .ok { writer with pending := rest }
  match ← host.overwrite writer.path writer.position text with
  | .ok () =>
    return .ok { writer with
      position := writer.position + text.utf8ByteSize
      pending := rest }
  | .error failure => return .error failure

def push (writer : Writer) (piece : String) : m (Except Failure Writer) :=
  let (text, rest) := split writer.pending piece
  writer.write host text rest

def pushAll (writer : Writer) : List String → m (Except Failure Writer)
  | [] => return .ok writer
  | piece :: rest => do
    match ← writer.push host piece with
    | .ok writer => writer.pushAll rest
    | .error failure => return .error failure

def flush (writer : Writer) : m (Except Failure Writer) :=
  writer.write host writer.pending ""

/-- Write what several writers hold back, one after the other, as far as the host lets them. -/
def flushAll : List Writer → m Unit
  | [] => return ()
  | writer :: rest => do
    let _ ← writer.flush host
    flushAll rest

end Writer

end ModelSchema.Host
