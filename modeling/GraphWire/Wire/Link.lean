import GraphWire.Wire.Message

/-!
# `GraphWire.Wire.Link` — the commands that reach the engine

Commands are written to the engine as whole frames. A command is dropped when the engine has exited,
when the line to it is closed, or when it does not read any more; the line is closed then.

## Contents
- **`LaunchSpec`**, how the engine is started.
- **`Link`**, the line to the engine and the bytes written to it.
- **`Link.send`**, `Link.close`, `Link.hangUp` and `Link.exited`.
- **`serve`**, the requests among the frames that arrive.
-/

namespace GraphWire

/-! ## How the engine is started -/

/-- A program, its arguments, and the descriptors that it inherits. -/
structure LaunchSpec where
  program : String
  args : List String
  inheritedFds : List Int
  deriving DecidableEq

namespace LaunchSpec

def new (program : String) : LaunchSpec := ⟨program, [], []⟩

def arg (spec : LaunchSpec) (arg : String) : LaunchSpec := { spec with args := spec.args ++ [arg] }

def inheritFd (spec : LaunchSpec) (fd : Int) : LaunchSpec :=
  { spec with inheritedFds := spec.inheritedFds ++ [fd] }

/-- A command line run by the shell. -/
def shell (commandLine : String) : LaunchSpec := ((new "/bin/sh").arg "-c").arg commandLine

/-- The program and its arguments with spaces between them. -/
def display (spec : LaunchSpec) : String := " ".intercalate (spec.program :: spec.args)

end LaunchSpec

/-! ## Sending commands -/

/-- How the engine ended: with an exit code, or killed. -/
abbrev ExitStatus := Option Int

inductive SendStatus where
  | written
  | dropped
  deriving DecidableEq

/-- The line to the engine. -/
structure Link where
  /-- All bytes that were written. -/
  written : ByteArray
  /-- The parent has not closed the line. -/
  isOpen : Bool
  /-- The engine still reads; a write fails otherwise. -/
  isHeard : Bool
  /-- How the engine ended, once that is known. -/
  exit : Option ExitStatus

namespace Link

def opened : Link := ⟨.empty, true, true, none⟩

instance : Inhabited Link := ⟨opened⟩

/-- Sends everything that the root leads to as one frame. The text is not even made when the engine
    has exited, and it is not framed when the line is closed. -/
def send (link : Link) (config : Config) (root : String) : Except WireError SendStatus × Link :=
  if link.exit.isSome then (.ok .dropped, link)
  else
    match config.marshal root with
    | .error e => (.error (.config e), link)
    | .ok text =>
      if !link.isOpen then (.ok .dropped, link)
      else
        match appendFrame link.written text with
        | (.error e, _) => (.error (.frame e), link)
        | (.ok (), written) =>
          if link.isHeard then (.ok .written, { link with written })
          else (.ok .dropped, { link with isOpen := false })

/-- The parent closes the line. -/
def close (link : Link) : Link := { link with isOpen := false }

/-- The engine stops reading. -/
def hangUp (link : Link) : Link := { link with isHeard := false }

/-- The engine has ended; how it ended first is what counts. -/
def exited (link : Link) (status : ExitStatus) : Link :=
  { link with exit := some (link.exit.getD status) }

end Link

/-! ## Serving requests -/

/-- Why no more requests are read. -/
inductive ServeEnd where
  /-- The handler wanted no more. -/
  | handled
  /-- The stream ended. -/
  | closed
  deriving DecidableEq

/-- Hands the requests among the frames to the handler, until it answers true. Frames that hold no
    request are passed over. -/
def serve {m : Type → Type} [Monad m] (request? : ByteArray → m (Option Request))
    (handle : Request → m Bool) : List ByteArray → m ServeEnd
  | [] => pure .closed
  | body :: rest => do
    match ← request? body with
    | none => serve request? handle rest
    | some request =>
      if ← handle request then pure .handled
      else serve request? handle rest

end GraphWire
