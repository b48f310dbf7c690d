import GraphWire.Wire.Link

/-!
# `GraphWire.Wire.Engine` — a running engine as its parent sees it

The engine writes its requests, reads its commands until the line is closed, and exits with a code.
It may also end at once, or not read at all.

## Contents
- **`Behaviour`**, what an engine does by itself, and **`Engine`**, a running one.
- **`Engine.launch`**, and the parent's dealings with it: `send`, `close`, `join`, `wait` and
  `terminate`.
-/

namespace GraphWire

/-- What an engine does by itself. -/
structure Behaviour where
  /-- The bytes that it writes, in the pieces in which they arrive. -/
  output : List ByteArray
  exitCode : Int
  /-- It ends at once. -/
  isDead : Bool
  /-- It never reads, and lives until it is killed. -/
  isDeaf : Bool

/-- A running engine: what it does, the line to it, and why its requests ended, until asked. -/
structure Engine where
  behaviour : Behaviour
  link : Link
  served : Option ServeEnd

namespace Engine

/-- The descriptors that are there to be inherited. -/
def openFds : List Int := [0, 1, 2]

/-- Starts an engine. Every descriptor that it is to inherit has to be open. -/
def launch (behaviour : Behaviour) (spec : LaunchSpec) : Except WireError Engine :=
  if spec.inheritedFds.all openFds.contains then
    let link := Link.opened
    let link := if behaviour.isDeaf then link.hangUp else link
    let link := if behaviour.isDead then link.exited (some behaviour.exitCode) else link
    .ok ⟨behaviour, link, some .closed⟩
  else .error .spawn

/-- The frames that the engine writes, none if it ends at once. -/
def frames (engine : Engine) : List ByteArray :=
  if engine.behaviour.isDead then [] else Decoder.fresh.readStream engine.behaviour.output

/-- Sends everything that the root leads to. -/
def send (engine : Engine) (stores : Stores) (root : Walker) :
    Except WireError SendStatus × Engine :=
  let (result, link) := engine.link.send (stores.get root.store) root.name
  (result, { engine with link })

/-- Closes the line to the engine. -/
def close (engine : Engine) : Engine := { engine with link := engine.link.close }

/-- Why the requests ended; asked a second time, nothing. -/
def join (engine : Engine) : Option ServeEnd × Engine :=
  (engine.served, { engine with served := none })

/-- Waits for the engine, which ends when the line to it is closed. -/
def wait (engine : Engine) : ExitStatus × Engine :=
  let link := engine.link.exited (some engine.behaviour.exitCode)
  (link.exit.getD none, { engine with link })

/-- Kills the engine unless it has ended. -/
def terminate (engine : Engine) : ExitStatus × Engine :=
  let link := engine.link.exited none
  (link.exit.getD none, { engine with link })

end Engine

end GraphWire
