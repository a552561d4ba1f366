import Parley.Network.Run

/-!
# Commands

What a user of a session may ask for. Everything is named by the user, and an answer depends only on
what was asked before.

- `Command`: the commands.
- `Result`: what a command answers at once.
-/

namespace Parley

/-- Who is asked to send something, by name. -/
inductive Party where
  | conn (name : String)
  | dispatcher (name : String)
  deriving DecidableEq, Repr

/-- A command. -/
inductive Command where
  | openScript (c : String) (config : Config)
  | openPipes (a b : String) (capacity : Nat)
  | openDispatcher (d : String)
  | dropDispatcher (d : String)
  | dropConn (c : String)
  | connect (c d : String)
  | disconnect (c : String) (flush : Bool)
  | feed (c : String) (bytes : List UInt8) (ended : Bool)
  | fault (c : String) (text : String)
  | setOutput (c : String) (output : Output)
  | notify (sender : Party) (method : String) (params : Except Json.Cause Json)
  | call (label : String) (sender : Party) (method : String) (params : Except Json.Cause Json)
    (shape : Option Json.Shape)
  | dropCall (label : String)
  | advance (secs : Nat)
  | openGate (gate : String)
  | handle (d method : String) (h : Handler)
  /-- Registers a descriptor under a name. The hooks may count what is left for its method. -/
  | register (name d : String) (descriptor : Except BadGlob Descriptor) (hooks : List String)
    (counts : Bool)
  /-- Takes a descriptor back, twice, that was never registered. -/
  | retractUnregistered (d : String) (descriptor : Except BadGlob Descriptor)
    (hooks : List String) (counts : Bool)
  | unregister (name : String)
  | descriptors (d method : String)
  | describe (name : String)
  /-- Which descriptors for a method the document of some params leads to. -/
  | find (d method : String) (params : Json)
  | identify (d : String) (params : Json)
  | isConnected (d : String)
  /-- Whether the dispatcher of a connection is connected. -/
  | isBoundConnected (c : String)
  | isClosed (c : String)
  | phase (c : String)
  | config (c : String)
  | showConn (c : String)
  | showDispatcher (d : String)

/-- What a command answers at once. -/
inductive Result where
  | done
  | refused (e : CallError)
  | phase (p : Phase)
  /-- Whether a call is over already. -/
  | call (isOver : Bool)
  | flag (b : Bool)
  /-- The answers of the first and the second attempt. -/
  | twice (first second : Bool)
  | connected (b : Bool)
  | watched (p : Phase)
  | descriptors (ds : List Descriptor)
  | descriptor (d : Descriptor)
  /-- The keys of all descriptors that match, and of the one that answers requests. -/
  | found (keys : List String) (request : Option String)
  | document (d : Option Document)
  | text (s : String)

end Parley
