import PageLoom.Serve.Hub

/-!
# Event streams

The answer to a client that waits for reloads: a greeting, an event for every message in its
mailbox, and a sign of life whenever a wait ends without one. The closing message ends the stream,
and so does the first write that fails.
-/

namespace PageLoom.Serve

/-- What happens while a client is connected. -/
inductive Occurrence where
  | notify (pages : Option (List Text))
  | silence
  | close
deriving Repr, DecidableEq

/-- How one wait for a message ends. -/
inductive Wait where
  | message (message : Message)
  | timeout
deriving Repr, DecidableEq

def greeting : Text := ": connected\n\n".toList

def signOfLife : Text := ": ping\n\n".toList

def reloadEvent (page : Text) : Text :=
  "event: reload\ndata: ".toList ++ page ++ "\n\n".toList

/-- What is written after the greeting. -/
def chunksOf : List Wait → List Text
  | [] => []
  | .timeout :: rest => signOfLife :: chunksOf rest
  | .message (some page) :: rest => reloadEvent page :: chunksOf rest
  | .message none :: _ => []

structure StreamState where
  hub : Hub
  waits : List Wait
  notified : List Nat
deriving Repr, DecidableEq

/-- Moves the messages of a client out of its mailbox to its waits. -/
def collect (client : Nat) (state : StreamState) : StreamState :=
  match state.hub.drain? client with
  | some (messages, hub) =>
    { state with hub, waits := state.waits ++ messages.map Wait.message }
  | none => state

def observe (client : Nat) (state : StreamState) : Occurrence → StreamState
  | .notify pages =>
    let (count, hub) := state.hub.notify pages
    collect client { state with hub, notified := state.notified ++ [count] }
  | .silence => { state with waits := state.waits ++ [.timeout] }
  | .close => collect client { state with hub := state.hub.close }

/-- What a client got, how many clients each notification reached, and the hub afterwards. -/
structure Stream where
  chunks : List Text
  notified : List Nat
  hub : Hub
deriving Repr, DecidableEq

/-- Connects a client for a page and streams what occurs. At most `room` chunks can be written, if
there is a limit; an open hub then keeps the client waiting up to it. -/
def streamEvents (hub : Hub) (page : Text) (occurrences : List Occurrence) (room : Option Nat) :
    Stream :=
  let (client, hub) := hub.connect page
  let state := occurrences.foldl (observe client) ⟨hub, [], []⟩
  let waits := state.waits ++ List.replicate (room.getD 0) .timeout
  let chunks := greeting :: chunksOf waits
  ⟨(room.map fun room => chunks.take room).getD chunks, state.notified,
    state.hub.disconnect client⟩

end PageLoom.Serve
