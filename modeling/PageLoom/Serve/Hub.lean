import PageLoom.Serve.Page

/-!
# Reload hub

Browser tabs connect with the page they show and get a mailbox. Notifying puts the page into the
mailbox of every connected client that shows one of the affected pages; closing the hub puts the
closing message into all of them and disconnects them. Mailboxes stay readable.
-/

namespace PageLoom.Serve

/-- A page to reload, or nothing once the hub is closed. -/
abbrev Message := Option Text

structure Client where
  id : Nat
  page : Text
  connected : Bool
  waiting : List Message
deriving Repr, DecidableEq

/-- All clients that ever connected, in order; the first has number one. -/
structure Hub where
  clients : List Client
deriving Repr, DecidableEq

namespace Hub

def empty : Hub := ⟨[]⟩

def connect (hub : Hub) (page : Text) : Nat × Hub :=
  let id := hub.clients.length + 1
  (id, ⟨hub.clients ++ [⟨id, normalizePage page, true, []⟩]⟩)

def disconnect (hub : Hub) (id : Nat) : Hub :=
  ⟨hub.clients.map fun client =>
    if client.id = id then { client with connected := false } else client⟩

/-- Whether a client is to reload when some pages change; no pages stand for all. -/
def Client.isAffected (pages : Option (List Text)) (client : Client) : Bool :=
  client.connected && pages.all fun pages => (pages.map normalizePage).contains client.page

def notify (hub : Hub) (pages : Option (List Text)) : Nat × Hub :=
  ((hub.clients.filter (Client.isAffected pages)).length,
    ⟨hub.clients.map fun client =>
      if Client.isAffected pages client then
        { client with waiting := client.waiting ++ [some client.page] }
      else client⟩)

def close (hub : Hub) : Hub :=
  ⟨hub.clients.map fun client =>
    if client.connected then
      { client with connected := false, waiting := client.waiting ++ [none] }
    else client⟩

/-- The number of connected clients. -/
def size (hub : Hub) : Nat := (hub.clients.filter (·.connected)).length

/-- Takes all messages out of the mailbox of a client that connected once. -/
def drain? (hub : Hub) (id : Nat) : Option (List Message × Hub) :=
  (hub.clients.find? (·.id = id)).map fun found =>
    (found.waiting,
      ⟨hub.clients.map fun client =>
        if client.id = id then { client with waiting := [] } else client⟩)

end Hub

end PageLoom.Serve
