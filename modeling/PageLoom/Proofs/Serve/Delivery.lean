import Mathlib.Data.List.Nodup
import Mathlib.Data.List.Range
import Mathlib.Tactic.Common
import PageLoom.Serve.Hub

/-!
# Delivery of reload messages

A hub is asked for one thing after the other. Whatever it is asked for, a client finds in its
mailbox, over all times it looks, exactly what happened to its page while it was connected: one
message for every notification that concerned the page, and the closing message if the hub was
closed then.
-/

namespace PageLoom.Serve

/-- What a hub is asked for. -/
inductive HubRequest where
  | connect (page : Text)
  | disconnect (id : Nat)
  | notify (pages : Option (List Text))
  | close
  | drain (id : Nat)
deriving DecidableEq

/-- What a hub answers. There is nothing to tell of a client that ends, of a hub that closes, or of
the mailbox of a client that never connected. -/
inductive HubAnswer where
  | connected (id : Nat)
  | notified (count : Nat)
  | drained (id : Nat) (messages : List Message)
  | silent

namespace HubAnswer

def newId? : HubAnswer → Option Nat
  | connected id => some id
  | _ => none

/-- The messages that a client takes out of its mailbox. -/
def messagesFor (id : Nat) : HubAnswer → List Message
  | drained other messages => if other = id then messages else []
  | _ => []

end HubAnswer

namespace HubRequest

/-- Whether a request ends the connection of a client. -/
def ends (id : Nat) : HubRequest → Bool
  | disconnect other => other == id
  | close => true
  | _ => false

/-- Whether a request is a notification for a page; no pages stand for all. -/
def concerns (page : Text) : HubRequest → Bool
  | notify pages => pages.all fun pages => pages.any (normalizePage · == page)
  | _ => false

end HubRequest

/-- What a client is to receive that connected for a page, given what happened since: its page once
for each notification up to the end of its connection, and the closing message if that end is the
closing of the hub. -/
def owed (id : Nat) (page : Text) (since : List HubRequest) : List Message :=
  List.replicate ((since.takeWhile (!·.ends id)).countP (·.concerns page)) (some page) ++
    if (since.dropWhile (!·.ends id)).head? = some .close then [none] else []

namespace Hub

def respond (hub : Hub) : HubRequest → HubAnswer × Hub
  | .connect page => (.connected (hub.connect page).1, (hub.connect page).2)
  | .disconnect id => (.silent, hub.disconnect id)
  | .notify pages => (.notified (hub.notify pages).1, (hub.notify pages).2)
  | .close => (.silent, hub.close)
  | .drain id =>
    match hub.drain? id with
    | some (messages, hub) => (.drained id messages, hub)
    | none => (.silent, hub)

def answers (hub : Hub) : List HubRequest → List HubAnswer
  | [] => []
  | request :: rest => (hub.respond request).1 :: (hub.respond request).2.answers rest

def afterRequests (hub : Hub) : List HubRequest → Hub
  | [] => hub
  | request :: rest => (hub.respond request).2.afterRequests rest

/-- All that a client takes out of its mailbox, in order. -/
def receives (hub : Hub) (id : Nat) (requests : List HubRequest) : List Message :=
  (hub.answers requests).flatMap (·.messagesFor id)

/-- The numbers given to clients, in order. -/
def issues (hub : Hub) (requests : List HubRequest) : List Nat :=
  (hub.answers requests).filterMap (·.newId?)

variable {hub : Hub} {client : Client} {id : Nat} {page : Text}

theorem receives_cons (hub : Hub) (id : Nat) (request : HubRequest) (rest : List HubRequest) :
    hub.receives id (request :: rest) =
      (hub.respond request).1.messagesFor id ++ (hub.respond request).2.receives id rest := rfl

theorem receives_append (hub : Hub) (id : Nat) (requests others : List HubRequest) :
    hub.receives id (requests ++ others) =
      hub.receives id requests ++ (hub.afterRequests requests).receives id others := by
  induction requests generalizing hub with
  | nil => rfl
  | cons request rest ih =>
      rw [List.cons_append, receives_cons, receives_cons, ih, List.append_assoc]
      rfl

/-! ## One client among all -/

def client? (hub : Hub) (id : Nat) : Option Client := hub.clients.find? (·.id = id)

theorem id_of_client? (hclient : hub.client? id = some client) : client.id = id := by
  simpa using List.find?_some hclient

/-- What a request does to a client that has connected before. -/
def Client.respond (client : Client) : HubRequest → Client
  | .connect _ => client
  | .disconnect id => if client.id = id then { client with connected := false } else client
  | .notify pages =>
    if Client.isAffected pages client then
      { client with waiting := client.waiting ++ [some client.page] }
    else client
  | .close =>
    if client.connected then
      { client with connected := false, waiting := client.waiting ++ [none] }
    else client
  | .drain id => if client.id = id then { client with waiting := [] } else client

/-- What a client takes out of its mailbox when a request is answered. -/
def Client.takes (client : Client) : HubRequest → List Message
  | .drain id => if client.id = id then client.waiting else []
  | _ => []

theorem client?_map (change : Client → Client) (hchange : ∀ client, (change client).id = client.id)
    (hclient : hub.client? id = some client) :
    client? ⟨hub.clients.map change⟩ id = some (change client) := by
  have hsame : ((fun client : Client => decide (client.id = id)) ∘ change) =
      fun client => decide (client.id = id) := by
    funext client
    rw [Function.comp_apply, hchange]
  rw [client?, List.find?_map, hsame]
  exact congrArg (Option.map change) hclient

/-- A client that has connected stays among the clients, and a request does to it what it would do
if it were alone. -/
theorem client?_respond (hclient : hub.client? id = some client) (request : HubRequest) :
    (hub.respond request).2.client? id = some (Client.respond client request) := by
  cases request with
  | connect page =>
      have hstays : client? (hub.connect page).2 id = (hub.client? id).or _ := List.find?_append
      exact hstays.trans (by rw [hclient, Option.some_or]; rfl)
  | disconnect other => exact client?_map _ (fun client => by split <;> rfl) hclient
  | notify pages => exact client?_map _ (fun client => by split <;> rfl) hclient
  | close => exact client?_map _ (fun client => by split <;> rfl) hclient
  | drain other =>
      rw [respond, drain?]
      cases hfound : hub.clients.find? (·.id = other) with
      | some found => exact client?_map _ (fun client => by split <;> rfl) hclient
      | none =>
          have hother : client.id ≠ other := fun hsame => by
            rw [id_of_client? hclient] at hsame
            subst hsame
            cases hclient.symm.trans hfound
          rw [Client.respond, if_neg hother]
          exact hclient

theorem messagesFor_respond (hclient : hub.client? id = some client) (request : HubRequest) :
    (hub.respond request).1.messagesFor id = Client.takes client request := by
  cases request with
  | drain other =>
      have hid := id_of_client? hclient
      rw [respond, drain?, Client.takes]
      by_cases hsame : client.id = other
      · have hfound : hub.clients.find? (·.id = other) = some client := by
          rw [← hsame, hid]
          exact hclient
        rw [hfound, if_pos hsame]
        exact if_pos (hsame.symm.trans hid)
      · rw [if_neg hsame]
        cases hub.clients.find? (·.id = other) with
        | none => rfl
        | some found => exact if_neg fun hother => hsame (hid.trans hother.symm)
  | _ => rfl

theorem client?_afterRequests (hclient : hub.client? id = some client)
    (requests : List HubRequest) :
    (hub.afterRequests requests).client? id = some (requests.foldl Client.respond client) := by
  induction requests generalizing hub client with
  | nil => exact hclient
  | cons request rest ih => exact ih (client?_respond hclient request)

/-- No messages are taken out of a mailbox before there is one. -/
theorem receives_of_client?_eq_none {requests : List HubRequest}
    (hnone : (hub.afterRequests requests).client? id = none) : hub.receives id requests = [] := by
  induction requests generalizing hub with
  | nil => rfl
  | cons request rest ih =>
      have habsent : hub.client? id = none := by
        cases hclient : hub.client? id with
        | none => rfl
        | some client => cases (client?_afterRequests hclient (request :: rest)).symm.trans hnone
      have hfirst : (hub.respond request).1.messagesFor id = [] := by
        cases request with
        | drain other =>
            rw [respond, drain?]
            cases hfound : hub.clients.find? (·.id = other) with
            | none => rfl
            | some found =>
                refine if_neg fun hsame => ?_
                rw [hsame] at hfound
                cases habsent.symm.trans hfound
        | _ => rfl
      rw [receives_cons, hfirst, ih hnone, List.append_nil]

/-! ## The messages of one client -/

theorem isAffected_eq (pages : Option (List Text)) (client : Client) :
    Client.isAffected pages client =
      (client.connected && (HubRequest.notify pages).concerns client.page) := by
  cases pages with
  | none => rfl
  | some pages =>
      simp only [Client.isAffected, HubRequest.concerns, Option.all_some, List.contains_eq_any_beq,
        List.any_map]
      congr 2
      funext other
      exact Bool.beq_comm

theorem owed_of_ends {request : HubRequest} (hends : request.ends id = true)
    (rest : List HubRequest) :
    owed id page (request :: rest) = if request = .close then [none] else [] := by
  simp [owed, hends]

theorem owed_of_continues {request : HubRequest} (hends : request.ends id = false)
    (rest : List HubRequest) :
    owed id page (request :: rest) =
      (if request.concerns page then [some page] else []) ++ owed id page rest := by
  cases hconcerns : request.concerns page <;>
    simp [owed, hends, hconcerns, List.replicate_succ]

/-- What a connected client is still to receive, or nothing once its connection has ended. -/
def Client.expects (client : Client) (since : List HubRequest) : List Message :=
  if client.connected then owed client.id client.page since else []

/-- What a client takes, finds in its mailbox and still expects is the same before and after a
request. -/
theorem takes_append (client : Client) (request : HubRequest) (rest : List HubRequest) :
    Client.takes client request ++ ((Client.respond client request).waiting ++
        Client.expects (Client.respond client request) rest) =
      client.waiting ++ Client.expects client (request :: rest) := by
  obtain ⟨id, page, connected, waiting⟩ := client
  cases request with
  | connect other =>
      have howed := @owed_of_continues id page (.connect other) rfl rest
      simp only [Client.takes, Client.respond, Client.expects, howed]
      rfl
  | disconnect other =>
      by_cases hsame : id = other
      · have howed := @owed_of_ends id page (.disconnect other) (beq_iff_eq.mpr hsame.symm) rest
        simp [Client.takes, Client.respond, Client.expects, howed, if_pos hsame]
      · have howed := @owed_of_continues id page (.disconnect other)
          (beq_eq_false_iff_ne.mpr (Ne.symm hsame)) rest
        simp only [Client.takes, Client.respond, Client.expects, if_neg hsame, howed]
        rfl
  | notify pages =>
      have howed := @owed_of_continues id page (.notify pages) rfl rest
      have haffected := isAffected_eq pages ⟨id, page, connected, waiting⟩
      simp only [Client.takes, Client.respond, Client.expects, haffected, howed]
      cases connected <;> cases (HubRequest.notify pages).concerns page <;> simp
  | close =>
      have howed := @owed_of_ends id page .close rfl rest
      simp only [Client.takes, Client.respond, Client.expects, howed]
      cases connected <;> simp
  | drain other =>
      have howed := @owed_of_continues id page (.drain other) rfl rest
      by_cases hsame : id = other
      · simp only [Client.takes, Client.respond, Client.expects, if_pos hsame, howed]
        rfl
      · simp only [Client.takes, Client.respond, Client.expects, if_neg hsame, howed]
        rfl

theorem expects_nil (client : Client) : Client.expects client [] = [] := by
  cases hconnected : client.connected <;> simp [Client.expects, owed]

/-- A client expects one message from a notification if it is affected by it, and else none. -/
theorem expects_notify (pages : Option (List Text)) (client : Client) :
    Client.expects client [.notify pages] =
      if Client.isAffected pages client then [some client.page] else [] := by
  have howed := @owed_of_continues client.id client.page (.notify pages) rfl []
  rw [isAffected_eq, Client.expects, howed]
  cases client.connected <;> cases (HubRequest.notify pages).concerns client.page <;> rfl

/-- What a client takes out of its mailbox and what is left there in the end. -/
theorem receives_append_waiting (hclient : hub.client? id = some client)
    (requests : List HubRequest) :
    hub.receives id requests ++ (requests.foldl Client.respond client).waiting =
      client.waiting ++ Client.expects client requests := by
  induction requests generalizing hub client with
  | nil =>
      rw [expects_nil, List.append_nil]
      rfl
  | cons request rest ih =>
      rw [receives_cons, messagesFor_respond hclient, List.foldl_cons, List.append_assoc,
        ih (client?_respond hclient request)]
      exact takes_append client request rest

/-- With the drain that ends it, a run delivers all that was owed when it began. -/
theorem receives_drain (hclient : hub.client? id = some client) (requests : List HubRequest) :
    hub.receives id (requests ++ [.drain id]) =
      client.waiting ++ Client.expects client requests := by
  have hlast := client?_afterRequests hclient requests
  have hid := id_of_client? hlast
  rw [receives_append, ← receives_append_waiting hclient requests, receives_cons,
    messagesFor_respond hlast, Client.takes, if_pos hid]
  exact congrArg _ (List.append_nil _)

/-! ## Numbers of clients -/

/-- Clients are numbered in the order in which they connected. -/
def Numbered (hub : Hub) : Prop := hub.clients.map (·.id) = List.range' 1 hub.clients.length

theorem ids_respond (hub : Hub) (request : HubRequest) :
    (hub.respond request).2.clients.map (·.id) =
      hub.clients.map (·.id) ++ (hub.respond request).1.newId?.toList := by
  have hmap : ∀ change : Client → Client, (∀ client, (change client).id = client.id) →
      (hub.clients.map change).map (·.id) = hub.clients.map (·.id) ++ [] := by
    intro change hchange
    rw [List.map_map, List.append_nil]
    exact List.map_congr_left fun client _ => hchange client
  cases request with
  | connect page => exact List.map_append
  | disconnect id => exact hmap _ fun client => by split <;> rfl
  | notify pages => exact hmap _ fun client => by split <;> rfl
  | close => exact hmap _ fun client => by split <;> rfl
  | drain id =>
      rw [respond, drain?]
      cases hub.clients.find? (·.id = id) with
      | some found => exact hmap _ fun client => by split <;> rfl
      | none => exact (List.append_nil _).symm

theorem Numbered.respond (hnumbered : hub.Numbered) (request : HubRequest) :
    (hub.respond request).2.Numbered := by
  have hids := ids_respond hub request
  have hlength := congrArg List.length hids
  rw [List.length_map, List.length_append, List.length_map] at hlength
  rw [Numbered, hids, hlength, hnumbered]
  cases request with
  | connect page =>
      change List.range' 1 hub.clients.length ++ [hub.clients.length + 1] = _
      rw [Nat.add_comm hub.clients.length 1]
      exact List.range'_1_concat.symm
  | drain id =>
      rw [Hub.respond, drain?]
      cases hub.clients.find? (·.id = id) <;> exact List.append_nil _
  | _ => exact List.append_nil _

theorem Numbered.afterRequests (hnumbered : hub.Numbered) (requests : List HubRequest) :
    (hub.afterRequests requests).Numbered := by
  induction requests generalizing hub with
  | nil => exact hnumbered
  | cons request rest ih => exact ih (hnumbered.respond request)

theorem Numbered.nodup (hnumbered : hub.Numbered) : (hub.clients.map (·.id)).Nodup := by
  rw [hnumbered]
  exact List.nodup_range'

/-- The number of the next client is none that a client has. -/
theorem Numbered.client?_next (hnumbered : hub.Numbered) (page : Text) :
    hub.client? (hub.connect page).1 = none := by
  rw [client?, List.find?_eq_none]
  intro client hmem hid
  have hnumber : client.id ∈ List.range' 1 hub.clients.length := by
    rw [← hnumbered]
    exact List.mem_map_of_mem hmem
  have hlength : client.id = hub.clients.length + 1 := of_decide_eq_true hid
  rw [List.mem_range'_1] at hnumber
  omega

theorem Numbered.client?_connect (hnumbered : hub.Numbered) (page : Text) :
    (hub.connect page).2.client? (hub.connect page).1 =
      some ⟨(hub.connect page).1, normalizePage page, true, []⟩ := by
  have hstays : client? (hub.connect page).2 (hub.connect page).1 =
      (hub.client? (hub.connect page).1).or _ := List.find?_append
  rw [hstays, hnumbered.client?_next page, Option.none_or]
  exact List.find?_cons_of_pos (decide_eq_true rfl)

theorem find?_of_mem {clients : List Client} (hnodup : (clients.map (·.id)).Nodup)
    (hmem : client ∈ clients) : clients.find? (·.id = client.id) = some client := by
  induction clients with
  | nil => cases hmem
  | cons first rest ih =>
      rw [List.map_cons, List.nodup_cons] at hnodup
      rcases List.mem_cons.mp hmem with rfl | hmem
      · rw [List.find?_cons_of_pos (by simp)]
      · have hother : first.id ≠ client.id := fun hsame => by
          rw [hsame] at hnodup
          exact hnodup.1 (List.mem_map_of_mem hmem)
        rw [List.find?_cons_of_neg (by simpa using hother)]
        exact ih hnodup.2 hmem

/-- The numbers that a hub gives are those of the clients that it has later. -/
theorem append_issues (hub : Hub) (requests : List HubRequest) :
    hub.clients.map (·.id) ++ hub.issues requests =
      (hub.afterRequests requests).clients.map (·.id) := by
  induction requests generalizing hub with
  | nil => exact List.append_nil _
  | cons request rest ih =>
      have hfirst : hub.issues (request :: rest) =
          (hub.respond request).1.newId?.toList ++ (hub.respond request).2.issues rest := by
        simp only [issues, answers, List.filterMap_cons]
        cases (hub.respond request).1.newId? <;> rfl
      rw [hfirst, ← List.append_assoc, ← ids_respond]
      exact ih _

/-! ## Histories of a hub -/

theorem numbered_empty : empty.Numbered := rfl

theorem issues_empty (requests : List HubRequest) :
    empty.issues requests = (empty.afterRequests requests).clients.map (·.id) :=
  append_issues empty requests

/-- What a client takes out of its mailbox is what it is owed, and always a part of that from its
beginning. A notification is answered with the number of clients that would find one more message
after it, and no number is given to two clients. -/
theorem delivery_exact :
    (∀ before page since,
      let id := ((empty.afterRequests before).connect page).1
      empty.receives id (before ++ .connect page :: since) <+: owed id (normalizePage page) since ∧
        empty.receives id (before ++ .connect page :: since ++ [.drain id]) =
          owed id (normalizePage page) since) ∧
      (∀ requests pages, ((empty.afterRequests requests).notify pages).1 =
        (empty.issues requests).countP fun id =>
          empty.receives id (requests ++ [.notify pages, .drain id]) ≠
            empty.receives id (requests ++ [.drain id])) ∧
      ∀ requests, (empty.issues requests).Nodup := by
  refine ⟨fun before page since => ?_, fun requests pages => ?_, fun requests => ?_⟩
  · have hnumbered := numbered_empty.afterRequests before
    have hclient := hnumbered.client?_connect page
    have hearlier := receives_of_client?_eq_none (hnumbered.client?_next page)
    have hsince : ∀ since, empty.receives ((empty.afterRequests before).connect page).1
        (before ++ .connect page :: since) =
          ((empty.afterRequests before).connect page).2.receives
            ((empty.afterRequests before).connect page).1 since := by
      intro since
      rw [receives_append, hearlier, receives_cons]
      rfl
    refine ⟨?_, ?_⟩
    · rw [hsince]
      exact ⟨_, receives_append_waiting hclient since⟩
    · rw [List.append_assoc, List.cons_append, hsince]
      exact receives_drain hclient since
  · have hnumbered := numbered_empty.afterRequests requests
    rw [issues_empty, List.countP_map]
    change ((empty.afterRequests requests).clients.filter _).length = _
    rw [← List.countP_eq_length_filter]
    refine List.countP_congr fun client hmem => ?_
    have hclient : client? _ client.id = some client := find?_of_mem hnumbered.nodup hmem
    have hafter := receives_drain hclient [.notify pages]
    have hbefore := receives_drain hclient []
    rw [expects_notify] at hafter
    rw [expects_nil] at hbefore
    rw [Function.comp_apply, decide_eq_true_iff, receives_append, receives_append, ne_eq,
      List.append_cancel_left_eq]
    change _ ↔ ¬Hub.receives _ client.id ([.notify pages] ++ [.drain client.id]) =
      Hub.receives _ client.id ([] ++ [.drain client.id])
    rw [hafter, hbefore, List.append_cancel_left_eq]
    cases Client.isAffected pages client <;> simp
  · rw [issues_empty]
    exact (numbered_empty.afterRequests requests).nodup

/-- Two spellings of one page are one page, and the closing message comes last. -/
example : empty.receives 1 [.connect "docs/".toList,
    .notify (some ["/docs/index.html".toList, "docs/".toList]), .close, .notify none, .drain 1] =
      [some "/docs/index.html".toList, none] := by decide

end Hub

end PageLoom.Serve
