import ObjectBus.Proofs.Broker.Numbers
import ObjectBus.Proofs.Guest.Discovering
import ObjectBus.Proofs.Guest.Link

/-!
# A guest that asks for types

A host and a guest are joined by two queues that lose nothing and keep the order. The guest sends
whatever it wants and reads when it wants. Now and then it asks for type definitions, and then it
does nothing but read until it has been told, or has failed. Other guests and the program around the
host act at any time.

* `Guest.Question`, `Guest.Question.Settled`: what the guest asks, and when earlier questions are
  settled;
* `Guest.Pursuit`: what the guest is about;
* `Exchange`: both of them, with the host as it was when it took the frames of the guest;
* `Exchange.Step`: one of them takes a frame, the guest does something, or somebody else acts.
-/

namespace ObjectBus

namespace Guest

/-! ## The guest -/

/-- A question for type definitions. -/
structure Question where
  /-- The guest before it asks. -/
  guest : Guest
  /-- The names to which the answer is limited. -/
  whitelist : Option (List String)
  /-- The names that it leaves out. -/
  blacklist : Option (List String)
  /-- The time. -/
  time : Instant
  /-- The frames that the guest has read before. -/
  seen : List Transmission

namespace Question

/-- The frame that asks. -/
def request (q : Question) : Transmission :=
  .ofControl (.descriptorRequest q.whitelist q.blacklist) q.time

/-- The number of the frames that the guest has sent before. -/
def place (q : Question) : Nat := q.guest.sent.length

/-- When the host took the question it was in some state, out of those in which it took the frames
of the guest one by one. -/
def TakenBy (q : Question) (hosts : List Broker) (host : Broker) : Prop :=
  hosts[q.place]? = some host

/-- What the call by which the guest asks comes to when some frames arrive behind those that it has
read before. -/
def outcome (q : Question) (frames : List Transmission) :
    Result (List StructSchema) × List Arrival :=
  (q.guest.requestSchemas q.whitelist q.blacklist (frames.map .ok) q.time).value

/-- Earlier questions are settled: the guest has read as many marks of an end as it has asked
questions. -/
def Settled (q : Question) : Prop :=
  q.seen.countP (·.endsDiscovery) = q.guest.sent.countP (·.asksForTypes)

end Question

/-- What a guest is about. -/
inductive Pursuit where
  /-- It may do what it wants. -/
  | free (g : Guest)
  /-- It has asked for type definitions and has found some struct types since. -/
  | asking (q : Question) (g : Guest) (found : List StructSchema)
  /-- It has been told, or has failed. -/
  | told (q : Question) (r : Result (List StructSchema))

namespace Pursuit

/-- The guest. -/
def guest : Pursuit → Guest
  | free g => g
  | asking _ g _ => g
  | told _ r => r.1

/-- What becomes of a question when a frame arrives. -/
def afterReading (q : Question) (g : Guest) (found : List StructSchema) (t : Transmission) :
    Pursuit :=
  match (discovering.take (g, found) t).value with
  | .waiting s => asking q s.1 s.2
  | .ended r => told q r

end Pursuit

end Guest

/-! ## Both of them -/

/-- A host and a guest that are joined by two queues. -/
structure Exchange where
  /-- The host. -/
  host : Broker
  /-- The number of the guest at the host. -/
  peer : PeerId
  /-- What the guest is about. -/
  pursuit : Guest.Pursuit
  /-- The host at the moments when it took the frames of the guest, one by one. -/
  hosts : List Broker
  /-- How many frames of the host the guest has taken. -/
  read : Nat

namespace Exchange

/-- What the host has sent to the guest. -/
def frames (x : Exchange) : List Transmission := x.host.framesTo x.peer

/-- What the guest has sent to the host. -/
def sent (x : Exchange) : List Transmission := x.pursuit.guest.sent

/-- The guest has not asked to join the group of announcements. -/
def KeepsOut (x : Exchange) : Prop := ∀ t ∈ x.sent, t.joined? ≠ some structSchemaGroup

/-- One step of the host, of the guest or of somebody else. -/
inductive Step (x : Exchange) : Exchange → Prop
  /-- The host takes a frame of the guest. -/
  | hear {t : Transmission} (ht : x.sent[x.hosts.length]? = some t) (now : Instant) :
      Step x { x with
        host := x.host.perform (.receive x.peer t) now
        hosts := x.hosts ++ [x.host] }
  /-- Another guest or the host does something. -/
  | elsewhere {call : BrokerCall} (hcall : x.host.addressee? call ≠ some x.peer) (now : Instant) :
      Step x { x with host := x.host.perform call now }
  /-- The guest sends something, or nothing, and may change otherwise. -/
  | act {g g' : Guest} (hfree : x.pursuit = .free g) (hsent : g.sent <+: g'.sent) :
      Step x { x with pursuit := .free g' }
  /-- The guest takes a frame of the host while it does not wait for type definitions. -/
  | skim {g : Guest} (hfree : x.pursuit = .free g) (hread : x.read < x.frames.length) :
      Step x { x with read := x.read + 1 }
  /-- The guest asks for type definitions. -/
  | ask {g : Guest} (hfree : x.pursuit = .free g) (whitelist blacklist : Option (List String))
      (now : Instant) :
      Step x { x with
        pursuit := .asking ⟨g, whitelist, blacklist, now, x.frames.take x.read⟩
          (g.askSchemas whitelist blacklist now) [] }
  /-- The guest, which waits for type definitions, takes a frame of the host. -/
  | read {q : Guest.Question} {g : Guest} {found : List StructSchema}
      (hasking : x.pursuit = .asking q g found) {t : Transmission}
      (ht : x.frames[x.read]? = some t) :
      Step x { x with pursuit := .afterReading q g found t, read := x.read + 1 }
  /-- The guest waits in vain. -/
  | lose {q : Guest.Question} {g : Guest} {found : List StructSchema}
      (hasking : x.pursuit = .asking q g found) (e : TransportError) :
      Step x { x with pursuit := .told q (Guest.discovering.failed (g, found) e) }
  /-- The guest goes on to other things. -/
  | resume {q : Guest.Question} {r : Guest.Result (List StructSchema)}
      (htold : x.pursuit = .told q r) :
      Step x { x with pursuit := .free r.1 }

/-- The host has accepted the channel of a guest. -/
def opened (b : Broker) (channel : Channel) (now : Instant) : Exchange where
  host := b.perform (.accept channel) now
  peer := b.nextPeer
  pursuit := .free .fresh
  hosts := []
  read := 0

/-! ## Playing a script -/

/-- A step that can be played. -/
inductive Move where
  /-- The host takes a frame of the guest. -/
  | hear
  /-- Another guest or the host does something. -/
  | elsewhere (call : BrokerCall)
  /-- The guest sends some frames. -/
  | act (frames : List Transmission)
  /-- The guest asks for the types with some names. -/
  | ask (names : List String)
  /-- The guest, which waits for type definitions, takes a frame of the host. -/
  | read
  /-- The guest goes on to other things. -/
  | resume

/-- What becomes of an exchange when a move is played, if it can be. -/
def play (x : Exchange) (now : Instant) : Move → Option Exchange
  | .hear => (x.sent[x.hosts.length]?).map fun t =>
    { x with host := x.host.perform (.receive x.peer t) now, hosts := x.hosts ++ [x.host] }
  | .elsewhere call =>
    if x.host.addressee? call = some x.peer then none
    else some { x with host := x.host.perform call now }
  | .act frames => match x.pursuit with
    | .free g => some { x with pursuit := .free { g with sent := g.sent ++ frames } }
    | _ => none
  | .ask names => match x.pursuit with
    | .free g => some { x with
        pursuit := .asking ⟨g, some names, none, now, x.frames.take x.read⟩
          (g.askSchemas (some names) none now) [] }
    | _ => none
  | .read => match x.pursuit with
    | .asking q g found => (x.frames[x.read]?).map fun t =>
      { x with pursuit := .afterReading q g found t, read := x.read + 1 }
    | _ => none
  | .resume => match x.pursuit with
    | .told _ r => some { x with pursuit := .free r.1 }
    | _ => none

/-- A move that can be played is a step. -/
theorem step_of_play {x x' : Exchange} {now : Instant} {move : Move}
    (h : x.play now move = some x') : Step x x' := by
  cases move with
  | hear =>
    obtain ⟨t, ht, rfl⟩ := Option.map_eq_some_iff.1 h
    exact .hear ht now
  | elsewhere call =>
    simp only [play] at h
    split at h
    · cases h
    · rename_i hcall
      cases h
      exact .elsewhere hcall now
  | act frames =>
    simp only [play] at h
    split at h
    · rename_i hfree
      cases h
      exact .act hfree (List.prefix_append _ _)
    · cases h
  | ask names =>
    simp only [play] at h
    split at h
    · rename_i hfree
      cases h
      exact .ask hfree (some names) none now
    · cases h
  | read =>
    simp only [play] at h
    split at h
    · rename_i hasking
      obtain ⟨t, ht, rfl⟩ := Option.map_eq_some_iff.1 h
      exact .read hasking ht
    · cases h
  | resume =>
    simp only [play] at h
    split at h
    · rename_i htold
      cases h
      exact .resume htold
    · cases h

/-- A script that can be played is a run. -/
theorem run_of_playAll {now : Instant} {script : List Move} {x x' : Exchange}
    (h : script.foldlM (·.play now) x = some x') : Relation.ReflTransGen Step x x' := by
  induction script generalizing x with
  | nil =>
    cases h
    exact .refl
  | cons move rest ih =>
    rw [List.foldlM_cons] at h
    obtain ⟨next, hmove, hrest⟩ := Option.bind_eq_some_iff.1 h
    exact .head (step_of_play hmove) (ih hrest)

end Exchange

end ObjectBus
