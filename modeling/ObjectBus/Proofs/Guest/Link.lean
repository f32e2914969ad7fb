import ObjectBus.Proofs.Guest.Waiting

/-!
# A guest and its host

A host and a guest are joined by two queues that lose nothing and keep the order: what one of them
has sent the other takes frame by frame, at any time. Meanwhile other guests and the program around
the host do whatever they want.

The guest names itself, joins and leaves groups, and if it preloads finishes that. While one of its
calls waits it does nothing but read.

* `Guest.Stage`: how far the guest has got;
* `Link`: both of them with what is under way between them;
* `Link.Step`: one of them takes a frame, the guest begins something, or somebody else acts;
* `Link.opened`: the host has just accepted the channel.
-/

namespace ObjectBus

/-- The group that a frame asks to join. -/
def Transmission.joined? (t : Transmission) : Option String :=
  match t.payload with
  | .control (.member group .join) => some group
  | _ => none

/-- A request to join or to leave a group. -/
inductive Transmission.IsMembership : Transmission → Prop
  /-- To join. -/
  | join (group : String) (now : Instant) : IsMembership (.ofControl (.member group .join) now)
  /-- To leave. -/
  | leave (group : String) (now : Instant) : IsMembership (.ofControl (.member group .leave) now)

/-! ## The guest -/

/-- How far a guest has got. -/
inductive Guest.Stage where
  /-- To connect, it waits for the greeting. -/
  | greeting (g : Guest)
  /-- To connect, it waits to be accepted. -/
  | entering (g : Guest)
  /-- It could not connect. -/
  | turnedAway (g : Guest) (e : BrokerError)
  /-- It is connected or preloads. -/
  | present (g : Guest)
  /-- To finish preloading, it waits for the acknowledgement and keeps what comes before. -/
  | finishing (g : Guest) (kept : List Transmission)
  /-- It has finished preloading, or failed to. -/
  | finished (r : Guest.Result (List Transmission))

namespace Guest.Stage

/-- The guest. -/
def guest : Stage → Guest
  | greeting g => g
  | entering g => g
  | turnedAway g _ => g
  | present g => g
  | finishing g _ => g
  | finished r => r.1

/-- Whether a call of the guest waits for a frame. -/
def waits : Stage → Bool
  | greeting _ => true
  | entering _ => true
  | finishing .. => true
  | _ => false

/-- What becomes of a call that waits when it reads a frame. -/
def read (name : String) (preload : Bool) (stage : Stage) (t : Transmission) (now : Instant) :
    Stage :=
  match stage with
  | greeting g =>
    match ((Guest.greet name preload now).take g t).value with
    | .waiting g => greeting g
    | .ended (g, .ok ()) => entering g
    | .ended (g, .error e) => turnedAway g e
  | entering g =>
    match ((Guest.enter preload).take g t).value with
    | .waiting g => entering g
    | .ended (g, .ok ()) => present g
    | .ended (g, .error e) => turnedAway g e
  | finishing g kept =>
    match (Guest.preloading.take (g, kept) t).value with
    | .waiting (g, kept) => finishing g kept
    | .ended r => finished r
  | stage => stage

end Guest.Stage

/-! ## Both of them -/

/-- A request to join a group, as the host heard it. -/
structure Joining where
  /-- The group. -/
  group : String
  /-- The host at that moment. -/
  host : Broker
  /-- The time. -/
  time : Instant

/-- What the guest was sent in return. -/
def Joining.frames (j : Joining) : List Transmission := j.host.joinFrames j.group j.time

/-- The request to join that a host hears with a frame, if it is one. -/
def Joining.ofFrame (host : Broker) (t : Transmission) (now : Instant) : List Joining :=
  (t.joined?.map fun group => ⟨group, host, now⟩).toList

/-- What was sent in return to some requests, one after the other. -/
def replays (joins : List Joining) : List Transmission := joins.flatMap (·.frames)

/-- A host and a guest that are joined by two queues. -/
structure Link where
  /-- The host. -/
  host : Broker
  /-- The number of the guest at the host. -/
  peer : PeerId
  /-- How far the guest has got. -/
  stage : Guest.Stage
  /-- How many frames of the guest the host has taken. -/
  heard : Nat
  /-- How many frames of the host the guest has taken. -/
  read : Nat
  /-- The requests to join that the host has heard. -/
  joins : List Joining

namespace Link

/-- What the host has sent to the guest. -/
def frames (ℓ : Link) : List Transmission := ℓ.host.framesTo ℓ.peer

/-- What is under way to the host. -/
def unheard (ℓ : Link) : List Transmission := ℓ.stage.guest.sent.drop ℓ.heard

/-- What is under way to the guest. -/
def unread (ℓ : Link) : List Transmission := ℓ.frames.drop ℓ.read

/-- The host takes a frame of the guest. -/
def afterHearing (ℓ : Link) (t : Transmission) (now : Instant) : Link :=
  { ℓ with
    host := ℓ.host.perform (.receive ℓ.peer t) now
    heard := ℓ.heard + 1
    joins := ℓ.joins ++ Joining.ofFrame ℓ.host t now }

/-- The guest takes a frame of the host. -/
def afterReading (name : String) (preload : Bool) (ℓ : Link) (t : Transmission) (now : Instant) :
    Link :=
  { ℓ with
    stage := ℓ.stage.read name preload t now
    read := ℓ.read + 1 }

/-- A frame that is under way arrives. The guest reads only when a call of it waits. -/
inductive Delivers (name : String) (preload : Bool) (ℓ : Link) : Link → Prop
  /-- The host hears the guest. -/
  | hear {t : Transmission} {rest : List Transmission} (ht : ℓ.unheard = t :: rest)
      (now : Instant) : Delivers name preload ℓ (ℓ.afterHearing t now)
  /-- The guest reads what the host sent. -/
  | read {t : Transmission} {rest : List Transmission} (hwaits : ℓ.stage.waits = true)
      (ht : ℓ.unread = t :: rest) (now : Instant) :
      Delivers name preload ℓ (afterReading name preload ℓ t now)

/-- One step of the host, of the guest or of somebody else. -/
inductive Step (name : String) (preload : Bool) (ℓ : Link) : Link → Prop
  /-- A frame that is under way arrives. -/
  | deliver {ℓ' : Link} (h : Delivers name preload ℓ ℓ') : Step name preload ℓ ℓ'
  /-- Another guest or the host does something. -/
  | elsewhere {call : BrokerCall} (hcall : ℓ.host.PassesBy ℓ.peer call) (now : Instant) :
      Step name preload ℓ { ℓ with host := ℓ.host.perform call now }
  /-- The guest joins a group. -/
  | join {g : Guest} (hstage : ℓ.stage = .present g) (group : String) (now : Instant) :
      Step name preload ℓ { ℓ with stage := .present (g.join group now) }
  /-- The guest leaves a group. -/
  | leave {g : Guest} (hstage : ℓ.stage = .present g) (group : String) (now : Instant) :
      Step name preload ℓ { ℓ with stage := .present (g.leave group now) }
  /-- The guest, which preloads, begins to finish that. -/
  | finish {g : Guest} (hstage : ℓ.stage = .present g) (hearly : g.state = .earlySubscribe)
      (now : Instant) :
      Step name preload ℓ
        { ℓ with stage := .finishing (g.sendControl .preloadClientFinished now) [] }

/-- The host has accepted the channel of a guest, which begins to connect. -/
def opened (b : Broker) (channel : Channel) (now : Instant) : Link where
  host := b.perform (.accept channel) now
  peer := b.nextPeer
  stage := .greeting .fresh
  heard := 0
  read := 0
  joins := []

end Link

end ObjectBus
