import Mathlib.Data.Prod.Lex
import ObjectBus.Proofs.Guest.Conversation

/-!
# The outcome of the handshake

What a guest and its host can rely on. The guest connects, reading the greeting and the acceptance
and nothing else, and it is told the number that the host has given it. If it preloads it finishes
that with the replays of the groups that it has joined, in that order and complete, and with no live
frame among them; and then guest and host both take it for connected. No call of it waits for ever,
as long as what is under way goes on arriving.

* `Link.Connected`: what connecting has come to;
* `Link.Preloaded`: what finishing the preload has come to;
* `Link.Fair`, `Link.Agree.returns`: every call returns;
* `Link.handshake_succeeds`: all of it, for every run.
-/

namespace ObjectBus

open Relation (ReflTransGen)
open Broker (greeting acceptance stateAfterAcceptance)

/-- What a guest is sent in return to a request to join: all that the host has cached, if it is the
group of a cached type, and otherwise nothing. -/
structure Joining.Complete (j : Joining) : Prop where
  /-- The group of a cached type. -/
  cached : ∀ schema, j.host.registry.findStruct? j.group = some schema →
    schema.flags.cached = true → ∃ cache, j.host.container? j.group = some cache ∧
      cache.schema = schema ∧ cache.Replayed j.time j.frames
  /-- Any other group. -/
  uncached : (∀ schema, j.host.registry.findStruct? j.group = some schema →
    schema.flags.cached = false) → j.frames = []

/-- Every request to join that a host hears is answered completely. -/
theorem Joining.complete_of_reachable {j : Joining} (hhost : j.host.Reachable) : j.Complete where
  cached _ hschema hcached := hhost.replayed_joinFrames hschema hcached j.time
  uncached hother := Broker.joinFrames_of_uncached hother j.time

namespace Link

variable {k : Terms} {ℓ ℓ' : Link} {c : Connection}
variable {heard : List Transmission} {joins : List Joining} {place : Nat}
variable {stage : Guest.Stage}

/-! ## Connecting -/

/-- The guest has connected: out of all that the host has sent it, it took the greeting and the
acceptance and left the rest. The guest knows its number and is in the state it asked for. -/
structure Connected (k : Terms) (ℓ : Link) (g : Guest) (rest : List Transmission) : Prop where
  /-- What the host has sent. -/
  frames : ∃ greeted answered, ℓ.frames =
    greeting k.hostName greeted :: acceptance k.hostName k.peer k.preload answered :: rest
  /-- What the call has given. -/
  connect : ∃ named, (Guest.connect k.name k.preload (ℓ.frames.map .ok) named).value =
    ((g, .ok ()), rest.map .ok)
  /-- The number of the guest. -/
  peer : g.peer = k.peer
  /-- The state of the guest. -/
  state : g.state = stateAfterAcceptance k.preload

theorem Serving.answered_of_lt (h : Serving k c heard joins) (hread : 1 < c.channel.sent.length) :
    ∃ greeted answered rest, c.channel.sent =
      greeting k.hostName greeted :: acceptance k.hostName k.peer k.preload answered :: rest := by
  cases h with
  | greeted _ _ _ _ hsent =>
    rw [hsent, List.length_singleton] at hread
    omega
  | accepted _ _ _ greeted answered since hsent => exact ⟨greeted, answered, since, hsent⟩
  | live _ _ _ _ greeted answered _ _ hsent => exact ⟨greeted, answered, _, hsent⟩

/-- A guest that has read two frames has connected. -/
theorem Agree.connected (h : Agree k ℓ) (hread : 2 ≤ ℓ.read) (named : Instant) :
    ∃ rest, Connected k ℓ (asked k named []) rest := by
  obtain ⟨c, hc, -, hserving⟩ := h.serving
  have hlength := hread.trans h.read_le
  rw [frames_of_open hc] at hlength
  obtain ⟨greeted, answered, rest, hsent⟩ := hserving.answered_of_lt hlength
  refine ⟨rest, ⟨greeted, answered, (frames_of_open hc).trans hsent⟩, ⟨named, ?_⟩, rfl, rfl⟩
  rw [frames_of_open hc, hsent]
  exact Guest.value_connect k.name k.hostName k.peer k.preload named greeted answered _

/-! ## Finishing the preload -/

/-- The guest has finished preloading: behind the requests that it has sent since it connected, it
took all replays and the acknowledgement, and gives the replays. Both sides take it for
connected. -/
structure Preloaded (ℓ : Link) (g : Guest) (rest requests : List Transmission)
    (r : Guest.Result (List Transmission)) : Prop where
  /-- The guest has joined and left groups. -/
  membership : ∀ t ∈ requests, t.IsMembership
  /-- What the call has given. -/
  finish : ∃ (finished : Instant) (live : List Transmission),
    ((g.asking requests).finishPreload (rest.map .ok) finished).value = (r, live.map .ok)
  /-- These are the replays. -/
  result : r.2 = .ok (replays ℓ.joins)
  /-- They follow the requests to join. -/
  joins : ℓ.joins.map (·.group) = requests.filterMap (·.joined?)
  /-- Each is complete. -/
  complete : ∀ j ∈ ℓ.joins, j.Complete
  /-- The state of the guest. -/
  guest : r.1.state = .connected
  /-- The state of its connection. -/
  host : ℓ.host.connectionState? ℓ.peer = some .connected

/-- A host has heard all that a guest has sent that has finished preloading. -/
theorem Agree.heard_all (h : Agree k ℓ) {r} (hstage : ℓ.stage = .finished r) :
    ℓ.stage.guest.sent.take ℓ.heard = ℓ.stage.guest.sent := by
  have hnothing : ℓ.unheard = [] := by
    cases hunheard : ℓ.unheard with
    | nil => rfl
    | cons t rest => exact absurd hstage (h.unfinished hunheard r)
  have hsplit := ℓ.heard_append_unheard
  rwa [hnothing, List.append_nil] at hsplit

theorem Agree.preloaded (h : Agree k ℓ) {r} (hstage : ℓ.stage = .finished r) :
    ∃ g rest requests, Connected k ℓ g rest ∧ Preloaded ℓ g rest requests r := by
  obtain ⟨c, hc, -, hserving⟩ := h.serving
  have hread := h.read_le
  have hattending := h.attending
  rw [h.heard_all hstage] at hserving
  rw [hstage] at hattending hserving
  generalize hplace : ℓ.read = place at hattending
  cases hattending with
  | @finished hpreload named requests hrequests finished =>
    rw [hplace, frames_of_open hc] at hread
    obtain ⟨hstate, first, requests', finished', hheard, -, hjoins, greeted, answered,
      acknowledged, since, hsent⟩ := hserving.live_of_lt hpreload hread
    -- What the host has heard is what the guest has sent.
    obtain ⟨-, hrequests'⟩ := List.cons.inj hheard
    obtain ⟨rfl, -⟩ := List.append_inj' hrequests' rfl
    obtain ⟨rest, hconnected⟩ := h.connected (by omega) named
    obtain ⟨greeted', answered', hframes⟩ := hconnected.frames
    rw [frames_of_open hc, hsent] at hframes
    obtain ⟨-, hbehind⟩ := List.cons.inj hframes
    obtain ⟨-, rfl⟩ := List.cons.inj hbehind
    have hearly : ((asked k named []).asking requests).state = .earlySubscribe := by
      show stateAfterAcceptance k.preload = _
      rw [hpreload]
      rfl
    refine ⟨_, _, requests, hconnected, hrequests, ⟨finished, since, ?_⟩, rfl, hjoins,
      fun j hj => Joining.complete_of_reachable (h.hosts j hj), rfl, ?_⟩
    · have hkept : ∀ t ∈ replays ℓ.joins, t.PrecedesLive := fun t ht => precedesLive_replays ht
      have hfinish := Guest.value_finishPreload hearly hkept finished acknowledged (since.map .ok)
      rw [List.map_append, List.map_cons]
      exact hfinish
    · rw [Broker.connectionState?, Broker.connection?, hc]
      exact congrArg some hstate

/-! ## Every call returns -/

/-- When a call waits and the host has heard everything, the guest has not read everything: the
host has answered. -/
theorem Serving.lt_length (h : Serving k c stage.guest.sent joins)
    (hattending : Attending k joins place stage) (hwaits : stage.waits = true) :
    place < c.channel.sent.length := by
  cases hattending with
  | greeting =>
    cases h with
    | greeted _ _ _ _ hsent =>
      rw [hsent]
      exact Nat.zero_lt_one
  | entering named =>
    generalize hheard : (Guest.Stage.entering _).guest.sent = heard at h
    cases h with
    | greeted => cases hheard
    | accepted _ _ _ _ _ _ hsent | live _ _ _ _ _ _ _ _ hsent =>
      rw [hsent, List.length_cons, List.length_cons]
      omega
  | present => cases hwaits
  | finishing hpreload named hrequests finished hkept =>
    generalize hheard : (Guest.Stage.finishing _ _).guest.sent = heard at h
    cases h with
    | greeted => cases hheard
    | accepted _ hmembership =>
      -- What it has heard last is no request.
      obtain ⟨-, rfl⟩ := List.cons.inj hheard
      exact absurd (hmembership _ (List.mem_append_right _ List.mem_cons_self))
        (not_isMembership_finish finished)
    | live _ _ _ _ _ _ _ _ hsent =>
      have hle := hkept.length_le
      rw [hsent, List.length_cons, List.length_cons, List.length_append, List.length_cons]
      omega
  | finished => cases hwaits

/-- When a call waits, something is under way. -/
theorem Agree.under_way (h : Agree k ℓ) (hwaits : ℓ.stage.waits = true) :
    ∃ ℓ', Delivers k.name k.preload ℓ ℓ' := by
  cases hunheard : ℓ.unheard with
  | cons t rest => exact ⟨_, .hear hunheard default⟩
  | nil =>
    cases hunread : ℓ.unread with
    | cons t rest => exact ⟨_, .read hwaits hunread default⟩
    | nil =>
      obtain ⟨c, hc, -, hserving⟩ := h.serving
      have hall := ℓ.heard_append_unheard
      rw [hunheard, List.append_nil] at hall
      rw [hall] at hserving
      have hless := hserving.lt_length h.attending hwaits
      have hlength := List.drop_eq_nil_iff.1 hunread
      rw [frames_of_open hc] at hlength
      omega

/-- How much is left to be done, apart from what others do: first for connecting, then to be heard,
and last to be read. -/
def toGo (ℓ : Link) : ℕ ×ₗ ℕ ×ₗ ℕ :=
  toLex (2 - ℓ.read, toLex (ℓ.unheard.length, (replays ℓ.joins).length + 3 - ℓ.read))

/-- While a call waits the guest has not read more than the replays. -/
theorem Attending.le_of_waits (h : Attending k joins place stage) (hwaits : stage.waits = true) :
    place ≤ (replays joins).length + 2 := by
  cases h with
  | greeting | entering => omega
  | finishing _ _ _ _ hkept =>
    have hle := hkept.length_le
    omega
  | present | finished => cases hwaits

/-- Every frame that arrives while a call waits leaves less to be done. -/
theorem Agree.toGo_lt (h : Agree k ℓ) (hwaits : ℓ.stage.waits = true)
    (hdelivers : Delivers k.name k.preload ℓ ℓ') : ℓ'.toGo < ℓ.toGo := by
  cases hdelivers with
  | @hear t rest ht now =>
    have hrest : (ℓ.afterHearing t now).unheard = rest := by
      show ℓ.stage.guest.sent.drop (ℓ.heard + 1) = rest
      rw [← List.drop_drop, ← unheard, ht]
      rfl
    refine Prod.Lex.toLex_lt_toLex.2 (.inr ⟨rfl, Prod.Lex.toLex_lt_toLex.2 (.inl ?_)⟩)
    rw [hrest, ht]
    exact Nat.lt_succ_self _
  | @read t rest _ ht now =>
    obtain ⟨-, frames, hsent, hframes⟩ := h.attending.read (h.reads hwaits ht) now
    by_cases hconnected : 2 ≤ ℓ.read
    · -- The guest sends nothing, so that only what is left to be read becomes less.
      have hle := h.attending.le_of_waits hwaits
      have hunheard : (afterReading k.name k.preload ℓ t now).unheard = ℓ.unheard := by
        rw [unheard, unheard, afterReading, hsent, hframes (by omega), List.append_nil]
      have hfirst : 2 - (ℓ.read + 1) = 2 - ℓ.read := by omega
      refine Prod.Lex.toLex_lt_toLex.2 (.inr ⟨hfirst, Prod.Lex.toLex_lt_toLex.2 (.inr ⟨?_, ?_⟩)⟩)
      · rw [hunheard]
      · show (replays ℓ.joins).length + 3 - (ℓ.read + 1) < (replays ℓ.joins).length + 3 - ℓ.read
        omega
    · refine Prod.Lex.toLex_lt_toLex.2 (.inl ?_)
      show 2 - (ℓ.read + 1) < 2 - ℓ.read
      omega

/-- Meanwhile nobody makes more of it. -/
theorem Agree.toGo_le (h : Agree k ℓ) (hwaits : ℓ.stage.waits = true)
    (hstep : Step k.name k.preload ℓ ℓ') : ℓ'.toGo ≤ ℓ.toGo := by
  cases hstep with
  | deliver hdelivers => exact (h.toGo_lt hwaits hdelivers).le
  | elsewhere hcall now => exact le_refl _
  | join hstage | leave hstage | finish hstage =>
    rw [hstage] at hwaits
    cases hwaits

/-- Whenever something under way can arrive, something does later. -/
def Fair (name : String) (preload : Bool) (run : ℕ → Link) : Prop :=
  ∀ i, (∃ ℓ', Delivers name preload (run i) ℓ') →
    ∃ j, i ≤ j ∧ Delivers name preload (run j) (run (j + 1))

/-- In a fair run every call of the guest returns. -/
theorem Agree.returns {run : ℕ → Link} (hagree : ∀ i, Agree k (run i))
    (hsteps : ∀ i, Step k.name k.preload (run i) (run (i + 1)))
    (hfair : Fair k.name k.preload run) (i : ℕ) :
    ∃ j, i ≤ j ∧ (run j).stage.waits = false := by
  by_contra hnever
  have hwaits : ∀ j, i ≤ j → (run j).stage.waits = true := by
    intro j hj
    by_contra hdone
    exact hnever ⟨j, hj, by simpa using hdone⟩
  have hmore : ∀ i, (∀ j, i ≤ j → (run j).stage.waits = true) →
      ∀ j, i ≤ j → (run j).toGo ≤ (run i).toGo := by
    intro i hwaits j hj
    induction j, hj using Nat.le_induction with
    | base => exact le_refl _
    | succ j hj ih => exact ((hagree j).toGo_le (hwaits j hj) (hsteps j)).trans ih
  -- There is always less to be done after some time, which cannot go on for ever.
  induction htoGo : (run i).toGo using WellFoundedLT.induction generalizing i with
  | ind n ih =>
    obtain ⟨j, hj, hdelivers⟩ := hfair i ((hagree i).under_way (hwaits i (le_refl i)))
    have hless := (hagree j).toGo_lt (hwaits j hj) hdelivers
    exact ih _ (htoGo ▸ hless.trans_le (hmore i hwaits j hj)) (j + 1)
      (fun ⟨m, hm, hdone⟩ => hnever ⟨m, by omega, hdone⟩) (fun m hm => hwaits m (by omega)) rfl

/-! ## All of it -/

/-- A guest and its host agree on the handshake.

The host accepts a channel that loses nothing, and the guest at its other end begins to connect.
Other guests and the host do what they want, only that the number of the guest is given to nobody
else, its channel does not fail and the host does not shut down.

* The guest is never turned away.
* When it is present it has connected: it has read the greeting and the acceptance and nothing else,
  and knows the number that the host has given it.
* When it has finished preloading, having only joined and left groups before, it has kept the
  replays of the groups that it joined, in that order, each complete and with nothing in between. It
  is connected then, and so is its connection.
* As long as frames that are under way go on arriving, every call of the guest returns. -/
theorem handshake_succeeds {b : Broker} (hb : b.Reachable) {channel : Channel}
    (hlossless : channel.Lossless) (hfresh : channel.trace = []) (name : String) (preload : Bool)
    (now : Instant) :
    let k : Terms := ⟨name, preload, b.name, b.nextPeer⟩
    (∀ ℓ, ReflTransGen (Step name preload) (opened b channel now) ℓ →
      (∀ g e, ℓ.stage ≠ .turnedAway g e) ∧
      (∀ g, ℓ.stage = .present g → ∃ g₀ rest requests, Connected k ℓ g₀ rest ∧
        g = g₀.asking requests ∧ ∀ t ∈ requests, t.IsMembership) ∧
      ∀ r, ℓ.stage = .finished r → ∃ g₀ rest requests, Connected k ℓ g₀ rest ∧
        Preloaded ℓ g₀ rest requests r) ∧
    ∀ run : ℕ → Link, run 0 = opened b channel now →
      (∀ i, Step name preload (run i) (run (i + 1))) → Fair name preload run →
        ∀ i, ∃ j, i ≤ j ∧ (run j).stage.waits = false := by
  intro k
  have hopened : Agree k (opened b channel now) :=
    agree_opened hb hlossless hfresh name preload now
  refine ⟨fun ℓ hrun => ?_, fun run hstart hsteps hfair i => ?_⟩
  · have hagree := hopened.run hrun
    refine ⟨hagree.admitted, fun g hstage => ?_, fun r hstage => hagree.preloaded hstage⟩
    obtain ⟨hread, named, requests, hrequests, rfl⟩ := hagree.present hstage
    obtain ⟨rest, hconnected⟩ := hagree.connected hread.ge named
    exact ⟨_, rest, requests, hconnected, rfl, hrequests⟩
  · refine Agree.returns (k := k) (fun j => ?_) hsteps hfair i
    induction j with
    | zero => exact hstart ▸ hopened
    | succ j ih => exact ih.step (hsteps j)

/-- A late reader of the board preloads: it joins the notes, another note is published, and it
finishes. It is given the note that was there and the mark of the end, and not the other note. -/
theorem late_reader_preloads : ∃ ℓ r g₀ rest requests,
    ReflTransGen (Step "late" true) (opened Broker.board (.inProcess "late") default) ℓ ∧
    ℓ.stage = .finished r ∧ ℓ.joins.map (·.group) = [Broker.noteSchema.name] ∧
    (replays ℓ.joins).length = 2 ∧
    Connected ⟨"late", true, Broker.board.name, Broker.board.nextPeer⟩ ℓ g₀ rest ∧
    Preloaded ℓ g₀ rest requests r := by
  obtain ⟨ℓ, hrun, r, hstage, hjoins, hlength⟩ : ∃ ℓ,
      ReflTransGen (Step "late" true) (opened Broker.board (.inProcess "late") default) ℓ ∧
      ∃ r, ℓ.stage = .finished r ∧ ℓ.joins.map (·.group) = [Broker.noteSchema.name] ∧
        (replays ℓ.joins).length = 2 := by
    refine ⟨_, .tail (.tail (.tail (.tail (.tail (.tail (.tail (.tail (.tail (.tail (.tail .refl
      -- It connects.
      (.deliver (.read rfl rfl default))) (.deliver (.hear rfl default)))
      (.deliver (.read rfl rfl default)))
      -- It joins, and another note is published.
      (.join rfl Broker.noteSchema.name default)) (.deliver (.hear rfl default)))
      (.elsewhere (show Broker.PassesBy _ _ Broker.news from ⟨nofun, nofun⟩) default))
      -- It finishes.
      (.finish rfl rfl default)) (.deliver (.hear rfl default)))
      (.deliver (.read rfl rfl default))) (.deliver (.read rfl rfl default)))
      (.deliver (.read rfl rfl default)), _, rfl, rfl, rfl⟩
  obtain ⟨-, -, hfinished⟩ :=
    (handshake_succeeds Broker.reachable_board (Channel.lossless_inProcess "late") rfl "late" true
      default).1 ℓ hrun
  obtain ⟨g₀, rest, requests, hconnected, hpreloaded⟩ := hfinished r hstage
  exact ⟨ℓ, r, g₀, rest, requests, hrun, hstage, hjoins, hlength, hconnected, hpreloaded⟩

end Link

end ObjectBus
