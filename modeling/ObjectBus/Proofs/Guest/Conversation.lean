import ObjectBus.Proofs.Guest.Link

/-!
# Guest and host agree

Whatever happens elsewhere, a guest and its host go through the handshake together. Which frames
can be under way at which stage follows from how far either side has got, so that the invariant has
one part for each side.

* `Link.Said`: what a guest may have sent, and `Link.Said.next` what the host may hear next;
* `Link.Serving`: how far the host has got, by what it has heard, and `Link.Serving.hear` what it
  does with the next frame;
* `Link.Attending`: how far the guest has got, by how many frames it has read;
* `Link.Agree`: the invariant, and `Link.Agree.step` that every step keeps it.
-/

namespace ObjectBus

open Relation (ReflTransGen)
open Broker (greeting acceptance acknowledgement stateAfterAcceptance)

variable {now : Instant}
variable {t : Transmission} {heard rest requests : List Transmission} {joins : List Joining}
variable {c : Connection} {place : Nat} {stage : Guest.Stage} {ℓ ℓ' : Link}

/-- A guest that has sent some requests. -/
def Guest.asking (g : Guest) (requests : List Transmission) : Guest :=
  { g with sent := g.sent ++ requests }

/-- The statement that a guest has finished preloading is no request. -/
theorem not_isMembership_finish (now : Instant) :
    ¬(Transmission.ofControl .preloadClientFinished now).IsMembership := by
  generalize ht : Transmission.ofControl .preloadClientFinished now = t
  rintro (⟨group, now'⟩ | ⟨group, now'⟩) <;> exact nomatch (congrArg Transmission.payload ht)

theorem replays_append (joins joins' : List Joining) :
    replays (joins ++ joins') = replays joins ++ replays joins' :=
  List.flatMap_append

/-- The groups of the requests to join that a host hears are those that the frames ask to join. -/
theorem map_group_ofFrame (host : Broker) (t : Transmission) (now : Instant) :
    (Joining.ofFrame host t now).map (·.group) = [t].filterMap (·.joined?) := by
  unfold Joining.ofFrame
  cases ht : t.joined? <;> simp [ht]

/-- Whatever is replayed precedes live traffic. -/
theorem precedesLive_replays (ht : t ∈ replays joins) : t.PrecedesLive := by
  obtain ⟨j, -, hj⟩ := List.mem_flatMap.1 ht
  exact Broker.precedesLive_joinFrames hj

namespace Link

/-- What a guest and its host have to agree on. -/
structure Terms where
  /-- The name of the guest. -/
  name : String
  /-- Whether it preloads. -/
  preload : Bool
  /-- The name under which the host greets. -/
  hostName : String
  /-- The number that the host gives the guest. -/
  peer : PeerId

variable {k : Terms}

/-! ## What the guest may have sent -/

/-- What a guest may have sent: its name, then requests, and last of all that it has finished
preloading. -/
inductive Said (k : Terms) : List Transmission → Prop
  /-- Nothing yet. -/
  | nothing : Said k []
  /-- Its name and requests. -/
  | requests (now : Instant) {requests : List Transmission}
      (hrequests : ∀ r ∈ requests, r.IsMembership) :
      Said k (.ofControl (.connectAs k.name k.preload) now :: requests)
  /-- Also that it has finished. -/
  | finished (hpreload : k.preload = true) (now : Instant) {requests : List Transmission}
      (hrequests : ∀ r ∈ requests, r.IsMembership) (now' : Instant) :
      Said k (.ofControl (.connectAs k.name k.preload) now ::
        (requests ++ [.ofControl .preloadClientFinished now']))

/-- The first frame of a guest is its name. -/
theorem Said.first (h : Said k (t :: rest)) :
    ∃ now, t = .ofControl (.connectAs k.name k.preload) now := by
  cases h with
  | requests now | finished _ now => exact ⟨now, rfl⟩

/-- Behind its name come requests, and last of all that it has finished. -/
theorem Said.next {first : Transmission} (h : Said k (first :: requests ++ t :: rest)) :
    (∀ r ∈ requests, r.IsMembership) ∧
      (t.IsMembership ∨
        k.preload = true ∧ rest = [] ∧ ∃ now, t = .ofControl .preloadClientFinished now) := by
  generalize hsent : first :: requests ++ t :: rest = sent at h
  cases h with
  | nothing => cases hsent
  | requests now hrequests =>
    obtain ⟨-, rfl⟩ := List.cons.inj hsent
    exact ⟨fun r hr => hrequests r (List.mem_append_left _ hr),
      .inl (hrequests t (List.mem_append_right _ List.mem_cons_self))⟩
  | finished hpreload now hrequests now' =>
    have hrest : requests ++ t :: rest = _ := (List.cons.inj hsent).2
    rcases List.eq_nil_or_concat rest with rfl | ⟨rest, last, rfl⟩
    · -- It is the last one.
      obtain ⟨rfl, hlast⟩ := List.append_inj' hrest rfl
      exact ⟨hrequests, .inr ⟨hpreload, rfl, now', (List.cons.inj hlast).1⟩⟩
    · rw [List.concat_eq_append, ← List.cons_append, ← List.append_assoc] at hrest
      obtain ⟨rfl, -⟩ := List.append_inj' hrest rfl
      exact ⟨fun r hr => hrequests r (List.mem_append_left _ hr),
        .inl (hrequests t (List.mem_append_right _ List.mem_cons_self))⟩

/-! ## How far the host has got -/

/-- How far the host has got with a guest, given what it has heard from it. -/
inductive Serving (k : Terms) (c : Connection) : List Transmission → List Joining → Prop
  /-- It has greeted the guest. -/
  | greeted (hstate : c.state = .connecting) (hhost : c.hostName = k.hostName)
      (hpeer : c.peer = k.peer) (greeted : Instant)
      (hsent : c.channel.sent = [greeting k.hostName greeted]) :
      Serving k c [] []
  /-- It has accepted the guest and answered its requests. A guest that preloads was sent nothing
  else. -/
  | accepted (hstate : c.state = stateAfterAcceptance k.preload) {first : Transmission}
      {requests : List Transmission} (hrequests : ∀ r ∈ requests, r.IsMembership)
      {joins : List Joining} (hjoins : joins.map (·.group) = requests.filterMap (·.joined?))
      (greeted answered : Instant) (since : List Transmission)
      (hsent : c.channel.sent =
        greeting k.hostName greeted :: acceptance k.hostName k.peer k.preload answered :: since)
      (hsince : k.preload = true → since = replays joins) :
      Serving k c (first :: requests) joins
  /-- It has acknowledged that the guest has finished preloading. -/
  | live (hstate : c.state = .connected) {first : Transmission} {requests : List Transmission}
      (hrequests : ∀ r ∈ requests, r.IsMembership) (finished : Instant) {joins : List Joining}
      (hjoins : joins.map (·.group) = requests.filterMap (·.joined?))
      (greeted answered acknowledged : Instant) (since : List Transmission)
      (hsent : c.channel.sent =
        greeting k.hostName greeted :: acceptance k.hostName k.peer k.preload answered ::
          (replays joins ++ acknowledgement acknowledged :: since)) :
      Serving k c (first :: (requests ++ [.ofControl .preloadClientFinished finished])) joins

/-- The host has heard a frame of the guest: it has sent something more to it, or nothing, and has
got so far with it. -/
def Answered (k : Terms) (c : Connection) (b : Broker) (heard : List Transmission)
    (joins : List Joining) : Prop :=
  ∃ c' frames, b.connections.find? k.peer = some c' ∧ c'.Steady ∧
    c'.channel.sent = c.channel.sent ++ frames ∧ Serving k c' heard joins

namespace Serving

/-- Being handed more, once it is connected, does not change how far the host has got. -/
theorem standsBy {c' : Connection} {frames : List Transmission}
    (h : Serving k c heard joins) (hstate' : c'.state = c.state)
    (hhost' : c'.hostName = c.hostName) (hpeer' : c'.peer = c.peer)
    (hsent' : c'.channel.sent = c.channel.sent ++ frames)
    (hframes : c.state ≠ .connected → frames = []) :
    Serving k c' heard joins := by
  cases h with
  | greeted hstate hhost hpeer greeted hsent =>
    refine .greeted (hstate'.trans hstate) (hhost'.trans hhost) (hpeer'.trans hpeer) greeted ?_
    rw [hsent', hsent, hframes (by simp [hstate]), List.append_nil]
  | accepted hstate hrequests hjoins greeted answered since hsent hsince =>
    refine .accepted (hstate'.trans hstate) hrequests hjoins greeted answered (since ++ frames) ?_
      fun hpreload => ?_
    · rw [hsent', hsent]
      rfl
    · -- While the guest preloads it is not connected.
      rw [hsince hpreload, hframes, List.append_nil]
      simp [hstate, hpreload, stateAfterAcceptance]
  | live hstate hrequests finished hjoins greeted answered acknowledged since hsent =>
    refine .live (hstate'.trans hstate) hrequests finished hjoins greeted answered acknowledged
      (since ++ frames) ?_
    rw [hsent', hsent]
    simp

/-- A guest that has been accepted is answered with replays to its requests. -/
theorem answer_membership {b : Broker} (hb : b.Reachable) (hc : b.connections.find? k.peer = some c)
    (hsteady : c.Steady) (hnamed : c.state = .earlySubscribe ∨ c.state = .connected)
    (ht : t.IsMembership) (now : Instant) :
    ∃ c', (b.perform (.receive k.peer t) now).connections.find? k.peer = some c' ∧ c'.Steady ∧
      c'.state = c.state ∧
      c'.channel.sent = c.channel.sent ++ replays (Joining.ofFrame b t now) := by
  cases ht with
  | join group asked =>
    have hc' := hb.receive_join (t := .ofControl (.member group .join) asked) hc hsteady hnamed
      rfl rfl now
    refine ⟨_, hc', hsteady.handed _, rfl, (Channel.sent_handed _ _).trans ?_⟩
    exact congrArg _ (List.append_nil _).symm
  | leave group asked =>
    have hc' := hb.receive_leave (t := .ofControl (.member group .leave) asked) hc hnamed rfl rfl
      now
    exact ⟨c, hc', hsteady, rfl, (List.append_nil _).symm⟩

/-- The host hears the name of the guest, which it has greeted. -/
theorem hear_name {b : Broker} (hb : b.Reachable) (hc : b.connections.find? k.peer = some c)
    (hsteady : c.Steady) (h : Serving k c [] joins) (named now : Instant) :
    Answered k c (b.perform (.receive k.peer (.ofControl (.connectAs k.name k.preload) named)) now)
      [.ofControl (.connectAs k.name k.preload) named] joins := by
  cases h with
  | greeted hstate hhost hpeer greeted hsent =>
    obtain ⟨c', frames, hc', hsteady', hstate', hchannel, hframes⟩ :=
      hb.receive_name (t := .ofControl (.connectAs k.name k.preload) named) hc hsteady hstate
        rfl rfl now
    have hsent' : c'.channel.sent =
        c.channel.sent ++ acceptance k.hostName k.peer k.preload now :: frames := by
      rw [hchannel, Channel.sent_handed, hhost, hpeer]
    refine ⟨c', _, hc', hsteady', hsent', .accepted hstate' (by simp) rfl greeted now frames ?_
      hframes⟩
    rw [hsent', hsent]
    rfl

/-- The host hears a request of the guest, which it has accepted. -/
theorem hear_request {b : Broker} (hb : b.Reachable) (hc : b.connections.find? k.peer = some c)
    (hsteady : c.Steady) {first : Transmission} (h : Serving k c (first :: requests) joins)
    (hrequests : ∀ r ∈ requests, r.IsMembership) (ht : t.IsMembership) (now : Instant) :
    Answered k c (b.perform (.receive k.peer t) now) (first :: (requests ++ [t]))
      (joins ++ Joining.ofFrame b t now) := by
  generalize hheard : first :: requests = heard at h
  cases h with
  | greeted => cases hheard
  | accepted hstate _ hjoins greeted answered since hsent hsince =>
    obtain ⟨rfl, rfl⟩ := List.cons.inj hheard
    have hnamed : c.state = .earlySubscribe ∨ c.state = .connected := by
      rw [hstate]
      cases k.preload
      · exact .inr rfl
      · exact .inl rfl
    obtain ⟨c', hc', hsteady', hstate', hsent'⟩ := answer_membership hb hc hsteady hnamed ht now
    refine ⟨c', _, hc', hsteady', hsent', .accepted (hstate'.trans hstate) (fun r hr => ?_) ?_
      greeted answered (since ++ replays (Joining.ofFrame b t now)) ?_ fun hpreload => ?_⟩
    · rcases List.mem_append.1 hr with hbefore | hnew
      · exact hrequests r hbefore
      · exact List.mem_singleton.1 hnew ▸ ht
    · rw [List.map_append, hjoins, map_group_ofFrame]
      exact List.filterMap_append.symm
    · rw [hsent', hsent]
      rfl
    · rw [hsince hpreload, replays_append]
  | live _ _ finished =>
    -- It has heard more than requests.
    obtain ⟨-, rfl⟩ := List.cons.inj hheard
    exact absurd (hrequests _ (List.mem_append_right _ List.mem_cons_self))
      (not_isMembership_finish finished)

/-- The host hears that the guest, which preloads, has finished that. -/
theorem hear_finish {b : Broker} (hb : b.Reachable) (hc : b.connections.find? k.peer = some c)
    (hsteady : c.Steady) {first : Transmission} (h : Serving k c (first :: requests) joins)
    (hrequests : ∀ r ∈ requests, r.IsMembership) (hpreload : k.preload = true)
    (finished now : Instant) :
    Answered k c (b.perform (.receive k.peer (.ofControl .preloadClientFinished finished)) now)
      (first :: (requests ++ [.ofControl .preloadClientFinished finished])) joins := by
  generalize hheard : first :: requests = heard at h
  cases h with
  | greeted => cases hheard
  | accepted hstate _ hjoins greeted answered since hsent hsince =>
    obtain ⟨rfl, rfl⟩ := List.cons.inj hheard
    have hearly : c.state = .earlySubscribe := by
      rw [hstate, hpreload]
      rfl
    obtain ⟨c', frames, hc', hsteady', hstate', hchannel⟩ :=
      hb.receive_finish (t := .ofControl .preloadClientFinished finished) hc hsteady hearly
        rfl rfl now
    have hsent' : c'.channel.sent = c.channel.sent ++ acknowledgement now :: frames := by
      rw [hchannel, Channel.sent_handed]
    refine ⟨c', _, hc', hsteady', hsent', ?_⟩
    refine .live hstate' hrequests finished hjoins greeted answered now frames ?_
    rw [hsent', hsent, hsince hpreload]
    simp
  | live _ _ earlier =>
    obtain ⟨-, rfl⟩ := List.cons.inj hheard
    exact absurd (hrequests _ (List.mem_append_right _ List.mem_cons_self))
      (not_isMembership_finish earlier)

/-- The host hears the next frame of the guest. -/
theorem hear {b : Broker} (hb : b.Reachable) (hc : b.connections.find? k.peer = some c)
    (hsteady : c.Steady) (h : Serving k c heard joins)
    (hsaid : Said k (heard ++ t :: rest)) (now : Instant) :
    Answered k c (b.perform (.receive k.peer t) now) (heard ++ [t])
      (joins ++ Joining.ofFrame b t now) := by
  cases heard with
  | nil =>
    obtain ⟨named, rfl⟩ := hsaid.first
    have hnothing : joins ++ Joining.ofFrame b (.ofControl (.connectAs k.name k.preload) named)
        now = joins := List.append_nil joins
    rw [hnothing]
    exact hear_name hb hc hsteady h named now
  | cons first requests =>
    obtain ⟨hrequests, ht | ⟨hpreload, -, finished, rfl⟩⟩ := hsaid.next
    · exact hear_request hb hc hsteady h hrequests ht now
    · have hnothing : joins ++ Joining.ofFrame b (.ofControl .preloadClientFinished finished) now =
          joins := List.append_nil joins
      rw [hnothing]
      exact hear_finish hb hc hsteady h hrequests hpreload finished now

end Serving

/-! ## How far the guest has got -/

/-- A guest that was accepted and has sent some requests. -/
def asked (k : Terms) (named : Instant) (requests : List Transmission) : Guest :=
  ((Guest.named k.name k.hostName k.preload named).accepted k.peer k.preload).asking requests

/-- How far a guest has got, given how many frames it has read and which of its requests to join
the host has heard. -/
inductive Attending (k : Terms) (joins : List Joining) : Nat → Guest.Stage → Prop
  /-- It has read nothing. -/
  | greeting : Attending k joins 0 (.greeting .fresh)
  /-- It has read the greeting and named itself. -/
  | entering (named : Instant) :
      Attending k joins 1 (.entering (Guest.named k.name k.hostName k.preload named))
  /-- It has read the acceptance and may have sent requests. -/
  | present (named : Instant) {requests : List Transmission}
      (hrequests : ∀ r ∈ requests, r.IsMembership) :
      Attending k joins 2 (.present (asked k named requests))
  /-- It has said that it has finished preloading, and has read replays. -/
  | finishing (hpreload : k.preload = true) (named : Instant) {requests : List Transmission}
      (hrequests : ∀ r ∈ requests, r.IsMembership) (finished : Instant)
      {kept : List Transmission} (hkept : kept <+: replays joins) :
      Attending k joins (kept.length + 2)
        (.finishing ((asked k named requests).sendControl .preloadClientFinished finished) kept)
  /-- It has read all replays and the acknowledgement. -/
  | finished (hpreload : k.preload = true) (named : Instant) {requests : List Transmission}
      (hrequests : ∀ r ∈ requests, r.IsMembership) (finished : Instant) :
      Attending k joins ((replays joins).length + 3)
        (.finished ({ (asked k named requests).sendControl
          .preloadClientFinished finished with state := .connected }, .ok (replays joins)))

/-- What a guest may read at a stage. -/
inductive Reads (k : Terms) (joins : List Joining) : Guest.Stage → Transmission → Prop
  /-- The greeting. -/
  | greeting (g : Guest) (now : Instant) :
      Reads k joins (.greeting g) (greeting k.hostName now)
  /-- The acceptance. -/
  | acceptance (g : Guest) (now : Instant) :
      Reads k joins (.entering g) (acceptance k.hostName k.peer k.preload now)
  /-- The next frame of the replays. -/
  | replay (g : Guest) {kept : List Transmission} {t : Transmission}
      (hkept : kept ++ [t] <+: replays joins) :
      Reads k joins (.finishing g kept) t
  /-- The acknowledgement, behind all replays. -/
  | acknowledgement (g : Guest) (now : Instant) :
      Reads k joins (.finishing g (replays joins)) (acknowledgement now)

namespace Attending

theorem said (h : Attending k joins place stage) :
    Said k stage.guest.sent := by
  cases h with
  | greeting => exact .nothing
  | entering named => exact .requests named (by simp)
  | present named hrequests => exact .requests named hrequests
  | finishing hpreload named hrequests finished => exact .finished hpreload named hrequests finished
  | finished hpreload named hrequests finished => exact .finished hpreload named hrequests finished

/-- The host hears further requests while the guest has not finished. -/
theorem append (h : Attending k joins place stage)
    (hunfinished : ∀ r, stage ≠ .finished r) (joins' : List Joining) :
    Attending k (joins ++ joins') place stage := by
  cases h with
  | greeting => exact .greeting
  | entering named => exact .entering named
  | present named hrequests => exact .present named hrequests
  | finishing hpreload named hrequests finished hkept =>
    refine .finishing hpreload named hrequests finished (hkept.trans ?_)
    rw [replays_append]
    exact List.prefix_append _ _
  | finished => exact absurd rfl (hunfinished _)

/-- What the guest does with what it reads; it sends something only in return to the greeting. -/
theorem read (h : Attending k joins place stage)
    (hreads : Reads k joins stage t) (now : Instant) :
    Attending k joins (place + 1) (stage.read k.name k.preload t now) ∧
      ∃ frames, (stage.read k.name k.preload t now).guest.sent = stage.guest.sent ++ frames ∧
        (0 < place → frames = []) := by
  cases hreads with
  | greeting g greeted =>
    cases h
    -- It names itself.
    exact ⟨.entering now, _, rfl, fun hplace => absurd hplace (Nat.lt_irrefl 0)⟩
  | acceptance g answered =>
    cases h with
    | entering named =>
      have hpresent : Attending k joins 2 (.present (asked k named [])) := .present named (by simp)
      exact ⟨hpresent, [], (List.append_nil _).symm, fun _ => rfl⟩
  | @replay g kept t hkept =>
    cases h with
    | @finishing hpreload named requests hrequests finished =>
      let g := (asked k named requests).sendControl .preloadClientFinished finished
      have hread : Guest.Stage.read k.name k.preload (.finishing g kept) t now =
          .finishing g (kept ++ [t]) := by
        have ht : t.PrecedesLive :=
          precedesLive_replays (hkept.subset (List.mem_append_right _ List.mem_cons_self))
        simp only [Guest.Stage.read, Guest.value_take_preceding ht]
      show Attending k joins _ (Guest.Stage.read k.name k.preload (.finishing g kept) t now) ∧ _
      rw [hread]
      refine ⟨?_, [], (List.append_nil _).symm, fun _ => rfl⟩
      have hnext := Attending.finishing hpreload named hrequests finished hkept
      rwa [List.length_append] at hnext
  | acknowledgement g acknowledged =>
    cases h with
    | finishing hpreload named hrequests finished =>
      exact ⟨.finished hpreload named hrequests finished, [], (List.append_nil _).symm,
        fun _ => rfl⟩

end Attending

/-- What the guest reads next. -/
theorem Serving.reads (h : Serving k c heard joins)
    (hattending : Attending k joins place stage)
    (hwaits : stage.waits = true) (ht : c.channel.sent.drop place = t :: rest) :
    Reads k joins stage t := by
  cases hattending with
  | greeting =>
    -- The greeting is the first frame at any stage.
    cases h with
    | greeted _ _ _ greeted hsent | accepted _ _ _ greeted _ _ hsent
    | live _ _ _ _ greeted _ _ _ hsent =>
      rw [hsent, List.drop_zero] at ht
      exact (List.cons.inj ht).1 ▸ .greeting _ greeted
  | entering named =>
    cases h with
    | greeted _ _ _ greeted hsent =>
      rw [hsent] at ht
      cases ht
    | accepted _ _ _ _ answered _ hsent | live _ _ _ _ _ answered _ _ hsent =>
      rw [hsent] at ht
      exact (List.cons.inj ht).1 ▸ .acceptance _ answered
  | present => cases hwaits
  | finishing hpreload named hrequests finished hkept =>
    obtain ⟨left, hleft⟩ := hkept
    cases h with
    | greeted _ _ _ greeted hsent =>
      rw [hsent] at ht
      cases ht
    | accepted _ _ _ _ _ since hsent hsince =>
      rw [hsent, hsince hpreload, ← hleft, List.drop_succ_cons, List.drop_succ_cons,
        List.drop_left] at ht
      refine .replay _ ⟨rest, ?_⟩
      rw [← hleft, ht, List.append_assoc, List.singleton_append]
    | live _ _ _ _ _ _ acknowledged since hsent =>
      rw [hsent, ← hleft, List.drop_succ_cons, List.drop_succ_cons, List.append_assoc,
        List.drop_left] at ht
      -- Either replays are left to read, or the acknowledgement is next.
      cases left with
      | nil =>
        rw [List.append_nil] at hleft
        subst hleft
        exact (List.cons.inj ht).1 ▸ .acknowledgement _ acknowledged
      | cons next left =>
        obtain ⟨rfl, -⟩ := List.cons.inj ht
        exact .replay _ ⟨left, by rw [← hleft, List.append_assoc, List.singleton_append]⟩
  | finished => cases hwaits

/-! ## Both sides -/

/-- What the host has heard and what is under way to it is what the guest has sent. -/
theorem heard_append_unheard (ℓ : Link) :
    ℓ.stage.guest.sent.take ℓ.heard ++ ℓ.unheard = ℓ.stage.guest.sent :=
  List.take_append_drop _ _

theorem frames_of_open (hc : ℓ.host.connections.find? ℓ.peer = some c) :
    ℓ.frames = c.channel.sent := by
  rw [frames, Broker.framesTo, Broker.channel?_of_open hc]
  rfl

/-- What holds of a guest and its host at any time. -/
structure Agree (k : Terms) (ℓ : Link) : Prop where
  /-- The number of the guest. -/
  peer : ℓ.peer = k.peer
  /-- The host goes through a run. -/
  reachable : ℓ.host.Reachable
  /-- How far the host has got. -/
  serving : ∃ c, ℓ.host.connections.find? ℓ.peer = some c ∧ c.Steady ∧
    Serving k c (ℓ.stage.guest.sent.take ℓ.heard) ℓ.joins
  /-- So it was when it heard the requests to join. -/
  hosts : ∀ j ∈ ℓ.joins, j.host.Reachable
  /-- How far the guest has got. -/
  attending : Attending k ℓ.joins ℓ.read ℓ.stage
  /-- The host has heard nothing but what was sent. -/
  heard_le : ℓ.heard ≤ ℓ.stage.guest.sent.length
  /-- The guest has read nothing but what was sent. -/
  read_le : ℓ.read ≤ ℓ.frames.length

/-- When a guest that preloads has read more than the replays, the host has acknowledged that it has
finished. -/
theorem Serving.live_of_lt (h : Serving k c heard joins) (hpreload : k.preload = true)
    (hread : (replays joins).length + 2 < c.channel.sent.length) :
    c.state = .connected ∧ ∃ first requests finished,
      heard = first :: (requests ++ [.ofControl .preloadClientFinished finished]) ∧
      (∀ r ∈ requests, r.IsMembership) ∧
      joins.map (·.group) = requests.filterMap (·.joined?) ∧
      ∃ greeted answered acknowledged since, c.channel.sent =
        greeting k.hostName greeted :: acceptance k.hostName k.peer k.preload answered ::
          (replays joins ++ acknowledgement acknowledged :: since) := by
  cases h with
  | greeted _ _ _ _ hsent =>
    rw [hsent, List.length_singleton] at hread
    omega
  | accepted _ _ _ _ _ since hsent hsince =>
    rw [hsent, hsince hpreload, List.length_cons, List.length_cons] at hread
    omega
  | @live hstate first requests hrequests finished _ hjoins greeted answered acknowledged since
      hsent =>
    exact ⟨hstate, first, requests, finished, rfl, hrequests, hjoins, greeted, answered,
      acknowledged, since, hsent⟩

namespace Agree

/-- What the guest has read is still among what it has been sent when that has become more. -/
theorem read_le_of_sent (h : Agree k ℓ) (hc : ℓ.host.connections.find? ℓ.peer = some c)
    {c' : Connection} {frames : List Transmission}
    (hsent : c'.channel.sent = c.channel.sent ++ frames) : ℓ.read ≤ c'.channel.sent.length := by
  have hread := h.read_le
  rw [frames_of_open hc] at hread
  rw [hsent, List.length_append]
  omega

/-- Other guests and the host do something. -/
theorem elsewhere (h : Agree k ℓ) {call : BrokerCall} (hcall : ℓ.host.PassesBy ℓ.peer call)
    (now : Instant) : Agree k { ℓ with host := ℓ.host.perform call now } := by
  obtain ⟨c, hc, hsteady, hserving⟩ := h.serving
  obtain ⟨frames, hc', hframes⟩ := h.reachable.standsBy_perform hc hsteady hcall now
  let next : Link := { ℓ with host := ℓ.host.perform call now }
  have hsent : (c.channel.handed frames).sent = c.channel.sent ++ frames :=
    Channel.sent_handed _ _
  refine ⟨h.peer, h.reachable.perform call now, ⟨_, hc', hsteady.handed frames,
    hserving.standsBy rfl rfl rfl hsent hframes⟩, h.hosts, h.attending, h.heard_le, ?_⟩
  rw [frames_of_open (ℓ := next) hc']
  exact h.read_le_of_sent hc hsent

/-- The host hears nothing more from a guest that has finished preloading. -/
theorem unfinished (h : Agree k ℓ) (ht : ℓ.unheard = t :: rest) (r) : ℓ.stage ≠ .finished r := by
  intro hstage
  obtain ⟨c, hc, -, hserving⟩ := h.serving
  have hattending := h.attending
  have hsaid := hattending.said
  have hread := h.read_le
  rw [← ℓ.heard_append_unheard, ht] at hsaid
  rw [hstage] at hattending
  generalize hplace : ℓ.read = place at hattending
  cases hattending with
  | finished hpreload =>
    rw [hplace, frames_of_open hc] at hread
    obtain ⟨-, first, requests, finished, hheard, -⟩ := hserving.live_of_lt hpreload hread
    rw [hheard] at hsaid
    obtain ⟨hall, -⟩ := hsaid.next
    exact not_isMembership_finish finished (hall _ (List.mem_append_right _ List.mem_cons_self))

/-- The host hears the guest. -/
theorem hear (h : Agree k ℓ) (ht : ℓ.unheard = t :: rest) (now : Instant) :
    Agree k (ℓ.afterHearing t now) := by
  obtain ⟨c, hc, hsteady, hserving⟩ := h.serving
  have hsaid := h.attending.said
  rw [← ℓ.heard_append_unheard, ht] at hsaid
  rw [h.peer] at hc
  obtain ⟨c', frames, hc', hsteady', hsent', hserving'⟩ :=
    hserving.hear h.reachable hc hsteady hsaid now
  rw [← h.peer] at hc hc'
  have hnext : ℓ.stage.guest.sent[ℓ.heard]? = some t := by
    rw [← List.head?_drop, ← unheard, ht]
    rfl
  have htake : ℓ.stage.guest.sent.take (ℓ.heard + 1) = ℓ.stage.guest.sent.take ℓ.heard ++ [t] := by
    rw [List.take_add_one, hnext]
    rfl
  refine ⟨h.peer, h.reachable.perform (.receive ℓ.peer t) now,
    ⟨c', hc', hsteady', htake ▸ hserving'⟩, fun j hj => ?_,
    h.attending.append (h.unfinished ht) _, ?_, ?_⟩
  · rcases List.mem_append.1 hj with hbefore | hnew
    · exact h.hosts j hbefore
    · obtain ⟨group, -, rfl⟩ := Option.map_eq_some_iff.1 (Option.mem_toList.1 hnew)
      exact h.reachable
  · exact (List.getElem?_eq_some_iff.1 hnext).1
  · rw [frames_of_open (ℓ := ℓ.afterHearing t now) hc']
    exact h.read_le_of_sent hc hsent'

/-- The guest does something. -/
theorem of_stage (h : Agree k ℓ) (hattending : Attending k ℓ.joins place stage)
    (frames : List Transmission) (hsent : stage.guest.sent = ℓ.stage.guest.sent ++ frames)
    (hread : place ≤ ℓ.frames.length) : Agree k { ℓ with stage := stage, read := place } := by
  obtain ⟨c, hc, hsteady, hserving⟩ := h.serving
  have htake : stage.guest.sent.take ℓ.heard = ℓ.stage.guest.sent.take ℓ.heard := by
    rw [hsent, List.take_append_of_le_length h.heard_le]
  refine ⟨h.peer, h.reachable, ⟨c, hc, hsteady, htake ▸ hserving⟩, h.hosts, hattending, ?_, hread⟩
  refine h.heard_le.trans ?_
  show ℓ.stage.guest.sent.length ≤ stage.guest.sent.length
  rw [hsent, List.length_append]
  exact Nat.le_add_right _ _

theorem reads (h : Agree k ℓ) (hwaits : ℓ.stage.waits = true) (ht : ℓ.unread = t :: rest) :
    Reads k ℓ.joins ℓ.stage t := by
  obtain ⟨c, hc, -, hserving⟩ := h.serving
  rw [unread, frames_of_open hc] at ht
  exact hserving.reads h.attending hwaits ht

/-- The guest reads what the host sent. -/
theorem read (h : Agree k ℓ) (hwaits : ℓ.stage.waits = true) (ht : ℓ.unread = t :: rest)
    (now : Instant) : Agree k (afterReading k.name k.preload ℓ t now) := by
  obtain ⟨hattending, frames, hsent, -⟩ := h.attending.read (h.reads hwaits ht) now
  refine h.of_stage hattending frames hsent ?_
  have hnext : ℓ.frames[ℓ.read]? = some t := by
    rw [← List.head?_drop, ← unread, ht]
    rfl
  exact (List.getElem?_eq_some_iff.1 hnext).1

/-- No guest is turned away. -/
theorem admitted (h : Agree k ℓ) (g : Guest) (e : BrokerError) : ℓ.stage ≠ .turnedAway g e := by
  intro hstage
  have hattending := h.attending
  rw [hstage] at hattending
  generalize ℓ.read = place at hattending
  cases hattending

/-- A guest that is present was accepted and has sent requests. -/
theorem present (h : Agree k ℓ) {g : Guest} (hstage : ℓ.stage = .present g) :
    ℓ.read = 2 ∧ ∃ named requests, (∀ r ∈ requests, r.IsMembership) ∧
      g = asked k named requests := by
  have hattending := h.attending
  rw [hstage] at hattending
  generalize ℓ.read = place at hattending
  cases hattending with
  | present named hrequests => exact ⟨rfl, named, _, hrequests, rfl⟩

/-- The guest, which is present, sends a request. -/
theorem request (h : Agree k ℓ) {g : Guest} (hstage : ℓ.stage = .present g)
    (ht : t.IsMembership) : Agree k { ℓ with stage := .present (g.send t) } := by
  obtain ⟨hread, named, requests, hrequests, rfl⟩ := h.present hstage
  have hsend : (asked k named requests).send t = asked k named (requests ++ [t]) := by
    simp [asked, Guest.asking, Guest.send, Guest.accepted]
  have hattending : Attending k ℓ.joins ℓ.read (.present ((asked k named requests).send t)) := by
    rw [hread, hsend]
    refine .present named fun r hr => ?_
    rcases List.mem_append.1 hr with hbefore | hnew
    · exact hrequests r hbefore
    · exact List.mem_singleton.1 hnew ▸ ht
  exact h.of_stage hattending [t] (by rw [hstage]; rfl) h.read_le

/-- The guest, which preloads, begins to finish that. -/
theorem finish (h : Agree k ℓ) {g : Guest} (hstage : ℓ.stage = .present g)
    (hearly : g.state = .earlySubscribe) (now : Instant) :
    Agree k { ℓ with stage := .finishing (g.sendControl .preloadClientFinished now) [] } := by
  obtain ⟨hread, named, requests, hrequests, rfl⟩ := h.present hstage
  have hpreload : k.preload = true := by
    have hstate : stateAfterAcceptance k.preload = .earlySubscribe := hearly
    cases hk : k.preload with
    | true => rfl
    | false => simp [hk, stateAfterAcceptance] at hstate
  have hattending : Attending k ℓ.joins ℓ.read
      (.finishing ((asked k named requests).sendControl .preloadClientFinished now) []) := by
    rw [hread]
    exact .finishing hpreload named hrequests now List.nil_prefix
  exact h.of_stage hattending [_] (by rw [hstage]; rfl) h.read_le

theorem delivers (h : Agree k ℓ) (hstep : Delivers k.name k.preload ℓ ℓ') : Agree k ℓ' := by
  cases hstep with
  | hear ht now => exact h.hear ht now
  | read hwaits ht now => exact h.read hwaits ht now

/-- Every step keeps the agreement. -/
theorem step (h : Agree k ℓ) (hstep : Step k.name k.preload ℓ ℓ') : Agree k ℓ' := by
  cases hstep with
  | deliver hdelivers => exact h.delivers hdelivers
  | elsewhere hcall now => exact h.elsewhere hcall now
  | join hstage group now => exact h.request hstage (.join group now)
  | leave hstage group now => exact h.request hstage (.leave group now)
  | finish hstage hearly now => exact h.finish hstage hearly now

/-- Any number of steps keep it. -/
theorem run (h : Agree k ℓ) (hrun : ReflTransGen (Step k.name k.preload) ℓ ℓ') : Agree k ℓ' := by
  induction hrun with
  | refl => exact h
  | tail _ hstep ih => exact ih.step hstep

end Agree

/-- It begins when the host accepts the channel of the guest. -/
theorem agree_opened {b : Broker} (hb : b.Reachable) {channel : Channel}
    (hlossless : channel.Lossless) (hfresh : channel.trace = []) (name : String) (preload : Bool)
    (now : Instant) : Agree ⟨name, preload, b.name, b.nextPeer⟩ (opened b channel now) := by
  have hopen : channel.isClosed = false := by
    rw [Channel.isClosed, hfresh]
    rfl
  obtain ⟨c, hc, hsteady, hpeer, hhost, hstate, hchannel⟩ :=
    hb.accept_steady hlossless hopen now
  have hsent : c.channel.sent = [greeting b.name now] := by
    rw [hchannel, Channel.sent_handed, Channel.sent, hfresh]
    rfl
  have hserving : Serving ⟨name, preload, b.name, b.nextPeer⟩ c [] [] :=
    .greeted hstate hhost hpeer now hsent
  exact ⟨rfl, hb.perform (.accept channel) now, ⟨c, hc, hsteady, hserving⟩,
    fun j hj => absurd hj List.not_mem_nil, .greeting, Nat.le_refl 0, Nat.zero_le _⟩

end Link

end ObjectBus
