import ObjectBus.Proofs.Broker.DrainPoints
import ObjectBus.Proofs.Broker.Roster
import ObjectBus.Proofs.Broker.StateEvents

/-!
# The tables of a broker at rest

A broker keeps its connections in two tables, the open ones and those that have closed. Between two
calls both are in order: each has connections of its own, under numbers that were given to guests
and are given to no other guest, nothing waits in any of them, and the groups have no members apart
from these.

* `Broker.issued`: the numbers that the calls of a run give to the guests that they accept;
* `toNat_issued`, `assigned_after_iff`: they are given in order, and no others are assigned;
* `Enrolled.moves`: nobody becomes a member of a group, and no member leaves the tables without
  leaving the groups;
* `AtRest`, `rests_after`: what holds of the tables after every run.
-/

namespace ObjectBus

namespace Broker

variable {call : BrokerCall} {now : Instant} {b b' : Broker} {peer : PeerId}
variable {calls : List (BrokerCall × Instant)} {arrived : Nat}

/-! ## The numbers that are given to guests -/

/-- The number that a call gives to the guest that it accepts. -/
def given (b : Broker) (call : BrokerCall) (now : Instant) : List PeerId :=
  match call with
  | .accept channel => [(b.accept channel now).value.2]
  | _ => []

/-- The numbers that the calls of a run give to guests, one after the other. -/
def issued (b : Broker) : List (BrokerCall × Instant) → List PeerId
  | [] => []
  | call :: rest => b.given call.1 call.2 ++ (b.perform call.1 call.2).issued rest

@[simp]
theorem given_accept (b : Broker) (channel : Channel) (now : Instant) :
    b.given (.accept channel) now = [b.nextPeer] := rfl

/-- A call that accepts nobody gives no number. -/
theorem given_of_quiet (b : Broker) (hquiet : call.accepts = false) (now : Instant) :
    b.given call now = [] := by
  cases call with
  | accept => cases hquiet
  | receive | transportFailed | publish | remove | clearCache | registerStruct | registerEnum |
    subscribe | unsubscribe | sweep | shutdown | disturb => rfl

theorem mem_given_iff : peer ∈ b.given call now ↔
    ∃ channel, call = .accept channel ∧ peer = b.nextPeer := by
  cases haccepts : call.accepts with
  | true =>
    obtain ⟨channel, rfl⟩ := BrokerCall.accepts_eq_true_iff.1 haccepts
    simp
  | false =>
    rw [given_of_quiet b haccepts]
    refine ⟨fun hmem => absurd hmem List.not_mem_nil, ?_⟩
    rintro ⟨channel, rfl, -⟩
    cases haccepts

/-- A number is assigned when a call has given it to a guest, and in no other way. -/
theorem assigned_after_iff (hb : b.Reachable) (calls : List (BrokerCall × Instant)) :
    (b.after calls).Assigned peer ↔ b.Assigned peer ∨ peer ∈ b.issued calls := by
  induction calls generalizing b with
  | nil => exact (or_iff_left (List.not_mem_nil)).symm
  | cons call rest ih =>
    have hrest : ((b.perform call.1 call.2).after rest).Assigned peer ↔
        (b.perform call.1 call.2).Assigned peer ∨ peer ∈ (b.perform call.1 call.2).issued rest :=
      ih (hb.perform call.1 call.2)
    rw [hb.assigned_perform_iff, ← mem_given_iff, or_assoc] at hrest
    rw [issued, List.mem_append]
    exact hrest

/-- Until they run out, the numbers are given in order. -/
theorem toNat_issued (hb : b.Reachable) (hn : b.Numbered arrived)
    (hroom : arrived + calls.countP (·.1.accepts) + 2 < UInt32.size) :
    (b.issued calls).map (·.toNat) = List.range' (arrived + 2) (calls.countP (·.1.accepts)) := by
  induction calls generalizing b arrived with
  | nil => rfl
  | cons call rest ih =>
    rw [List.countP_cons] at hroom
    -- After the first call as many guests have arrived as before it, or one more.
    have hfirst : (b.perform call.1 call.2).Numbered (arrived + if call.1.accepts then 1 else 0) :=
      hn.perform hb call.1 call.2 (by omega)
    have hrest := ih (hb.perform call.1 call.2) hfirst (by omega)
    rw [issued, List.map_append, hrest, List.countP_cons]
    cases haccepts : call.1.accepts with
    | false =>
      rw [given_of_quiet b haccepts]
      simp
    | true =>
      obtain ⟨channel, hcall⟩ := BrokerCall.accepts_eq_true_iff.1 haccepts
      -- The guest takes the next number, which is the first one of the range.
      rw [hcall, given_accept, List.map_singleton, hn.next, if_pos rfl, List.range'_succ,
        List.singleton_append, Nat.add_right_comm]

/-- No number is given twice. -/
theorem nodup_issued (hb : b.Reachable) (hn : b.Numbered arrived)
    (hroom : arrived + calls.countP (·.1.accepts) + 2 < UInt32.size) : (b.issued calls).Nodup := by
  have hnumbers : ((b.issued calls).map (·.toNat)).Nodup := by
    rw [toNat_issued hb hn hroom]
    exact List.nodup_range'
  exact hnumbers.of_map

/-- A broker that was started has given no numbers. -/
theorem not_assigned_ofRegistry {registry : Registry} (hwf : registry.WellFormed) (name : String)
    (eventCapacity : Nat) (now : Instant) :
    ¬(ofRegistry name registry eventCapacity now).value.Assigned peer := by
  refine ofRegistry_induction (I := fun _ b => ¬b.Assigned peer) hwf (fun hpeer => ?_)
    (fun h _ => h) fun h hstep hpeer => ?_
  · exact absurd rfl hpeer
  · exact h ((hstep.assigned_iff (by simp)).1 hpeer)

/-! ## The members of the groups -/

/-- A guest has a connection in one of the two tables. -/
def Holds (b : Broker) (peer : PeerId) : Prop :=
  b.connections.find? peer ≠ none ∨ b.closed.find? peer ≠ none

namespace Holds

theorem assigned (h : b.Holds peer) : b.Assigned peer := assigned_iff.2 (h.imp_right .inl)

/-- Nobody leaves the tables while the closed connections are kept. -/
theorem step (h : b.Holds peer) (hstep : Step call now b b') (hclosed : b'.closed = b.closed) :
    b'.Holds peer := by
  refine h.imp (fun hopen hnone => ?_) fun hgone => hclosed ▸ hgone
  obtain ⟨c, hc⟩ := hstep.stays (Option.ne_none_iff_exists'.1 hopen)
  rw [hc] at hnone
  cases hnone

theorem takePending (h : b.Holds peer) : b.takePending.Holds peer := by
  refine h.imp_left fun hopen hnone => hopen ?_
  rwa [find?_takePending, Option.map_eq_none_iff] at hnone

/-- A connection that closes goes from one table to the other. -/
theorem setAside (h : b.Holds peer) (q : PeerId) : (b.setAside q).Holds peer := by
  unfold Broker.setAside
  cases hc : b.connections.find? q with
  | none => exact h
  | some c =>
    by_cases hpeer : peer = q
    · exact .inr (by simp [hpeer])
    · simpa [Holds, hpeer] using h

end Holds

/-- During a call every member of a group is in one of the tables, and so is the guest who has
sent something. -/
structure Enrolled (call : BrokerCall) (b : Broker) : Prop where
  /-- The members of all groups. -/
  members : ∀ group peer, b.groups.hasMember group peer = true → b.Holds peer
  /-- The sender, who may ask to join a group. -/
  sender : ∀ peer t, call = .receive peer t → b.Holds peer

namespace Enrolled

theorem step (h : b.Enrolled call) (hstep : Step call now b b') : b'.Enrolled call := by
  rcases hstep.tables with ⟨hclosed, -⟩ | ⟨hcall, rfl⟩
  · refine ⟨fun group peer hmember => ?_, fun peer t hcall => ?_⟩
    · rcases hstep.hasMember_back hmember with ⟨t, hcall, -⟩ | hmember
      · exact (h.sender peer t hcall).step hstep hclosed
      · exact (h.members group peer hmember).step hstep hclosed
    · exact (h.sender peer t hcall).step hstep hclosed
  · refine ⟨fun group peer hmember => ?_, fun peer t hreceive => ?_⟩
    · -- Whoever is still a member was not among the closed ones, who have left all groups.
      rw [forgetClosed, GroupTable.hasMember_foldl_drop, Bool.and_eq_true] at hmember
      obtain ⟨hkept, hmember⟩ := hmember
      refine .inl ((h.members group peer hmember).resolve_right fun hgone => ?_)
      obtain ⟨c, hc⟩ := Option.ne_none_iff_exists'.1 hgone
      have hdropped : peer ∈ b.closed.keys := SortedMap.mem_keys_iff.2 ⟨c, hc⟩
      simp [hdropped] at hkept
    · -- What guests send is no reason to forget anybody.
      rcases hcall with hcall | hcall <;> exact absurd (hreceive.symm.trans hcall) (by simp)

theorem takePending (h : b.Enrolled call) : b.takePending.Enrolled call :=
  ⟨fun group peer hmember => (h.members group peer hmember).takePending,
    fun peer t hcall => (h.sender peer t hcall).takePending⟩

theorem setAside (h : b.Enrolled call) (q : PeerId) : (b.setAside q).Enrolled call := by
  refine ⟨fun group peer hmember => ?_, fun peer t hcall => (h.sender peer t hcall).setAside q⟩
  rw [groups_setAside] at hmember
  exact (h.members group peer hmember).setAside q

theorem moves (h : b.Enrolled call) (hmoves : Moves call now b b') : b'.Enrolled call :=
  Moves.induction (I := Enrolled call) (fun h hstep => h.step hstep) (fun h => h.takePending)
    (fun {_ q} h _ => h.setAside q) h hmoves

end Enrolled

/-- Between two calls every member of a group is in one of the tables. -/
theorem Reachable.members (hb : b.Reachable) :
    ∀ group peer, b.groups.hasMember group peer = true → b.Holds peer := by
  induction hb with
  | @start registry hbuilt name eventCapacity now =>
    have hstart : (ofRegistry name registry eventCapacity now).value.Enrolled .sweep := by
      refine ofRegistry_induction (I := fun _ b => b.Enrolled .sweep) hbuilt.wellFormed
        ⟨fun group peer hmember => ?_, fun peer t hcall => ?_⟩ (fun h _ => ⟨h.members, h.sender⟩)
        fun h hstep => h.step hstep
      · cases hmember
      · cases hcall
    exact hstart.members
  | @perform b hb call now ih =>
    by_cases hstranger : ∃ peer t, call = .receive peer t ∧ b.connections.find? peer = none
    · -- What comes from a stranger is ignored.
      obtain ⟨peer, t, rfl, hc⟩ := hstranger
      rw [perform_receive_of_none hc]
      exact ih
    · have hbegin : b.Enrolled call :=
        ⟨ih, fun peer t hcall => .inl fun hc => hstranger ⟨peer, t, hcall, hc⟩⟩
      exact (hbegin.moves (perform_moves hb.rested call now)).members

/-! ## Both tables -/

/-- What holds of a broker between two calls, when some numbers have been given to guests. -/
structure AtRest (given : List PeerId) (b : Broker) : Prop where
  /-- No number is in both tables. -/
  apart : ∀ peer, b.connections.find? peer = none ∨ b.closed.find? peer = none
  /-- The numbers in the tables have been given to guests. -/
  held : ∀ peer, b.Holds peer → peer ∈ given
  /-- All these come after that of the host and before the one that is given next. -/
  between : ∀ peer ∈ given, hostId < peer ∧ peer < b.nextPeer
  /-- None has been given twice. -/
  once : given.Nodup
  /-- The connections in the first table are open, and nothing of them waits. -/
  idle : ∀ peer c, b.connections.find? peer = some c → c.isClosed = false ∧ c.transitions = []
  /-- Those in the second one are closed, and nothing of them waits. -/
  buried : ∀ peer c, b.closed.find? peer = some c → c.isClosed = true ∧ c.transitions = []
  /-- Every member of a group is in one of the tables. -/
  members : ∀ group peer, b.groups.hasMember group peer = true → b.Holds peer

/-- After every run in which the numbers do not run out both tables are at rest, whatever the calls
were and whether they succeeded. -/
theorem rests_after {registry : Registry} (hbuilt : registry.Built) (name : String)
    (eventCapacity : Nat) (start : Instant) (calls : List (BrokerCall × Instant))
    (hroom : calls.countP (·.1.accepts) < UInt32.size - 2) :
    (((ofRegistry name registry eventCapacity start).value.after calls).AtRest
      ((ofRegistry name registry eventCapacity start).value.issued calls)) := by
  have hstart : (ofRegistry name registry eventCapacity start).value.Reachable :=
    .start hbuilt name eventCapacity start
  have hnone := numbered_ofRegistry hbuilt.wellFormed name eventCapacity start
  have hroom' : 0 + calls.countP (·.1.accepts) + 2 < UInt32.size := by omega
  have hb := hstart.after calls
  have hnumbered := numbered_after hstart hnone calls hroom'
  refine ⟨fun peer => ?_, fun peer hpeer => ?_, fun peer hpeer => ?_,
    nodup_issued hstart hnone hroom', fun peer c hc => (hb.rested peer c hc).symm, hb.buried,
    hb.members⟩
  · by_cases hgone : ((ofRegistry name registry eventCapacity start).value.after calls).closed.find?
        peer = none
    · exact .inr hgone
    · exact .inl (hnumbered.apart peer hgone)
  · exact ((assigned_after_iff hstart calls).1 hpeer.assigned).resolve_left
      (not_assigned_ofRegistry hbuilt.wellFormed name eventCapacity start)
  · -- The numbers are those from two on, as many as guests have arrived.
    have hmem : peer.toNat ∈ ((ofRegistry name registry eventCapacity start).value.issued calls).map
        (·.toNat) := List.mem_map_of_mem hpeer
    rw [toNat_issued hstart hnone hroom', List.mem_range'_1] at hmem
    have hnext := hnumbered.next
    constructor
    · show hostId.toNat < peer.toNat
      have hhost : hostId.toNat = 1 := rfl
      omega
    · show peer.toNat < UInt32.toNat _
      omega

/-- What becomes of some visitors: the first is forgotten, and the second joins a group and is lost
after a third has come. -/
def departures : List (BrokerCall × Instant) :=
  visits ++ [(.sweep, default), (.accept (.reliable "late"), default),
    (.receive 3 (.ofControl (.connectAs "other" false) default), default),
    (.receive 3 (.ofControl (.member peerStateType .join) default), default),
    (.transportFailed 3 .closed, default)]

/-- The number of the first is not given again, and the second is a member of its group as long as
it is in the table of the closed ones. -/
theorem rests_after_departures :
    ∃ b lost late, (new "lobby" default).value.after departures = b ∧ b.AtRest [2, 3, 4] ∧
      b.connections.find? 2 = none ∧ b.closed.find? 2 = none ∧
      b.closed.find? 3 = some lost ∧ lost.isClosed = true ∧
      b.groups.hasMember peerStateType 3 = true ∧
      b.connections.find? 4 = some late ∧ late.isClosed = false := by
  have hrests := rests_after Registry.built_builtin "lobby" defaultEventCapacity default departures
    (by decide)
  have hissued : (new "lobby" default).value.issued departures = [2, 3, 4] := rfl
  obtain ⟨lost, hlost⟩ : ∃ c,
    ((new "lobby" default).value.after departures).closed.find? 3 = some c := ⟨_, rfl⟩
  obtain ⟨late, hlate⟩ : ∃ c,
    ((new "lobby" default).value.after departures).connections.find? 4 = some c := ⟨_, rfl⟩
  refine ⟨_, lost, late, rfl, hissued ▸ hrests, rfl, rfl, hlost, (hrests.buried 3 lost hlost).1,
    rfl, hlate, (hrests.idle 4 late hlate).1⟩

end Broker

end ObjectBus
