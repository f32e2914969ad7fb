import ObjectBus.Proofs.Broker.Effects
import ObjectBus.Proofs.Broker.Evolution

/-!
# The numbers of guests

A guest is given a number when the broker accepts it, and the number stays assigned for good: the
connection of the guest is open, or it has closed, or a sweep has forgotten it and released its
channel.

* `Broker.Assigned`: a number was given to a guest;
* `Reachable.assigned_perform_iff`: nothing but accepting a guest assigns a number, and that assigns
  the next one;
* `numbered_after`: until they run out, numbers are assigned one after the other and only once.
-/

namespace ObjectBus

/-- Whether a call accepts a guest. -/
def BrokerCall.accepts : BrokerCall → Bool
  | .accept .. => true
  | _ => false

theorem BrokerCall.accepts_eq_true_iff {call : BrokerCall} :
    call.accepts = true ↔ ∃ channel, call = .accept channel := by
  cases call with
  | accept channel => exact ⟨fun _ => ⟨channel, rfl⟩, fun _ => rfl⟩
  | receive | transportFailed | publish | remove | clearCache | registerStruct | registerEnum |
    subscribe | unsubscribe | sweep | shutdown | disturb => simp [accepts]

namespace Broker

variable {call : BrokerCall} {now : Instant} {b b' : Broker} {peer : PeerId}

/-- A number was given to a guest: the broker knows a channel to it, of a connection that is open or
closed or that a sweep has forgotten. -/
def Assigned (b : Broker) (peer : PeerId) : Prop := b.channel? peer ≠ none

theorem assigned_iff : b.Assigned peer ↔ b.connections.find? peer ≠ none ∨
    b.closed.find? peer ≠ none ∨ b.released.find? peer ≠ none := by
  unfold Assigned channel? connection?
  cases b.connections.find? peer <;> cases b.closed.find? peer <;> simp

theorem assigned_of_open {c : Connection} (hc : b.connections.find? peer = some c) :
    b.Assigned peer :=
  assigned_iff.2 (.inl (by simp [hc]))

@[simp]
theorem assigned_takePending : b.takePending.Assigned peer ↔ b.Assigned peer := by
  rw [Assigned, channel?_takePending, Assigned]

@[simp]
theorem assigned_setAside (q : PeerId) : (b.setAside q).Assigned peer ↔ b.Assigned peer := by
  rw [Assigned, channel?_setAside, Assigned]

/-- Forgetting a closed connection releases its channel. -/
@[simp]
theorem assigned_forgetClosed : b.forgetClosed.Assigned peer ↔ b.Assigned peer := by
  -- The channels of the closed connections are among those that were released afterwards.
  have hreleased : b.forgetClosed.released.find? peer ≠ none ↔
      b.released.find? peer ≠ none ∨ b.closed.find? peer ≠ none := by
    refine SortedMap.find?_foldl_insert_ne_none_iff.trans (or_congr_right ?_)
    rw [Option.ne_none_iff_exists', ← SortedMap.mem_keys_iff, SortedMap.keys, List.mem_map]
  rw [assigned_iff, assigned_iff, hreleased, show b.forgetClosed.closed = .empty from rfl,
    SortedMap.find?_empty, show b.forgetClosed.connections = b.connections from rfl]
  simp only [ne_eq, not_true_eq_false, false_or]
  exact or_congr_right or_comm

/-- A step leaves the closed connections as they are, or it forgets them. -/
theorem Step.tables (h : Step call now b b') :
    b'.closed = b.closed ∧ b'.released = b.released ∨
      (call = .sweep ∨ call = .shutdown) ∧ b' = b.forgetClosed := by
  cases h with
  | forgetClosed hcall => exact .inr ⟨hcall, rfl⟩
  | publish hschema hvalid included remove =>
    rw [value_dispatch]
    exact .inl ⟨rfl, rfl⟩
  | dispatch hcall hc hreceived hschema hspace hvalid =>
    rw [value_dispatch]
    exact .inl ⟨rfl, rfl⟩
  | replay hcall hmessage hschema hcached hc =>
    rw [value_replayTo _ _ _ hc]
    exact .inl ⟨rfl, rfl⟩
  | accept | hear | act | forward | join | leave | learn | learnEnum | announce | subscribe |
    unsubscribe => exact .inl ⟨rfl, rfl⟩

/-- Steps that can belong to any call leave the closed connections as they are. -/
theorem Steps.closed (h : Steps (.clearCache []) now b b') :
    b'.closed = b.closed ∧ b'.released = b.released := by
  refine Steps.induction (I := fun b' => b'.closed = b.closed ∧ b'.released = b.released)
    (fun hI hstep => ?_) ⟨rfl, rfl⟩ h
  rcases hstep.tables with ⟨hclosed, hreleased⟩ | ⟨hcall, -⟩
  · exact ⟨hclosed.trans hI.1, hreleased.trans hI.2⟩
  · rcases hcall with hcall | hcall <;> cases hcall

/-- A number that is assigned stays so. -/
theorem Step.assigned (h : Step call now b b') (hpeer : b.Assigned peer) :
    b'.Assigned peer := by
  rcases h.tables with ⟨hclosed, hreleased⟩ | ⟨-, rfl⟩
  · rw [assigned_iff, hclosed, hreleased]
    refine (assigned_iff.1 hpeer).imp_left fun hopen => ?_
    obtain ⟨c, hc⟩ := h.stays (Option.ne_none_iff_exists'.1 hopen)
    simp [hc]
  · exact assigned_forgetClosed.2 hpeer

theorem Steps.assigned (h : Steps call now b b') (hpeer : b.Assigned peer) : b'.Assigned peer :=
  Steps.induction (I := fun b' => b'.Assigned peer) (fun hI hstep => hstep.assigned hI) hpeer h

/-- While nobody arrives, no number is assigned. -/
theorem Step.assigned_iff (h : Step call now b b') (hquiet : ∀ channel, call ≠ .accept channel) :
    b'.Assigned peer ↔ b.Assigned peer := by
  refine ⟨fun hpeer => ?_, h.assigned⟩
  rcases h.tables with ⟨hclosed, hreleased⟩ | ⟨-, rfl⟩
  · rw [Broker.assigned_iff, hclosed, hreleased] at hpeer
    refine Broker.assigned_iff.2 (hpeer.imp_left fun hopen hnone => ?_)
    exact hopen (h.leaves hquiet peer hnone)
  · exact assigned_forgetClosed.1 hpeer

theorem Moves.assigned_iff (h : Moves call now b b') (hquiet : ∀ channel, call ≠ .accept channel) :
    b'.Assigned peer ↔ b.Assigned peer := by
  refine Moves.induction (I := fun b' => b'.Assigned peer ↔ b.Assigned peer) (fun hI hstep => ?_)
    (fun hI => ?_) (fun hI _ => ?_) Iff.rfl h
  · exact (hstep.assigned_iff hquiet).trans hI
  · exact assigned_takePending.trans hI
  · exact (assigned_setAside _).trans hI

/-- Nothing but accepting a guest assigns a number, and that assigns the next one. -/
theorem Reachable.assigned_perform_iff (hb : b.Reachable) :
    (b.perform call now).Assigned peer ↔
      b.Assigned peer ∨ ∃ channel, call = .accept channel ∧ peer = b.nextPeer := by
  by_cases hcall : ∃ channel, call = .accept channel
  · obtain ⟨channel, rfl⟩ := hcall
    let arrived : Broker :=
      { b with nextPeer := b.nextPeer + 1 }.putConnection b.nextPeer (b.greeted channel now)
    have hstep : Step (.accept channel) now b arrived := .accept rfl
    -- Once the guest has been greeted, only the changes of state that wait are processed.
    have hdrain : Moves .sweep now arrived (arrived.drain now).value :=
      drain_moves (hb.rested.queued.step hstep)
    have harrived : arrived.Assigned peer ↔ b.Assigned peer ∨ peer = b.nextPeer := by
      rw [Broker.assigned_iff, Broker.assigned_iff, find?_putConnection]
      by_cases hpeer : peer = b.nextPeer
      · simp [hpeer]
      · simp [hpeer, arrived, putConnection]
    refine (hdrain.assigned_iff (by simp)).trans (harrived.trans (or_congr_right ?_))
    constructor
    · exact fun hpeer => ⟨channel, rfl, hpeer⟩
    · rintro ⟨-, -, hpeer⟩
      exact hpeer
  · have hquiet : ∀ channel, call ≠ .accept channel := fun channel heq => hcall ⟨channel, heq⟩
    refine ((perform_moves hb.rested call now).assigned_iff hquiet).trans ⟨.inl, ?_⟩
    rintro (hpeer | ⟨channel, heq, -⟩)
    · exact hpeer
    · exact absurd heq (hquiet channel)

/-! ## Numbers are assigned only once -/

/-- While nobody arrives, the next number stays the same. -/
theorem Step.nextPeer (h : Step call now b b') (hquiet : ∀ channel, call ≠ .accept channel) :
    b'.nextPeer = b.nextPeer := by
  cases h with
  | accept hcall => exact absurd hcall (hquiet _)
  | publish hschema hvalid included remove => rw [value_dispatch]
  | dispatch hcall hc hreceived hschema hspace hvalid => rw [value_dispatch]
  | replay hcall hmessage hschema hcached hc => rw [value_replayTo _ _ _ hc]; rfl
  | hear | act | forward | join | leave | learn | learnEnum | announce | subscribe | unsubscribe |
    forgetClosed => rfl

/-- The numbers of the guests when some have arrived: they are those after the host's, the next one
is free, and no closed connection has the number of an open one. -/
structure Numbered (arrived : Nat) (b : Broker) : Prop where
  /-- The next number. -/
  next : b.nextPeer.toNat = arrived + 2
  /-- All numbers before it may have been assigned. -/
  assigned : ∀ q, b.Assigned q → q.toNat < arrived + 2
  /-- A number belongs to one guest. -/
  apart : ∀ q, b.closed.find? q ≠ none → b.connections.find? q = none

namespace Numbered

variable {arrived : Nat}

theorem step (hn : b.Numbered arrived) (h : Step call now b b')
    (hquiet : ∀ channel, call ≠ .accept channel) : b'.Numbered arrived := by
  refine ⟨(h.nextPeer hquiet).symm ▸ hn.next,
    fun q hq => hn.assigned q ((h.assigned_iff hquiet).1 hq), fun q hq => ?_⟩
  rcases h.tables with ⟨hclosed, -⟩ | ⟨-, rfl⟩
  · exact h.leaves hquiet q (hn.apart q (hclosed ▸ hq))
  · exact absurd rfl hq

theorem moves (hn : b.Numbered arrived) (h : Moves call now b b')
    (hquiet : ∀ channel, call ≠ .accept channel) : b'.Numbered arrived := by
  refine Moves.induction (I := Numbered arrived) (fun hn h => hn.step h hquiet) (fun hn => ?_)
    (fun {b peer} hn _ => ?_) hn h
  · refine ⟨hn.next, fun q hq => hn.assigned q (assigned_takePending.1 hq), fun q hq => ?_⟩
    rw [find?_takePending, hn.apart q hq]
    rfl
  · refine ⟨?_, fun q hq => hn.assigned q ((assigned_setAside peer).1 hq), fun q hq => ?_⟩
    · obtain ⟨connections, closed, heq⟩ := b.setAside_eq peer
      rw [heq]
      exact hn.next
    · rw [find?_setAside]
      split
      · rfl
      · rename_i hne
        refine hn.apart q fun hnone => hq ?_
        unfold setAside
        cases b.connections.find? peer with
        | none => exact hnone
        | some c => simpa [hne] using hnone

/-- A guest that arrives is given the next number, unless the numbers have run out. -/
theorem perform (hn : b.Numbered arrived) (hb : b.Reachable) (call : BrokerCall) (now : Instant)
    (hroom : arrived + (if call.accepts then 1 else 0) + 2 < UInt32.size) :
    (b.perform call now).Numbered (arrived + if call.accepts then 1 else 0) := by
  by_cases hcall : call.accepts = true
  · obtain ⟨channel, rfl⟩ := BrokerCall.accepts_eq_true_iff.1 hcall
    let greeting : Broker :=
      { b with nextPeer := b.nextPeer + 1 }.putConnection b.nextPeer (b.greeted channel now)
    have hstep : Step (.accept channel) now b greeting := .accept rfl
    have hdrain : Moves .sweep now greeting (greeting.drain now).value :=
      drain_moves (hb.rested.queued.step hstep)
    -- All numbers that were assigned are smaller, so that the next one is free.
    have hfree : ¬b.Assigned b.nextPeer := fun hassigned => by
      have hless := hn.assigned _ hassigned
      have hnext := hn.next
      omega
    have hgreeting : greeting.Numbered (arrived + 1) := by
      refine ⟨?_, fun q hq => ?_, fun q hq => ?_⟩
      · have hnext : (b.nextPeer + 1).toNat = (b.nextPeer.toNat + 1) % UInt32.size := by
          rw [UInt32.toNat_add]
          rfl
        have hless : arrived + 1 + 2 < UInt32.size := hroom
        show (b.nextPeer + 1).toNat = _
        rw [hnext, hn.next, Nat.mod_eq_of_lt (by omega)]
      · rcases assigned_iff.1 hq with hopen | hgone
        · rw [find?_putConnection] at hopen
          split at hopen
          · rename_i heq
            rw [heq, hn.next]
            omega
          · have hless := hn.assigned q (assigned_iff.2 (.inl hopen))
            omega
        · have hless := hn.assigned q (assigned_iff.2 (.inr hgone))
          omega
      · rw [find?_putConnection]
        split
        · rename_i heq
          exact absurd (heq ▸ assigned_iff.2 (.inr (.inl hq))) hfree
        · exact hn.apart q hq
    exact hgreeting.moves hdrain (by simp)
  · have hquiet : ∀ channel, call ≠ .accept channel := by
      rintro channel rfl
      exact hcall rfl
    rw [if_neg hcall]
    exact hn.moves (perform_moves hb.rested call now) hquiet

end Numbered

/-- A broker that was started has no guests. -/
theorem numbered_ofRegistry {registry : Registry} (hwf : registry.WellFormed) (name : String)
    (eventCapacity : Nat) (now : Instant) :
    (ofRegistry name registry eventCapacity now).value.Numbered 0 := by
  refine ofRegistry_induction (I := fun _ b => b.Numbered 0) hwf
    ⟨rfl, fun q hq => ?_, fun q hq => ?_⟩ (fun hn _ => ⟨hn.next, hn.assigned, hn.apart⟩)
    fun hn h => hn.step h (by simp)
  · exact absurd rfl hq
  · exact absurd rfl hq

/-- Until they run out, numbers are assigned one after the other and only once. -/
theorem numbered_after {arrived : Nat} (hb : b.Reachable) (hn : b.Numbered arrived)
    (calls : List (BrokerCall × Instant))
    (hroom : arrived + calls.countP (·.1.accepts) + 2 < UInt32.size) :
    (b.after calls).Numbered (arrived + calls.countP (·.1.accepts)) := by
  induction calls generalizing b arrived with
  | nil => exact hn
  | cons call rest ih =>
    rw [List.countP_cons] at hroom
    -- The first call takes at most one of the numbers that there is room for.
    have hfirst : (b.perform call.1 call.2).Numbered (arrived + if call.1.accepts then 1 else 0) :=
      hn.perform hb call.1 call.2 (by omega)
    have hrest := ih (hb.perform call.1 call.2) hfirst (by omega)
    have hcount : arrived + (call :: rest).countP (·.1.accepts) =
        arrived + (if call.1.accepts then 1 else 0) + rest.countP (·.1.accepts) := by
      rw [List.countP_cons]
      omega
    rw [hcount]
    exact hrest

end Broker

end ObjectBus
