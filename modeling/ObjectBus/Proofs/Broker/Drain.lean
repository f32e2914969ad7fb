import Mathlib.Data.List.Perm.Subperm
import ObjectBus.Proofs.Broker.Step

/-!
# Draining

After every call the broker processes the queued changes of state in rounds. Only the closing of
a connection queues anything in a round, and each connection closes once, so the rounds that the
broker allows itself suffice.

* `Queued`: every closing that was not processed yet still waits somewhere;
* `Rested`: nothing waits, and no connection in the table is closed;
* `drain_induction`: how to prove of a drain what each change of state keeps;
* `drain_rests`: draining leads from `Queued` to `Rested`;
* `drain_moves`: draining is a chain of moves.
-/

namespace ObjectBus.Broker

open Relation (ReflTransGen)

variable {call : BrokerCall} {now : Instant} {b b' b'' : Broker} {peer : PeerId}
variable {taken : List (PeerId × Transition)} {t : Transition}

/-- Exactly those connections in the table are closed whose closing waits in their queue or was
taken and not processed yet. -/
def Queued (taken : List (PeerId × Transition)) (b : Broker) : Prop :=
  ∀ peer c, b.connections.find? peer = some c →
    c.isClosed =
      (c.transitions.any (·.closes) || taken.any fun x => decide (x.1 = peer) && x.2.closes)

/-- No change of state waits, and no connection in the table is closed. -/
def Rested (b : Broker) : Prop :=
  ∀ peer c, b.connections.find? peer = some c → c.transitions = [] ∧ c.isClosed = false

theorem Rested.queued (h : b.Rested) : b.Queued [] := by
  intro peer c hc
  obtain ⟨hqueue, hopen⟩ := h peer c hc
  simp [hqueue, hopen]

/-! ## What happens to the table between two rounds -/

/-- Between two states connections only settle, or leave the table. -/
def Quiet (b b' : Broker) : Prop :=
  ∀ peer c', b'.connections.find? peer = some c' → ∃ c, b.connections.find? peer = some c ∧
    c.Advances (fun _ => True) c' ∧ c.Settles c'

theorem Quiet.refl (b : Broker) : Quiet b b :=
  fun _ c hc => ⟨c, hc, .refl _ c, .refl c⟩

theorem Quiet.trans (h : Quiet b b') (h' : Quiet b' b'') : Quiet b b'' := by
  intro peer c'' hc''
  obtain ⟨c', hc', hadvances', hsettles'⟩ := h' peer c'' hc''
  obtain ⟨c, hc, hadvances, hsettles⟩ := h peer c' hc'
  exact ⟨c, hc, hadvances.trans hadvances', hsettles.trans hsettles'⟩

/-- A chain of steps is quiet when it can belong to a call in which nobody arrives and no guest
sends anything. -/
theorem Steps.quiet (h : Steps .sweep now b b') : Quiet b b' := by
  induction h with
  | refl => exact .refl b
  | @tail b₁ b₂ _ h ih =>
    refine ih.trans fun peer c₂ hc₂ => ?_
    rcases h.connection peer with ⟨channel, hcall, -⟩ | hrel
    · cases hcall
    · obtain ⟨c₁, hc₁, hadvances, hsettles⟩ := exists_before_of_rel hrel hc₂
      exact ⟨c₁, hc₁, hadvances, hsettles fun t => by simp⟩

/-- What waits goes on waiting when connections settle. -/
theorem Queued.of_quiet (hq : b.Queued taken) (h : Quiet b b') : b'.Queued taken := by
  intro peer c' hc'
  obtain ⟨c, hc, hadvances, -⟩ := h peer c' hc'
  obtain ⟨queued, hqueue, -, hclosed⟩ := hadvances.queue
  rw [hclosed, hqueue, hq peer c hc, List.any_append, Bool.or_assoc, Bool.or_assoc]
  congr 1
  exact Bool.or_comm _ _

/-- Every step of every call keeps what waits. -/
theorem Queued.step (hq : b.Queued []) (h : Step call now b b') : b'.Queued [] := by
  intro peer c' hc'
  rcases h.connection peer with ⟨channel, -, -, hfresh⟩ | hrel
  · obtain rfl : b.greeted channel now = c' := Option.some.inj (hfresh.symm.trans hc')
    obtain ⟨queued, hqueue, -, hclosed⟩ :=
      (Connection.advances_beginHandshake b.nextPeer channel b.name now).queue
    rw [greeted, hclosed, hqueue]
    simp [Connection.ofChannel, Connection.isClosed]
  · obtain ⟨c, hc, hadvances, -⟩ := exists_before_of_rel hrel hc'
    obtain ⟨queued, hqueue, -, hclosed⟩ := hadvances.queue
    rw [hclosed, hqueue, hq peer c hc]
    simp

theorem Queued.steps (hq : b.Queued []) (h : Steps call now b b') : b'.Queued [] :=
  Steps.induction (fun hq h => hq.step h) hq h

/-! ## One change of state -/

@[simp]
theorem find?_setAside (b : Broker) (peer q : PeerId) :
    (b.setAside peer).connections.find? q =
      if q = peer then none else b.connections.find? q := by
  unfold setAside
  cases hc : b.connections.find? peer with
  | none =>
    by_cases hq : q = peer
    · simp [hq, hc]
    · simp [hq]
  | some c => simp

/-- Nothing but the tables of connections changes when a connection leaves. -/
theorem setAside_eq (b : Broker) (peer : PeerId) : ∃ connections closed,
    b.setAside peer = { b with connections := connections, closed := closed } := by
  unfold setAside
  cases b.connections.find? peer with
  | none => exact ⟨b.connections, b.closed, rfl⟩
  | some c => exact ⟨b.connections.erase peer, b.closed.insert peer c, rfl⟩

@[simp]
theorem registry_setAside (b : Broker) (peer : PeerId) :
    (b.setAside peer).registry = b.registry := by
  obtain ⟨connections, closed, heq⟩ := b.setAside_eq peer
  rw [heq]

@[simp]
theorem dispatcher_setAside (b : Broker) (peer : PeerId) :
    (b.setAside peer).dispatcher = b.dispatcher := by
  obtain ⟨connections, closed, heq⟩ := b.setAside_eq peer
  rw [heq]

@[simp]
theorem groups_setAside (b : Broker) (peer : PeerId) :
    (b.setAside peer).groups = b.groups := by
  obtain ⟨connections, closed, heq⟩ := b.setAside_eq peer
  rw [heq]

@[simp]
theorem cleanupTypes_setAside (b : Broker) (peer : PeerId) :
    (b.setAside peer).cleanupTypes = b.cleanupTypes := by
  obtain ⟨connections, closed, heq⟩ := b.setAside_eq peer
  rw [heq]

@[simp]
theorem events_setAside (b : Broker) (peer : PeerId) :
    (b.setAside peer).events = b.events := by
  obtain ⟨connections, closed, heq⟩ := b.setAside_eq peer
  rw [heq]

@[simp]
theorem container?_setAside (b : Broker) (peer : PeerId) (typeName : String) :
    (b.setAside peer).container? typeName = b.container? typeName := by
  rw [container?, dispatcher_setAside, container?]

theorem quiet_setAside (b : Broker) (peer : PeerId) : Quiet b (b.setAside peer) := by
  intro q c hc
  rw [find?_setAside] at hc
  split at hc
  · cases hc
  · exact ⟨c, hc, .refl _ c, .refl c⟩

/-- The broker after a closed connection has left, if that is what changed. -/
def leftBy (b : Broker) (peer : PeerId) (t : Transition) (now : Instant) : Broker :=
  if t.closes then (b.onClosed peer now).value else b

theorem value_onTransition (b : Broker) (peer : PeerId) (t : Transition) (now : Instant) :
    (b.onTransition peer t now).value =
      (publishAsHost
        ((b.leftBy peer t now).emit
          (.peerState peer ((b.peerName? peer).getD unnamedPeer) t.state t.cause))
        (PeerState.record peer ((b.peerName? peer).getD unnamedPeer) t.state) none false
        now).value.1 := by
  unfold onTransition leftBy Transition.closes
  simp only [Noted.value_bind]
  by_cases hclosed : t.state = .closed
  · simp [hclosed, value_publishOrNote]
  · simp [hclosed, value_publishOrNote]

/-- After the departure of a closed connection, observers are told and the record of the peer
is published. -/
theorem steps_onTransition (b : Broker) (peer : PeerId) (t : Transition) :
    Steps call now (b.leftBy peer t now) (b.onTransition peer t now).value := by
  rw [value_onTransition]
  refine ReflTransGen.head (.announce ?_) (steps_publishAsHost _ _ _ _)
  simp

/-- Processing the first change of state that was taken. -/
theorem onTransition_spec (call : BrokerCall) (now : Instant)
    (hq : b.Queued ((peer, t) :: taken)) :
    Moves call now b (b.onTransition peer t now).value ∧
      Quiet b (b.onTransition peer t now).value ∧
      (b.onTransition peer t now).value.Queued taken := by
  -- What is told and published after a departure changes no queue by itself, so that only the
  -- departure is of interest.
  suffices hleft : Moves call now b (b.leftBy peer t now) ∧ Quiet b (b.leftBy peer t now) ∧
      (b.leftBy peer t now).Queued taken by
    obtain ⟨hmoves, hquiet, hrest⟩ := hleft
    have hafter : Quiet (b.leftBy peer t now) (b.onTransition peer t now).value :=
      (steps_onTransition b peer t).quiet
    exact ⟨hmoves.trans (Moves.of_steps (steps_onTransition b peer t)), hquiet.trans hafter,
      hrest.of_quiet hafter⟩
  by_cases hcloses : t.closes = true
  · rw [leftBy, if_pos hcloses]
    -- The closing was queued by the connection itself, which therefore is closed.
    have hclosed : ∀ c, b.connections.find? peer = some c → c.isClosed = true := by
      intro c hc
      simp [hq peer c hc, hcloses]
    have hafter : Quiet (b.setAside peer) (b.onClosed peer now).value :=
      (onClosed_steps b peer).quiet
    have haside : (b.setAside peer).Queued taken := by
      intro q c hc
      rw [find?_setAside] at hc
      split at hc
      · cases hc
      · rename_i hne
        simp [hq q c hc, Ne.symm hne]
    exact ⟨.single (.closing hclosed), (quiet_setAside b peer).trans hafter,
      haside.of_quiet hafter⟩
  · rw [leftBy, if_neg hcloses]
    refine ⟨.refl, .refl b, fun q c hc => ?_⟩
    simp [hq q c hc, hcloses]

/-! ## One round -/

/-- What waits are the changes of state in the queues of the connections in the table. -/
theorem mem_pending_iff {x : PeerId × Transition} : x ∈ b.pending ↔
    ∃ c, b.connections.find? x.1 = some c ∧ x.2 ∈ c.transitions := by
  obtain ⟨peer, t⟩ := x
  simp only [pending, List.mem_flatMap, List.mem_map, SortedMap.find?_eq_some_iff, Prod.mk.injEq]
  constructor
  · rintro ⟨⟨q, c⟩, hmem, t', ht', rfl, rfl⟩
    exact ⟨c, hmem, ht'⟩
  · rintro ⟨c, hmem, ht⟩
    exact ⟨(peer, c), hmem, t, ht, rfl, rfl⟩

theorem find?_takePending (b : Broker) (peer : PeerId) :
    b.takePending.connections.find? peer =
      (b.connections.find? peer).map Connection.drained := by
  simp [takePending]

/-- Taking the queues keeps what waits. -/
theorem Queued.takePending (hq : b.Queued []) : b.takePending.Queued b.pending := by
  intro peer c' hc'
  rw [find?_takePending, Option.map_eq_some_iff] at hc'
  obtain ⟨c, hc, rfl⟩ := hc'
  have hclosed := hq peer c hc
  simp only [List.any_nil, Bool.or_false] at hclosed
  -- A drained queue is empty, so that the closings which waited in it are now among those taken.
  rw [show c.drained.isClosed = c.isClosed from rfl, hclosed,
    show c.drained.transitions = [] from rfl, List.any_nil, Bool.false_or, Bool.eq_iff_iff,
    List.any_eq_true, List.any_eq_true]
  constructor
  · rintro ⟨t, ht, hcloses⟩
    exact ⟨(peer, t), mem_pending_iff.2 ⟨c, hc, ht⟩, by simpa using hcloses⟩
  · rintro ⟨⟨q, t⟩, hmem, hcloses⟩
    simp only [Bool.and_eq_true, decide_eq_true_eq] at hcloses
    obtain ⟨rfl, hcloses⟩ := hcloses
    obtain ⟨c', hc', ht⟩ := mem_pending_iff.1 hmem
    obtain rfl : c' = c := Option.some.inj (hc'.symm.trans hc)
    exact ⟨t, ht, hcloses⟩

/-- The broker after a round. -/
def afterRound (b : Broker) (now : Instant) : Broker :=
  b.pending.foldl (fun b x => (b.onTransition x.1 x.2 now).value) b.takePending

/-- Processing what was taken. -/
theorem foldl_onTransition_spec (now : Instant) (taken : List (PeerId × Transition))
    (hq : b.Queued taken) :
    Quiet b (taken.foldl (fun b x => (b.onTransition x.1 x.2 now).value) b) ∧
      (taken.foldl (fun b x => (b.onTransition x.1 x.2 now).value) b).Queued [] := by
  induction taken generalizing b with
  | nil => exact ⟨.refl b, hq⟩
  | cons x rest ih =>
    obtain ⟨-, hquiet, hrest⟩ := onTransition_spec .sweep now hq
    obtain ⟨hquiet', hrest'⟩ := ih hrest
    exact ⟨hquiet.trans hquiet', hrest'⟩

/-- After a round everything that happened is queued again. -/
theorem Queued.afterRound (hq : b.Queued []) (now : Instant) : (b.afterRound now).Queued [] :=
  (foldl_onTransition_spec now b.pending hq.takePending).2

/-! ## All rounds -/

/-- Whether the connection of a peer is in the table and open. -/
def isOpen (b : Broker) (peer : PeerId) : Bool :=
  match b.connections.find? peer with
  | some c => !c.isClosed
  | none => false

/-- The peers whose connections are open. -/
def openPeers (b : Broker) : List PeerId := b.connections.keys.filter b.isOpen

theorem mem_openPeers_iff : peer ∈ b.openPeers ↔ b.isOpen peer = true := by
  unfold openPeers
  rw [List.mem_filter, SortedMap.mem_keys_iff]
  refine ⟨And.right, fun hopen => ⟨?_, hopen⟩⟩
  unfold isOpen at hopen
  split at hopen
  · rename_i c hc
    exact ⟨c, hc⟩
  · cases hopen

theorem nodup_openPeers (b : Broker) : b.openPeers.Nodup :=
  (SortedMap.nodup_keys b.connections).filter _

/-- There are no more open connections than connections. -/
theorem length_openPeers_le (b : Broker) : b.openPeers.length ≤ b.connections.size := by
  refine (List.length_filter_le _ _).trans ?_
  simp [SortedMap.keys, SortedMap.size]

theorem isOpen_takePending (b : Broker) (peer : PeerId) :
    b.takePending.isOpen peer = b.isOpen peer := by
  unfold isOpen
  rw [find?_takePending]
  cases b.connections.find? peer <;> rfl

/-- The broker after a round in which the queued changes of state are processed in some order. -/
def roundOf (b : Broker) (taken : List (PeerId × Transition)) (now : Instant) : Broker :=
  taken.foldl (fun b x => (b.onTransition x.1 x.2 now).value) b.takePending

/-- What a round queues anew follows from the closing of a connection in that round. -/
theorem length_openPeers_roundOf (hq : b.takePending.Queued taken)
    (hpending : (b.roundOf taken now).pending ≠ []) :
    (b.roundOf taken now).openPeers.length < b.openPeers.length := by
  have hquiet : Quiet b.takePending (b.roundOf taken now) :=
    (foldl_onTransition_spec now taken hq).1
  -- A connection with something queued has closed in this round, since its queue was empty.
  obtain ⟨⟨peer, t⟩, hmem⟩ := List.exists_mem_of_ne_nil _ hpending
  obtain ⟨c', hc', ht⟩ := mem_pending_iff.1 hmem
  obtain ⟨c, hc, -, hsettles⟩ := hquiet peer c' hc'
  have hempty : c.transitions = [] := by
    rw [find?_takePending, Option.map_eq_some_iff] at hc
    obtain ⟨c₀, -, rfl⟩ := hc
    rfl
  obtain ⟨hopen, hclosed⟩ : c.state ≠ .closed ∧ c'.state = .closed := by
    rcases hsettles with ⟨-, hqueue⟩ | hcloses
    · rw [hqueue, hempty] at ht
      cases ht
    · exact hcloses
  have hwas : peer ∈ b.openPeers := by
    rw [mem_openPeers_iff, ← isOpen_takePending, isOpen, hc]
    simpa [Connection.isClosed] using hopen
  have hgone : peer ∉ (b.roundOf taken now).openPeers := by
    rw [mem_openPeers_iff, isOpen, hc']
    simp [Connection.isClosed, hclosed]
  -- No connection opens in a round, so that this peer and those that are still open were open
  -- before.
  have hsubset : peer :: (b.roundOf taken now).openPeers ⊆ b.openPeers := by
    refine List.cons_subset.2 ⟨hwas, fun q hq' => ?_⟩
    rw [mem_openPeers_iff] at hq' ⊢
    unfold isOpen at hq'
    split at hq'
    · rename_i d' hd'
      obtain ⟨d, hd, hadvances, -⟩ := hquiet q d' hd'
      rw [← isOpen_takePending, isOpen, hd]
      simpa using hadvances.open_of_open (by simpa using hq')
    · cases hq'
  have hnodup : (peer :: (b.roundOf taken now).openPeers).Nodup :=
    List.nodup_cons.2 ⟨hgone, nodup_openPeers _⟩
  exact (hnodup.subperm hsubset).length_le

theorem length_openPeers_afterRound (hq : b.Queued [])
    (hpending : (b.afterRound now).pending ≠ []) :
    (b.afterRound now).openPeers.length < b.openPeers.length :=
  length_openPeers_roundOf hq.takePending hpending

/-- What holds of a broker, and of the changes of state that were taken and are not processed yet,
holds after draining, where none are left, if it is kept when the queues are taken and when the
first of the changes is processed. -/
theorem drain_induction {I : List (PeerId × Transition) → Broker → Prop}
    (htake : ∀ b, I [] b → I b.pending b.takePending)
    (hprocess : ∀ b x taken, I (x :: taken) b → I taken (b.onTransition x.1 x.2 now).value)
    (h : I [] b) : I [] (b.drain now).value := by
  have hround : ∀ (taken : List (PeerId × Transition)) (b : Broker), I taken b →
      I [] (taken.foldl (fun b x => (b.onTransition x.1 x.2 now).value) b) := by
    intro taken
    induction taken with
    | nil => exact fun b hb => hb
    | cons x rest ih => exact fun b hb => ih _ (hprocess b x rest hb)
  have hwithin : ∀ (rounds : Nat) (b : Broker), I [] b →
      I [] (drainWithin now rounds b).value := by
    intro rounds
    induction rounds with
    | zero => exact fun b hb => hb
    | succ rounds ih =>
      intro b hb
      unfold drainWithin
      split
      · exact hb
      -- A round takes the queues, and the next one finds nothing left of what this one took.
      · simp only [Noted.value_bind, Noted.value_foldlM]
        exact ih _ (hround b.pending _ (htake b hb))
  exact hwithin _ b h

/-- More rounds than there are open connections leave nothing waiting. -/
theorem pending_drainWithin {rounds : Nat} (hq : b.Queued [])
    (hrounds : b.openPeers.length < rounds) : (drainWithin now rounds b).value.pending = [] := by
  induction rounds generalizing b with
  | zero => exact absurd hrounds (Nat.not_lt_zero _)
  | succ rounds ih =>
    unfold drainWithin
    split
    · rename_i hempty
      simpa using hempty
    · simp only [Noted.value_bind, Noted.value_foldlM]
      change (drainWithin now rounds (b.afterRound now)).value.pending = []
      -- Every round that queues something anew has one open connection less to start from.
      by_cases hpending : (b.afterRound now).pending = []
      · unfold drainWithin
        split
        · exact hpending
        · simp [hpending]
      · have hless := length_openPeers_afterRound hq hpending
        exact ih (hq.afterRound now) (by omega)

/-- Draining is a chain of moves, after which everything that happened is queued. -/
theorem drain_spec (call : BrokerCall) (now : Instant) (hq : b.Queued []) :
    Moves call now b (b.drain now).value ∧ (b.drain now).value.Queued [] := by
  refine drain_induction (I := fun taken s => Moves call now b s ∧ s.Queued taken) ?_ ?_ ⟨.refl, hq⟩
  · rintro s ⟨hmoves, hs⟩
    exact ⟨hmoves.tail .take, hs.takePending⟩
  · rintro s ⟨peer, t⟩ taken ⟨hmoves, hs⟩
    obtain ⟨hmore, -, hrest⟩ := onTransition_spec call now hs
    exact ⟨hmoves.trans hmore, hrest⟩

/-- Draining is a chain of moves. -/
theorem drain_moves (hq : b.Queued []) : Moves call now b (b.drain now).value :=
  (drain_spec call now hq).1

/-- After draining nothing waits, and no connection in the table is closed. -/
theorem drain_rests (hq : b.Queued []) : (b.drain now).value.Rested := by
  have hdrained : (b.drain now).value.Queued [] :=
    (drain_spec .sweep now hq).2
  have hpending : (b.drain now).value.pending = [] := by
    refine pending_drainWithin hq ?_
    have hle := length_openPeers_le b
    omega
  intro peer c hc
  have hempty : c.transitions = [] := by
    refine List.eq_nil_iff_forall_not_mem.2 fun t ht => ?_
    have hmem : (peer, t) ∈ (b.drain now).value.pending := mem_pending_iff.2 ⟨c, hc, ht⟩
    rw [hpending] at hmem
    cases hmem
  refine ⟨hempty, ?_⟩
  rw [hdrained peer c hc, hempty]
  rfl

/-- Draining does nothing when nothing waits, and notes nothing. -/
theorem drain_eq_pure (hr : b.Rested) (now : Instant) : b.drain now = pure b := by
  have hpending : b.pending = [] := by
    refine List.eq_nil_iff_forall_not_mem.2 fun x hx => ?_
    obtain ⟨c, hc, ht⟩ := mem_pending_iff.1 hx
    rw [(hr x.1 c hc).1] at ht
    cases ht
  unfold drain drainWithin
  simp [hpending]

theorem drain_of_rested (hr : b.Rested) (now : Instant) : (b.drain now).value = b :=
  congrArg Noted.value (drain_eq_pure hr now)

end ObjectBus.Broker
