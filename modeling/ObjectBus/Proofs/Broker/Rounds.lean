import ObjectBus.Proofs.Broker.Lives

/-!
# Rounds of a drain

Draining takes what waits in the queues and processes it, and goes on as long as that queues
anything new. What follows here does not depend on the number of rounds that the broker allows
itself, nor on the order in which a round looks at the connections, as long as the changes of state
of each connection are processed in order.

* `Gathers`, `Rounds`: what a round may process, and some rounds one after the other;
* `Rounds.length_le`: there are at most as many rounds as connections, and one;
* `Rounds.account`: what was processed of a connection is what it had queued and what it queued
  meanwhile, in order;
* `Rounds.finished`: so it is for all connections when nothing waits any more.
-/

namespace ObjectBus

namespace Connection

variable {c c' : Connection} {now : Instant}

@[simp]
theorem remembering_nil (c : Connection) : c.remembering [] = c := rfl

theorem remembering_remembering (c : Connection) (taken taken' : List Transition) :
    (c.remembering taken').remembering taken = c.remembering (taken ++ taken') := by
  simp [remembering]

/-- Putting back what was taken from a queue restores it. -/
theorem remembering_drained (c : Connection) : c.drained.remembering c.transitions = c := by
  simp [remembering, drained]

/-- What a host does with a connection does not open it again, and a closed one queues nothing. -/
theorem Hosted.advances (h : c.Hosted c') : c.Advances (fun _ => True) c' := by
  refine h.induction (I := fun d => c.Advances (fun _ => True) d) (fun d t hd => ?_)
    (fun d cause hd => ?_) (fun d typeName hd => ?_) (fun d refusal hd => ?_) (.refl _ c)
  · exact hd.trans (advances_send d trivial)
  · exact hd.trans (advances_close _ d cause)
  · have hact : d.Acts default (d.rememberImport typeName) := .rememberImport typeName
    exact hd.trans (hact.advances.mono fun _ _ => trivial)
  · exact hd.trans (.of_eq _ rfl rfl rfl rfl)

/-- A connection that has closed stays closed, and queues nothing any more. -/
theorem Hosted.of_closed (h : c.Hosted c') (hclosed : c.isClosed = true) :
    c'.isClosed = true ∧ c'.transitions = c.transitions := by
  obtain ⟨queued, hqueue, hnone, -⟩ := h.advances.queue
  rw [hnone hclosed, List.append_nil] at hqueue
  exact ⟨h.advances.isClosed hclosed, hqueue⟩

end Connection

namespace Broker

open Relation (ReflTransGen)

variable {call : BrokerCall} {now : Instant} {b b' s : Broker} {peer q : PeerId}
variable {taken : List (PeerId × Transition)} {rounds : List (List (PeerId × Transition))}
variable {c d : Connection} {t : Transition}

/-! ## Rounds -/

/-- What a round may process: all that waits, with the changes of state of each connection in
order. -/
def Gathers (b : Broker) (taken : List (PeerId × Transition)) : Prop :=
  ∀ peer, takenOf peer taken = takenOf peer b.pending

/-- Some rounds, one after the other, each of which found something waiting, with what they
processed. -/
inductive Rounds (now : Instant) : Broker → List (List (PeerId × Transition)) → Broker → Prop
  /-- No more rounds. -/
  | done (b : Broker) : Rounds now b [] b
  /-- A round, and those after it. -/
  | round {b b' : Broker} {taken : List (PeerId × Transition)}
      {rounds : List (List (PeerId × Transition))} (hsome : taken ≠ []) (hgathers : b.Gathers taken)
      (rest : Rounds now (b.roundOf taken now) rounds b') : Rounds now b (taken :: rounds) b'

/-- Of a connection a round processes what it has queued. -/
theorem Gathers.of_present (h : b.Gathers taken) (hc : b.connections.find? peer = some c) :
    takenOf peer taken = c.transitions := by
  rw [h peer, takenOf_pending, hc]
  rfl

theorem Gathers.of_absent (h : b.Gathers taken) (hc : b.connections.find? peer = none) :
    takenOf peer taken = [] := by
  rw [h peer, takenOf_pending, hc]
  rfl

/-- A round that processes something follows a state in which something waits. -/
theorem Gathers.pending_ne_nil (h : b.Gathers taken) (hsome : taken ≠ []) : b.pending ≠ [] := by
  intro hnone
  obtain ⟨x, hx⟩ := List.exists_mem_of_ne_nil taken hsome
  have hnothing : takenOf x.1 taken = [] := by
    rw [h x.1, hnone]
    rfl
  have hmem : x.2 ∈ takenOf x.1 taken :=
    List.mem_map.2 ⟨x, List.mem_filter.2 ⟨hx, by simp⟩, rfl⟩
  rw [hnothing] at hmem
  cases hmem

theorem any_closes_takenOf (peer : PeerId) (taken : List (PeerId × Transition)) :
    (takenOf peer taken).any (·.closes) =
      taken.any fun x => decide (x.1 = peer) && x.2.closes := by
  unfold takenOf
  rw [List.any_map, List.any_filter]
  rfl

/-- Whatever the order, the closings that were taken are those that waited. -/
theorem Gathers.queued (h : b.Gathers taken) (hq : b.Queued []) :
    b.takePending.Queued taken := by
  intro peer c hc
  rw [hq.takePending peer c hc, ← any_closes_takenOf, ← any_closes_takenOf, h peer]

theorem Gathers.queued_roundOf (h : b.Gathers taken) (hq : b.Queued []) :
    (b.roundOf taken now).Queued [] :=
  (foldl_onTransition_spec now taken (h.queued hq)).2

namespace Rounds

/-- Every round but the first follows the closing of a connection that was open before. -/
theorem length_le_openPeers (h : Rounds now b rounds b') (hq : b.Queued []) :
    rounds.length ≤ b.openPeers.length + 1 := by
  induction h with
  | done b => exact Nat.zero_le _
  | @round b b' taken rounds _ hgathers rest ih =>
    have hrest := ih (hgathers.queued_roundOf hq)
    -- The last round need not have closed anything, and that is the one more.
    cases rest with
    | done => simp
    | round hsome' hgathers' _ =>
      have hless : (b.roundOf taken now).openPeers.length < b.openPeers.length :=
        length_openPeers_roundOf (hgathers.queued hq) (hgathers'.pending_ne_nil hsome')
      simp only [List.length_cons] at hrest ⊢
      omega

/-- There are at most as many rounds as connections, and one. -/
theorem length_le (h : Rounds now b rounds b') (hq : b.Queued []) :
    rounds.length ≤ b.connections.size + 1 :=
  (h.length_le_openPeers hq).trans (Nat.succ_le_succ (length_openPeers_le b))

end Rounds

/-- Draining within a number of rounds is a number of rounds. -/
theorem rounds_drainWithin (fuel : Nat) (b : Broker) :
    ∃ rounds, Rounds now b rounds (drainWithin now fuel b).value := by
  induction fuel generalizing b with
  | zero => exact ⟨[], .done b⟩
  | succ fuel ih =>
    unfold drainWithin
    split
    · exact ⟨[], .done b⟩
    · rename_i hpending
      obtain ⟨rounds, hrest⟩ := ih (b.afterRound now)
      simp only [Noted.value_bind, Noted.value_foldlM]
      exact ⟨b.pending :: rounds, .round (by simpa using hpending) (fun _ => rfl) hrest⟩

/-! ## What becomes of one connection -/

/-- Processing a change of state leaves a peer in its table, unless it is the closing of the
connection of that peer. -/
theorem serves_onTransition (t : Transition)
    (hstays : q = peer → t.closes = true → b.connections.find? peer = none) :
    Serves peer b (b.onTransition q t now).value := by
  have hserves : Serves peer (if t.closes then b.setAside q else b)
      (b.onTransition q t now).value :=
    serves_of_steps (steps_departed (.clearCache []) b q t now) peer
  refine Serves.trans ?_ hserves
  split
  · rename_i hcloses
    by_cases hq : q = peer
    · -- A connection that is not in the table cannot leave it.
      have hnone := hstays hq hcloses
      subst hq
      rw [setAside, hnone]
      exact .refl q b
    · exact serves_setAside b (Ne.symm hq)
  · exact .refl peer b

/-- Processing changes of state leaves a peer in its table, unless its connection is there and its
closing is among them. -/
theorem serves_foldl_onTransition
    (hstays : (takenOf peer taken).any (·.closes) = true → b.connections.find? peer = none) :
    Serves peer b (taken.foldl (fun b x => (b.onTransition x.1 x.2 now).value) b) := by
  induction taken generalizing b with
  | nil => exact .refl peer b
  | cons x rest ih =>
    rw [takenOf_cons] at hstays
    have hfirst : Serves peer b (b.onTransition x.1 x.2 now).value := by
      refine serves_onTransition x.2 fun hx hcloses => hstays ?_
      simp [hx, hcloses]
    refine hfirst.trans (ih fun hcloses => hfirst.find?_eq_none_iff.2 (hstays ?_))
    split
    · simp [hcloses]
    · exact hcloses

/-- If its closing is among them the connection moves to the other table, as its host has left
it. -/
theorem leaves_foldl_onTransition (hc : b.connections.find? peer = some c)
    (hcloses : (takenOf peer taken).any (·.closes) = true) :
    ∃ d, c.Hosted d ∧
      (taken.foldl (fun b x => (b.onTransition x.1 x.2 now).value) b).connections.find? peer =
        none ∧
      (taken.foldl (fun b x => (b.onTransition x.1 x.2 now).value) b).closed.find? peer =
        some d := by
  induction taken generalizing b c with
  | nil => cases hcloses
  | cons x rest ih =>
    rw [List.foldl_cons]
    by_cases hx : x.1 = peer ∧ x.2.closes = true
    · -- From here on the peer has no connection in the table, and nothing happens to it.
      obtain ⟨rfl, hx⟩ := hx
      have hleaves : Serves x.1 (b.setAside x.1) (b.onTransition x.1 x.2 now).value := by
        have hsteps := steps_departed (.clearCache []) b x.1 x.2 now
        rw [if_pos hx] at hsteps
        exact serves_of_steps hsteps x.1
      have hnone : (b.onTransition x.1 x.2 now).value.connections.find? x.1 = none :=
        hleaves.find?_eq_none_iff.2 (by simp)
      have hrest : Serves x.1 (b.onTransition x.1 x.2 now).value
          (rest.foldl (fun b x => (b.onTransition x.1 x.2 now).value)
            (b.onTransition x.1 x.2 now).value) :=
        serves_foldl_onTransition fun _ => hnone
      exact ⟨c, .refl c, hrest.find?_eq_none_iff.2 hnone,
        hrest.closed.trans (hleaves.closed.trans (closed_setAside hc))⟩
    · -- Until then the connection stays where it is.
      have hfirst : Serves peer b (b.onTransition x.1 x.2 now).value :=
        serves_onTransition x.2 fun heq hx' => absurd ⟨heq, hx'⟩ hx
      obtain ⟨c₁, hc₁, hhosted⟩ := exists_after_of_rel hfirst.connection hc
      have hrest : (takenOf peer rest).any (·.closes) = true := by
        rw [takenOf_cons] at hcloses
        split at hcloses
        · rename_i heq
          have hopen : x.2.closes = false := Bool.eq_false_iff.2 fun hx' => hx ⟨heq, hx'⟩
          rwa [List.any_cons, hopen, Bool.false_or] at hcloses
        · exact hcloses
      obtain ⟨d, hhosted', hgone⟩ := ih hc₁ hrest
      exact ⟨d, hhosted.trans hhosted', hgone⟩

/-- Where a connection that was in the table is after some rounds: there, or among the closed ones
with nothing left in its queue. -/
inductive Remains (peer : PeerId) (b b' : Broker) (d : Connection) : Prop
  /-- It is in the table. -/
  | present (hd : b'.connections.find? peer = some d)
      (hclosed : b'.closed.find? peer = b.closed.find? peer)
  /-- It has left the table. -/
  | gone (hnone : b'.connections.find? peer = none) (hd : b'.closed.find? peer = some d)
      (hclosed : d.isClosed = true) (hqueue : d.transitions = [])

namespace Rounds

/-- Nothing happens to a peer without a connection in the table. -/
theorem absent (h : Rounds now b rounds b') (hc : b.connections.find? peer = none) :
    Serves peer b b' ∧ takenOf peer rounds.flatten = [] := by
  induction h with
  | done b => exact ⟨.refl peer b, rfl⟩
  | @round b b' taken rounds _ hgathers _ ih =>
    have hnone : b.takePending.connections.find? peer = none := by
      rw [find?_takePending, hc, Option.map_none]
    have hround : Serves peer b (b.roundOf taken now) :=
      .trans (.of_eq (hnone.trans hc.symm) rfl rfl) (serves_foldl_onTransition fun _ => hnone)
    obtain ⟨hrest, hnothing⟩ := ih (hround.find?_eq_none_iff.2 hc)
    refine ⟨hround.trans hrest, ?_⟩
    rw [List.flatten_cons, takenOf_append, hgathers.of_absent hc, hnothing]
    rfl

/-- What was processed of a connection, put back in front of its queue, is what it has queued if
nothing was taken from it: all of that, each change once and in order. -/
theorem account (h : Rounds now b rounds b') (hq : b.Queued [])
    (hc : b.connections.find? peer = some c) :
    ∃ d, Remains peer b b' d ∧ c.Hosted (d.remembering (takenOf peer rounds.flatten)) := by
  induction h generalizing c with
  | done b => exact ⟨c, .present hc rfl, .refl c⟩
  | @round b b' taken rounds _ hgathers hrounds ih =>
    have hqueue := hgathers.of_present hc
    have hdrained : b.takePending.connections.find? peer = some c.drained := by
      rw [find?_takePending, hc, Option.map_some]
    rw [List.flatten_cons, takenOf_append, hqueue]
    by_cases hcloses : c.transitions.any (·.closes) = true
    · obtain ⟨d, hhosted, hnone, hd⟩ :
          ∃ d, c.drained.Hosted d ∧ (b.roundOf taken now).connections.find? peer = none ∧
            (b.roundOf taken now).closed.find? peer = some d :=
        leaves_foldl_onTransition hdrained (hqueue ▸ hcloses)
      -- The closing was queued by the connection itself, which has queued nothing since then.
      have hclosed : c.drained.isClosed = true := by
        show c.isClosed = true
        simp [hq peer c hc, hcloses]
      obtain ⟨hclosed', hempty⟩ := hhosted.of_closed hclosed
      obtain ⟨hrest, hnothing⟩ := hrounds.absent hnone
      have hgone := hrest.find?_eq_none_iff.2 hnone
      refine ⟨d, .gone hgone (hrest.closed.trans hd) hclosed' hempty, ?_⟩
      have hput := hhosted.remembering c.transitions
      rw [Connection.remembering_drained] at hput
      rwa [hnothing, List.append_nil]
    · have hround : Serves peer b.takePending (b.roundOf taken now) := by
        refine serves_foldl_onTransition fun hcloses' => absurd ?_ hcloses
        rwa [hqueue] at hcloses'
      obtain ⟨c₁, hc₁, hhosted⟩ := exists_after_of_rel hround.connection hdrained
      obtain ⟨d, hremains, hhosted'⟩ := ih (hgathers.queued_roundOf hq) hc₁
      -- What this round took comes before what the later ones did.
      have hput := (hhosted.remembering c.transitions).trans (hhosted'.remembering c.transitions)
      rw [Connection.remembering_drained, Connection.remembering_remembering] at hput
      refine ⟨d, ?_, hput⟩
      cases hremains with
      | present hd hsame => exact .present hd (hsame.trans hround.closed)
      | gone hnone hd hclosed hempty => exact .gone hnone hd hclosed hempty

/-- Observers are told of what was processed, and of nothing else. -/
theorem told (h : Rounds now b rounds b') (peer : PeerId) :
    b'.toldOf peer = b.toldOf peer ++ takenOf peer rounds.flatten := by
  have hround : ∀ (taken : List (PeerId × Transition)) (b : Broker),
      (taken.foldl (fun b x => (b.onTransition x.1 x.2 now).value) b).toldOf peer =
        b.toldOf peer ++ takenOf peer taken := by
    intro taken
    induction taken with
    | nil => exact fun b => (List.append_nil _).symm
    | cons x rest ih =>
      intro b
      rw [List.foldl_cons, ih, toldOf_onTransition, takenOf_cons, List.append_assoc]
      split <;> rfl
  induction h with
  | done b => exact (List.append_nil _).symm
  | @round b b' taken rounds _ _ _ ih =>
    have hfirst : (b.roundOf taken now).toldOf peer = b.toldOf peer ++ takenOf peer taken :=
      hround taken b.takePending
    rw [ih, hfirst, List.flatten_cons, takenOf_append, List.append_assoc]

end Rounds

/-! ## The closed connections -/

/-- The connections in the table of the closed ones are closed, and nothing of them waits. -/
def Buried (b : Broker) : Prop :=
  ∀ peer c, b.closed.find? peer = some c → c.isClosed = true ∧ c.transitions = []

namespace Buried

theorem step (h : b.Buried) (hstep : Step call now b b') : b'.Buried := by
  rcases hstep.tables with ⟨hclosed, -⟩ | ⟨-, rfl⟩
  · exact fun peer c hc => h peer c (hclosed ▸ hc)
  · intro peer c hc
    cases hc

/-- Whatever leaves the table in a round has closed, and its queue has been taken. -/
theorem of_rounds (h : b.Buried) (hrounds : Rounds now b rounds b') (hq : b.Queued []) :
    b'.Buried := by
  intro peer c' hc'
  cases hc : b.connections.find? peer with
  | none =>
    obtain ⟨hserves, -⟩ := hrounds.absent hc
    exact h peer c' (hserves.closed ▸ hc')
  | some c =>
    obtain ⟨d, hremains, -⟩ := hrounds.account hq hc
    cases hremains with
    | present _ hsame => exact h peer c' (hsame ▸ hc')
    | gone _ hd hclosed hqueue =>
      obtain rfl : d = c' := Option.some.inj (hd.symm.trans hc')
      exact ⟨hclosed, hqueue⟩

theorem strand (h : b.Buried) (hs : Strand call now b b') (hq : b.Queued []) : b'.Buried := by
  induction hs with
  | steps hsteps => exact Steps.induction step h hsteps
  | drain b =>
    obtain ⟨rounds, hrounds⟩ := rounds_drainWithin (b.connections.size + 2) b
    exact h.of_rounds hrounds hq
  | trans hfirst _ ih ih' => exact ih' (ih h hq) (hfirst.works hq).2

end Buried

/-! ## Rounds that have finished -/

/-- What some rounds have done if nothing waits in the end. -/
structure Finished (s : Broker) (rounds : List (List (PeerId × Transition))) (b' : Broker) :
    Prop where
  /-- Nothing is queued, neither by an open connection nor by a closed one. -/
  idle : ∀ peer c, b'.connections.find? peer = some c ∨ b'.closed.find? peer = some c →
    c.transitions = []
  /-- What was processed of a connection is what it would have queued if nothing had been taken
  from it, before the first round and since then: each change of state once, and in order. -/
  processed : ∀ peer c, s.connections.find? peer = some c → ∃ w, c.Hosted w ∧
    takenOf peer rounds.flatten = w.transitions ∧
    (b'.connections.find? peer = some w.drained ∨
      b'.connections.find? peer = none ∧ b'.closed.find? peer = some w.drained)
  /-- Nothing else was processed. -/
  absent : ∀ peer, s.connections.find? peer = none → takenOf peer rounds.flatten = []
  /-- Observers were told of what was processed. -/
  told : ∀ peer, b'.toldOf peer = s.toldOf peer ++ takenOf peer rounds.flatten

theorem Rounds.finished (h : Rounds now s rounds b') (hq : s.Queued []) (hs : s.Buried)
    (hnothing : b'.pending = []) : Finished s rounds b' := by
  have hidle : ∀ peer c, b'.connections.find? peer = some c → c.transitions = [] := by
    intro peer c hc
    have hqueue := takenOf_pending b' peer
    rw [hnothing, hc] at hqueue
    exact hqueue.symm
  refine ⟨fun peer c hc => ?_, fun peer c hc => ?_, fun peer hc => (h.absent hc).2, h.told⟩
  · rcases hc with hc | hc
    · exact hidle peer c hc
    · exact (hs.of_rounds h hq peer c hc).2
  · obtain ⟨d, hremains, hhosted⟩ := h.account hq hc
    have hempty : d.transitions = [] := by
      cases hremains with
      | present hd _ => exact hidle peer d hd
      | gone _ _ _ hqueue => exact hqueue
    -- The connection that has queued all of it is the one that is left, with that put back.
    have hdrained : (d.remembering (takenOf peer rounds.flatten)).drained = d := by
      simp [Connection.remembering, Connection.drained, ← hempty]
    refine ⟨d.remembering (takenOf peer rounds.flatten), hhosted, ?_, ?_⟩
    · simp [Connection.remembering, hempty]
    · rw [hdrained]
      cases hremains with
      | present hd _ => exact .inl hd
      | gone hnone hd _ _ => exact .inr ⟨hnone, hd⟩

end Broker

end ObjectBus
