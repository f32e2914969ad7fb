import ObjectBus.Proofs.Broker.Fanout
import ObjectBus.Proofs.Broker.Partings
import ObjectBus.Proofs.Broker.Silence

/-!
# Connections that endure

The trace of a channel only grows, so that it can be told from the traces before and after some
part of a call whether the channel refused anything meanwhile. While others are served and changes
of state are processed, nothing but such a refusal closes the connection of a guest.

* `Channel.Unfailing`, `Broker.Unfailing`: a channel refused nothing between two states;
* `Connection.Persists`, `Broker.Persists`: unless it refuses something, a connection stays open and
  keeps its state;
* `persists_drain`: processing changes of state;
* `drain_of_unfailing`: of which there are none if no channel refuses anything;
* `keptInSilence_persists`: this is kept by all parts of the calls that do not hear the guest;
* `persists_acceptRequest`: and by the work that the guest itself asks for.
-/

namespace ObjectBus

/-- Whether this was the refusal of a transmission. -/
def ChannelAction.isRefusal : ChannelAction → Bool
  | refused .. => true
  | _ => false

/-- What was appended to a list that was itself appended to. -/
theorem drop_length_of_prefix {α : Type} {l l' l'' : List α} (h : l <+: l') (h' : l' <+: l'') :
    l''.drop l.length = l'.drop l.length ++ l''.drop l'.length := by
  obtain ⟨more, rfl⟩ := h
  obtain ⟨rest, rfl⟩ := h'
  simp

/-- A channel refused nothing between two states. -/
def Channel.Unfailing (c c' : Channel) : Prop :=
  ∀ a ∈ c'.trace.drop c.trace.length, a.isRefusal = false

/-- A channel that refused nothing in the whole refused nothing in either part. -/
theorem Channel.Unfailing.parts {c c' c'' : Channel} (hwhole : c.Unfailing c'')
    (h : c.trace <+: c'.trace) (h' : c'.trace <+: c''.trace) :
    c.Unfailing c' ∧ c'.Unfailing c'' := by
  rw [Unfailing, drop_length_of_prefix h h', List.forall_mem_append] at hwhole
  exact hwhole

namespace Connection

variable {c c' c'' : Connection} {t : Transmission}

/-- A connection is open and its closing does not wait to be processed. -/
structure Lasting (c : Connection) : Prop where
  /-- It is open. -/
  stands : c.isClosed = false
  /-- No closing is queued. -/
  queue : ∀ t ∈ c.transitions, t.closes = false

/-- The trace of a connection's channel grows, and unless the channel refuses something the
connection lasts in the state that it has. -/
structure Persists (c c' : Connection) : Prop where
  /-- The trace grows. -/
  trace : c.channel.trace <+: c'.channel.trace
  /-- The connection lasts. -/
  lasts : c.channel.Unfailing c'.channel → c.Lasting → c'.Lasting ∧ c'.state = c.state

namespace Persists

/-- Nothing is done with the channel, and no closing is queued. -/
theorem of_eq (htrace : c'.channel.trace = c.channel.trace) (hstate : c'.state = c.state)
    (hqueue : c'.transitions ⊆ c.transitions) : c.Persists c' := by
  refine ⟨htrace ▸ List.prefix_rfl, fun _ hlasts => ⟨⟨?_, fun t ht => ?_⟩, hstate⟩⟩
  · rw [isClosed, hstate]
    exact hlasts.stands
  · exact hlasts.queue t (hqueue ht)

theorem refl (c : Connection) : c.Persists c := .of_eq rfl rfl (List.Subset.refl _)

theorem trans (h : c.Persists c') (h' : c'.Persists c'') : c.Persists c'' := by
  refine ⟨h.trace.trans h'.trace, fun hunfailing hlasts => ?_⟩
  obtain ⟨hfirst, hsecond⟩ := hunfailing.parts h.trace h'.trace
  obtain ⟨hlasts', hstate⟩ := h.lasts hfirst hlasts
  obtain ⟨hlasts'', hstate'⟩ := h'.lasts hsecond hlasts'
  exact ⟨hlasts'', hstate'.trans hstate⟩

end Persists

/-- Sending closes a connection only if its channel refuses. -/
theorem persists_send (c : Connection) (t : Transmission) : c.Persists (c.send t).value := by
  by_cases hidle : c.state = .closed ∨ c.state = .suspended
  · have hsame : (c.send t).value = c := by
      unfold send
      rcases hidle with hstate | hstate <;> simp [hstate]
    rw [hsame]
    exact .refl c
  · have hstate := not_or.1 hidle
    -- What the channel does with the transmission shows at the end of the trace.
    cases hrefusal : c.channel.refusal c.channel.trace t with
    | none =>
      rw [value_send_of_taken hstate hrefusal]
      exact ⟨List.prefix_append _ _, fun _ hlasts => ⟨⟨hlasts.stands, hlasts.queue⟩, rfl⟩⟩
    | some error =>
      rw [value_send_of_refused hstate hrefusal]
      refine ⟨List.prefix_append _ _, fun hunfailing => ?_⟩
      rw [Channel.Unfailing, List.drop_left] at hunfailing
      cases hunfailing _ List.mem_cons_self

theorem persists_foldl_send (ts : List Transmission) (c : Connection) :
    c.Persists (ts.foldl (fun c t => (c.send t).value) c) := by
  induction ts generalizing c with
  | nil => exact .refl c
  | cons t rest ih => exact (persists_send c t).trans (ih _)

theorem persists_offered (c : Connection) (t : Transmission) : c.Persists (c.offered t) := by
  unfold offered
  split
  · exact persists_send c t
  · exact .refl c

theorem persists_drained (c : Connection) : c.Persists c.drained :=
  .of_eq rfl rfl (List.nil_subset _)

theorem persists_rememberImport (c : Connection) (typeName : String) :
    c.Persists (c.rememberImport typeName) := by
  unfold rememberImport
  split
  · exact .refl c
  · exact .of_eq rfl rfl (List.Subset.refl _)

end Connection

namespace Broker

variable {call : BrokerCall} {now : Instant} {b b' b'' : Broker} {peer sender : PeerId}
variable {c c' : Connection}

/-- What was done with the channel of a guest so far. -/
def traceOf (b : Broker) (peer : PeerId) : List ChannelAction :=
  ((b.channel? peer).map (·.trace)).getD []

/-- What was done with the channel of a guest between two states of a broker. -/
def newActions (b b' : Broker) (peer : PeerId) : List ChannelAction :=
  (b'.traceOf peer).drop (b.traceOf peer).length

/-- The channel of a guest refused nothing between two states of a broker. -/
def Unfailing (b b' : Broker) (peer : PeerId) : Prop :=
  ∀ a ∈ b.newActions b' peer, a.isRefusal = false

theorem traceOf_of_open (hc : b.connections.find? peer = some c) :
    b.traceOf peer = c.channel.trace := by
  rw [traceOf, channel?_of_open hc]
  rfl

/-! ## Traces -/

/-- Between two states of a broker more was done with the channel of a guest. -/
def Grows (peer : PeerId) (b b' : Broker) : Prop := b.traceOf peer <+: b'.traceOf peer

namespace Grows

theorem of_eq (h : b'.channel? peer = b.channel? peer) : Grows peer b b' := by
  have htrace : b'.traceOf peer = b.traceOf peer := by rw [traceOf, traceOf, h]
  show b.traceOf peer <+: b'.traceOf peer
  exact htrace ▸ List.prefix_rfl

theorem trans (h : Grows peer b b') (h' : Grows peer b' b'') : Grows peer b b'' :=
  List.IsPrefix.trans h h'

/-- A connection stays in its table and its trace grows. -/
theorem of_rel (hclosed : b'.closed = b.closed) (hreleased : b'.released = b.released)
    (h : Option.Rel Connection.Persists (b.connections.find? peer)
      (b'.connections.find? peer)) : Grows peer b b' := by
  cases hc : b.connections.find? peer with
  | none =>
    -- The channel is that of a connection that left before, if there was one.
    have hc' := (eq_none_iff_of_rel h).2 hc
    refine .of_eq ?_
    rw [channel?_of_gone hc', channel?_of_gone hc, hclosed, hreleased]
  | some c =>
    obtain ⟨c', hc', hpersists⟩ := exists_after_of_rel h hc
    rw [Grows, traceOf_of_open hc, traceOf_of_open hc']
    exact hpersists.trace

/-- This can be said of the channel of a guest too, which may leave the table on the way. -/
theorem unfailing (h : Grows peer b b') (h' : Grows peer b' b'') (hwhole : b.Unfailing b'' peer) :
    b.Unfailing b' peer ∧ b'.Unfailing b'' peer := by
  rw [Unfailing, newActions, drop_length_of_prefix h h', List.forall_mem_append] at hwhole
  exact hwhole

end Grows

theorem rel_persists_dispatch (b : Broker) (schema : StructSchema) (h : Header) (o : Object)
    (now : Instant) (peer : PeerId) : Option.Rel Connection.Persists
      (b.connections.find? peer)
      ((b.dispatch schema h o now).value.1.connections.find? peer) := by
  rw [find?_dispatch]
  split
  · exact rel_map (fun c => c.persists_offered _) _
  · exact rel_refl .refl _

theorem keptByObjects_grows (peer : PeerId) : KeptByObjects (Grows peer) where
  trans := .trans
  idle {b b'} hconnections _ hclosed hreleased := by
    refine .of_rel hclosed hreleased ?_
    rw [hconnections]
    exact rel_refl .refl _
  dispatch b schema h o now :=
    .of_rel (by rw [value_dispatch]) (by rw [value_dispatch])
      (rel_persists_dispatch b schema h o now peer)

/-! ## Parts of calls -/

/-- A part of a call in which the trace of a guest's channel grows, and the guest's connection lasts
in the state that it has unless its channel refuses something. -/
structure Persists (peer : PeerId) (b b' : Broker) : Prop where
  /-- The trace grows. -/
  grows : Grows peer b b'
  /-- The connection lasts. -/
  lasts : b.Unfailing b' peer → ∀ c, b.connections.find? peer = some c → c.Lasting →
    ∃ c', b'.connections.find? peer = some c' ∧ c'.Lasting ∧ c'.state = c.state

namespace Persists

theorem of_rel (hclosed : b'.closed = b.closed) (hreleased : b'.released = b.released)
    (h : Option.Rel Connection.Persists (b.connections.find? peer)
      (b'.connections.find? peer)) : Persists peer b b' := by
  refine ⟨.of_rel hclosed hreleased h, fun hunfailing c hc hlasts => ?_⟩
  obtain ⟨c', hc', hpersists⟩ := exists_after_of_rel h hc
  rw [Unfailing, newActions, traceOf_of_open hc, traceOf_of_open hc'] at hunfailing
  exact ⟨c', hc', hpersists.lasts hunfailing hlasts⟩

/-- The connection stays as it is. -/
theorem of_eq (hclosed : b'.closed = b.closed) (hreleased : b'.released = b.released)
    (h : b'.connections.find? peer = b.connections.find? peer) : Persists peer b b' :=
  .of_rel hclosed hreleased (h ▸ rel_refl .refl _)

theorem refl (peer : PeerId) (b : Broker) : Persists peer b b := .of_eq rfl rfl rfl

theorem trans (h : Persists peer b b') (h' : Persists peer b' b'') : Persists peer b b'' := by
  refine ⟨h.grows.trans h'.grows, fun hunfailing c hc hlasts => ?_⟩
  obtain ⟨hfirst, hsecond⟩ := h.grows.unfailing h'.grows hunfailing
  obtain ⟨c', hc', hlasts', hstate⟩ := h.lasts hfirst c hc hlasts
  obtain ⟨c'', hc'', hlasts'', hstate'⟩ := h'.lasts hsecond c' hc' hlasts'
  exact ⟨c'', hc'', hlasts'', hstate'.trans hstate⟩

end Persists

theorem persists_putConnection (hc : b.connections.find? sender = some c)
    (h : c.Persists c') : Persists peer b (b.putConnection sender c') := by
  refine .of_rel rfl rfl ?_
  rw [find?_putConnection]
  split
  · rename_i hpeer
    rw [hpeer, hc]
    exact .some h
  · exact rel_refl .refl _

theorem keptByObjects_persists (peer : PeerId) : KeptByObjects (Persists peer) where
  trans := .trans
  idle hconnections _ hclosed hreleased := .of_eq hclosed hreleased (by rw [hconnections])
  dispatch b schema h o now :=
    .of_rel (by rw [value_dispatch]) (by rw [value_dispatch])
      (rel_persists_dispatch b schema h o now peer)

theorem persists_forward (b : Broker) (group : String) (t : Transmission) :
    Persists peer b (b.forward group t).value := by
  refine .of_rel rfl rfl ?_
  rw [connections_forward, GroupTable.find?_deliver]
  split
  · exact rel_map (fun c => c.persists_offered t) _
  · exact rel_refl .refl _

theorem persists_takePending (b : Broker) : Persists peer b b.takePending := by
  refine .of_rel rfl rfl ?_
  rw [find?_takePending]
  exact rel_map Connection.persists_drained _

/-- Processing changes of state of which none is the closing of the guest's own connection. -/
theorem persists_foldl_onTransition {taken : List (PeerId × Transition)}
    (htaken : ∀ x ∈ taken, x.1 = peer → x.2.closes = false) (b : Broker) :
    Persists peer b (taken.foldl (fun b x => (b.onTransition x.1 x.2 now).value) b) := by
  induction taken generalizing b with
  | nil => exact .refl peer b
  | cons x rest ih =>
    have hfirst : Persists peer b (b.onTransition x.1 x.2 now).value := by
      refine (keptByObjects_persists peer).onTransition b x.1 x.2 now fun hcloses => ?_
      have hother : peer ≠ x.1 := by
        rintro rfl
        rw [htaken x List.mem_cons_self rfl] at hcloses
        cases hcloses
      -- The connection of somebody else leaves the table, so that this one stays where it is.
      refine ⟨.of_eq (channel?_setAside b x.1 peer), fun _ c hc hlasts => ⟨c, ?_, hlasts, rfl⟩⟩
      rw [find?_setAside, if_neg hother, hc]
    exact hfirst.trans (ih (fun y hy => htaken y (List.mem_cons_of_mem _ hy)) _)

/-- Processing in rounds. -/
theorem persists_drainWithin (rounds : Nat) (b : Broker) (now : Instant) :
    Persists peer b (drainWithin now rounds b).value := by
  induction rounds generalizing b with
  | zero => exact .refl peer b
  | succ rounds ih =>
    unfold drainWithin
    split
    · exact .refl peer b
    · simp only [Noted.value_bind, Noted.value_foldlM]
      -- The trace grows in any round, also in that in which the guest's own connection leaves.
      have hround : Grows peer b.takePending (b.afterRound now) :=
        (keptByObjects_grows peer).foldl (fun b (x : PeerId × Transition) =>
          (keptByObjects_grows peer).onTransition b x.1 x.2 now fun _ =>
            .of_eq (channel?_setAside b x.1 peer)) _ _
      refine ⟨((persists_takePending b).grows.trans hround).trans (ih _).grows, ?_⟩
      intro hunfailing c hc hlasts
      -- A connection that lasts has no closing queued, so that none of it is taken.
      have htaken : ∀ x ∈ b.pending, x.1 = peer → x.2.closes = false := by
        rintro ⟨q, t⟩ hx rfl
        obtain ⟨d, hd, ht⟩ := mem_pending_iff.1 hx
        obtain rfl : d = c := Option.some.inj (hd.symm.trans hc)
        exact hlasts.queue t ht
      have hpersists : Persists peer b.takePending (b.afterRound now) :=
        persists_foldl_onTransition htaken b.takePending
      exact (((persists_takePending b).trans hpersists).trans (ih _)).lasts hunfailing c hc hlasts

theorem persists_drain (peer : PeerId) (b : Broker) (now : Instant) :
    Persists peer b (b.drain now).value :=
  persists_drainWithin _ b now

/-- Where connections have only been served and no channel has refused anything, nothing waits to
be processed. -/
theorem rested_of_unfailing (hr : b.Rested) (hserves : ∀ q, Serves q b b')
    (hpersists : ∀ q, Persists q b b')
    (hunfailing : ∀ q ∈ b.connections.keys, b.Unfailing b' q) : b'.Rested := by
  intro q c' hc'
  obtain ⟨c, hc, -⟩ := exists_before_of_rel (hserves q).connection hc'
  obtain ⟨hqueue, hopen⟩ := hr q c hc
  have hkey : q ∈ b.connections.keys := SortedMap.mem_keys_iff.2 ⟨c, hc⟩
  obtain ⟨d, hd, hlasts, -⟩ :=
    (hpersists q).lasts (hunfailing q hkey) c hc ⟨hopen, by simp [hqueue]⟩
  obtain rfl : d = c' := Option.some.inj (hd.symm.trans hc')
  refine ⟨List.eq_nil_iff_forall_not_mem.2 fun t ht => ?_, hlasts.stands⟩
  -- Serving a connection queues nothing but a closing, and its closing is not queued.
  have hcloses := onlyCloses_of_serves hr (hserves q) hc' t ht
  rw [hlasts.queue t ht] at hcloses
  cases hcloses

/-- In such a case draining changes nothing. -/
theorem drain_of_unfailing (hr : b.Rested) (hserves : ∀ q, Serves q b b')
    (hpersists : ∀ q, Persists q b b')
    (hunfailing : ∀ q ∈ b.connections.keys, b.Unfailing (b'.drain now).value q) :
    (∀ q ∈ b.connections.keys, b.Unfailing b' q) ∧ (b'.drain now).value = b' := by
  have hpart : ∀ q ∈ b.connections.keys, b.Unfailing b' q := fun q hq =>
    ((hpersists q).grows.unfailing (persists_drain q b' now).grows (hunfailing q hq)).1
  exact ⟨hpart, drain_of_rested (rested_of_unfailing hr hserves hpersists hpart) now⟩

/-! ## Whole calls -/

/-- Nothing but a refusal of its channel closes a connection in the parts of the calls that do not
hear its guest. -/
theorem keptInSilence_persists (peer : PeerId) : KeptInSilence (· = peer) (Persists peer) where
  toKeptByObjects := keptByObjects_persists peer
  forward b group t _ := persists_forward b group t
  concerns hother hconcerns :=
    .of_eq hconcerns.closed hconcerns.released (hconcerns.connection peer (Ne.symm hother))
  drain b now := persists_drain _ b now

/-! ## What a guest asks for -/

theorem persists_confirmImport (b : Broker) (sender : PeerId) (typeName : String) :
    Persists peer b (b.confirmImport sender typeName) := by
  unfold confirmImport
  cases hc : b.connections.find? sender with
  | none => exact .refl peer b
  | some c => exact persists_putConnection hc (c.persists_rememberImport typeName)

theorem persists_discover (b : Broker) (sender : PeerId) (whitelist blacklist : List String) :
    Persists peer b (b.discover sender whitelist blacklist now).value.1 := by
  unfold discover
  cases hc : b.connections.find? sender with
  | none => exact .refl peer b
  | some c =>
    simp only [Noted.value_bind, Noted.value_foldlM, Noted.value_pure]
    have hsends := c.persists_foldl_send
      ((Discovery.reply b.registry whitelist blacklist).map (Transmission.ofControl · now))
    rw [List.foldl_map] at hsends
    exact persists_putConnection hc hsends

theorem persists_replayTo (b : Broker) (sender : PeerId) (schema : StructSchema) :
    Persists peer b (b.replayTo sender schema now).value.1 := by
  let touched : Broker :=
    { b with dispatcher := { b.dispatcher with pool := b.dispatcher.pool.touch schema } }
  have htouch : Persists peer b touched := .of_eq rfl rfl rfl
  cases hc : b.connections.find? sender with
  | none =>
    unfold replayTo
    simp only [hc]
    exact htouch
  | some c =>
    rw [value_replayTo b schema now hc]
    exact htouch.trans (persists_putConnection (b := touched) hc (c.persists_foldl_send _))

theorem persists_changeMembership (b : Broker) (sender : PeerId) (group : String)
    (event : MemberEvent) :
    Persists peer b (b.changeMembership sender group event now).value.1 := by
  unfold changeMembership
  cases event with
  | join =>
    have hjoin : Persists peer b { b with groups := (b.groups.join group sender).value.1 } :=
      .of_eq rfl rfl rfl
    simp only [Noted.value_bind]
    -- If the group is that of a type that is cached, what is cached is replayed.
    split
    · split
      · exact hjoin.trans (persists_replayTo _ sender _)
      · exact hjoin
    · exact hjoin
  | leave => exact .of_eq rfl rfl rfl
  | kill => exact .refl peer b

/-- Doing the control work that a guest asks for closes nobody's connection, not even its own,
unless a channel refuses something. -/
theorem persists_acceptRequest (b : Broker) (sender : PeerId) (request : ControlRequest) :
    Persists peer b (b.acceptRequest sender request now).value.1 := by
  have hR := keptInSilence_persists peer
  cases request with
  | member group event => exact persists_changeMembership b sender group event
  | descriptorRequest whitelist blacklist => exact persists_discover b sender _ _
  | clearCache typeNames h => exact (hR.clearCache b typeNames).trans (persists_forward _ _ _)
  | importStruct schema h =>
    have hregister : Persists peer b (b.registerStruct schema now).value.1 :=
      hR.registerStruct b schema
    simp only [acceptRequest, Noted.value_bind]
    split
    · exact hregister
    -- Whether the type is new makes a difference to the notes only.
    · refine (hregister.trans (persists_confirmImport _ sender schema.name)).trans ?_
      split <;> exact persists_forward _ _ _
  | importEnum schema h =>
    have hregister : Persists peer b (b.registerEnum schema).value.1 := hR.registerEnum b schema
    simp only [acceptRequest, Noted.value_bind]
    split
    · exact hregister
    · exact (hregister.trans (persists_confirmImport _ sender schema.name)).trans
        (persists_forward _ _ _)

end Broker

end ObjectBus
