import ObjectBus.Proofs.Broker.Replay
import ObjectBus.Proofs.Broker.Silence

/-!
# Guests that stand by

While others are heard, and while the host works on its own account, a guest whose channel does not
fail stands by: its connection stays open and keeps its state, and it is handed nothing but what
goes to its groups, and that only once it is connected.

* `Channel.Lossless`: channels that take everything until they are closed;
* `Connection.Steady`: connections that only their own guest, or the host on shutting down, can
  close;
* `Connection.StandsBy`: what may happen to a connection meanwhile;
* `Reachable.standsBy_perform`: nothing else happens to it in calls that are not about its guest.
-/

namespace ObjectBus

namespace Channel

variable {c : Channel} {ts : List Transmission}

/-- A channel takes everything that it is handed until it is closed. -/
def Lossless (c : Channel) : Prop :=
  ∀ trace t, trace.any (·.isClosed) = false → c.refusal trace t = none

theorem lossless_reliable (endpoint : String) : (reliable endpoint).Lossless := fun _ _ _ => rfl

theorem lossless_inProcess (name : String) : (inProcess name).Lossless :=
  fun _ _ hopen => if_neg (by simp [hopen])

theorem handed_handed (c : Channel) (ts ts' : List Transmission) :
    (c.handed ts).handed ts' = c.handed (ts ++ ts') := by
  simp [handed]

/-- Handing something over does not close a channel. -/
theorem isClosed_handed (c : Channel) (ts : List Transmission) :
    (c.handed ts).isClosed = c.isClosed := by
  have hsent : (ts.map ChannelAction.sent).any (·.isClosed) = false := by
    simp [ChannelAction.isClosed]
  rw [isClosed, handed, List.any_append, hsent, Bool.or_false, isClosed]

theorem Lossless.takes (h : c.Lossless) (hopen : c.isClosed = false) (ts : List Transmission) :
    c.Takes ts := by
  induction ts generalizing c with
  | nil => trivial
  | cons t rest ih =>
    refine ⟨h _ t hopen, ih (c := c.handed [t]) h ?_⟩
    rw [isClosed_handed, hopen]

end Channel

namespace Connection

variable {c c' c'' : Connection} {t : Transmission}

/-- A connection that takes part, whose channel does not fail, and whose closing does not wait to be
processed. -/
structure Steady (c : Connection) : Prop where
  /-- It is neither over nor paused. -/
  running : c.state ≠ .closed ∧ c.state ≠ .suspended
  /-- Its channel does not fail. -/
  lossless : c.channel.Lossless
  /-- Its channel is open. -/
  intact : c.channel.isClosed = false
  /-- No closing is queued. -/
  queue : ∀ t ∈ c.transitions, t.closes = false

/-- A connection stands by while others are served: it may be handed frames, if it is connected, and
its queue may be taken. -/
def StandsBy (c c' : Connection) : Prop :=
  ∃ frames queue, c' = { c with channel := c.channel.handed frames, transitions := queue } ∧
    queue ⊆ c.transitions ∧ (c.state ≠ .connected → frames = [])

theorem StandsBy.refl (c : Connection) : c.StandsBy c :=
  ⟨[], c.transitions, by rw [Channel.handed_nil], List.Subset.refl _, fun _ => rfl⟩

theorem StandsBy.trans (h : c.StandsBy c') (h' : c'.StandsBy c'') : c.StandsBy c'' := by
  obtain ⟨frames, queue, rfl, hqueue, hframes⟩ := h
  obtain ⟨frames', queue', rfl, hqueue', hframes'⟩ := h'
  refine ⟨frames ++ frames', queue', ?_, List.Subset.trans hqueue' hqueue, fun hstate => ?_⟩
  · rw [Channel.handed_handed]
  · rw [hframes hstate, hframes' hstate, List.append_nil]

/-- Being handed something, a connection stays steady. -/
theorem Steady.handed (h : c.Steady) (ts : List Transmission) :
    Steady { c with channel := c.channel.handed ts } :=
  ⟨h.running, h.lossless, by rw [Channel.isClosed_handed, h.intact], h.queue⟩

/-- Standing by, a connection stays steady. -/
theorem Steady.standsBy (h : c.Steady) (hstands : c.StandsBy c') : c'.Steady := by
  obtain ⟨frames, queue, rfl, hqueue, -⟩ := hstands
  have hhanded := h.handed frames
  exact ⟨hhanded.running, hhanded.lossless, hhanded.intact, fun t ht => h.queue t (hqueue ht)⟩

/-- Entering a state in which it takes part, a connection stays steady. -/
theorem Steady.setState (h : c.Steady) {state : ConnectionState}
    (hrunning : state ≠ .closed ∧ state ≠ .suspended) : (c.setState state none).value.Steady := by
  rw [value_setState_of_open (isClosed_eq_false_iff.2 h.running.1)]
  refine ⟨hrunning, h.lossless, h.intact, fun t ht => ?_⟩
  rcases List.mem_append.1 ht with hbefore | hnew
  · exact h.queue t hbefore
  · obtain rfl := List.mem_singleton.1 hnew
    exact decide_eq_false hrunning.1

/-- A steady connection sends everything. -/
theorem Steady.value_foldl_send (h : c.Steady) (ts : List Transmission) :
    ts.foldl (fun c t => (c.send t).value) c = { c with channel := c.channel.handed ts } :=
  value_foldl_send_of_takes h.running (h.lossless.takes h.intact ts)

theorem Steady.value_send (h : c.Steady) (t : Transmission) :
    (c.send t).value = { c with channel := c.channel.handed [t] } :=
  h.value_foldl_send [t]

theorem Steady.standsBy_offered (h : c.Steady) (t : Transmission) : c.StandsBy (c.offered t) := by
  by_cases hstate : c.state = .connected
  · have hoffered : c.offered t = (c.send t).value := by
      rw [offered, hstate]
      rfl
    rw [hoffered, h.value_send]
    exact ⟨[t], c.transitions, rfl, List.Subset.refl _, fun hne => absurd hstate hne⟩
  · rw [offered_of_ne_connected hstate]
    exact .refl c

theorem standsBy_drained (c : Connection) : c.StandsBy c.drained :=
  ⟨[], [], by rw [Channel.handed_nil]; rfl, List.nil_subset _, fun _ => rfl⟩

end Connection

namespace Broker

variable {call : BrokerCall} {now : Instant} {b b' b'' : Broker} {p sender : PeerId}
variable {c : Connection}

/-- A part of a call in which a guest stands by. -/
def Bystander (p : PeerId) (b b' : Broker) : Prop :=
  ∀ c, b.connections.find? p = some c → c.Steady →
    ∃ c', b'.connections.find? p = some c' ∧ c.StandsBy c'

namespace Bystander

theorem of_eq (h : b'.connections.find? p = b.connections.find? p) : Bystander p b b' :=
  fun c hc _ => ⟨c, h.trans hc, .refl c⟩

theorem trans (h : Bystander p b b') (h' : Bystander p b' b'') : Bystander p b b'' := by
  intro c hc hsteady
  obtain ⟨c', hc', hstands⟩ := h c hc hsteady
  obtain ⟨c'', hc'', hstands'⟩ := h' c' hc' (hsteady.standsBy hstands)
  exact ⟨c'', hc'', hstands.trans hstands'⟩

/-- A transmission may be offered to the guest. -/
theorem of_offered {t : Transmission} (offers : Prop) [Decidable offers]
    (h : b'.connections.find? p =
      if offers then (b.connections.find? p).map (·.offered t) else b.connections.find? p) :
    Bystander p b b' := by
  by_cases hoffers : offers
  · intro c hc hsteady
    rw [if_pos hoffers, hc, Option.map_some] at h
    exact ⟨_, h, hsteady.standsBy_offered t⟩
  · rw [if_neg hoffers] at h
    exact .of_eq h

end Bystander

theorem keptByObjects_bystander (p : PeerId) : KeptByObjects (Bystander p) where
  trans := .trans
  idle hconnections _ _ _ := .of_eq (by rw [hconnections])
  dispatch b schema h o now := .of_offered _ (find?_dispatch b schema h o now p)

theorem bystander_forward (b : Broker) (group : String) (t : Transmission) :
    Bystander p b (b.forward group t).value := by
  refine .of_offered (b.groups.hasMember group p = true) (t := t) ?_
  rw [connections_forward, GroupTable.find?_deliver]

/-! ## Draining -/

theorem bystander_takePending (b : Broker) : Bystander p b b.takePending := by
  intro c hc _
  refine ⟨c.drained, ?_, c.standsBy_drained⟩
  rw [find?_takePending, hc, Option.map_some]

/-- Processing a change of state that is not the closing of the guest's own connection. -/
theorem bystander_onTransition {q : PeerId} {t : Transition} (hq : q = p → t.closes = false)
    (b : Broker) (now : Instant) : Bystander p b (b.onTransition q t now).value := by
  refine (keptByObjects_bystander p).onTransition b q t now fun hcloses => ?_
  have hother : p ≠ q := by
    intro hp
    rw [hq hp.symm] at hcloses
    cases hcloses
  exact .of_eq (by rw [find?_setAside, if_neg hother])

theorem bystander_drain (p : PeerId) (b : Broker) (now : Instant) :
    Bystander p b (b.drain now).value := by
  intro c hc hsteady
  refine (drain_induction (I := fun taken s => Bystander p b s ∧
    ∀ x ∈ taken, x.1 = p → x.2.closes = false) ?_ ?_
    ⟨.of_eq rfl, List.forall_mem_nil _⟩).1 c hc hsteady
  · rintro s ⟨hstands, -⟩
    refine ⟨hstands.trans (bystander_takePending s), ?_⟩
    -- What is taken of the guest's own changes of state is no closing.
    rintro ⟨q, t⟩ hx rfl
    obtain ⟨d, hd, ht⟩ := mem_pending_iff.1 hx
    obtain ⟨c', hc', hstands'⟩ := hstands c hc hsteady
    obtain rfl : d = c' := Option.some.inj (hd.symm.trans hc')
    exact (hsteady.standsBy hstands').queue t ht
  · rintro s ⟨q, t⟩ taken ⟨hstands, htaken⟩
    refine ⟨hstands.trans (bystander_onTransition (htaken _ List.mem_cons_self) s now), ?_⟩
    exact fun x hx => htaken x (List.mem_cons_of_mem _ hx)

/-! ## Whole calls -/

/-- A guest stands by in all parts of the calls that do not hear it. -/
theorem keptInSilence_bystander (p : PeerId) : KeptInSilence (· = p) (Bystander p) where
  toKeptByObjects := keptByObjects_bystander p
  forward b group t _ := bystander_forward b group t
  concerns hother hconcerns := .of_eq (hconcerns.connection p fun hp => hother hp.symm)
  drain b now := bystander_drain p b now

/-- The calls by which neither a guest nor its channel does anything, and that do not end the
connection to it. -/
def PassesBy (b : Broker) (p : PeerId) (call : BrokerCall) : Prop :=
  b.addressee? call ≠ some p ∧ call ≠ .shutdown

theorem bystander_perform (hcall : b.PassesBy p call) (now : Instant) :
    Bystander p b (b.perform call now) := by
  have hkept := keptInSilence_bystander p
  obtain ⟨haddressee, hshutdown⟩ := hcall
  by_cases hsweep : call = .sweep
  · subst hsweep
    have hforget : Bystander p b b.forgetClosed := .of_eq rfl
    exact hforget.trans (hkept.sweep b)
  · refine hkept.perform b call (fun peer hpeer hp => ?_) hsweep hshutdown now
    exact haddressee (hp ▸ hpeer)

/-- In a call that is not about a guest, its connection stays as it is and steady; it is handed some
frames if it is connected, and otherwise nothing. -/
theorem Reachable.standsBy_perform (hb : b.Reachable) (hc : b.connections.find? p = some c)
    (hsteady : c.Steady) (hcall : b.PassesBy p call) (now : Instant) :
    ∃ frames, (b.perform call now).connections.find? p =
        some { c with channel := c.channel.handed frames } ∧
      (c.state ≠ .connected → frames = []) := by
  obtain ⟨c', hc', frames, queue, rfl, hqueue, hframes⟩ :=
    bystander_perform hcall now c hc hsteady
  -- Nothing was queued before.
  rw [(hb.rested p c hc).1, List.subset_nil] at hqueue
  refine ⟨frames, ?_, hframes⟩
  rw [hc', hqueue, ← (hb.rested p c hc).1]

end Broker

end ObjectBus
