import ObjectBus.Guest.Call
import ObjectBus.Proofs.Broker.Admission

/-!
# What guests wait for

The frames for which the calls of a guest wait, and what the calls make of them: naming oneself
takes the greeting and the acceptance and leaves the rest, and finishing the preload keeps what
arrives until the acknowledgement.

* `Call.value_await_of_ended`, `Call.value_await_of_waiting`: a waiting call, frame by frame;
* `Guest.named`, `Guest.accepted`: what becomes of a guest in the handshake;
* `Guest.value_connect`: the whole handshake;
* `Transmission.PrecedesLive`, `Guest.value_finishPreload`: the whole of finishing.
-/

namespace ObjectBus

namespace Call

variable {σ α : Type} {call : Call σ α} {s s' : σ} {r : α} {t : Transmission}

/-- A call that ends with a frame leaves what arrives behind it. -/
theorem value_await_of_ended (h : (call.take s t).value = .ended r) (rest : List Arrival) :
    (call.await s (.ok t :: rest)).value = (r, rest) := by
  unfold await
  simp only [arrive, Noted.value_bind, h]
  rfl

/-- A call that goes on waiting goes on with what arrives next. -/
theorem value_await_of_waiting (h : (call.take s t).value = .waiting s') (rest : List Arrival) :
    (call.await s (.ok t :: rest)).value = (call.await s' rest).value := by
  conv_lhs => unfold await
  simp only [arrive, Noted.value_bind, h]

end Call

/-- A frame that finishing the preload keeps: neither an acknowledgement nor an error. -/
structure Transmission.PrecedesLive (t : Transmission) : Prop where
  /-- It is no acknowledgement. -/
  waits : (t.control?.map Guest.acknowledgesPreload).getD false = false
  /-- It reports no error. -/
  fine : t.reportedError? = none

/-- What a guest that joins a group is sent precedes live traffic. -/
theorem Broker.precedesLive_joinFrames {b : Broker} {group : String} {now : Instant}
    {t : Transmission} (ht : t ∈ b.joinFrames group now) : t.PrecedesLive := by
  unfold joinFrames at ht
  split at ht
  · split at ht
    · rcases List.mem_append.1 ht with hitem | hmark
      · obtain ⟨e, -, left, rfl⟩ := Container.exists_of_mem_replayOf hitem
        exact ⟨rfl, rfl⟩
      · obtain rfl := List.mem_singleton.1 hmark
        exact ⟨rfl, rfl⟩
    · cases ht
  · cases ht

namespace Guest

variable {g : Guest} {name hostName : String} {preload : Bool} {p : PeerId}
variable {now now' : Instant} {t : Transmission} {kept : List Transmission}

/-! ## The handshake -/

/-- A guest that was greeted and has named itself. -/
def named (name hostName : String) (preload : Bool) (now : Instant) : Guest :=
  { fresh with hostName := hostName }.sendControl (.connectAs name preload) now

/-- A guest that was accepted. -/
def accepted (g : Guest) (p : PeerId) (preload : Bool) : Guest :=
  { g with peer := p, state := Broker.stateAfterAcceptance preload }

theorem value_take_greeting (name : String) (preload : Bool) (now : Instant) :
    ((greet name preload now).take fresh (Broker.greeting hostName now')).value =
      .ended (named name hostName preload now, .ok ()) := rfl

theorem value_take_acceptance (g : Guest) (preload : Bool) :
    ((enter preload).take g (Broker.acceptance hostName p preload now)).value =
      .ended (g.accepted p preload, .ok ()) := rfl

/-- A guest to which the host sends the greeting and the acceptance names itself with success, and
leaves whatever comes behind them. -/
theorem value_connect (name hostName : String) (p : PeerId) (preload : Bool)
    (now greeted answered : Instant) (rest : List Arrival) :
    (connect name preload (.ok (Broker.greeting hostName greeted) ::
        .ok (Broker.acceptance hostName p preload answered) :: rest) now).value =
      (((named name hostName preload now).accepted p preload, .ok ()), rest) := by
  unfold connect
  simp only [Noted.value_bind, Call.value_await_of_ended (value_take_greeting name preload now)]
  exact Call.value_await_of_ended (value_take_acceptance _ preload) rest

/-! ## Finishing the preload -/

theorem value_take_acknowledgement (g : Guest) (kept : List Transmission) :
    (preloading.take (g, kept) (Broker.acknowledgement now)).value =
      .ended ({ g with state := .connected }, .ok kept) := rfl

theorem value_take_preceding (ht : t.PrecedesLive) (g : Guest) (kept : List Transmission) :
    (preloading.take (g, kept) t).value = .waiting (g, kept ++ [t]) := by
  unfold preloading
  simp only [ht.waits, ht.fine, Bool.false_eq_true, if_false]
  rfl

theorem value_await_preloading {frames : List Transmission}
    (hframes : ∀ t ∈ frames, t.PrecedesLive) (g : Guest) (kept : List Transmission)
    (now : Instant) (rest : List Arrival) :
    (preloading.await (g, kept)
        (frames.map .ok ++ .ok (Broker.acknowledgement now) :: rest)).value =
      (({ g with state := .connected }, .ok (kept ++ frames)), rest) := by
  induction frames generalizing kept with
  | nil =>
    rw [List.append_nil]
    exact Call.value_await_of_ended (value_take_acknowledgement g kept) rest
  | cons t frames ih =>
    have hfirst := value_take_preceding (hframes t List.mem_cons_self) g kept
    rw [List.map_cons, List.cons_append, Call.value_await_of_waiting hfirst,
      ih fun t ht => hframes t (List.mem_cons_of_mem _ ht), List.append_assoc,
      List.singleton_append]

/-- A preloading guest that finishes keeps what arrives before the acknowledgement, is connected,
and leaves whatever comes behind it. -/
theorem value_finishPreload (hearly : g.state = .earlySubscribe)
    (hframes : ∀ t ∈ kept, t.PrecedesLive) (now answered : Instant) (rest : List Arrival) :
    (g.finishPreload (kept.map .ok ++ .ok (Broker.acknowledgement answered) :: rest) now).value =
      (({ g.sendControl .preloadClientFinished now with state := .connected }, .ok kept),
        rest) := by
  unfold finishPreload
  rw [if_pos hearly, value_await_preloading hframes, List.nil_append]

end Guest

end ObjectBus
