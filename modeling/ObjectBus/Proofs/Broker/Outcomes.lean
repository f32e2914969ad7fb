import ObjectBus.Proofs.Broker.DrainPoints
import ObjectBus.Proofs.Broker.Endurance

/-!
# What a frame comes to

A guest whose channel does not fail has one of four answers to a frame. Either the frame is
accepted, or it is refused by a notice, and the connection stays open; or the frame is itself a
notice, which ends the connection; or it is a forged host record, for which the guest is expelled.

* `Transmission.noticeCode?`, `Transmission.IsFarewell`, `Transmission.IsForgery`: the frames that
  the four differ in;
* `FrameOutcome`, `Broker.ComesTo`: the four outcomes;
* `Reachable.complaint_cases`: a guest is told of no error but a refusal or that of a forgery;
* `Reachable.accepted_outcome`, `Reachable.refused_outcome`, `Reachable.ended_outcome`,
  `Reachable.expelled_outcome`: what leads to each of them;
* `Reachable.frame_outcome`: every frame comes to exactly one.
-/

namespace ObjectBus

/-! ## Frames -/

namespace Transmission

/-- The code of the notice that a frame is. -/
def noticeCode? (t : Transmission) : Option UInt32 :=
  match t.payload with
  | .control (.error code _) => some code
  | _ => none

/-- A guest reports an error, or says goodbye, in the control namespace. -/
def IsFarewell (t : Transmission) (code : UInt32) (text : String) : Prop :=
  t.payload = .control (.error code text) ∧ t.header.isControl = true

/-- A guest sends a record that only the host may write, in the control namespace. -/
def IsForgery (t : Transmission) (o : Object) : Prop :=
  t.payload = .object o ∧ t.header.isControl = true ∧
    (o.typeName = peerStateType ∨ o.typeName = typeAnnounceType)

theorem noticeCode?_of_isAnswer {t : Transmission} (h : t.IsAnswer) : t.noticeCode? = none := by
  obtain ⟨message, hpayload, hnotice⟩ := h
  unfold noticeCode?
  rw [hpayload]
  cases message with
  | error => cases hnotice
  | hello | connect | connectResponse | member | descriptorRequest | clearCache | cacheInfo |
    structSchema | enumSchema => rfl

end Transmission

theorem isHostRecord_eq_true_iff {typeName : String} : isHostRecord typeName = true ↔
    typeName = peerStateType ∨ typeName = typeAnnounceType := by
  simp [isHostRecord]

namespace Connection

variable {c c' c'' : Connection} {t : Transmission} {now : Instant}

/-! ## Hearing a frame -/

/-- A forged host record is fatal in every state. -/
theorem receive_of_forgery (hopen : c.isClosed = false) {o : Object} (h : t.IsForgery o) :
    (c.receive t now).value = (c, .fatal (.invalidOperation (.hostRecord o.typeName))) := by
  obtain ⟨hpayload, hspace, hrecord⟩ := h
  rw [receive_of_object hopen hpayload, if_pos hspace, classifyInternal,
    if_pos (isHostRecord_eq_true_iff.2 hrecord)]

/-- Nothing else is fatal. -/
theorem forgery_of_fatal (hopen : c.isClosed = false) {o : Object} {e : BrokerError}
    (hpayload : t.payload = .object o) (h : (c.receive t now).value.2 = .fatal e) :
    t.IsForgery o := by
  rw [receive_of_object hopen hpayload] at h
  simp only at h
  split at h
  · rename_i hspace
    unfold classifyInternal at h
    split at h
    · rename_i hrecord
      exact ⟨hpayload, hspace, isHostRecord_eq_true_iff.1 hrecord⟩
    · split at h <;> cases h
  · unfold classifyObject at h
    split at h <;> cases h

/-- The cause for which a connection closes when its guest sends a notice: none if the guest says
goodbye. -/
def farewellCause (code : UInt32) (text : String) : Option String :=
  if code = 0 then none else some (BrokerError.peerError code text).message

/-- A notice closes the connection in every state. -/
theorem receive_of_farewell (hopen : c.isClosed = false) {code : UInt32} {text : String}
    (h : t.IsFarewell code text) (now : Instant) : (c.receive t now).value =
      ({ c with
        state := .closed
        transitions := c.transitions ++ [⟨.closed, farewellCause code text⟩]
        channel := c.channel.close }, .handled) := by
  obtain ⟨hpayload, hspace⟩ := h
  have hstamp : (c.stamp t.header now).isControl = true := hspace
  have hreported :
      (c.peerReported code text).value = (c.close (farewellCause code text)).value := by
    unfold peerReported farewellCause
    by_cases hcode : code = 0
    · rw [if_pos hcode, if_pos (show code = NoticeCode.goodbye.number from hcode)]
      rfl
    · rw [if_neg hcode, if_neg (show ¬code = NoticeCode.goodbye.number from hcode)]
      rfl
  rw [value_close_of_open hopen] at hreported
  unfold receive
  simp only [hopen, Bool.false_eq_true, if_false, hpayload, hstamp, if_true, Noted.value_bind,
    Noted.value_pure, hreported]

/-! ## Enduring a frame -/

/-- The trace of a connection's channel grows, and unless the channel refuses something the
connection lasts, perhaps in another state. -/
structure Endures (c c' : Connection) : Prop where
  /-- The trace grows. -/
  trace : c.channel.trace <+: c'.channel.trace
  /-- The connection lasts. -/
  lasts : c.channel.Unfailing c'.channel → c.Lasting → c'.Lasting

theorem Persists.endures (h : c.Persists c') : c.Endures c' :=
  ⟨h.trace, fun hunfailing hlasts => (h.lasts hunfailing hlasts).1⟩

namespace Endures

theorem refl (c : Connection) : c.Endures c := (Persists.refl c).endures

theorem trans (h : c.Endures c') (h' : c'.Endures c'') : c.Endures c'' := by
  refine ⟨h.trace.trans h'.trace, fun hunfailing hlasts => ?_⟩
  obtain ⟨hfirst, hsecond⟩ := hunfailing.parts h.trace h'.trace
  exact h'.lasts hsecond (h.lasts hfirst hlasts)

end Endures

theorem endures_setState (c : Connection) {state : ConnectionState} (hstate : state ≠ .closed) :
    c.Endures (c.setState state none).value := by
  by_cases hclosed : c.isClosed = true
  · unfold setState
    rw [if_pos hclosed]
    exact .refl c
  · rw [value_setState_of_open (by simpa using hclosed)]
    refine ⟨List.prefix_rfl, fun _ hlasts => ⟨isClosed_eq_false_iff.2 hstate, fun t ht => ?_⟩⟩
    -- One change of state is queued, and it is no closing.
    rcases List.mem_append.1 ht with hbefore | hnew
    · exact hlasts.queue t hbefore
    · obtain rfl := List.mem_singleton.1 hnew
      exact decide_eq_false hstate

theorem endures_acceptConnect (c : Connection) (name : String) (preload : Bool) (now : Instant) :
    c.Endures (c.acceptConnect name preload now).value := by
  -- The guest is named, answered, and moved on to what it asked for.
  let named : Connection := { c with name := name }
  have hname : c.Persists named := .of_eq rfl rfl (List.Subset.refl _)
  have hanswer := named.persists_send (.ofControl
    (.connectResponse (some named.hostName) (some named.peer) true preload false) now)
  exact (hname.trans hanswer).endures.trans (endures_setState _ (by cases preload <;> simp))

theorem endures_finishPreload (c : Connection) (now : Instant) :
    c.Endures (c.finishPreload now).value :=
  (endures_setState c (by simp)).trans (persists_send _ _).endures

theorem endures_receiveMessage (c : Connection) (h : Header) (message : ControlMessage)
    (now : Instant) : c.Endures (c.receiveMessage h message now).value.1 := by
  unfold receiveMessage
  split
  · split
    · exact endures_acceptConnect c _ _ now
    · exact .refl c
  · split
    · exact endures_finishPreload c now
    · exact .refl c
  · exact .refl c
  · exact .refl c
  · exact .refl c

/-- Hearing anything but a notice, a connection endures. -/
theorem endures_receive (c : Connection) (now : Instant)
    (hfarewell : ∀ code text, ¬t.IsFarewell code text) : c.Endures (c.receive t now).value.1 := by
  by_cases hclosed : c.isClosed = true
  · unfold receive
    rw [if_pos hclosed]
    exact .refl c
  · have hopen : c.isClosed = false := by simpa using hclosed
    cases hpayload : t.payload with
    | object o =>
      rw [receive_of_object hopen hpayload]
      exact .refl c
    | control message =>
      cases hspace : t.header.isControl with
      | false =>
        rw [receive_of_outside hopen hpayload hspace]
        exact .refl c
      | true =>
        have hnotice : message.isNotice = false := by
          cases message with
          | error code text => exact absurd ⟨hpayload, hspace⟩ (hfarewell code text)
          | hello | connect | connectResponse | member | descriptorRequest | clearCache |
            cacheInfo | structSchema | enumSchema => rfl
        rw [receive_of_message hopen hpayload hspace hnotice]
        exact endures_receiveMessage c _ message now

/-- Closing takes nothing back. -/
theorem trace_close (c : Connection) (cause : Option String) :
    c.channel.trace <+: (c.close cause).value.channel.trace := by
  unfold close
  split
  · exact List.prefix_rfl
  · rename_i hopen
    unfold setState
    rw [if_neg hopen]
    exact List.prefix_append _ _

/-- What a host does with a closed connection leaves its channel alone. -/
theorem Hosted.trace_of_closed (h : c.Hosted c') (hclosed : c.isClosed = true) :
    c'.channel.trace = c.channel.trace := by
  -- That it stays closed has to be carried along, for that is why nothing is sent.
  have hboth : c'.isClosed = true ∧ c'.channel.trace = c.channel.trace := by
    refine h.induction (I := fun d => d.isClosed = true ∧ d.channel.trace = c.channel.trace)
      (fun d t hd => ?_) (fun d cause hd => ?_) (fun d typeName hd => ?_) (fun d refusal hd => hd)
      ⟨hclosed, rfl⟩
    · have hsame : (d.send t).value = d := by
        unfold send
        rw [isClosed_eq_true_iff.1 hd.1]
        rfl
      rwa [hsame]
    · have hsame : (d.close cause).value = d := by
        unfold close
        rw [if_pos hd.1]
        rfl
      rwa [hsame]
    · unfold rememberImport
      split <;> exact hd
  exact hboth.2

end Connection

/-! ## Outcomes -/

/-- What a frame comes to for the guest that sent it. -/
inductive FrameOutcome where
  /-- It is accepted. -/
  | accepted
  /-- It is refused. -/
  | refused
  /-- The guest ends the connection by it. -/
  | ended
  /-- The guest is expelled for it. -/
  | expelled
deriving DecidableEq

/-- Whether the connection is still there after an outcome, and the codes of the notices that its
guest was sent. -/
def FrameOutcome.evidence : FrameOutcome → Bool × List UInt32
  | accepted => (true, [])
  | refused => (true, [1])
  | ended => (false, [])
  | expelled => (false, [2])

theorem FrameOutcome.evidence_injective : Function.Injective FrameOutcome.evidence := by
  intro outcome outcome' h
  cases outcome <;> cases outcome' <;> first | rfl | cases h

namespace Broker

variable {call : BrokerCall} {now : Instant} {b b' s : Broker} {peer : PeerId}
variable {c c' : Connection} {t f : Transmission} {e : BrokerError}

/-- Between two states of a broker the connection of a guest has closed, for the given cause, and
observers were told nothing else of the guest. -/
def Closes (b b' : Broker) (peer : PeerId) (cause : Option String) : Prop :=
  b'.connections.find? peer = none ∧ b'.toldOf peer = b.toldOf peer ++ [⟨.closed, cause⟩]

/-- The codes of the notices that a guest was sent between two states of a broker. -/
def newNotices (b b' : Broker) (peer : PeerId) : List UInt32 :=
  (b.newFrames b' peer).filterMap (·.noticeCode?)

/-- What a frame that the guest of a connection sent has come to. -/
def ComesTo (b : Broker) (peer : PeerId) (c : Connection) (t : Transmission) (b' : Broker) :
    FrameOutcome → Prop
  | .accepted => (∃ c', b'.connections.find? peer = some c' ∧ c'.isClosed = false) ∧
      b.newNotices b' peer = []
  | .refused => (∃ c', b'.connections.find? peer = some c' ∧ c'.isClosed = false ∧
      c'.state = c.state) ∧ b.newNotices b' peer = [1]
  | .ended => ∃ code text cause, t.IsFarewell code text ∧ b.Closes b' peer cause ∧
      (cause = none ↔ code = 0) ∧ b.newFrames b' peer = []
  | .expelled => ∃ o cause f, t.IsForgery o ∧ b.Closes b' peer (some cause) ∧
      b.newFrames b' peer = [f] ∧ f.noticeCode? = some 2

theorem ComesTo.evidence {outcome : FrameOutcome} (h : b.ComesTo peer c t b' outcome) :
    outcome.evidence = ((b'.connections.find? peer).isSome, b.newNotices b' peer) := by
  cases outcome with
  | accepted =>
    obtain ⟨⟨c', hc', -⟩, hnotices⟩ := h
    rw [hc', hnotices]
    rfl
  | refused =>
    obtain ⟨⟨c', hc', -⟩, hnotices⟩ := h
    rw [hc', hnotices]
    rfl
  | ended =>
    obtain ⟨-, -, -, -, ⟨hgone, -⟩, -, hframes⟩ := h
    rw [hgone, newNotices, hframes]
    rfl
  | expelled =>
    obtain ⟨-, -, f, -, ⟨hgone, -⟩, hframes, hcode⟩ := h
    rw [hgone, newNotices, hframes, List.filterMap_cons_some hcode]
    rfl

/-- No frame comes to two outcomes. -/
theorem ComesTo.unique {outcome outcome' : FrameOutcome} (h : b.ComesTo peer c t b' outcome)
    (h' : b.ComesTo peer c t b' outcome') : outcome = outcome' :=
  FrameOutcome.evidence_injective (h.evidence.trans h'.evidence.symm)

/-! ## What was done with a channel -/

theorem framesTo_eq (b : Broker) (peer : PeerId) :
    b.framesTo peer = (b.traceOf peer).filterMap (·.sent?) := by
  unfold framesTo traceOf Channel.sent
  cases b.channel? peer <;> rfl

/-- New frames are what was newly done with the channel. -/
theorem newFrames_of_traceOf {actions : List ChannelAction}
    (h : b'.traceOf peer = b.traceOf peer ++ actions) :
    b.newFrames b' peer = actions.filterMap (·.sent?) := by
  rw [newFrames, framesTo_eq, framesTo_eq, h, List.filterMap_append, List.drop_left]

/-- A channel that refused nothing took what it was handed first. -/
theorem taken_of_unfailing (hc : b.connections.find? peer = some c)
    (hstate : c.state ≠ .closed ∧ c.state ≠ .suspended)
    (htrace : (c.send f).value.channel.trace <+: b'.traceOf peer)
    (hunfailing : b.Unfailing b' peer) : c.channel.refusal c.channel.trace f = none := by
  by_contra hrefusal
  obtain ⟨error, herror⟩ := Option.ne_none_iff_exists'.1 hrefusal
  -- If it had refused that, the refusal would be the first new action.
  rw [Connection.value_send_of_refused hstate herror] at htrace
  obtain ⟨rest, hrest⟩ := htrace
  have hnew : b.newActions b' peer = [.refused f error, .closed] ++ rest := by
    rw [newActions, traceOf_of_open hc, ← hrest, List.append_assoc, List.drop_left]
  have hno := hunfailing (.refused f error) (hnew ▸ List.mem_cons_self)
  cases hno

/-! ## Closing -/

/-- A guest whose connection is closed when the broker drains leaves with that, and nothing more is
done with its channel. -/
theorem leaves_drain (hq : s.Queued []) (hburied : s.Buried) (hrests : (s.drain now).value.Rested)
    (hc : s.connections.find? peer = some c) (hclosed : c.isClosed = true) :
    (s.drain now).value.connections.find? peer = none ∧
      (s.drain now).value.toldOf peer = s.toldOf peer ++ c.transitions ∧
      (s.drain now).value.traceOf peer = c.channel.trace := by
  obtain ⟨rounds, hrounds⟩ : ∃ rounds, Rounds now s rounds (s.drain now).value :=
    rounds_drainWithin _ s
  have hnothing : (s.drain now).value.pending = [] := by
    refine pending_drainWithin hq ?_
    have hle := length_openPeers_le s
    omega
  have hfinished := Rounds.finished hrounds hq hburied hnothing
  obtain ⟨w, hhosted, htaken, hplace⟩ := hfinished.processed peer c hc
  obtain ⟨hgone, hqueue⟩ := hhosted.of_closed hclosed
  rcases hplace with hstays | ⟨hnone, hkept⟩
  · -- What is left in the table of a broker at rest is open.
    obtain ⟨-, hopen⟩ := hrests peer _ hstays
    exact absurd hgone (Bool.eq_false_iff.1 hopen)
  · refine ⟨hnone, ?_, ?_⟩
    · rw [← hqueue, ← htaken]
      exact hfinished.told peer
    · rw [traceOf, channel?_of_gone hnone, hkept]
      exact hhosted.trace_of_closed hclosed

/-! ## What leads to each outcome -/

/-- The broker when it has done what a guest's frame asks for, before it drains. -/
def heeding (b : Broker) (peer : PeerId) (c : Connection) (t : Transmission) (now : Instant) :
    Broker :=
  ((b.putConnection peer (c.receive t now).value.1).acceptReceived peer
    (c.receive t now).value.2 now).value

theorem perform_receive_of_open (hc : b.connections.find? peer = some c) (t : Transmission)
    (now : Instant) :
    b.perform (.receive peer t) now = ((b.heeding peer c t now).drain now).value := by
  show (b.receive peer t now).value.1 = _
  unfold Broker.receive heeding
  simp only [hc, Noted.value_bind, Noted.value_pure]

/-- A guest whose frame is heeded by closing its connection leaves with that. -/
theorem Reachable.leaves_receive (hb : b.Reachable) (hc : b.connections.find? peer = some c)
    (hheeding : b.heeding peer c t now = b.putConnection peer c') (hclosed : c'.isClosed = true) :
    (b.perform (.receive peer t) now).connections.find? peer = none ∧
      (b.perform (.receive peer t) now).toldOf peer = b.toldOf peer ++ c'.transitions ∧
      (b.perform (.receive peer t) now).traceOf peer = c'.channel.trace := by
  have hdrains : DrainsAt now b (.receive peer t) (b.heeding peer c t now) := .receive hc t
  have hstrand := hdrains.strand
  have hrests := (hb.perform (.receive peer t) now).rested
  have hqueued := (hstrand.works hb.rested.queued).2
  have hburied := hb.buried.strand hstrand hb.rested.queued
  rw [perform_receive_of_open hc, hheeding] at hrests ⊢
  rw [hheeding] at hqueued hburied
  have hfound : (b.putConnection peer c').connections.find? peer = some c' := by
    rw [find?_putConnection, if_pos rfl]
  -- To put the connection back tells observers nothing.
  exact leaves_drain hqueued hburied hrests hfound hclosed

/-- A guest is told of no error but that of a refusal or of a forgery. -/
theorem Reachable.complaint_cases (hb : b.Reachable) (hc : b.connections.find? peer = some c)
    (he : b.complaint? peer c t now = some e) : Refused b c t e ∨ ∃ o, t.IsForgery o := by
  obtain ⟨-, hopen⟩ := hb.rested peer c hc
  by_cases hviolation : e.isViolation = true
  · exact .inl (refused_of_complaint hb.sound hb.rested hc he hviolation)
  · -- Whatever else goes wrong is a violation.
    refine .inr ?_
    unfold complaint? at he
    cases hpayload : t.payload with
    | object o =>
      refine ⟨o, ?_⟩
      rcases receive_object_cases hopen hpayload b now with
        hforged | ⟨violation, hrejected, -⟩ | ⟨-, hobject⟩
      · exact Connection.forgery_of_fatal hopen hpayload hforged
      · rw [hrejected] at he
        cases he
        exact absurd rfl hviolation
      · rw [hobject] at he
        have hfailed := unacceptable_of_acceptObject hb.sound (eq_error_of_failure? he)
        exact absurd hfailed.isViolation hviolation
    | control message =>
      rcases receive_message_cases hopen hpayload b now with
        hhandled | ⟨violation, hrejected, -⟩ | ⟨⟨hspace, hstate⟩, request, hclassify, hcontrol⟩
      · rw [hhandled] at he
        cases he
      · rw [hrejected] at he
        cases he
        exact absurd rfl hviolation
      · rw [hcontrol] at he
        have hrefused := refused_of_acceptRequest hc hpayload hspace hstate hclassify
          (eq_error_of_failure? he)
        exact absurd hrefused.isViolation hviolation

/-- A refused frame comes to a refusal. -/
theorem Reachable.refused_outcome (hb : b.Reachable) (hc : b.connections.find? peer = some c)
    (hrefused : Refused b c t e)
    (hunfailing : b.Unfailing (b.perform (.receive peer t) now) peer) :
    b.ComesTo peer c t (b.perform (.receive peer t) now) .refused := by
  obtain ⟨-, hopen⟩ := hb.rested peer c hc
  have hstate : c.state ≠ .closed ∧ c.state ≠ .suspended :=
    ⟨Connection.isClosed_eq_false_iff.1 hopen, hb.state_ne_suspended hc⟩
  -- The notice is all that is done before the drain, so the channel took it.
  have htaken : c.channel.refusal c.channel.trace (violationNotice e now) = none := by
    refine taken_of_unfailing hc hstate ?_ hunfailing
    have hheeding : b.heeding peer c t now =
        b.putConnection peer (c.send (violationNotice e now)).value := by
      rw [heeding, acceptReceived_of_refused hb.sound hb.stocked hb.rested hc hrefused now]
      unfold report
      simp only [hc, if_pos hrefused.isViolation, Noted.value_bind, Noted.value_pure]
      rfl
    have hdrain := (persists_drain peer (b.heeding peer c t now) now).grows
    rw [Grows, ← perform_receive_of_open hc, hheeding,
      traceOf_of_open (c := (c.send (violationNotice e now)).value) (by simp)] at hdrain
    exact hdrain
  have hafter : b.perform (.receive peer t) now = b.handing peer c (violationNotice e now) :=
    congrArg Prod.fst (hb.receive_of_refused hc hrefused htaken)
  have hfound : (b.handing peer c (violationNotice e now)).connections.find? peer =
      some { c with channel := { c.channel with
        trace := c.channel.trace ++ [.sent (violationNotice e now)] } } := by
    rw [handing, find?_putConnection, if_pos rfl]
  have htrace : (b.handing peer c (violationNotice e now)).traceOf peer =
      b.traceOf peer ++ [.sent (violationNotice e now)] := by
    rw [traceOf_of_open hc, traceOf_of_open hfound]
  rw [hafter]
  refine ⟨⟨_, hfound, hopen, rfl⟩, ?_⟩
  rw [newNotices, newFrames_of_traceOf htrace]
  rfl

/-- A notice comes to an end. -/
theorem Reachable.ended_outcome (hb : b.Reachable) (hc : b.connections.find? peer = some c)
    {code : UInt32} {text : String} (hfarewell : t.IsFarewell code text) :
    b.ComesTo peer c t (b.perform (.receive peer t) now) .ended := by
  obtain ⟨hqueue, hopen⟩ := hb.rested peer c hc
  have hreceive := Connection.receive_of_farewell hopen hfarewell now
  let closed : Connection := { c with
    state := .closed
    transitions := c.transitions ++ [⟨.closed, Connection.farewellCause code text⟩]
    channel := c.channel.close }
  have hheeding : b.heeding peer c t now = b.putConnection peer closed := by
    rw [heeding, hreceive]
    rfl
  obtain ⟨hgone, htold, htrace⟩ := hb.leaves_receive hc hheeding rfl
  have hcause : Connection.farewellCause code text = none ↔ code = 0 := by
    unfold Connection.farewellCause
    split <;> simp [*]
  rw [show closed.transitions = [⟨.closed, Connection.farewellCause code text⟩] by
    simp [closed, hqueue]] at htold
  refine ⟨code, text, _, hfarewell, ⟨hgone, htold⟩, hcause, ?_⟩
  have hclosing : (b.perform (.receive peer t) now).traceOf peer =
      b.traceOf peer ++ [.closed] := by
    rw [htrace, traceOf_of_open hc]
    rfl
  rw [newFrames_of_traceOf hclosing]
  rfl

/-- A forged host record comes to the expulsion of the guest. -/
theorem Reachable.expelled_outcome (hb : b.Reachable) (hc : b.connections.find? peer = some c)
    {o : Object} (hforgery : t.IsForgery o)
    (hunfailing : b.Unfailing (b.perform (.receive peer t) now) peer) :
    b.ComesTo peer c t (b.perform (.receive peer t) now) .expelled := by
  obtain ⟨hqueue, hopen⟩ := hb.rested peer c hc
  have hstate : c.state ≠ .closed ∧ c.state ≠ .suspended :=
    ⟨Connection.isClosed_eq_false_iff.1 hopen, hb.state_ne_suspended hc⟩
  let error : BrokerError := .invalidOperation (.hostRecord o.typeName)
  let notice : Transmission := .ofControl (.notice .failure error.message) now
  -- The guest is told, and then its connection closes, whatever became of the notice.
  have hheeding : b.heeding peer c t now =
      b.putConnection peer ((c.send notice).value.close (some error.message)).value := by
    rw [heeding, Connection.receive_of_forgery hopen hforgery, putConnection_self hc]
    show (b.report peer error now).value = _
    unfold report
    rw [hc]
    rfl
  obtain ⟨hgone, htold, htrace⟩ := hb.leaves_receive hc hheeding
    (Connection.isClosed_eq_true_iff.2 (Connection.state_close _ _))
  have htaken : c.channel.refusal c.channel.trace notice = none := by
    refine taken_of_unfailing hc hstate ?_ hunfailing
    rw [htrace]
    exact Connection.trace_close _ _
  have hsend := Connection.value_send_of_taken hstate htaken
  rw [hsend, Connection.value_close_of_open (by exact hopen)] at htold htrace
  refine ⟨o, error.message, notice, hforgery, ⟨hgone, ?_⟩, ?_, rfl⟩
  · rw [htold, hqueue]
    rfl
  · have hnew : (b.perform (.receive peer t) now).traceOf peer =
        b.traceOf peer ++ [.sent notice, .closed] := by
      rw [htrace, traceOf_of_open hc]
      simp [Channel.close]
    rw [newFrames_of_traceOf hnew]
    rfl

/-- A guest that is told of no error is sent no notice. -/
theorem answers_of_no_complaint (hnone : b.complaint? peer c t now = none) :
    Answers (fun _ f => f.noticeCode? = none) b peer c t now where
  answer _ _ hf := Transmission.noticeCode?_of_isAnswer hf
  notice e he := by
    rw [hnone] at he
    cases he
  replay group schema _ _ f hf := by
    rcases List.mem_append.1 hf with hf | hf
    · obtain ⟨entry, -, left, rfl⟩ := Container.exists_of_mem_replayOf hf
      rfl
    · obtain rfl := List.mem_singleton.1 hf
      rfl

/-- What follows from a frame of which its guest is told no error closes nobody's connection, unless
a channel refuses something. -/
theorem persists_heeding {q : PeerId} (hc : b.connections.find? peer = some c)
    (hnone : b.complaint? peer c t now = none) :
    Persists q (b.putConnection peer (c.receive t now).value.1) (b.heeding peer c t now) := by
  have hR := keptInSilence_persists q
  have hsettle : ∀ r : Broker × Outcome Unit, failure? r.2 = none →
      (settle peer now r).value = r.1 := by
    rintro ⟨b', outcome⟩ hok
    cases outcome with
    | ok u => rfl
    | error e => cases hok
  unfold complaint? at hnone
  unfold heeding
  -- A rejected frame and a fatal one would have been complained about.
  cases hreceived : (c.receive t now).value.2 with
  | handled => exact .refl q _
  | rejected violation =>
    rw [hreceived] at hnone
    cases hnone
  | fatal e =>
    rw [hreceived] at hnone
    cases hnone
  -- What is handed on leaves the connection as it was.
  | object h o =>
    obtain ⟨hsame, -⟩ := Connection.receive_eq_object hreceived
    rw [hreceived] at hnone
    rw [hsame, putConnection_self hc]
    simp only [acceptReceived, Noted.value_bind]
    rw [hsettle _ hnone]
    exact hR.acceptObject b h o
  | control request =>
    obtain ⟨hsame, -⟩ := Connection.receive_eq_control hreceived
    rw [hreceived] at hnone
    rw [hsame, putConnection_self hc]
    simp only [acceptReceived, Noted.value_bind]
    rw [hsettle _ hnone]
    exact persists_acceptRequest b peer request

/-- A frame that is no notice and of which its guest is told no error is accepted. -/
theorem Reachable.accepted_outcome (hb : b.Reachable) (hc : b.connections.find? peer = some c)
    (hfarewell : ∀ code text, ¬t.IsFarewell code text)
    (hnone : b.complaint? peer c t now = none)
    (hunfailing : b.Unfailing (b.perform (.receive peer t) now) peer) :
    b.ComesTo peer c t (b.perform (.receive peer t) now) .accepted := by
  obtain ⟨hqueue, hopen⟩ := hb.rested peer c hc
  let heard := b.putConnection peer (c.receive t now).value.1
  have hheard : heard.connections.find? peer = some (c.receive t now).value.1 := by simp [heard]
  have hendures := c.endures_receive now hfarewell
  have hfollows : Persists peer heard (b.perform (.receive peer t) now) := by
    rw [perform_receive_of_open hc]
    exact (persists_heeding hc hnone).trans (persists_drain peer _ now)
  constructor
  -- Hearing the frame may change the state of the connection, so the two parts are told apart: it
  -- endures the first, and what follows leaves it in its state.
  · have hgrows : Grows peer b heard := by
      rw [Grows, traceOf_of_open hc, traceOf_of_open hheard]
      exact hendures.trace
    obtain ⟨hfirst, hrest⟩ := hgrows.unfailing hfollows.grows hunfailing
    rw [Unfailing, newActions, traceOf_of_open hc, traceOf_of_open hheard] at hfirst
    have hlasts := hendures.lasts hfirst ⟨hopen, by simp [hqueue]⟩
    obtain ⟨c', hc', hlasts', -⟩ := hfollows.lasts hrest _ hheard hlasts
    exact ⟨c', hc', hlasts'.stands⟩
  · refine List.filterMap_eq_nil_iff.2 fun f hf => ?_
    have hdoes : Does now (fun _ => True) (fun _ => True) (fun _ f => f.noticeCode? = none) b
        (b.perform (.receive peer t) now) :=
      hb.does_receive hc (answers_of_no_complaint hnone) (fun _ _ _ _ => trivial)
        fun _ _ _ _ _ _ _ => trivial
    -- What is passed on is an object, and nothing else that is sent is a notice.
    rcases hdoes.frames.of_mem_newFrames hf with hother | ⟨p, -, -, rfl⟩
    · exact hother
    · rfl

/-- Every frame from a guest whose channel does not fail meanwhile comes to exactly one outcome: it
is accepted, it is refused, it ends the connection, or the guest is expelled for it. So no other
frame closes the connection of its guest, and no frame closes that of another guest unless its
channel fails. -/
theorem Reachable.frame_outcome (hb : b.Reachable) (hc : b.connections.find? peer = some c)
    (t : Transmission) (now : Instant)
    (hunfailing : b.Unfailing (b.perform (.receive peer t) now) peer) :
    (∃! outcome, b.ComesTo peer c t (b.perform (.receive peer t) now) outcome) ∧
    ((b.perform (.receive peer t) now).connections.find? peer = none →
      (∃ code text, t.IsFarewell code text) ∨ ∃ o, t.IsForgery o) ∧
    ∀ q d, q ≠ peer → b.connections.find? q = some d →
      b.Unfailing (b.perform (.receive peer t) now) q →
        ∃ d', (b.perform (.receive peer t) now).connections.find? q = some d' ∧
          d'.state = d.state := by
  -- Forgeries and notices come to their outcomes whatever else may be said of them, and for any
  -- other frame it is settled by whether there is an error to report.
  have hsome : ∃ outcome, b.ComesTo peer c t (b.perform (.receive peer t) now) outcome := by
    by_cases hforgery : ∃ o, t.IsForgery o
    · obtain ⟨o, hforgery⟩ := hforgery
      exact ⟨.expelled, hb.expelled_outcome hc hforgery hunfailing⟩
    · by_cases hfarewell : ∃ code text, t.IsFarewell code text
      · obtain ⟨code, text, hfarewell⟩ := hfarewell
        exact ⟨.ended, hb.ended_outcome hc hfarewell⟩
      · cases hcomplaint : b.complaint? peer c t now with
        | none =>
          refine ⟨.accepted, hb.accepted_outcome hc (fun code text h => ?_) hcomplaint hunfailing⟩
          exact hfarewell ⟨code, text, h⟩
        | some e =>
          rcases hb.complaint_cases hc hcomplaint with hrefused | hforged
          · exact ⟨.refused, hb.refused_outcome hc hrefused hunfailing⟩
          · exact absurd hforged hforgery
  obtain ⟨outcome, houtcome⟩ := hsome
  refine ⟨⟨outcome, houtcome, fun other hother => hother.unique houtcome⟩, fun hgone => ?_, ?_⟩
  · cases outcome with
    | accepted =>
      obtain ⟨⟨c', hc', -⟩, -⟩ := houtcome
      cases hc'.symm.trans hgone
    | refused =>
      obtain ⟨⟨c', hc', -⟩, -⟩ := houtcome
      cases hc'.symm.trans hgone
    | ended =>
      obtain ⟨code, text, -, hfarewell, -⟩ := houtcome
      exact .inl ⟨code, text, hfarewell⟩
    | expelled =>
      obtain ⟨o, -, -, hforgery, -⟩ := houtcome
      exact .inr ⟨o, hforgery⟩
  · intro q d hq hd hunfailing'
    obtain ⟨hqueue, hopen⟩ := hb.rested q d hd
    have hpersists : Persists q b (b.perform (.receive peer t) now) :=
      (keptInSilence_persists q).receive (Ne.symm hq) b t
    obtain ⟨d', hd', -, hstate⟩ :=
      hpersists.lasts hunfailing' d hd ⟨hopen, by simp [hqueue]⟩
    exact ⟨d', hd', hstate⟩

/-- A guest claims that the connection of another one has closed. -/
def forgedRecord : Transmission :=
  .ofObject { typeName := peerStateType, nameSpace := some controlNamespace }
    (PeerState.record 3 "other" .closed)

/-- The guest in the lobby is expelled for its forgery. -/
theorem forger_expelled : ∃ c, lobby.connections.find? 2 = some c ∧
    lobby.ComesTo 2 c forgedRecord (lobby.perform (.receive 2 forgedRecord) default)
      .expelled := by
  obtain ⟨c, hc⟩ : ∃ c, lobby.connections.find? 2 = some c := ⟨_, rfl⟩
  have hactions : lobby.newActions (lobby.perform (.receive 2 forgedRecord) default) 2 =
      [.sent (.ofControl (.notice .failure
        (BrokerError.invalidOperation (.hostRecord peerStateType)).message) default), .closed] :=
    rfl
  have hunfailing : lobby.Unfailing (lobby.perform (.receive 2 forgedRecord) default) 2 := by
    rw [Unfailing, hactions]
    decide
  obtain ⟨⟨outcome, hcomes, -⟩, -⟩ :=
    Reachable.frame_outcome reachable_lobby hc forgedRecord default hunfailing
  -- The guest is no longer there, and the one notice that it was sent has code 2.
  have hevidence : outcome.evidence = FrameOutcome.expelled.evidence := hcomes.evidence
  rw [FrameOutcome.evidence_injective hevidence] at hcomes
  exact ⟨c, hc, hcomes⟩

end Broker

end ObjectBus
