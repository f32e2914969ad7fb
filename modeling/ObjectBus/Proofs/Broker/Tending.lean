import ObjectBus.Proofs.Broker.Discovery
import ObjectBus.Proofs.Broker.Frames

/-!
# What one guest is sent and announces

A part of a call tends one guest: it may send it some frames, close its connection and move it to
another table, and remember a type that the guest announced. It does nothing else to the channel,
and definitions of struct types go only to a guest that asks for them or has joined the group of
announcements.

* `Transmission.AddsNothing`: frames that a discovery passes over;
* `Connection.Keeps`: what may happen to a connection;
* `Broker.Tends`: what may happen to a guest in a part of a call;
* `tends_perform`: what happens in calls that are not about the guest;
* `tends_receive`: and while it is heard.
-/

namespace ObjectBus

/-! ## Frames beside a discovery -/

namespace Transmission

/-- The struct type that a frame defines. -/
def struct? (t : Transmission) : Option StructSchema :=
  match t.payload with
  | .control (.structSchema s) => some s
  | _ => none

/-- Whether a frame marks the end of a discovery. -/
def endsDiscovery (t : Transmission) : Bool :=
  match t.payload with
  | .control (.cacheInfo _ _ finished) => finished
  | _ => false

/-- A frame neither defines a struct type nor marks the end of a discovery. -/
structure AddsNothing (t : Transmission) : Prop where
  /-- It defines no struct type. -/
  struct : t.struct? = none
  /-- It does not mark the end. -/
  ending : t.endsDiscovery = false

theorem addsNothing_ofObject (h : Header) (o : Object) : (ofObject h o).AddsNothing := ⟨rfl, rfl⟩

end Transmission

/-- What a guest that joins the group of a cached type is sent adds nothing to a discovery. -/
theorem Broker.addsNothing_replayFrames {b : Broker} {schema : StructSchema} {now : Instant}
    {t : Transmission} (ht : t ∈ b.replayFrames schema now) : t.AddsNothing := by
  rcases List.mem_append.1 ht with hitem | hmark
  · obtain ⟨e, -, left, rfl⟩ := Container.exists_of_mem_replayOf hitem
    exact ⟨rfl, rfl⟩
  · obtain rfl := List.mem_singleton.1 hmark
    exact ⟨rfl, rfl⟩

/-! ## Connections -/

namespace Connection

variable {allowed : Transmission → Prop} {learnt : String → Prop} {c c' c'' : Connection}
variable {t : Transmission} {now : Instant}

/-- A connection is sent nothing but what is allowed, stays open with its channel or closes, and
remembers no other types than those learnt. -/
structure Keeps (allowed : Transmission → Prop) (learnt : String → Prop) (c c' : Connection) :
    Prop where
  /-- The channel fails as before. -/
  refusal : c'.channel.refusal = c.channel.refusal
  /-- A connection that is open was so before, and its channel has not been closed. -/
  intact : c'.isClosed = false → c.isClosed = false ∧ c'.channel.isClosed = c.channel.isClosed
  /-- What it is sent. -/
  sent : c.channel.Sends allowed c'.channel
  /-- What it remembers. -/
  imported : ∀ name ∈ c'.imported, name ∈ c.imported ∨ learnt name

namespace Keeps

/-- A connection changes neither its channel nor its state. -/
theorem of_eq (hchannel : c'.channel = c.channel) (hstate : c'.state = c.state)
    (himported : ∀ name ∈ c'.imported, name ∈ c.imported ∨ learnt name) :
    c.Keeps allowed learnt c' where
  refusal := by rw [hchannel]
  intact hopen := ⟨by rwa [isClosed, ← hstate], by rw [hchannel]⟩
  sent := by
    rw [hchannel]
    exact .refl _ _
  imported := himported

theorem refl (allowed : Transmission → Prop) (learnt : String → Prop) (c : Connection) :
    c.Keeps allowed learnt c := .of_eq rfl rfl fun _ => .inl

theorem trans (h : c.Keeps allowed learnt c') (h' : c'.Keeps allowed learnt c'') :
    c.Keeps allowed learnt c'' where
  refusal := h'.refusal.trans h.refusal
  intact hopen := by
    obtain ⟨hopen', hchannel'⟩ := h'.intact hopen
    obtain ⟨hopen, hchannel⟩ := h.intact hopen'
    exact ⟨hopen, hchannel'.trans hchannel⟩
  sent := h.sent.trans h'.sent
  imported name hname := (h'.imported name hname).elim (h.imported name) .inr

end Keeps

theorem keeps_setState (c : Connection) (state : ConnectionState) (cause : Option String) :
    c.Keeps allowed learnt (c.setState state cause).value := by
  unfold setState
  split
  · exact .refl _ _ c
  · rename_i hopen
    exact ⟨rfl, fun _ => ⟨Bool.not_eq_true _ ▸ hopen, rfl⟩, .refl _ _, fun _ => .inl⟩

theorem keeps_close (c : Connection) (cause : Option String) :
    c.Keeps allowed learnt (c.close cause).value := by
  have hclosed : (c.close cause).value.isClosed = true :=
    isClosed_eq_true_iff.2 (state_close c cause)
  have hset : c.Keeps allowed learnt (c.setState .closed cause).value :=
    keeps_setState c .closed cause
  unfold close at hclosed ⊢
  split
  · exact .refl _ _ c
  · rename_i hopen
    rw [if_neg hopen] at hclosed
    refine ⟨hset.refusal, fun h => ?_, ?_, hset.imported⟩
    · exact absurd (hclosed.symm.trans h) (by simp)
    · obtain ⟨frames, hsent, hallowed⟩ := hset.sent
      exact ⟨frames, (Channel.sent_close _).trans hsent, hallowed⟩

/-- Sending something that is allowed. -/
theorem keeps_send (c : Connection) (ht : allowed t) :
    c.Keeps allowed learnt (c.send t).value := by
  -- What is handed over is taken, or refused, which closes the connection.
  have hhand : ∀ channel refusal, c.channel.send t = (channel, refusal) →
      c.Keeps allowed learnt { c with channel := channel } := by
    intro channel refusal hsend
    have hsent := c.channel.sent_send t
    rw [hsend] at hsent
    unfold Channel.send at hsend
    split at hsend
    all_goals
      obtain ⟨rfl, rfl⟩ := Prod.mk.inj hsend
      refine ⟨rfl, fun hopen => ⟨hopen, by simp [Channel.isClosed, ChannelAction.isClosed]⟩, ?_,
        fun _ => .inl⟩
    · exact ⟨[t], by simpa using hsent, by simpa using ht⟩
    · exact ⟨[], by simpa using hsent, by simp⟩
  unfold send
  split
  · exact .refl _ _ c
  · exact .refl _ _ c
  · split
    · rename_i channel hsend
      exact hhand channel _ hsend
    · rename_i channel error hsend
      rw [value_transportFailed]
      exact (hhand channel _ hsend).trans (keeps_close _ _)

theorem keeps_foldl_send {ts : List Transmission} (c : Connection) (hts : ∀ t ∈ ts, allowed t) :
    c.Keeps allowed learnt (ts.foldl (fun c t => (c.send t).value) c) := by
  induction ts generalizing c with
  | nil => exact .refl _ _ c
  | cons t rest ih =>
    exact (c.keeps_send (hts t List.mem_cons_self)).trans
      (ih _ fun t' ht' => hts t' (List.mem_cons_of_mem _ ht'))

theorem keeps_offered (c : Connection) (ht : allowed t) :
    c.Keeps allowed learnt (c.offered t) := by
  unfold offered
  split
  · exact c.keeps_send ht
  · exact .refl _ _ c

theorem keeps_rememberImport (c : Connection) {typeName : String} (hname : learnt typeName) :
    c.Keeps allowed learnt (c.rememberImport typeName) := by
  unfold rememberImport
  split
  · exact .refl _ _ c
  · refine .of_eq rfl rfl fun name hmem => (List.mem_append.1 hmem).imp_right fun hnew => ?_
    exact List.mem_singleton.1 hnew ▸ hname

/-- Hearing a guest sends it no definitions. -/
theorem keeps_receive (hallowed : ∀ t : Transmission, t.AddsNothing → allowed t) (c : Connection)
    (t : Transmission) (now : Instant) : c.Keeps allowed learnt (c.receive t now).value.1 := by
  have hreported : ∀ code text, c.Keeps allowed learnt (c.peerReported code text).value := by
    intro code text
    unfold peerReported
    split
    · exact keeps_close c none
    · exact keeps_close c _
  have haccept : ∀ name preload,
      c.Keeps allowed learnt (c.acceptConnect name preload now).value := by
    intro name preload
    have hnamed : c.Keeps allowed learnt { c with name := name } := .of_eq rfl rfl fun _ => .inl
    exact (hnamed.trans (keeps_send _ (hallowed _ ⟨rfl, rfl⟩))).trans (keeps_setState _ _ none)
  have hfinish : c.Keeps allowed learnt (c.finishPreload now).value :=
    (keeps_setState c .connected none).trans (keeps_send _ (hallowed _ ⟨rfl, rfl⟩))
  have hmessage : ∀ h message, c.Keeps allowed learnt (c.receiveMessage h message now).value.1 := by
    intro h message
    unfold receiveMessage
    split
    · split
      · exact haccept _ _
      · exact .refl _ _ c
    · split
      · exact hfinish
      · exact .refl _ _ c
    · exact .refl _ _ c
    · exact .refl _ _ c
    · exact .refl _ _ c
  unfold receive
  split
  · exact .refl _ _ c
  · simp only
    split
    · exact .refl _ _ c
    · split
      · split
        · exact hreported _ _
        · exact hmessage _ _
      · exact .refl _ _ c

end Connection

namespace Broker

variable {allowed : Transmission → Prop} {learnt : String → Prop} {p sender : PeerId}
variable {b b' b'' : Broker} {c c' : Connection} {call : BrokerCall} {now : Instant}
variable {t : Transmission}

/-! ## Parts of a call -/

/-- A guest who may not be sent everything has not joined the group of announcements. -/
def Spares (p : PeerId) (allowed : Transmission → Prop) (b : Broker) : Prop :=
  b.groups.hasMember structSchemaGroup p = true → ∀ t, allowed t

/-- What may happen to a guest in a part of a call. -/
structure Tended (p : PeerId) (allowed : Transmission → Prop) (learnt : String → Prop)
    (b b' : Broker) : Prop where
  /-- It has not joined the group of announcements, unless it may be sent everything. -/
  spared : Spares p allowed b'
  /-- Its connection, if it is in the table, was there and keeps what it keeps. -/
  connection : ∀ c', b'.connections.find? p = some c' →
    ∃ c, b.connections.find? p = some c ∧ c.Keeps allowed learnt c'
  /-- It is sent nothing but what is allowed, whatever has become of its connection. -/
  channel : ∀ channel', b'.channel? p = some channel' →
    ∃ channel, b.channel? p = some channel ∧ channel.Sends allowed channel'

/-- A part of a call tends a guest that it spares announcements. -/
def Tends (p : PeerId) (allowed : Transmission → Prop) (learnt : String → Prop) (b b' : Broker) :
    Prop :=
  Spares p allowed b → Tended p allowed learnt b b'

namespace Tends

theorem trans (h : Tends p allowed learnt b b') (h' : Tends p allowed learnt b' b'') :
    Tends p allowed learnt b b'' := by
  intro hspares
  have hfirst := h hspares
  have hsecond := h' hfirst.spared
  refine ⟨hsecond.spared, fun c'' hc'' => ?_, fun channel'' hchannel'' => ?_⟩
  · obtain ⟨c', hc', hkeeps'⟩ := hsecond.connection c'' hc''
    obtain ⟨c, hc, hkeeps⟩ := hfirst.connection c' hc'
    exact ⟨c, hc, hkeeps.trans hkeeps'⟩
  · obtain ⟨channel', hchannel', hsends'⟩ := hsecond.channel channel'' hchannel''
    obtain ⟨channel, hchannel, hsends⟩ := hfirst.channel channel' hchannel'
    exact ⟨channel, hchannel, hsends.trans hsends'⟩

/-- No connection leaves the table, and that of the guest keeps what it keeps. -/
theorem of_rel (hclosed : b'.closed = b.closed) (hreleased : b'.released = b.released)
    (hmember : Spares p allowed b → b'.groups.hasMember structSchemaGroup p = true →
      ∀ t, allowed t)
    (hconnection : Spares p allowed b → Option.Rel (Connection.Keeps allowed learnt)
      (b.connections.find? p) (b'.connections.find? p)) : Tends p allowed learnt b b' := by
  intro hspares
  have hrel := hconnection hspares
  refine ⟨hmember hspares, fun c' hc' => exists_before_of_rel hrel hc',
    fun channel' hchannel' => ?_⟩
  cases hc : b.connections.find? p with
  | none =>
    -- Its channel is that of a connection that has closed, which stays as it is.
    have hc' := (eq_none_iff_of_rel hrel).2 hc
    rw [channel?_of_gone hc', hclosed, hreleased, ← channel?_of_gone hc] at hchannel'
    exact ⟨channel', hchannel', .refl _ _⟩
  | some c =>
    obtain ⟨c', hc', hkeeps⟩ := exists_after_of_rel hrel hc
    rw [channel?_of_open hc'] at hchannel'
    obtain rfl := Option.some.inj hchannel'
    exact ⟨c.channel, channel?_of_open hc, hkeeps.sent⟩

/-- Nothing happens to the guest. -/
theorem of_eq (hconnection : b'.connections.find? p = b.connections.find? p)
    (hmember : b'.groups.hasMember structSchemaGroup p = b.groups.hasMember structSchemaGroup p)
    (hclosed : b'.closed = b.closed) (hreleased : b'.released = b.released) :
    Tends p allowed learnt b b' := by
  refine of_rel hclosed hreleased (fun hspares h => hspares (hmember ▸ h)) fun _ => ?_
  rw [hconnection]
  exact rel_refl (.refl _ _) _

theorem refl (p : PeerId) (allowed : Transmission → Prop) (learnt : String → Prop) (b : Broker) :
    Tends p allowed learnt b b := of_eq rfl rfl rfl rfl

/-- The connection of the guest is put in its place. -/
theorem of_putConnection (hc : b.connections.find? p = some c)
    (hkeeps : c.Keeps allowed learnt c') : Tends p allowed learnt b (b.putConnection p c') := by
  refine of_rel rfl rfl (fun hspares h => hspares h) fun _ => ?_
  rw [find?_putConnection, if_pos rfl, hc]
  exact .some hkeeps

/-- Something allowed may be offered to the guest. -/
theorem of_offered (ht : allowed t) (offers : Prop) [Decidable offers]
    (hgroups : b'.groups = b.groups) (hclosed : b'.closed = b.closed)
    (hreleased : b'.released = b.released)
    (h : b'.connections.find? p =
      if offers then (b.connections.find? p).map (·.offered t) else b.connections.find? p) :
    Tends p allowed learnt b b' := by
  refine of_rel hclosed hreleased (fun hspares h => hspares (hgroups ▸ h)) fun _ => ?_
  rw [h]
  split
  · exact rel_map (fun c => c.keeps_offered ht) _
  · exact rel_refl (.refl _ _) _

end Tends

/-- A type that the guest announced is remembered. -/
theorem tends_confirmImport (b : Broker) {typeName : String} (hname : learnt typeName) :
    Tends p allowed learnt b (b.confirmImport p typeName) := by
  unfold confirmImport
  cases hc : b.connections.find? p with
  | none => exact .refl p allowed learnt b
  | some c => exact .of_putConnection hc (c.keeps_rememberImport hname)

/-- A guest whose connection has closed loses its memberships when it is forgotten. -/
theorem tends_forgetClosed (b : Broker) : Tends p allowed learnt b b.forgetClosed := by
  intro hspares
  refine ⟨fun hmember => hspares ?_, fun c hc => ⟨c, hc, .refl _ _ c⟩,
    fun channel' hchannel' => ?_⟩
  · have hdrop : b.forgetClosed.groups.hasMember structSchemaGroup p = _ :=
      GroupTable.hasMember_foldl_drop b.closed.keys b.groups structSchemaGroup p
    rw [hdrop, Bool.and_eq_true] at hmember
    exact hmember.2
  · -- The channel is still known when the connection has been forgotten.
    rw [channel?_forgetClosed] at hchannel'
    exact ⟨channel', hchannel', .refl _ _⟩

section Parts

variable (hallowed : ∀ t : Transmission, t.AddsNothing → allowed t)
include hallowed

theorem keptByObjects_tends (p : PeerId) (learnt : String → Prop) :
    KeptByObjects (Tends p allowed learnt) where
  trans := .trans
  idle hconnections hgroups := .of_eq (by rw [hconnections]) (by rw [hgroups])
  dispatch b schema h o now := by
    refine .of_offered (hallowed _ (Transmission.addsNothing_ofObject h o)) _
      (groups_dispatch b schema h o now) ?_ ?_ (find?_dispatch b schema h o now p)
    · rw [value_dispatch]
    · rw [value_dispatch]

/-- What is handed on reaches the guest only if it adds nothing to a discovery, or if it may be sent
anything. -/
theorem tends_forward (b : Broker) {group : String} (hforwards : Forwards group t) :
    Tends p allowed learnt b (b.forward group t).value := by
  have hfind : (b.forward group t).value.connections.find? p =
      if b.groups.hasMember group p = true then (b.connections.find? p).map (·.offered t)
      else b.connections.find? p := by
    rw [connections_forward, GroupTable.find?_deliver]
  cases hforwards with
  | clearCache | enumSchema =>
    exact .of_offered (hallowed _ ⟨rfl, rfl⟩) _ rfl rfl rfl hfind
  | structSchema h schema =>
    -- A definition reaches the guest only as a member, and members may be sent anything.
    by_cases hmember : b.groups.hasMember structSchemaGroup p = true
    · intro hspares
      exact Tends.of_offered (hspares hmember _) _ rfl rfl rfl hfind hspares
    · rw [if_neg hmember] at hfind
      exact .of_eq hfind rfl rfl rfl

/-- The taking of the queues and the leaving of connections are nothing to the guest. -/
theorem tends_drain (p : PeerId) (learnt : String → Prop) (b : Broker) (now : Instant) :
    Tends p allowed learnt b (b.drain now).value := by
  refine (keptByObjects_tends hallowed p learnt).drain (fun b hspares => ?_)
    (fun b peer hspares => ?_) b now
  · refine ⟨hspares, fun c' hc' => ?_, fun channel' hchannel' => ?_⟩
    · rw [find?_takePending, Option.map_eq_some_iff] at hc'
      obtain ⟨c, hc, rfl⟩ := hc'
      exact ⟨c, hc, .of_eq rfl rfl fun _ => .inl⟩
    · rw [channel?_takePending] at hchannel'
      exact ⟨channel', hchannel', .refl _ _⟩
  · refine ⟨?_, fun c' hc' => ?_, fun channel' hchannel' => ?_⟩
    · rwa [Spares, groups_setAside]
    · rw [find?_setAside] at hc'
      split at hc'
      · cases hc'
      · exact ⟨c', hc', .refl _ _ c'⟩
    · rw [channel?_setAside] at hchannel'
      exact ⟨channel', hchannel', .refl _ _⟩

/-- A guest is tended in all parts of the calls that do not hear it. -/
theorem keptInSilence_tends (p : PeerId) (learnt : String → Prop) :
    KeptInSilence (· = p) (Tends p allowed learnt) where
  toKeptByObjects := keptByObjects_tends hallowed p learnt
  forward b _ _ hforwards := tends_forward hallowed b hforwards
  concerns hother hconcerns :=
    .of_eq (hconcerns.connection p fun hp => hother hp.symm)
      (hconcerns.membership p _ fun hp => hother hp.symm) hconcerns.closed hconcerns.released
  drain := tends_drain hallowed p learnt

/-! ## Calls that are not about the guest -/

theorem tends_sweep (b : Broker) (now : Instant) :
    Tends p allowed learnt b (b.sweep now).value :=
  (tends_forgetClosed b).trans ((keptInSilence_tends hallowed p learnt).sweep b)

/-- A goodbye is all that a guest is sent when the host shuts down. -/
theorem tends_farewell (b : Broker) (peer : PeerId) (now : Instant) :
    Tends p allowed learnt b (b.farewell peer now).value := by
  unfold farewell
  cases hc : b.connections.find? peer with
  | none => exact .refl p allowed learnt b
  | some c =>
    by_cases hpeer : peer = p
    · -- The goodbye goes out before the connection closes.
      subst hpeer
      exact .of_putConnection hc
        ((c.keeps_send (hallowed _ ⟨rfl, rfl⟩)).trans (Connection.keeps_close _ none))
    · exact (keptInSilence_tends hallowed p learnt).concerns hpeer (concerns_putConnection b peer _)

theorem tends_shutdown (b : Broker) (now : Instant) :
    Tends p allowed learnt b (b.shutdown now).value := by
  have hfarewell : Tends p allowed learnt b
      (b.connections.keys.foldl (fun b peer => (b.farewell peer now).value) b) :=
    (keptByObjects_tends hallowed p learnt).foldl (fun b peer => tends_farewell hallowed b peer now)
      _ b
  unfold shutdown
  simp only [Noted.value_bind, Noted.value_foldlM]
  exact (hfarewell.trans (tends_drain hallowed p learnt _ now)).trans (tends_sweep hallowed _ now)

/-- A call that is not about a guest tends it. -/
theorem tends_perform (hcall : b.addressee? call ≠ some p) (now : Instant) :
    Tends p allowed learnt b (b.perform call now) := by
  by_cases hsweep : call = .sweep
  · subst hsweep
    exact tends_sweep hallowed b now
  · by_cases hshutdown : call = .shutdown
    · subst hshutdown
      exact tends_shutdown hallowed b now
    · refine (keptInSilence_tends hallowed p learnt).perform b call (fun peer hpeer hp => ?_) hsweep
        hshutdown now
      exact hcall (hp ▸ hpeer)

/-! ## Hearing the guest -/

theorem tends_report (b : Broker) (e : BrokerError) (now : Instant) :
    Tends p allowed learnt b (b.report p e now).value := by
  unfold report
  cases hc : b.connections.find? p with
  | none => exact .refl p allowed learnt b
  | some c =>
    have hnotice : ∀ code text,
        c.Keeps allowed learnt (c.sendControl (.notice code text) now).value :=
      fun _ _ => c.keeps_send (hallowed _ ⟨rfl, rfl⟩)
    simp only
    split
    · exact .of_putConnection hc (hnotice _ _)
    · exact .of_putConnection hc ((hnotice _ _).trans (Connection.keeps_close _ _))

theorem tends_settle (r : Broker × Outcome Unit) (now : Instant) :
    Tends p allowed learnt r.1 (settle p now r).value := by
  unfold settle
  split
  · exact .refl p allowed learnt r.1
  · exact tends_report hallowed r.1 _ now

theorem tends_replayTo (b : Broker) (schema : StructSchema) (now : Instant) :
    Tends p allowed learnt b (b.replayTo p schema now).value.1 := by
  let touched : Broker :=
    { b with dispatcher := { b.dispatcher with pool := b.dispatcher.pool.touch schema } }
  have htouch : Tends p allowed learnt b touched := .of_eq rfl rfl rfl rfl
  cases hc : b.connections.find? p with
  | none =>
    unfold replayTo
    simp only [hc]
    exact htouch
  | some c =>
    rw [value_replayTo b schema now hc]
    refine htouch.trans (.of_putConnection (b := touched) hc (c.keeps_foldl_send fun t ht => ?_))
    exact hallowed t (addsNothing_replayFrames ht)

/-- A guest may not join the group of announcements, unless it may be sent anything. -/
theorem tends_changeMembership (b : Broker) {group : String} {event : MemberEvent}
    (hjoin : event = .join → group = structSchemaGroup → ∀ t, allowed t) (now : Instant) :
    Tends p allowed learnt b (b.changeMembership p group event now).value.1 := by
  unfold changeMembership
  cases event with
  | join =>
    let joined : Broker := { b with groups := (b.groups.join group p).value.1 }
    -- It has joined this group or was a member before.
    have hjoined : Tends p allowed learnt b joined := by
      refine .of_rel rfl rfl (fun hspares hmember => ?_) fun _ => rel_refl (.refl _ _) _
      rw [GroupTable.hasMember_join, Bool.or_eq_true, decide_eq_true_iff] at hmember
      exact hmember.elim (fun h => hjoin rfl h.1.symm) hspares
    simp only [Noted.value_bind]
    split
    · split
      · exact hjoined.trans (tends_replayTo hallowed joined _ now)
      · exact hjoined
    · exact hjoined
  | leave =>
    let left : Broker := { b with groups := (b.groups.leave group p).value.1 }
    have hleft : Tends p allowed learnt b left := by
      refine .of_rel rfl rfl (fun hspares hmember => ?_) fun _ => rel_refl (.refl _ _) _
      rw [GroupTable.hasMember_leave, Bool.and_eq_true] at hmember
      exact hspares hmember.2
    exact hleft
  | kill => exact .refl p allowed learnt b

/-- What a guest may ask for: to be told everything only if it may be sent anything, and to announce
what may be learnt. -/
structure Permits (allowed : Transmission → Prop) (learnt : String → Prop) (b : Broker)
    (request : ControlRequest) (now : Instant) : Prop where
  /-- It does not join the group of announcements. -/
  join : request = .member structSchemaGroup .join → ∀ t, allowed t
  /-- It does not ask for definitions. -/
  discover : ∀ whitelist blacklist, request = .descriptorRequest whitelist blacklist →
    ∀ t, allowed t
  /-- A struct type that is registered may be learnt. -/
  importStruct : ∀ schema h outcome, request = .importStruct schema h →
    (b.registerStruct schema now).value.2 = .ok outcome → learnt schema.name
  /-- And so may an enum type. -/
  importEnum : ∀ schema h outcome, request = .importEnum schema h →
    (b.registerEnum schema).value.2 = .ok outcome → learnt schema.name

theorem tends_acceptRequest {request : ControlRequest}
    (hpermits : Permits allowed learnt b request now) :
    Tends p allowed learnt b (b.acceptRequest p request now).value.1 := by
  have hkept := keptInSilence_tends hallowed p learnt
  cases request with
  | member group event =>
    refine tends_changeMembership hallowed b (fun hjoin hgroup => hpermits.join ?_) now
    rw [hjoin, hgroup]
  | descriptorRequest whitelist blacklist =>
    have hany := hpermits.discover whitelist blacklist rfl
    unfold acceptRequest
    cases hc : b.connections.find? p with
    | none =>
      unfold discover
      simp only [hc]
      exact .refl p allowed learnt b
    | some c =>
      rw [value_discover hc]
      exact .of_putConnection hc (c.keeps_foldl_send fun t _ => hany t)
  | clearCache typeNames h =>
    exact (hkept.clearCache b typeNames).trans (tends_forward hallowed _ (.clearCache h typeNames))
  | importStruct schema h =>
    have hregister : Tends p allowed learnt b (b.registerStruct schema now).value.1 :=
      hkept.registerStruct b schema
    simp only [acceptRequest, Noted.value_bind]
    split
    · exact hregister
    · rename_i outcome houtcome
      have hlearnt := hpermits.importStruct schema h outcome rfl houtcome
      refine (hregister.trans (tends_confirmImport _ hlearnt)).trans ?_
      split <;> exact tends_forward hallowed _ (.structSchema h schema)
  | importEnum schema h =>
    have hregister : Tends p allowed learnt b (b.registerEnum schema).value.1 :=
      hkept.registerEnum b schema
    simp only [acceptRequest, Noted.value_bind]
    split
    · exact hregister
    · rename_i outcome houtcome
      have hlearnt := hpermits.importEnum schema h outcome rfl houtcome
      exact (hregister.trans (tends_confirmImport _ hlearnt)).trans
        (tends_forward hallowed _ (.enumSchema h schema))

/-- Hearing a guest tends it, if it asks for nothing but what it may ask for. -/
theorem tends_receive
    (hpermits : ∀ c request, b.connections.find? p = some c →
      (c.receive t now).value.2 = .control request → Permits allowed learnt b request now) :
    Tends p allowed learnt b (b.perform (.receive p t) now) := by
  show Tends p allowed learnt b (b.receive p t now).value.1
  unfold receive
  cases hc : b.connections.find? p with
  | none => exact .refl p allowed learnt b
  | some c =>
    have hheard : Tends p allowed learnt b (b.putConnection p (c.receive t now).value.1) :=
      .of_putConnection hc (c.keeps_receive hallowed t now)
    have haccepted : Tends p allowed learnt b
        ((b.putConnection p (c.receive t now).value.1).acceptReceived p (c.receive t now).value.2
          now).value := by
      cases hreceived : (c.receive t now).value.2 with
      | handled => exact hheard
      | rejected violation => exact hheard.trans (tends_report hallowed _ _ now)
      | fatal e => exact hheard.trans (tends_report hallowed _ e now)
      | object h o =>
        have hkept := keptInSilence_tends hallowed p learnt
        exact (hheard.trans (hkept.acceptObject _ h o)).trans (tends_settle hallowed _ now)
      -- What is asked for leaves the connection as it was.
      | control request =>
        obtain ⟨hsame, -⟩ := Connection.receive_eq_control hreceived
        rw [hsame, putConnection_self hc]
        exact (tends_acceptRequest hallowed (hpermits c request hc hreceived)).trans
          (tends_settle hallowed _ now)
    exact haccepted.trans (tends_drain hallowed p learnt _ now)

end Parts

end Broker

end ObjectBus
