import ObjectBus.Proofs.Broker.Numbers
import ObjectBus.Proofs.Broker.Replay

/-!
# Marks of replays

The objects of a replay are marked with the number of objects that follow. On the channel of a guest
a marked object stands in a complete replay, which the mark of its end concludes, unless a guest
sent the object with a mark: such a mark is passed on. A channel that fails during a replay holds
the beginning of it, and nothing after that.

* `IsReplay`, `Batches`, `CutBatches`: complete replays, alone, among other frames and cut off;
* `Transmission.Excused`: a frame that carries no mark, or one that a guest made;
* `Step.sendsBatches`, `SendsBatches.moves`: what every step and every move keep;
* `batches_after`: what stands on the channels in every run;
* `forged_mark_passed_on`: a mark that a guest made stands outside all replays.
-/

namespace ObjectBus

/-! ## Replays among other frames -/

/-- A complete replay: objects of one type that count down to zero, and the mark of their end. -/
def IsReplay (frames : List Transmission) : Prop :=
  ∃ (typeName : String) (objects : List Transmission) (now : Instant),
    frames = objects ++ [.ofControl (.endOfReplay typeName) now] ∧
    ∀ i t, objects[i]? = some t → t.object? ≠ none ∧ t.header.typeName = typeName ∧
      t.header.fromCache = some (UInt32.ofNat (objects.length - 1 - i))

/-- Complete replays, with any number of single frames before, after and between them. -/
inductive Batches (single : Transmission → Prop) : List Transmission → Prop
  /-- There are no frames yet. -/
  | nil : Batches single []
  /-- A single frame follows. -/
  | frame {l : List Transmission} {t : Transmission} (h : Batches single l) (ht : single t) :
      Batches single (l ++ [t])
  /-- A complete replay follows. -/
  | replay {l frames : List Transmission} (h : Batches single l) (hframes : IsReplay frames) :
      Batches single (l ++ frames)

/-- Complete replays and single frames, and perhaps the beginning of one more replay. -/
def CutBatches (single : Transmission → Prop) (l : List Transmission) : Prop :=
  ∃ whole cut, l = whole ++ cut ∧ Batches single whole ∧
    (cut = [] ∨ ∃ frames, IsReplay frames ∧ cut <+: frames)

section Batches

variable {single single' : Transmission → Prop} {l frames : List Transmission}

theorem Batches.append (h : Batches single l) (hframes : ∀ t ∈ frames, single t) :
    Batches single (l ++ frames) := by
  induction frames generalizing l with
  | nil => rwa [List.append_nil]
  | cons t rest ih =>
    rw [List.append_cons]
    exact ih (.frame h (hframes t List.mem_cons_self)) fun t' ht' =>
      hframes t' (List.mem_cons_of_mem _ ht')

theorem Batches.mono (h : Batches single l) (himp : ∀ t, single t → single' t) :
    Batches single' l := by
  induction h with
  | nil => exact .nil
  | frame _ ht ih => exact .frame ih (himp _ ht)
  | replay _ hframes ih => exact .replay ih hframes

/-- The last frame is a single one or the mark of an end. -/
theorem Batches.getLast? (h : Batches single l) {t : Transmission} (ht : l.getLast? = some t) :
    single t ∨ t.object? = none := by
  cases h with
  | nil => cases ht
  | frame _ hsingle =>
    rw [List.getLast?_concat] at ht
    exact .inl (Option.some.inj ht ▸ hsingle)
  | replay _ hframes =>
    obtain ⟨typeName, objects, now, rfl, -⟩ := hframes
    rw [← List.append_assoc, List.getLast?_concat] at ht
    exact .inr (Option.some.inj ht ▸ rfl)

theorem Batches.cut (h : Batches single l) : CutBatches single l :=
  ⟨l, [], (List.append_nil l).symm, h, .inl rfl⟩

theorem CutBatches.mono (h : CutBatches single l) (himp : ∀ t, single t → single' t) :
    CutBatches single' l := by
  obtain ⟨whole, cut, heq, hwhole, hcut⟩ := h
  exact ⟨whole, cut, heq, hwhole.mono himp, hcut⟩

end Batches

namespace Transmission

/-- A frame that does not carry a marked object. -/
def Unmarked (f : Transmission) : Prop := f.object? = none ∨ f.header.fromCache = none

/-- A frame that does not carry a marked object, or carries one that was given with the mark. -/
def Excused (given : Transmission → Prop) (f : Transmission) : Prop :=
  f.Unmarked ∨ ∃ t, given t ∧ t.payload = f.payload ∧ t.header.fromCache = f.header.fromCache

/-- If nothing was given with a mark, nothing else that is marked is excused. -/
theorem Excused.unmarked {given : Transmission → Prop} {f : Transmission} (h : f.Excused given)
    (hgiven : ∀ t, given t → t.Unmarked) : f.Unmarked := by
  rcases h with h | ⟨t, ht, hpayload, hmark⟩
  · exact h
  · refine (hgiven t ht).imp (fun hobject => ?_) hmark.symm.trans
    unfold object? at hobject ⊢
    rwa [← hpayload]

end Transmission

/-! ## One connection -/

namespace Connection

variable {single : Transmission → Prop} {c c' : Connection} {frames : List Transmission}

/-- What was sent is complete replays and single frames; the last replay may be cut off if the
connection has closed. -/
structure SendsBatches (single : Transmission → Prop) (c : Connection) : Prop where
  /-- All that was sent. -/
  cut : CutBatches single c.channel.sent
  /-- While the connection is open nothing is cut off. -/
  whole : c.isClosed = false → Batches single c.channel.sent

/-- A connection that sends single frames only. -/
theorem SendsBatches.advances (h : c.SendsBatches single) (hadvances : c.Advances single c') :
    c'.SendsBatches single := by
  obtain ⟨frames, hsent, hsingle, hnone⟩ := hadvances.sent
  by_cases hclosed : c.isClosed = true
  -- A closed connection sends nothing more, so that a replay that was cut off stays the last.
  · rw [hnone hclosed, List.append_nil] at hsent
    refine ⟨hsent ▸ h.cut, fun hopen => ?_⟩
    rw [hadvances.isClosed hclosed] at hopen
    cases hopen
  · have hwhole : Batches single c'.channel.sent := by
      rw [hsent]
      exact (h.whole (by simpa using hclosed)).append hsingle
    exact ⟨hwhole.cut, fun _ => hwhole⟩

/-- A connection that takes no part ignores what it is handed. -/
theorem value_foldl_send_of_idle (hstate : c.state = .closed ∨ c.state = .suspended)
    (frames : List Transmission) : frames.foldl (fun c t => (c.send t).value) c = c := by
  induction frames with
  | nil => rfl
  | cons t rest ih =>
    have hsend : (c.send t).value = c := by
      unfold send
      rcases hstate with hstate | hstate <;> rw [hstate] <;> rfl
    rw [List.foldl_cons, hsend, ih]

/-- What is handed to a connection one after the other is sent up to some point. -/
theorem sent_foldl_send (frames : List Transmission) (c : Connection) :
    ∃ cut, cut <+: frames ∧
      (frames.foldl (fun c t => (c.send t).value) c).channel.sent = c.channel.sent ++ cut := by
  induction frames generalizing c with
  | nil => exact ⟨[], List.prefix_rfl, by simp⟩
  | cons t rest ih =>
    rcases c.send_cases t with ⟨-, hstate⟩ | ⟨-, ⟨channel, hnext, hsent⟩ |
      ⟨channel, error, hnext, hsent⟩⟩
    -- Nothing is sent at all, or the first frame and some of the others, or nothing because the
    -- channel refuses the first.
    · exact ⟨[], List.nil_prefix, by rw [value_foldl_send_of_idle hstate, List.append_nil]⟩
    · obtain ⟨cut, hcut, hrest⟩ := ih (c.send t).value
      refine ⟨t :: cut, (List.prefix_cons_inj t).2 hcut, ?_⟩
      rw [List.foldl_cons, hrest, hnext, hsent, List.append_assoc]
      rfl
    · have hclosed : (c.send t).value.state = .closed := by rw [hnext, state_transportFailed]
      have hsame : (c.send t).value.channel.sent = c.channel.sent := by
        obtain ⟨later, hlater, hnone, -⟩ :=
          (advances_transportFailed (fun _ => False) { c with channel := channel } error).sent
        rw [hnext, hlater, List.eq_nil_iff_forall_not_mem.2 hnone, List.append_nil, hsent]
      exact ⟨[], List.nil_prefix, by
        rw [List.foldl_cons, value_foldl_send_of_idle (.inl hclosed), hsame, List.append_nil]⟩

/-- A connection that is handed a complete replay. -/
theorem SendsBatches.replay (h : c.SendsBatches single) (hframes : IsReplay frames) :
    (frames.foldl (fun c t => (c.send t).value) c).SendsBatches single := by
  by_cases hidle : c.state = .closed ∨ c.state = .suspended
  · rwa [value_foldl_send_of_idle hidle]
  · obtain ⟨hopen, hsuspended⟩ := not_or.1 hidle
    have hbefore : Batches single c.channel.sent := h.whole (isClosed_eq_false_iff.2 hopen)
    obtain ⟨cut, hcut, hsent⟩ := sent_foldl_send frames c
    refine ⟨⟨_, cut, hsent, hbefore, .inr ⟨frames, hframes, hcut⟩⟩, fun hstays => ?_⟩
    rw [sent_foldl_send_of_open hsuspended hstays]
    exact .replay hbefore hframes

end Connection

/-! ## All connections -/

namespace Broker

variable {single : Transmission → Prop} {given : Transmission → Prop} {call : BrokerCall}
variable {now : Instant} {b b' : Broker} {peer : PeerId}

/-- What guests are sent when they are brought up to date is a complete replay. -/
theorem isReplay_replayFrames (hb : b.Sound) {schema : StructSchema}
    (hs : b.registry.findStruct? schema.name = some schema) (now : Instant) :
    IsReplay (b.replayFrames schema now) := by
  obtain ⟨hschema, -⟩ := hb.cacheOf hs
  refine ⟨schema.name, (b.cacheOf schema).replay now, now, rfl, fun i t ht => ?_⟩
  rw [Container.replay, Container.getElem?_replayOf, Option.map_eq_some_iff] at ht
  obtain ⟨e, -, rfl⟩ := ht
  rw [Container.replay, Container.length_replayOf]
  refine ⟨Option.some_ne_none _, ?_, rfl⟩
  exact congrArg StructSchema.name hschema

/-- What the guests were sent is complete replays and single frames, as far as their connections are
open. -/
structure SendsBatches (single : Transmission → Prop) (b : Broker) : Prop where
  /-- Guests whose connections are in the table. -/
  connections : ∀ peer c, b.connections.find? peer = some c → c.SendsBatches single
  /-- Guests whose connections have closed. -/
  closed : ∀ peer c, b.closed.find? peer = some c → CutBatches single c.channel.sent
  /-- Guests whose connections are forgotten. -/
  released : ∀ peer channel, b.released.find? peer = some channel → CutBatches single channel.sent

/-- A call hands over a frame that a guest gave, and takes over a channel on which nothing was sent
yet. -/
structure Supplies (given : Transmission → Prop) (call : BrokerCall) : Prop where
  /-- What a guest sends was given. -/
  heard : ∀ peer t, call = .receive peer t → given t
  /-- On the channel of a new guest nothing was sent. -/
  fresh : ∀ channel, call = .accept channel → channel.sent = []

/-- One step sends complete replays and otherwise single frames, of which those with marked objects
were given by a guest. -/
theorem Step.connections_sendsBatches (hb : b.Sound) (hcall : Supplies given call)
    (h : Step call now b b')
    (hbefore : ∀ peer c, b.connections.find? peer = some c → c.SendsBatches (·.Excused given)) :
    ∀ peer c, b'.connections.find? peer = some c → c.SendsBatches (·.Excused given) := by
  have hcontrol : ∀ t : Transmission, t.NoObject → t.Excused given := fun t ht => .inl (.inl ht)
  have hput : ∀ {q : PeerId} {d : Connection}, d.SendsBatches (·.Excused given) →
      ∀ peer c, (b.putConnection q d).connections.find? peer = some c →
        c.SendsBatches (·.Excused given) := by
    intro q d hd peer c hc
    rw [find?_putConnection] at hc
    split at hc
    · exact Option.some.inj hc ▸ hd
    · exact hbefore peer c hc
  have hoffered : ∀ {t : Transmission} {peer : PeerId} {c : Connection},
      (b.connections.find? peer).map (·.offered t) = some c → t.Excused given →
        c.SendsBatches (·.Excused given) := by
    intro t peer c hc ht
    obtain ⟨d, hd, rfl⟩ := Option.map_eq_some_iff.1 hc
    exact (hbefore peer d hd).advances (d.advances_offered ht)
  cases h with
  | @accept channel heq =>
    -- The greeting is the first that is sent on the new channel.
    have hnew : (Connection.ofChannel b.nextPeer channel).SendsBatches (·.Excused given) := by
      have hnothing : Batches (·.Excused given) channel.sent := hcall.fresh channel heq ▸ .nil
      exact ⟨hnothing.cut, fun _ => hnothing⟩
    exact hput (hnew.advances
      ((Connection.advances_beginHandshake b.nextPeer channel b.name now).mono hcontrol))
  | hear heq hc =>
    exact hput ((hbefore _ _ hc).advances ((Connection.advances_receive _ _ now).mono hcontrol))
  | act hc hact => exact hput ((hbefore _ _ hc).advances (hact.advances.mono hcontrol))
  | publish hschema hvalid included remove =>
    -- The host marks nothing that it publishes.
    intro peer c hc
    rw [find?_dispatch] at hc
    split at hc
    · exact hoffered hc (.inl (.inr rfl))
    · exact hbefore peer c hc
  | @dispatch q t d schema h o heq hd hreceived hschema hspace hvalid =>
    -- The mark is the one with which the guest sent the object.
    obtain ⟨-, hpayload, rfl⟩ := Connection.receive_eq_object hreceived
    intro peer c hc
    rw [find?_dispatch] at hc
    split at hc
    · exact hoffered hc (.inr ⟨t, hcall.heard q t heq, hpayload, rfl⟩)
    · exact hbefore peer c hc
  | forward group h message =>
    -- What is handed on here is no object.
    intro peer c hc
    rw [connections_forward, GroupTable.find?_deliver] at hc
    split at hc
    · exact hoffered hc (.inl (.inl rfl))
    · exact hbefore peer c hc
  | @replay q t group d schema heq hmessage hschema hcached hd =>
    rw [value_replayTo _ _ _ hd]
    have hs := (hb.findStruct?_name hschema).2
    exact hput ((hbefore q d hd).replay (isReplay_replayFrames hb hs now))
  | join | leave | learn | learnEnum | announce | subscribe | unsubscribe | forgetClosed =>
    exact hbefore

namespace SendsBatches

theorem step (h : b.SendsBatches (·.Excused given)) (hb : b.Sound) (hcall : Supplies given call)
    (hstep : Step call now b b') : b'.SendsBatches (·.Excused given) := by
  have hconnections := hstep.connections_sendsBatches hb hcall h.connections
  rcases hstep.tables with ⟨hclosed, hreleased⟩ | ⟨-, rfl⟩
  · exact ⟨hconnections, hclosed ▸ h.closed, hreleased ▸ h.released⟩
  · -- The channels of the closed connections are kept.
    refine ⟨hconnections, fun peer c hc => (by cases hc), fun peer channel hchannel => ?_⟩
    have hkept := (SortedMap.find?_foldl_insert_toList b.closed Connection.channel b.released
      peer).symm.trans hchannel
    cases hc : b.closed.find? peer with
    | none => exact h.released peer channel (by simpa [hc] using hkept)
    | some c =>
      obtain rfl : c.channel = channel := by simpa [hc] using hkept
      exact h.closed peer c hc

theorem takePending (h : b.SendsBatches single) : b.takePending.SendsBatches single := by
  refine ⟨fun peer c hc => ?_, h.closed, h.released⟩
  rw [find?_takePending] at hc
  obtain ⟨d, hd, rfl⟩ := Option.map_eq_some_iff.1 hc
  exact ⟨(h.connections peer d hd).cut, (h.connections peer d hd).whole⟩

theorem setAside (h : b.SendsBatches single) (q : PeerId) : (b.setAside q).SendsBatches single := by
  unfold Broker.setAside
  cases hq : b.connections.find? q with
  | none => exact h
  | some d =>
    refine ⟨fun peer c hc => ?_, fun peer c hc => ?_, h.released⟩
    · simp only [SortedMap.find?_erase] at hc
      split at hc
      · cases hc
      · exact h.connections peer c hc
    · simp only [SortedMap.find?_insert] at hc
      split at hc
      · obtain rfl := Option.some.inj hc
        exact (h.connections q d hq).cut
      · exact h.closed peer c hc

/-- Moves of a call send complete replays and single frames. -/
theorem moves (h : b.SendsBatches (·.Excused given)) (hb : b.Sound) (hcall : Supplies given call)
    (hmoves : Moves call now b b') : b'.SendsBatches (·.Excused given) := by
  refine (Moves.induction (I := fun b => b.Sound ∧ b.SendsBatches (·.Excused given))
    (fun hI hstep => ?_) (fun hI => ?_) (fun hI _ => ?_) ⟨hb, h⟩ hmoves).2
  · exact ⟨hI.1.step hstep, hI.2.step hI.1 hcall hstep⟩
  · exact ⟨hI.1.takePending, hI.2.takePending⟩
  · exact ⟨hI.1.setAside _, hI.2.setAside _⟩

theorem after (h : b.SendsBatches (·.Excused given)) (hb : b.Reachable)
    (calls : List (BrokerCall × Instant)) (hcalls : ∀ call ∈ calls, Supplies given call.1) :
    (b.after calls).SendsBatches (·.Excused given) := by
  induction calls generalizing b with
  | nil => exact h
  | cons call rest ih =>
    have hfirst : (b.perform call.1 call.2).SendsBatches (·.Excused given) :=
      h.moves hb.sound (hcalls call List.mem_cons_self) (perform_moves hb.rested call.1 call.2)
    exact ih hfirst (hb.perform call.1 call.2) fun call hcall =>
      hcalls call (List.mem_cons_of_mem _ hcall)

end SendsBatches

/-- A broker that was started has sent nothing. -/
theorem sendsBatches_ofRegistry {registry : Registry} (hbuilt : registry.Built) (name : String)
    (eventCapacity : Nat) (start : Instant) :
    (ofRegistry name registry eventCapacity start).value.SendsBatches (·.Excused given) := by
  refine (ofRegistry_induction
    (I := fun _ b => b.Sound ∧ b.SendsBatches (·.Excused given)) hbuilt.wellFormed
    ⟨.bare hbuilt name eventCapacity, ?_, ?_, ?_⟩ (fun hI hs => ?_) (fun hI hstep => ?_)).2
  · exact fun peer c hc => by cases hc
  · exact fun peer c hc => by cases hc
  · exact fun peer c hc => by cases hc
  · exact ⟨hI.1.adoptType hs, hI.2.connections, hI.2.closed, hI.2.released⟩
  · have hsweep : Supplies given .sweep :=
      ⟨fun peer t heq => (by cases heq), fun channel heq => (by cases heq)⟩
    exact ⟨hI.1.step hstep, hI.2.step hI.1 hsweep hstep⟩

/-- What stands on the channel of a guest: complete replays and single frames. If the connection has
closed there may be the beginning of one more replay. -/
def ChannelBatches (single : Transmission → Prop) (b : Broker) (peer : PeerId)
    (channel : Channel) : Prop :=
  CutBatches single channel.sent ∧
    (b.connections.find? peer ≠ none → Batches single channel.sent)

/-- In every run, on the channel of every guest, marked objects stand in complete replays, or are
those that a guest sent with the mark. If the guests mark nothing, all marked objects stand in
complete replays. A replay is cut off only where a connection has closed, and nothing follows it. -/
theorem batches_after {registry : Registry} (hbuilt : registry.Built) (name : String)
    (eventCapacity : Nat) (start : Instant) (calls : List (BrokerCall × Instant))
    (hfresh : ∀ channel now, (.accept channel, now) ∈ calls → channel.sent = []) :
    let b := (ofRegistry name registry eventCapacity start).value.after calls
    let given : Transmission → Prop := fun t => ∃ peer now, (.receive peer t, now) ∈ calls
    ∀ peer channel, b.channel? peer = some channel →
      b.ChannelBatches (·.Excused given) peer channel ∧
      ((∀ t, given t → t.Unmarked) → b.ChannelBatches Transmission.Unmarked peer channel) := by
  intro b given peer channel hchannel
  have hstart : (ofRegistry name registry eventCapacity start).value.Reachable :=
    .start hbuilt name eventCapacity start
  have hcalls : ∀ call ∈ calls, Supplies given call.1 := by
    rintro ⟨call, now⟩ hcall
    refine ⟨fun q t heq => ⟨q, now, ?_⟩, fun channel heq => hfresh channel now ?_⟩
    · exact heq ▸ hcall
    · exact heq ▸ hcall
  have hb : b.SendsBatches (·.Excused given) :=
    (sendsBatches_ofRegistry hbuilt name eventCapacity start).after hstart calls hcalls
  -- Between calls every connection in the table is open; all others have closed.
  have hbatches : b.ChannelBatches (·.Excused given) peer channel := by
    cases hc : b.connections.find? peer with
    | some c =>
      obtain rfl : c.channel = channel :=
        Option.some.inj ((channel?_of_open hc).symm.trans hchannel)
      obtain ⟨-, hopen⟩ := (hstart.after calls).rested peer c hc
      exact ⟨(hb.connections peer c hc).cut, fun _ => (hb.connections peer c hc).whole hopen⟩
    | none =>
      refine ⟨?_, fun hsome => absurd hc hsome⟩
      rw [channel?_of_gone hc] at hchannel
      cases hclosed : b.closed.find? peer with
      | some c =>
        obtain rfl : c.channel = channel := by simpa [hclosed] using hchannel
        exact hb.closed peer c hclosed
      | none => exact hb.released peer channel (by simpa [hclosed] using hchannel)
  refine ⟨hbatches, fun hgiven => ⟨hbatches.1.mono fun t ht => ht.unmarked hgiven, fun hopen => ?_⟩⟩
  exact (hbatches.2 hopen).mono fun t ht => ht.unmarked hgiven

/-- A note that a guest marks as if it were from a replay. -/
def markedNote : Transmission :=
  .ofObject { typeName := noteSchema.name, fromCache := some 7 } (note 2 "news")

/-- A reader joins the notes on the board, and then another guest sends the marked one. -/
def forgery : List (BrokerCall × Instant) :=
  [(.publish (note 1 "welcome") none false, default),
    (.accept (.reliable "reader"), default),
    (.receive 2 (.ofControl (.connectAs "reader" false) default), default),
    (.receive 2 joinNotes, default),
    (.accept (.reliable "writer"), default),
    (.receive 3 (.ofControl (.connectAs "writer" false) default), default),
    (.receive 3 markedNote, default)]

/-- The board after that. -/
def forgedBoard : Broker :=
  (ofRegistry "board" (Registry.empty.addStruct noteSchema) 1 default).value.after forgery

/-- On the channel of the reader stand a complete replay and nothing else that is marked, apart from
what the writer sent. -/
theorem batches_on_forgedBoard : ∃ channel, forgedBoard.channel? 2 = some channel ∧
    Batches (·.Excused fun t => ∃ peer now, (.receive peer t, now) ∈ forgery) channel.sent := by
  have hbuilt : (Registry.empty.addStruct noteSchema).Built :=
    .registerStruct .empty (Registry.registerStruct_of_new rfl rfl)
  obtain ⟨channel, hchannel, hopen⟩ : ∃ channel, forgedBoard.channel? 2 = some channel ∧
      forgedBoard.connections.find? 2 ≠ none := ⟨_, rfl, Option.some_ne_none _⟩
  have hfresh : ∀ channel now, (.accept channel, now) ∈ forgery → channel.sent = [] := by
    intro channel now hmem
    simp only [forgery, List.mem_cons, Prod.mk.injEq, BrokerCall.accept.injEq, reduceCtorEq,
      false_and, List.not_mem_nil, or_false, false_or] at hmem
    rcases hmem with ⟨rfl, -⟩ | ⟨rfl, -⟩ <;> rfl
  obtain ⟨hbatches, -⟩ :=
    batches_after hbuilt "board" 1 default forgery hfresh 2 channel hchannel
  exact ⟨channel, hchannel, hbatches.2 hopen⟩

/-- A mark that a guest makes is passed on: the reader is handed a marked object that stands in no
replay. -/
theorem forged_mark_passed_on : ∃ channel, forgedBoard.channel? 2 = some channel ∧
    forgedBoard.connections.find? 2 ≠ none ∧
    ¬Batches Transmission.Unmarked channel.sent := by
  obtain ⟨channel, hchannel, f, hlast, hobject, hmark⟩ : ∃ channel,
      forgedBoard.channel? 2 = some channel ∧ ∃ f, channel.sent.getLast? = some f ∧
        f.object? = some (note 2 "news") ∧ f.header.fromCache = some 7 :=
    ⟨_, rfl, _, rfl, rfl, rfl⟩
  refine ⟨channel, hchannel, Option.some_ne_none _, fun hbatches => ?_⟩
  rcases hbatches.getLast? hlast with (hnone | hnone) | hnone
  · exact absurd (hobject.symm.trans hnone) (by simp)
  · exact absurd (hmark.symm.trans hnone) (by simp)
  · exact absurd (hobject.symm.trans hnone) (by simp)

end Broker

end ObjectBus
