import ObjectBus.Proofs.Broker.Tables
import ObjectBus.Proofs.Guest.Exchange

/-!
# Answers to a guest's questions

Requests for type definitions carry nothing by which an answer could be told from another, so that
a guest takes whatever definitions come next for the answer. They are the answer if the guest has
kept out of the group of announcements and has read the answers to all its earlier questions, and
not in general.

* `Broker.Entertains`: what the host keeps up with a guest;
* `Broker.Returns`, `Broker.Entertains.hear`: what it sends when it hears the guest;
* `Guest.Question.Replied`, `Guest.Pursuit.Follows`: how far a question has got;
* `Exchange.Kept`: the invariant, and `Exchange.Kept.step` that every step keeps it;
* `Exchange.schemas_answer_question`: what the guest is told.
-/

namespace ObjectBus

open Relation (ReflTransGen)
open Transmission (Rounded AddsNothing)

/-! ## What the host sends -/

namespace Broker

variable {b b' : Broker} {p : PeerId} {call : BrokerCall} {now : Instant} {t : Transmission}
variable {c : Connection} {learnt : String → Prop}

/-- A host entertains a guest that has not joined the group of announcements, and whose channel
takes everything as long as its connection is open. -/
structure Entertains (p : PeerId) (b : Broker) : Prop where
  /-- The host goes through a run. -/
  reachable : b.Reachable
  /-- The guest has its number. -/
  assigned : b.Assigned p
  /-- It has not joined the group of announcements. -/
  spares : Spares p AddsNothing b
  /-- Its channel does not fail while its connection is open. -/
  connection : ∀ c, b.connections.find? p = some c →
    c.channel.Lossless ∧ c.channel.isClosed = false

/-- A host sends a guest some frames more. -/
def SendsMore (p : PeerId) (b b' : Broker) (more : List Transmission) : Prop :=
  b'.framesTo p = b.framesTo p ++ more

/-- What a host sends a guest when it takes a frame from it: nothing that belongs to an answer, or
the answer to the request that the frame is. -/
inductive Returns (b : Broker) (t : Transmission) (now : Instant) : List Transmission → Prop
  /-- Nothing that belongs to an answer. -/
  | beside {more : List Transmission} (hmore : ∀ t ∈ more, t.AddsNothing) : Returns b t now more
  /-- The answer. -/
  | answer {whitelist blacklist : Option (List String)}
      (hpayload : t.payload = .control (.descriptorRequest whitelist blacklist)) :
      Returns b t now (b.discoveryFrames whitelist blacklist now)

namespace Returns

variable {frames more : List Transmission}

/-- It leaves no answer open. -/
theorem rounded (h : b.Returns t now more) (hframes : Rounded frames) :
    Rounded (frames ++ more) := by
  cases h with
  | beside hmore => exact hframes.append_beside hmore
  | @answer whitelist blacklist =>
    obtain ⟨definitions, heq, -, -⟩ := b.discoveryFrames_eq whitelist blacklist now
    rw [heq]
    exact .append_answer rfl _ _

/-- One mark of an end comes with an answer, and the frame was a request for it. -/
theorem countP_le (h : b.Returns t now more) :
    more.countP (·.endsDiscovery) ≤ [t].countP (·.asksForTypes) := by
  cases h with
  | beside hmore =>
    rw [Transmission.countP_endsDiscovery_eq_zero fun y hy => (hmore y hy).ending]
    exact Nat.zero_le _
  | @answer whitelist blacklist hpayload =>
    obtain ⟨definitions, heq, hdefinitions, -⟩ := b.discoveryFrames_eq whitelist blacklist now
    have hasks : t.asksForTypes = true := by rw [Transmission.asksForTypes, hpayload]
    rw [heq, List.countP_append, Transmission.countP_endsDiscovery_eq_zero hdefinitions,
      List.countP_singleton, List.countP_singleton, if_pos hasks]
    split <;> omega

end Returns

namespace Entertains

/-- A guest that is tended goes on being entertained, and what it is sent adds nothing to a
discovery. -/
theorem tended (h : b.Entertains p)
    (htends : Tends p AddsNothing learnt b (b.perform call now)) :
    (b.perform call now).Entertains p ∧
      ∃ more, SendsMore p b (b.perform call now) more ∧ ∀ t ∈ more, t.AddsNothing := by
  have htended := htends h.spares
  have hreachable := h.reachable.perform call now
  have hassigned : (b.perform call now).Assigned p :=
    h.reachable.assigned_perform_iff.2 (.inl h.assigned)
  refine ⟨⟨hreachable, hassigned, htended.spared, fun c' hc' => ?_⟩, ?_⟩
  · obtain ⟨c, hc, hkeeps⟩ := htended.connection c' hc'
    obtain ⟨hlossless, hopen⟩ := h.connection c hc
    -- Between two calls the connections in the table are open.
    obtain ⟨-, hsame⟩ := hkeeps.intact (hreachable.rested p c' hc').2
    refine ⟨?_, hsame.trans hopen⟩
    rw [Channel.Lossless, hkeeps.refusal]
    exact hlossless
  · obtain ⟨channel', hchannel'⟩ := Option.ne_none_iff_exists'.1 hassigned
    obtain ⟨channel, hchannel, more, hsent, hmore⟩ := htended.channel channel' hchannel'
    refine ⟨more, ?_, hmore⟩
    rw [SendsMore, framesTo, framesTo, hchannel', hchannel]
    exact hsent

/-- The host answers a request for type definitions that the connection hands on. -/
theorem answer (h : b.Entertains p) (hc : b.connections.find? p = some c)
    {whitelist blacklist : Option (List String)}
    (hreceived : (c.receive t now).value.2 = .control (.descriptorRequest whitelist blacklist)) :
    (b.perform (.receive p t) now).Entertains p ∧
      t.payload = .control (.descriptorRequest whitelist blacklist) ∧
      SendsMore p b (b.perform (.receive p t) now)
        (b.discoveryFrames whitelist blacklist now) := by
  have hpayload : t.payload = .control (.descriptorRequest whitelist blacklist) :=
    Connection.payload_of_receive hreceived
  obtain ⟨hlossless, hopen⟩ := h.connection c hc
  obtain ⟨hspace, hstate⟩ := named_of_receive (h.reachable.rested p c hc).2 hreceived b
  let channel := c.channel.handed (b.discoveryFrames whitelist blacklist now)
  have hperform : b.perform (.receive p t) now = b.putConnection p { c with channel := channel } :=
    congrArg Prod.fst (h.reachable.receive_of_request hc hstate hspace hpayload
      (hlossless.takes hopen _))
  have hassigned : (b.perform (.receive p t) now).Assigned p :=
    h.reachable.assigned_perform_iff.2 (.inl h.assigned)
  refine ⟨⟨h.reachable.perform _ now, hassigned, ?_, ?_⟩, hpayload, ?_⟩
  · rw [hperform]
    exact h.spares
  · intro c' hc'
    rw [hperform, find?_putConnection, if_pos rfl] at hc'
    obtain rfl := Option.some.inj hc'
    exact ⟨hlossless, (Channel.isClosed_handed _ _).trans hopen⟩
  · have hc' : (b.putConnection p { c with channel := channel }).connections.find? p =
        some { c with channel := channel } := by
      rw [find?_putConnection, if_pos rfl]
    rw [hperform, SendsMore, framesTo, framesTo, channel?_of_open hc, channel?_of_open hc']
    exact Channel.sent_handed _ _

/-- When the host hears a guest that does not join the group of announcements, it sends the guest
what adds nothing to a discovery, or the answer to a request for type definitions. -/
theorem hear (h : b.Entertains p) (hkeeps : t.joined? ≠ some structSchemaGroup) (now : Instant) :
    (b.perform (.receive p t) now).Entertains p ∧
      ∃ more, SendsMore p b (b.perform (.receive p t) now) more ∧ b.Returns t now more := by
  by_cases hrequest : ∃ c whitelist blacklist, b.connections.find? p = some c ∧
      (c.receive t now).value.2 = .control (.descriptorRequest whitelist blacklist)
  · obtain ⟨c, whitelist, blacklist, hc, hreceived⟩ := hrequest
    obtain ⟨hentertains, hpayload, hmore⟩ := h.answer hc hreceived
    exact ⟨hentertains, _, hmore, .answer hpayload⟩
  · -- Otherwise the guest asks for nothing by which definitions could come to it.
    have htends : Tends p AddsNothing (fun _ => True) b (b.perform (.receive p t) now) := by
      refine tends_receive (fun _ => id) fun c request hc hreceived => ?_
      refine ⟨fun hjoin => ?_, fun whitelist blacklist hdiscover => ?_, fun _ _ _ _ _ => trivial,
        fun _ _ _ _ _ => trivial⟩
      · subst hjoin
        refine absurd ?_ hkeeps
        rw [Transmission.joined?, Connection.payload_of_receive hreceived]
        rfl
      · exact absurd ⟨c, whitelist, blacklist, hc, hdiscover ▸ hreceived⟩ hrequest
    obtain ⟨hentertains, more, hsends, hmore⟩ := h.tended htends
    exact ⟨hentertains, more, hsends, .beside hmore⟩

/-- In a call that is not about a guest, the host sends it only what adds nothing to a discovery. -/
theorem elsewhere (h : b.Entertains p) (hcall : b.addressee? call ≠ some p) (now : Instant) :
    (b.perform call now).Entertains p ∧
      ∃ more, SendsMore p b (b.perform call now) more ∧ ∀ t ∈ more, t.AddsNothing := by
  have htends : Tends p AddsNothing (fun _ => True) b (b.perform call now) :=
    tends_perform (fun _ => id) hcall now
  exact h.tended htends

end Entertains

/-- A guest with a new number is entertained once it has been greeted. -/
theorem Reachable.entertains_accept (hb : b.Reachable) (hnew : ¬b.Assigned b.nextPeer)
    {channel : Channel} (hlossless : channel.Lossless) (hopen : channel.isClosed = false)
    (now : Instant) : (b.perform (.accept channel) now).Entertains b.nextPeer := by
  obtain ⟨c, hc, hsteady, -⟩ := hb.accept_steady hlossless hopen now
  refine ⟨hb.perform _ now, assigned_of_open hc, ?_, fun c' hc' => ?_⟩
  · let arrived : Broker :=
      { b with nextPeer := b.nextPeer + 1 }.putConnection b.nextPeer (b.greeted channel now)
    -- Whoever is a member of a group has a number.
    have hspares : Spares b.nextPeer AddsNothing arrived :=
      fun hmember => absurd (hb.members _ _ hmember).assigned hnew
    exact (tends_drain (fun _ => id) b.nextPeer (fun _ => True) arrived now hspares).spared
  · obtain rfl := Option.some.inj (hc.symm.trans hc')
    exact ⟨hsteady.lossless, hsteady.intact⟩

end Broker

/-! ## How far a question has got -/

namespace Guest

variable {q : Question} {hosts hosts' : List Broker} {g : Guest} {found : List StructSchema}
variable {frames since late more rest : List Transmission} {t : Transmission} {place : Nat}

/-- A question that has been taken stays so. -/
theorem Question.TakenBy.append {host : Broker} (h : q.TakenBy hosts host)
    (hosts' : List Broker) : q.TakenBy (hosts ++ hosts') host :=
  (List.getElem?_append_left (List.getElem?_eq_some_iff.1 h).1).trans h

/-- The struct types that a host selects for a question. -/
def Question.selection (q : Question) (host : Broker) : List StructSchema :=
  Discovery.selected host.registry (q.whitelist.getD []) (q.blacklist.getD [])

/-- What the host has sent since a question was asked: nothing that belongs to an answer, or the
answer that it gave when it took the question, and before it nothing that belongs to another. -/
inductive Question.Replied (q : Question) (hosts : List Broker) : List Transmission → Prop
  /-- Nothing that belongs to an answer. -/
  | beside {late : List Transmission} (hlate : ∀ t ∈ late, t.AddsNothing) : Replied q hosts late
  /-- The answer. -/
  | answer {host : Broker} (hhost : q.TakenBy hosts host) (now : Instant)
      {before : List Transmission} (hbefore : ∀ t ∈ before, t.AddsNothing)
      (after : List Transmission) :
      Replied q hosts (before ++ host.discoveryFrames q.whitelist q.blacklist now ++ after)

namespace Question.Replied

theorem append_beside (h : q.Replied hosts late) (hmore : ∀ t ∈ more, t.AddsNothing)
    (hosts' : List Broker) : q.Replied (hosts ++ hosts') (late ++ more) := by
  cases h with
  | beside hlate => exact .beside fun t ht => (List.mem_append.1 ht).elim (hlate t) (hmore t)
  | answer hhost now hbefore after =>
    rw [List.append_assoc]
    exact .answer (hhost.append hosts') now hbefore (after ++ more)

/-- The host takes the question and answers it. -/
theorem append_answer (h : q.Replied hosts late) (hplace : hosts.length = q.place) (host : Broker)
    (now : Instant) : q.Replied (hosts ++ [host])
      (late ++ host.discoveryFrames q.whitelist q.blacklist now) := by
  cases h with
  | beside hlate =>
    have htaken : q.TakenBy (hosts ++ [host]) host := by
      rw [TakenBy, ← hplace]
      exact List.getElem?_concat_length
    have hanswer := Replied.answer htaken now hlate []
    rwa [List.append_nil] at hanswer
  | answer hhost now' hbefore after =>
    rw [List.append_assoc]
    exact .answer (hhost.append [host]) now' hbefore _

/-- The first mark of an end is that of the answer. -/
theorem told (h : q.Replied hosts (since ++ t :: rest))
    (hsince : ∀ x ∈ since, x.endsDiscovery = false) (ht : t.endsDiscovery = true) :
    ∃ host, q.TakenBy hosts host ∧ since.filterMap (·.struct?) = q.selection host := by
  generalize hlate : since ++ t :: rest = late at h
  cases h with
  | beside hbeside =>
    have hnone := (hbeside t (hlate ▸ List.mem_append_right _ List.mem_cons_self)).ending
    cases ht.symm.trans hnone
  | @answer host hhost now before hbefore after =>
    obtain ⟨definitions, hframes, hdefinitions, hstructs⟩ :=
      host.discoveryFrames_eq q.whitelist q.blacklist now
    have hunended : ∀ x ∈ before ++ definitions, x.endsDiscovery = false := fun x hx =>
      (List.mem_append.1 hx).elim (fun hx => (hbefore x hx).ending) (hdefinitions x)
    rw [hframes, ← List.append_assoc, List.append_assoc, List.singleton_append] at hlate
    -- Both marks are the first one, so that the same comes before them.
    obtain rfl := Transmission.eq_of_first_mark hsince hunended ht rfl hlate
    refine ⟨host, hhost, ?_⟩
    rw [List.filterMap_append, List.filterMap_eq_nil_iff.2 fun x hx => (hbefore x hx).struct,
      List.nil_append, hstructs]
    rfl

end Question.Replied

/-- A guest that has asked a question waits after some frames. -/
structure Question.Awaits (q : Question) (since : List Transmission) (g : Guest)
    (found : List StructSchema) : Prop where
  /-- It has sent nothing since. -/
  sent : g.sent = q.guest.sent ++ [q.request]
  /-- It goes on with what arrives next. -/
  progress : ∀ rest : List Transmission,
    q.outcome (since ++ rest) = (discovering.await (g, found) (rest.map .ok)).value
  /-- It has found the struct types that these frames define. -/
  found : found = since.filterMap (·.struct?)
  /-- No mark of an end is among them. -/
  unended : ∀ t ∈ since, t.endsDiscovery = false

/-- With the next frame the guest goes on waiting, or fails, or is told what it has found. -/
theorem Question.Awaits.read (h : q.Awaits since g found) (t : Transmission) :
    (∃ g' found', Pursuit.afterReading q g found t = .asking q g' found' ∧
      q.Awaits (since ++ [t]) g' found') ∨
    (∃ e, Pursuit.afterReading q g found t = .told q (g, .error e)) ∨
    Pursuit.afterReading q g found t = .told q (g, .ok found) ∧ t.endsDiscovery = true ∧
      q.outcome (since ++ [t]) = ((g, .ok found), []) := by
  unfold Pursuit.afterReading
  rcases take_discovering_cases g found t with
    ⟨g', htake, hunended, hsent⟩ | ⟨e, htake⟩ | ⟨hends, htake⟩
  · refine .inl ⟨g', found ++ t.struct?.toList, by rw [htake], hsent.trans h.sent,
      fun rest => ?_, ?_, ?_⟩
    · rw [List.append_assoc, List.singleton_append, h.progress, List.map_cons,
        Call.value_await_of_waiting htake]
    · rw [h.found, List.filterMap_append]
      cases hstruct : t.struct? <;> simp [hstruct]
    · intro x hx
      rcases List.mem_append.1 hx with hbefore | hnew
      · exact h.unended x hbefore
      · exact List.mem_singleton.1 hnew ▸ hunended
  · exact .inr (.inl ⟨e, by rw [htake]⟩)
  · refine .inr (.inr ⟨by rw [htake], hends, ?_⟩)
    rw [h.progress, List.map_singleton, Call.value_await_of_ended htake]

/-- How far a guest has got, when the host has sent it some frames and has taken some of its own and
it has read some. -/
inductive Pursuit.Follows (frames : List Transmission) (hosts : List Broker) (place : Nat) :
    Pursuit → Prop
  /-- It may do what it wants. -/
  | free (g : Guest) : Follows frames hosts place (.free g)
  /-- It waits for the answer to a question. -/
  | asking {q : Question} {g : Guest} {found : List StructSchema} {since : List Transmission}
      (hsince : frames.take place = q.seen ++ since) (hawaits : q.Awaits since g found)
      (hreplied : q.Settled → q.Replied hosts (frames.drop q.seen.length)) :
      Follows frames hosts place (.asking q g found)
  /-- It has failed. -/
  | failed (q : Question) (g : Guest) (e : BrokerError) :
      Follows frames hosts place (.told q (g, .error e))
  /-- It has been told. -/
  | told {q : Question} {g : Guest} {structs : List StructSchema} {since : List Transmission}
      (hsent : g.sent = q.guest.sent ++ [q.request])
      (hsince : frames.take place = q.seen ++ since)
      (houtcome : q.outcome since = ((g, .ok structs), []))
      (hstructs : q.Settled →
        ∃ host, q.TakenBy hosts host ∧ structs = q.selection host) :
      Follows frames hosts place (.told q (g, .ok structs))

namespace Pursuit.Follows

variable {pursuit : Pursuit}

/-- The host sends something more, which while the guest waits is part of the answer or belongs to
none. -/
theorem append (h : pursuit.Follows frames hosts place) (hplace : place ≤ frames.length)
    (more : List Transmission) (hosts' : List Broker)
    (hmore : ∀ q g found, pursuit = .asking q g found → q.Settled →
      q.Replied hosts (frames.drop q.seen.length) →
      q.Replied (hosts ++ hosts') (frames.drop q.seen.length ++ more)) :
    pursuit.Follows (frames ++ more) (hosts ++ hosts') place := by
  have htake : (frames ++ more).take place = frames.take place :=
    List.take_append_of_le_length hplace
  cases h with
  | free g => exact .free g
  | @asking q g found since hsince hawaits hreplied =>
    refine .asking (htake.trans hsince) hawaits fun hsettled => ?_
    have hseen : q.seen.length ≤ frames.length := by
      have hlength := congrArg List.length hsince
      rw [List.length_take, List.length_append] at hlength
      omega
    rw [List.drop_append_of_le_length hseen]
    exact hmore q g found rfl hsettled (hreplied hsettled)
  | failed q g e => exact .failed q g e
  | told hsent hsince houtcome hstructs =>
    refine .told hsent (htake.trans hsince) houtcome fun hsettled => ?_
    obtain ⟨host, hhost, hselection⟩ := hstructs hsettled
    exact ⟨host, hhost.append hosts', hselection⟩

end Pursuit.Follows

end Guest

/-! ## Both sides -/

namespace Exchange

variable {x x' : Exchange} {q : Guest.Question} {g : Guest} {found structs : List StructSchema}
variable {t : Transmission} {more : List Transmission} {now : Instant}

/-- What holds of a host and a guest that keeps out of the group of announcements. -/
structure Kept (x : Exchange) : Prop where
  /-- The host keeps up the channel to the guest. -/
  host : x.host.Entertains x.peer
  /-- It went through a run when it took the frames of the guest. -/
  hosts : ∀ host ∈ x.hosts, host.Reachable
  /-- It has taken nothing but what was sent. -/
  taken_le : x.hosts.length ≤ x.sent.length
  /-- The guest has read nothing but what was sent. -/
  read_le : x.read ≤ x.frames.length
  /-- No answer is left open. -/
  rounded : Rounded x.frames
  /-- The host has answered nothing but requests. -/
  marks : x.frames.countP (·.endsDiscovery) ≤
    (x.sent.take x.hosts.length).countP (·.asksForTypes)
  /-- How far the guest has got. -/
  pursuit : x.pursuit.Follows x.frames x.hosts x.read

/-- In no step is anything taken back that the guest has sent. -/
theorem Step.sent_grows (h : Step x x') : x.sent <+: x'.sent := by
  cases h with
  | hear | elsewhere | skim => exact List.prefix_refl _
  | act hfree hsent =>
    rw [sent, hfree]
    exact hsent
  | ask hfree whitelist blacklist now =>
    rw [sent, hfree]
    exact List.prefix_append _ _
  | @read q g found hasking t ht =>
    rw [sent, hasking]
    unfold sent Guest.Pursuit.afterReading
    rcases Guest.take_discovering_cases g found t with
      ⟨g', htake, -, hsent⟩ | ⟨e, htake⟩ | ⟨-, htake⟩ <;> rw [htake]
    · exact hsent ▸ List.prefix_refl g'.sent
    · exact List.prefix_refl g.sent
    · exact List.prefix_refl g.sent
  | lose hasking e =>
    rw [sent, hasking]
    exact List.prefix_refl _
  | resume htold =>
    rw [sent, htold]
    exact List.prefix_refl _

/-- A guest that keeps out has done so before. -/
theorem Step.keepsOut (h : Step x x') (hkeeps : x'.KeepsOut) : x.KeepsOut :=
  fun t ht => hkeeps t (h.sent_grows.subset ht)

namespace Kept

/-- What the host has taken when it takes one frame more. -/
theorem take_succ (ht : x.sent[x.hosts.length]? = some t) :
    x.sent.take (x.hosts.length + 1) = x.sent.take x.hosts.length ++ [t] := by
  rw [List.take_add_one, ht]
  rfl

/-- The next request for type definitions that the host takes is the question for which the guest
waits, if earlier questions are settled. -/
theorem next_request (h : x.Kept) (hasking : x.pursuit = .asking q g found) (hsettled : q.Settled)
    (ht : x.sent[x.hosts.length]? = some t) (hasks : t.asksForTypes = true) :
    x.hosts.length = q.place ∧ t = q.request := by
  have hfollows := h.pursuit
  have hmarks := h.marks
  rw [hasking] at hfollows
  cases hfollows with
  | @asking _ _ _ since hsince hawaits =>
    have hsent : x.sent = q.guest.sent ++ [q.request] := by
      rw [sent, hasking]
      exact hawaits.sent
    -- The question is the last frame that the guest has sent.
    have hless : x.hosts.length < q.place + 1 := by
      have hlength := (List.getElem?_eq_some_iff.1 ht).1
      rwa [hsent, List.length_append] at hlength
    by_cases hbefore : x.hosts.length < q.place
    · -- Then the guest had asked more questions than it has read marks.
      have hseen : q.seen.countP (·.endsDiscovery) ≤ x.frames.countP (·.endsDiscovery) :=
        (((List.prefix_append q.seen since).trans
          (hsince ▸ List.take_prefix x.read x.frames)).sublist).countP_le
      have htaken : (x.sent.take (x.hosts.length + 1)).countP (·.asksForTypes) ≤
          q.guest.sent.countP (·.asksForTypes) := by
        rw [hsent, List.take_append_of_le_length hbefore]
        exact (List.take_sublist _ _).countP_le
      rw [take_succ ht, List.countP_append, List.countP_singleton, if_pos hasks, ← hsettled]
        at htaken
      omega
    · have hplace : x.hosts.length = q.place := by omega
      rw [hplace, hsent, Guest.Question.place, List.getElem?_concat_length] at ht
      exact ⟨hplace, (Option.some.inj ht).symm⟩

/-- What the host sends on taking a frame is part of no answer, or it is the answer to the question
for which the guest waits. -/
theorem replied_of_returns (h : x.Kept) (hreturns : x.host.Returns t now more)
    (ht : x.sent[x.hosts.length]? = some t) (hasking : x.pursuit = .asking q g found)
    (hsettled : q.Settled) (hreplied : q.Replied x.hosts (x.frames.drop q.seen.length)) :
    q.Replied (x.hosts ++ [x.host]) (x.frames.drop q.seen.length ++ more) := by
  cases hreturns with
  | beside hmore => exact hreplied.append_beside hmore [x.host]
  | answer hpayload =>
    have hasks : t.asksForTypes = true := by rw [Transmission.asksForTypes, hpayload]
    obtain ⟨hplace, rfl⟩ := h.next_request hasking hsettled ht hasks
    cases hpayload
    exact hreplied.append_answer hplace x.host now

/-- The host takes a frame of the guest. -/
theorem hear (h : x.Kept) (hkeeps : x.KeepsOut) (ht : x.sent[x.hosts.length]? = some t)
    (now : Instant) :
    Kept { x with
      host := x.host.perform (.receive x.peer t) now
      hosts := x.hosts ++ [x.host] } := by
  obtain ⟨hhost, more, hmore, hreturns⟩ := h.host.hear (hkeeps t (List.mem_of_getElem? ht)) now
  let next : Exchange := { x with
    host := x.host.perform (.receive x.peer t) now
    hosts := x.hosts ++ [x.host] }
  have hframes : next.frames = x.frames ++ more := hmore
  have hlength : next.hosts.length = x.hosts.length + 1 := List.length_append
  show Kept next
  refine ⟨hhost, fun host hmem => ?_, ?_, ?_, ?_, ?_, ?_⟩
  · rcases List.mem_append.1 hmem with hbefore | hnew
    · exact h.hosts host hbefore
    · exact List.mem_singleton.1 hnew ▸ h.host.reachable
  · rw [hlength]
    exact (List.getElem?_eq_some_iff.1 ht).1
  · rw [hframes, List.length_append]
    exact h.read_le.trans (Nat.le_add_right _ _)
  · rw [hframes]
    exact hreturns.rounded h.rounded
  · have htake : next.sent.take next.hosts.length = x.sent.take x.hosts.length ++ [t] := by
      rw [hlength]
      exact take_succ ht
    rw [hframes, htake, List.countP_append, List.countP_append]
    exact Nat.add_le_add h.marks hreturns.countP_le
  · rw [hframes]
    refine h.pursuit.append h.read_le more [x.host] fun q g found hasking hsettled hreplied => ?_
    exact h.replied_of_returns hreturns ht hasking hsettled hreplied

/-- Another guest or the host does something. -/
theorem elsewhere (h : x.Kept) {call : BrokerCall} (hcall : x.host.addressee? call ≠ some x.peer)
    (now : Instant) : Kept { x with host := x.host.perform call now } := by
  obtain ⟨hhost, more, hmore, hbeside⟩ := h.host.elsewhere hcall now
  let next : Exchange := { x with host := x.host.perform call now }
  have hframes : next.frames = x.frames ++ more := hmore
  show Kept next
  refine ⟨hhost, h.hosts, h.taken_le, ?_, ?_, ?_, ?_⟩
  · rw [hframes, List.length_append]
    exact h.read_le.trans (Nat.le_add_right _ _)
  · rw [hframes]
    exact h.rounded.append_beside hbeside
  · have hnone : more.countP (·.endsDiscovery) = 0 :=
      Transmission.countP_endsDiscovery_eq_zero fun y hy => (hbeside y hy).ending
    rw [hframes, List.countP_append, hnone]
    exact h.marks
  · have hfollows := h.pursuit.append h.read_le more [] fun q g found _ _ hreplied =>
      hreplied.append_beside hbeside []
    rw [List.append_nil] at hfollows
    rw [hframes]
    exact hfollows

/-- The guest does something. -/
theorem of_pursuit (h : x.Kept) {pursuit : Guest.Pursuit} {place : Nat}
    (hsent : x.sent <+: pursuit.guest.sent) (hplace : place ≤ x.frames.length)
    (hfollows : pursuit.Follows x.frames x.hosts place) :
    Kept { x with pursuit := pursuit, read := place } := by
  refine ⟨h.host, h.hosts, h.taken_le.trans hsent.length_le, hplace, h.rounded, ?_, hfollows⟩
  have htake : pursuit.guest.sent.take x.hosts.length = x.sent.take x.hosts.length := by
    obtain ⟨more, hmore⟩ := hsent
    rw [← hmore, List.take_append_of_le_length h.taken_le]
  show x.frames.countP _ ≤ (pursuit.guest.sent.take x.hosts.length).countP _
  rw [htake]
  exact h.marks

/-- When the guest asks a question and earlier ones are settled, nothing that belongs to an answer
is under way to it. -/
theorem replied_of_ask (h : x.Kept) {q : Guest.Question} (hguest : q.guest = x.pursuit.guest)
    (hseen : q.seen = x.frames.take x.read) (hsettled : q.Settled) :
    q.Replied x.hosts (x.frames.drop q.seen.length) := by
  have hlength : q.seen.length = x.read := by
    rw [hseen, List.length_take, Nat.min_eq_left h.read_le]
  rw [hlength]
  refine .beside (h.rounded (x.frames.take x.read) _ (List.take_append_drop _ _).symm ?_)
  -- The guest has read as many marks as the host can have sent.
  have htaken : (x.sent.take x.hosts.length).countP (·.asksForTypes) ≤
      x.sent.countP (·.asksForTypes) := (List.take_sublist _ _).countP_le
  have hsplit : x.frames.countP (·.endsDiscovery) = q.seen.countP (·.endsDiscovery) +
      (x.frames.drop x.read).countP (·.endsDiscovery) := by
    rw [hseen, ← List.countP_append, List.take_append_drop]
  have hmarks := h.marks
  have hsame : q.seen.countP (·.endsDiscovery) = x.sent.countP (·.asksForTypes) := by
    rw [hsettled, hguest]
    rfl
  have hnone : (x.frames.drop x.read).countP (·.endsDiscovery) = 0 := by omega
  simpa using List.countP_eq_zero.1 hnone

/-- The guest asks for type definitions. -/
theorem ask (h : x.Kept) (hfree : x.pursuit = .free g)
    (whitelist blacklist : Option (List String)) (now : Instant) :
    Kept { x with
      pursuit := .asking ⟨g, whitelist, blacklist, now, x.frames.take x.read⟩
        (g.askSchemas whitelist blacklist now) [] } := by
  have hguest : g = x.pursuit.guest := by rw [hfree]; rfl
  refine h.of_pursuit ?_ h.read_le (.asking (List.append_nil _).symm ?_
    fun hsettled => h.replied_of_ask hguest rfl hsettled)
  · rw [sent, ← hguest]
    exact List.prefix_append _ _
  · exact ⟨rfl, fun _ => rfl, rfl, fun _ ht => absurd ht List.not_mem_nil⟩

/-- The guest, which waits for type definitions, takes a frame of the host. -/
theorem read (h : x.Kept) (hasking : x.pursuit = .asking q g found)
    (ht : x.frames[x.read]? = some t) :
    Kept { x with pursuit := .afterReading q g found t, read := x.read + 1 } := by
  have hsent : x.sent <+: (Guest.Pursuit.afterReading q g found t).guest.sent :=
    (Step.read hasking ht).sent_grows
  refine h.of_pursuit hsent (List.getElem?_eq_some_iff.1 ht).1 ?_
  have hfollows := h.pursuit
  rw [hasking] at hfollows
  cases hfollows with
  | @asking _ _ _ since hsince hawaits hreplied =>
    have hread : x.frames.take (x.read + 1) = q.seen ++ (since ++ [t]) := by
      rw [List.take_add_one, hsince, ht, List.append_assoc]
      rfl
    rcases hawaits.read t with
      ⟨g', found', hnext, hawaits'⟩ | ⟨e, hnext⟩ | ⟨hnext, hends, houtcome⟩
    · rw [hnext]
      exact .asking hread hawaits' hreplied
    · rw [hnext]
      exact .failed q g e
    · rw [hnext]
      refine .told hawaits.sent hread houtcome fun hsettled => ?_
      -- What has been read since the question is the beginning of what was sent since.
      have hlate : x.frames.drop q.seen.length = since ++ t :: x.frames.drop (x.read + 1) := by
        have hall := List.take_append_drop (x.read + 1) x.frames
        rw [hread, List.append_assoc] at hall
        conv_lhs => rw [← hall, List.drop_left, List.append_assoc]
        rfl
      obtain ⟨host, hhost, hstructs⟩ :=
        Guest.Question.Replied.told (hlate ▸ hreplied hsettled) hawaits.unended hends
      exact ⟨host, hhost, hawaits.found.trans hstructs⟩

/-- Every step keeps the invariant while the guest keeps out. -/
theorem step (h : x.Kept) (hstep : Step x x') (hkeeps : x.KeepsOut) : x'.Kept := by
  cases hstep with
  | hear ht now => exact h.hear hkeeps ht now
  | elsewhere hcall now => exact h.elsewhere hcall now
  | act hfree hsent =>
    refine h.of_pursuit ?_ h.read_le (.free _)
    rw [sent, hfree]
    exact hsent
  | skim hfree hread =>
    have hfollows : x.pursuit.Follows x.frames x.hosts (x.read + 1) := hfree ▸ .free _
    exact h.of_pursuit (List.prefix_refl _) hread hfollows
  | ask hfree whitelist blacklist now => exact h.ask hfree whitelist blacklist now
  | read hasking ht => exact h.read hasking ht
  | lose hasking e =>
    refine h.of_pursuit ?_ h.read_le (.failed _ _ _)
    rw [sent, hasking]
    exact List.prefix_refl _
  | resume htold =>
    refine h.of_pursuit ?_ h.read_le (.free _)
    rw [sent, htold]
    exact List.prefix_refl _

/-- Any number of steps keep it. -/
theorem run (h : x.Kept) (hrun : ReflTransGen Step x x') (hkeeps : x'.KeepsOut) : x'.Kept := by
  induction hrun with
  | refl => exact h
  | tail _ hstep ih =>
    -- The guest has kept out in the end, so it has kept out all the time.
    have hbefore := hstep.keepsOut hkeeps
    exact (ih hbefore).step hstep hbefore

end Kept

/-- It holds when the host has accepted the channel of a guest with a new number. -/
theorem kept_opened {b : Broker} (hb : b.Reachable) (hnew : ¬b.Assigned b.nextPeer)
    {channel : Channel} (hlossless : channel.Lossless) (hfresh : channel.trace = [])
    (now : Instant) : Kept (opened b channel now) := by
  have hopen : channel.isClosed = false := by
    rw [Channel.isClosed, hfresh]
    rfl
  obtain ⟨c, hc, -, -, -, -, hchannel⟩ := hb.accept_steady hlossless hopen now
  have hframes : (opened b channel now).frames = [Broker.greeting b.name now] := by
    rw [frames, Broker.framesTo]
    simp only [opened]
    rw [Broker.channel?_of_open hc, hchannel]
    show (channel.handed [Broker.greeting b.name now]).sent = _
    rw [Channel.sent_handed, Channel.sent, hfresh]
    rfl
  have hhosts : ∀ host ∈ (opened b channel now).hosts, host.Reachable :=
    fun host hhost => absurd hhost List.not_mem_nil
  refine ⟨hb.entertains_accept hnew hlossless hopen now, hhosts, Nat.zero_le _, Nat.zero_le _,
    ?_, ?_, .free _⟩
  · rw [hframes]
    have hnothing : Rounded [] := fun before late hsplit _ t ht => by
      rw [(List.append_eq_nil_iff.1 hsplit.symm).2] at ht
      cases ht
    have hbeside : ∀ t ∈ [Broker.greeting b.name now], t.AddsNothing := fun t ht => by
      obtain rfl := List.mem_singleton.1 ht
      exact ⟨rfl, rfl⟩
    exact hnothing.append_beside hbeside
  · rw [hframes]
    rfl

/-! ## What the guest is told -/

/-- What a guest is told is the answer to its question, if it has kept out of the group of
announcements and earlier questions were settled.

The host accepts a channel that loses nothing under a new number, and the guest at its other end
sends and reads what it wants and when it wants, and asks for type definitions as often as it wants.
Other guests and the host do what they want. Whenever a call for type definitions has succeeded, the
struct types that it gives are those that the host had registered when it took the request and that
the lists of this request select, each once and in the order of their names, and the call has read
what arrived behind the frames that the guest had read before. -/
theorem schemas_answer_question {b : Broker} (hb : b.Reachable) (hnew : ¬b.Assigned b.nextPeer)
    {channel : Channel} (hlossless : channel.Lossless) (hfresh : channel.trace = [])
    (hrun : ReflTransGen Step (opened b channel now) x) (hkeeps : x.KeepsOut)
    (htold : x.pursuit = .told q (g, .ok structs)) (hsettled : q.Settled) :
    ∃ host since, q.TakenBy x.hosts host ∧ x.sent[q.place]? = some q.request ∧
      (∀ s, s ∈ structs ↔ host.registry.Wanted q.whitelist q.blacklist s) ∧
      structs.Pairwise (·.name < ·.name) ∧
      x.frames.take x.read = q.seen ++ since ∧ q.outcome since = ((g, .ok structs), []) := by
  have hkept := (kept_opened hb hnew hlossless hfresh now).run hrun hkeeps
  have hfollows := hkept.pursuit
  rw [htold] at hfollows
  cases hfollows with
  | @told _ _ _ since hsent hsince houtcome hstructs =>
    obtain ⟨host, hhost, rfl⟩ := hstructs hsettled
    have hregistry := (hkept.hosts host (List.mem_of_getElem? hhost)).sound.registry
    refine ⟨host, since, hhost, ?_, fun s => Discovery.mem_selected_iff hregistry,
      Discovery.pairwise_selected hregistry _ _, hsince, houtcome⟩
    rw [sent, htold]
    show g.sent[q.place]? = _
    rw [hsent]
    exact List.getElem?_concat_length

/-! ## Painters in the studio -/

open Broker (studio shadedSchema)

/-- The studio has accepted the channel of a painter. -/
def atStudio : Exchange := opened studio (.inProcess "painter") default

/-- The number of the painter is new. -/
theorem new_at_studio : ¬studio.Assigned studio.nextPeer := fun hassigned => hassigned rfl

/-- The frame by which a painter names itself. -/
def introduction : Transmission := .ofControl (.connectAs "painter" false) default

/-- The other guest of the studio announces a type of things with a shade. -/
def announcement (name : String) : BrokerCall :=
  .receive 2 (.ofControl (.structSchema (shadedSchema name)) default)

/-- A painter asks for brushes and then, while the other guest announces easels, for paints. The
second time it is told of the paints that the studio knew when it took that question. -/
theorem painter_told_of_paints : ∃ x q g structs host, ReflTransGen Step atStudio x ∧
    x.pursuit = .told q (g, .ok structs) ∧ structs = [shadedSchema "Paint"] ∧
    q.TakenBy x.hosts host ∧ ∀ s, s ∈ structs ↔ host.registry.Wanted (some ["Paint"]) none s := by
  obtain ⟨x, hplay, hkeeps, q, g, structs, htold, hsettled, hwhite, hblack, hstructs⟩ : ∃ x,
      List.foldlM (·.play default) atStudio
        [.act [introduction], .ask ["Brush"], .hear, .hear,
          -- The greeting, the acceptance and the answer, which comes with the shades.
          .read, .read, .read, .read, .read, .resume,
          .ask ["Paint"], .elsewhere (announcement "Easel"), .hear, .read, .read, .read] = some x ∧
      x.KeepsOut ∧ ∃ q g structs, x.pursuit = .told q (g, .ok structs) ∧ q.Settled ∧
        q.whitelist = some ["Paint"] ∧ q.blacklist = none ∧ structs = [shadedSchema "Paint"] := by
    refine ⟨_, rfl, ?_, _, _, _, rfl, ?_, rfl, rfl, rfl⟩
    · unfold KeepsOut
      decide
    · unfold Guest.Question.Settled
      decide
  have hrun : ReflTransGen Step atStudio x := run_of_playAll hplay
  obtain ⟨host, since, hhost, -, hanswer, -⟩ :=
    schemas_answer_question Broker.reachable_studio new_at_studio
      (Channel.lossless_inProcess "painter") rfl hrun hkeeps htold hsettled
  rw [hwhite, hblack] at hanswer
  exact ⟨x, q, g, structs, host, hrun, htold, hstructs, hhost, hanswer⟩

/-- A guest has been told of a struct type for which it had not asked, or which the host did not
know when it took the question. -/
def Misled (x : Exchange) : Prop :=
  ∃ q g structs host, x.pursuit = .told q (g, .ok structs) ∧ q.TakenBy x.hosts host ∧
    ∃ s ∈ structs, ¬host.registry.Wanted q.whitelist q.blacklist s

/-- Neither condition can be dropped. A painter that has kept out of the group of announcements, but
whose first question for brushes failed because of a notice about something that it had published
before, takes the brushes for the answer to its second question, for paints. And a painter that has
joined the group takes the announcement of easels for part of the answer to its first question. -/
theorem painters_misled :
    (∃ x, ReflTransGen Step atStudio x ∧ x.KeepsOut ∧ x.Misled) ∧
    ∃ x, ReflTransGen Step atStudio x ∧ (∃ q r, x.pursuit = .told q r ∧ q.Settled) ∧ x.Misled := by
  have hunwanted : ∀ (host : Broker) (name : String), name ≠ "Paint" →
      ¬host.registry.Wanted (some ["Paint"]) none (shadedSchema name) := by
    intro host name hname hwanted
    rcases hwanted.listed _ rfl with hnone | hmem
    · cases hnone
    · exact hname (List.mem_singleton.1 hmem)
  constructor
  · obtain ⟨x, hplay, hkeeps, hmisled⟩ : ∃ x, List.foldlM (·.play default) atStudio
        [.act [introduction, .ofObject (.forObject (shadedSchema "Easel") default false default)
            ⟨"Easel", default⟩],
          .ask ["Brush"], .hear, .hear, .hear,
          -- The greeting, the acceptance and the notice.
          .read, .read, .read, .resume,
          .ask ["Paint"], .hear, .read, .read, .read] = some x ∧ x.KeepsOut ∧ x.Misled := by
      refine ⟨_, rfl, ?_, _, _, _, _, rfl, rfl, shadedSchema "Brush", ?_, hunwanted _ _ ?_⟩
      · unfold KeepsOut
        decide
      · exact List.mem_singleton_self _
      · decide
    exact ⟨x, run_of_playAll hplay, hkeeps, hmisled⟩
  · obtain ⟨x, hplay, hsettled, hmisled⟩ : ∃ x, List.foldlM (·.play default) atStudio
        [.act [introduction, .ofControl (.member structSchemaGroup .join) default],
          .ask ["Paint"], .hear, .hear, .elsewhere (announcement "Easel"), .hear,
          -- The greeting, the acceptance, the announcement and the answer.
          .read, .read, .read, .read, .read, .read] = some x ∧
        (∃ q r, x.pursuit = .told q r ∧ q.Settled) ∧ x.Misled := by
      refine ⟨_, rfl, ⟨_, _, rfl, ?_⟩, _, _, _, _, rfl, rfl, shadedSchema "Easel", ?_,
        hunwanted _ _ ?_⟩
      · unfold Guest.Question.Settled
        decide
      · exact List.mem_cons_self
      · decide
    exact ⟨x, run_of_playAll hplay, hsettled, hmisled⟩

end Exchange

end ObjectBus
