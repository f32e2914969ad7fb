import ObjectBus.Proofs.Broker.Refusal

/-!
# Fanout

A delivery walks the members of a group and changes the table of connections as it goes. What it
does to one member depends on that member's connection alone, so the members that fail are lost
by themselves, whichever they are, and all others are served as if nothing had failed.

* `Connection.isLostTo`, `Connection.keepsUpWith`: the two ways of counting a member;
* `Group.report_deliverTo`, `Group.report_deliverAll`: what one member and what a list of members
  add to the report of a delivery;
* `GroupTable.Fanout`, `GroupTable.fanout_deliver`: what becomes of every connection, and what is
  reported.
-/

namespace ObjectBus

theorem ConnectionState.receivesFanout_eq_true_iff {s : ConnectionState} :
    s.receivesFanout = true ↔ s = .connected ∨ s = .suspended := by
  cases s <;> decide

namespace Connection

variable {c : Connection} {t : Transmission} {error : TransportError}

/-- Whether offering the transmission loses the connection: it is connected, and its channel
refuses. -/
def isLostTo (c : Connection) (t : Transmission) : Bool :=
  decide (c.state = .connected) && (c.channel.refusal c.channel.trace t).isSome

/-- Whether the connection takes part in traffic and still does after the transmission was offered
to it. -/
def keepsUpWith (c : Connection) (t : Transmission) : Bool :=
  c.state.receivesFanout && !c.isLostTo t

theorem isLostTo_eq_true_iff : c.isLostTo t = true ↔
    c.state = .connected ∧ ∃ error, c.channel.refusal c.channel.trace t = some error := by
  simp [isLostTo, Option.isSome_iff_exists]

theorem isLostTo_of_ne_connected (hstate : c.state ≠ .connected) (t : Transmission) :
    c.isLostTo t = false := by
  simp [isLostTo, hstate]

/-! ## One connection -/

theorem offered_of_receives (hreceives : c.state.receivesFanout = true) (t : Transmission) :
    c.offered t = (c.send t).value := by
  rw [offered, if_pos hreceives]

/-- A connected connection whose channel takes the transmission is handed it once. -/
theorem offered_of_taken (hstate : c.state = .connected)
    (htaken : c.channel.refusal c.channel.trace t = none) :
    c.offered t =
      { c with channel := { c.channel with trace := c.channel.trace ++ [.sent t] } } := by
  rw [offered_of_receives (by rw [hstate]; rfl)]
  exact value_send_of_taken (by simp [hstate]) htaken

/-- A connection that takes part closes if its channel refuses a transmission, with the error of the
channel as the cause. -/
theorem value_send_of_refused (hstate : c.state ≠ .closed ∧ c.state ≠ .suspended)
    (hrefused : c.channel.refusal c.channel.trace t = some error) :
    (c.send t).value = { c with
      state := .closed
      transitions := c.transitions ++ [⟨.closed, some (BrokerError.transport error).message⟩]
      channel := { c.channel with
        trace := c.channel.trace ++ [.refused t error, .closed] } } := by
  -- The attempt is on the trace before the connection is told of the failure.
  let tried : Connection :=
    { c with channel := { c.channel with trace := c.channel.trace ++ [.refused t error] } }
  have hopen : tried.isClosed = false := isClosed_eq_false_iff.2 hstate.1
  have hchannel : c.channel.send t = (tried.channel, some error) := by
    simp [Channel.send, hrefused, tried]
  have hsend : (c.send t).value = (tried.transportFailed error).value := by
    unfold send
    split
    · exact absurd ‹_› hstate.1
    · exact absurd ‹_› hstate.2
    · simp only [hchannel]
      rfl
  rw [hsend, value_transportFailed, value_close_of_open hopen]
  simp [tried, Channel.close]

/-- A connected connection whose channel refuses the transmission closes. -/
theorem offered_of_refused (hstate : c.state = .connected)
    (hrefused : c.channel.refusal c.channel.trace t = some error) :
    c.offered t = { c with
      state := .closed
      transitions := c.transitions ++ [⟨.closed, some (BrokerError.transport error).message⟩]
      channel := { c.channel with
        trace := c.channel.trace ++ [.refused t error, .closed] } } := by
  rw [offered_of_receives (by rw [hstate]; rfl)]
  exact value_send_of_refused (by simp [hstate]) hrefused

/-- A connection that takes part is closed after a transmission was offered to it exactly if that
lost it. -/
theorem isClosed_offered (hreceives : c.state.receivesFanout = true) :
    (c.offered t).isClosed = c.isLostTo t := by
  by_cases hstate : c.state = .connected
  · cases hrefusal : c.channel.refusal c.channel.trace t with
    | none => simp [offered_of_taken hstate hrefusal, isLostTo, isClosed, hstate, hrefusal]
    | some error => simp [offered_of_refused hstate hrefusal, isLostTo, isClosed, hstate, hrefusal]
  · -- A suspended connection takes part in traffic, but nothing is tried with its channel.
    rw [offered_of_ne_connected hstate, isLostTo_of_ne_connected hstate, isClosed_eq_false_iff]
    intro hclosed
    rw [hclosed] at hreceives
    cases hreceives

/-- Who keeps up with a transmission is who takes part in traffic after it was offered. -/
theorem receivesFanout_offered (c : Connection) (t : Transmission) :
    (c.offered t).state.receivesFanout = c.keepsUpWith t := by
  by_cases hstate : c.state = .connected
  · cases hrefusal : c.channel.refusal c.channel.trace t with
    | none => simp [offered_of_taken hstate hrefusal, keepsUpWith, isLostTo, hstate, hrefusal]
    | some error =>
      simp [offered_of_refused hstate hrefusal, keepsUpWith, isLostTo, hstate, hrefusal,
        ConnectionState.receivesFanout]
  · rw [offered_of_ne_connected hstate, keepsUpWith, isLostTo_of_ne_connected hstate]
    simp

end Connection

namespace Group

variable {t : Transmission}

/-! ## The members one after the other -/

/-- What serving one more peer adds to the report: the peer is counted or listed according to its
own connection. -/
theorem report_deliverTo (t : Transmission) (table : ConnectionTable) (report : Delivery)
    (peer : PeerId) :
    (deliverTo t table report peer).value.2 =
      ⟨report.delivered + [peer].countP fun q => (table.find? q).any (·.keepsUpWith t),
        report.failed ++ [peer].filter fun q => (table.find? q).any (·.isLostTo t)⟩ := by
  unfold deliverTo
  cases hfind : table.find? peer with
  | none => simp [hfind]
  | some c =>
    by_cases hreceives : c.state.receivesFanout = true
    · have hclosed : (c.send t).value.isClosed = c.isLostTo t := by
        rw [← Connection.offered_of_receives hreceives, Connection.isClosed_offered hreceives]
      simp only [hreceives, if_true, Noted.value_bind, hclosed]
      -- Whoever takes part is either counted or listed.
      by_cases hlost : c.isLostTo t = true
      · simp [hlost, hfind, Connection.keepsUpWith]
      · simp [hlost, hfind, Connection.keepsUpWith, hreceives]
    · have hkept : c.isLostTo t = false :=
        Connection.isLostTo_of_ne_connected (fun h => hreceives (by rw [h]; rfl)) t
      simp [hreceives, hfind, hkept, Connection.keepsUpWith]

/-- The report of a delivery to distinct peers: those that keep up are counted, and those that are
lost are listed in the order in which they were served. Which of them are lost makes no difference
to the others. -/
theorem report_deliverAll (t : Transmission) {peers : List PeerId} (hpeers : peers.Nodup)
    (table : ConnectionTable) (report : Delivery) :
    (deliverAll t peers table report).value.2 =
      ⟨report.delivered + peers.countP fun q => (table.find? q).any (·.keepsUpWith t),
        report.failed ++ peers.filter fun q => (table.find? q).any (·.isLostTo t)⟩ := by
  induction peers generalizing table report with
  | nil => simp [deliverAll]
  | cons peer rest ih =>
    obtain ⟨hpeer, hrest⟩ := List.nodup_cons.1 hpeers
    -- Serving the first peer leaves the connections of the remaining ones alone.
    have hothers : ∀ q ∈ rest,
        (deliverTo t table report peer).value.1.find? q = table.find? q := by
      intro q hq
      have hne : q ≠ peer := fun h => hpeer (h ▸ hq)
      rw [find?_deliverTo, if_neg hne]
    have hcounted := List.countP_congr fun q hq =>
      Eq.to_iff (congrArg (· = true) (congrArg (Option.any (·.keepsUpWith t)) (hothers q hq)))
    have hlisted := List.filter_congr fun q hq =>
      congrArg (Option.any (·.isLostTo t)) (hothers q hq)
    -- So the rest is reported on as if the first peer had not been served.
    simp only [deliverAll, Noted.value_bind]
    rw [ih hrest, report_deliverTo, hcounted, hlisted]
    simp only [← List.singleton_append (l := rest), List.countP_append, List.filter_append,
      Nat.add_assoc, List.append_assoc]

end Group

namespace GroupTable

/-- The members of the group of a name in ascending order. -/
def members (groups : GroupTable) (name : String) : List PeerId :=
  ((groups.find? name).map Group.members).getD []

variable {groups : GroupTable} {name : String}

theorem mem_members_iff {q : PeerId} :
    q ∈ groups.members name ↔ groups.hasMember name q = true := by
  unfold members hasMember
  cases groups.find? name with
  | none => simp
  | some g => exact SortedMap.mem_keys_iff.trans SortedMap.contains_eq_true_iff.symm

theorem ascending_members (groups : GroupTable) (name : String) :
    (groups.members name).Pairwise (· < ·) := by
  -- Members are the keys of a sorted map.
  unfold members
  cases groups.find? name with
  | none => exact .nil
  | some g => exact List.pairwise_map.2 g.membership.sorted

theorem nodup_members (groups : GroupTable) (name : String) : (groups.members name).Nodup := by
  refine (ascending_members groups name).imp fun {a b} hlt heq => ?_
  rw [heq] at hlt
  exact SortKey.lt_irrefl _ hlt

/-- The report of a delivery to the group of a name. -/
theorem report_deliver (groups : GroupTable) (name : String) (t : Transmission)
    (table : ConnectionTable) :
    (groups.deliver name t table).value.2 =
      ⟨(groups.members name).countP fun q => (table.find? q).any (·.keepsUpWith t),
        (groups.members name).filter fun q => (table.find? q).any (·.isLostTo t)⟩ := by
  unfold deliver members
  cases groups.find? name with
  | none => rfl
  | some g =>
    have h := Group.report_deliverAll t (SortedMap.nodup_keys g.membership) table ⟨0, []⟩
    simp only [Nat.zero_add, List.nil_append] at h
    exact h

/-- What a delivery of a transmission to the group of a name does to the table of connections, and
what it reports. The groups themselves are only read. -/
structure Fanout (groups : GroupTable) (name : String) (t : Transmission)
    (before after : ConnectionTable) (report : Delivery) : Prop where
  /-- A connected member whose channel takes the transmission is handed it, once. -/
  handed : ∀ q c, groups.hasMember name q = true → before.find? q = some c →
    c.state = .connected → c.channel.refusal c.channel.trace t = none →
    after.find? q =
      some { c with channel := { c.channel with trace := c.channel.trace ++ [.sent t] } }
  /-- A connected member whose channel refuses is closed, with the error as the cause. -/
  lost : ∀ q c error, groups.hasMember name q = true → before.find? q = some c →
    c.state = .connected → c.channel.refusal c.channel.trace t = some error →
    after.find? q = some { c with
      state := .closed
      transitions := c.transitions ++ [⟨.closed, some (BrokerError.transport error).message⟩]
      channel := { c.channel with
        trace := c.channel.trace ++ [.refused t error, .closed] } }
  /-- Whoever is no connected member is left alone: nothing is handed to its channel. -/
  others : ∀ q, (∀ c, groups.hasMember name q = true → before.find? q = some c →
    c.state ≠ .connected) → after.find? q = before.find? q
  /-- The members that are reported as failed are those connected ones whose channel refused. -/
  failed : ∀ q, q ∈ report.failed ↔ groups.hasMember name q = true ∧ ∃ c error,
    before.find? q = some c ∧ c.state = .connected ∧
      c.channel.refusal c.channel.trace t = some error
  /-- They are reported in ascending order, so none is reported twice. -/
  ascending : report.failed.Pairwise (· < ·)
  /-- The members that are counted are those that are connected or suspended afterwards. -/
  delivered : ∃ served : List PeerId, served.Nodup ∧ report.delivered = served.length ∧
    ∀ q, q ∈ served ↔ groups.hasMember name q = true ∧ ∃ c, after.find? q = some c ∧
      (c.state = .connected ∨ c.state = .suspended)

/-- A delivery reaches exactly the connected members whose channel takes the transmission, loses
exactly those whose channel refuses and leaves everybody else alone, whichever and however many
channels refuse. -/
theorem fanout_deliver (groups : GroupTable) (name : String) (t : Transmission)
    (table : ConnectionTable) :
    groups.Fanout name t table (groups.deliver name t table).value.1
      (groups.deliver name t table).value.2 where
  handed q c hmember hc hstate htaken := by
    rw [find?_deliver, if_pos hmember, hc, Option.map_some,
      Connection.offered_of_taken hstate htaken]
  lost q c error hmember hc hstate hrefused := by
    rw [find?_deliver, if_pos hmember, hc, Option.map_some,
      Connection.offered_of_refused hstate hrefused]
  others q hother := by
    rw [find?_deliver]
    split
    · rename_i hmember
      cases hc : table.find? q with
      | none => rfl
      | some c =>
        rw [Option.map_some, Connection.offered_of_ne_connected (hother c hmember hc)]
    · rfl
  failed q := by
    simp only [report_deliver, List.mem_filter, mem_members_iff, Option.any_eq_true,
      Connection.isLostTo_eq_true_iff]
    constructor
    · rintro ⟨hmember, c, hc, hstate, error, hrefused⟩
      exact ⟨hmember, c, error, hc, hstate, hrefused⟩
    · rintro ⟨hmember, c, error, hc, hstate, hrefused⟩
      exact ⟨hmember, c, hc, hstate, error, hrefused⟩
  ascending := by
    rw [report_deliver]
    exact (ascending_members groups name).filter _
  delivered := by
    -- Members are counted by how they took the frame, which shows in their state afterwards.
    refine ⟨(groups.members name).filter fun q => (table.find? q).any (·.keepsUpWith t),
      (nodup_members groups name).filter _, ?_, fun q => ?_⟩
    · rw [report_deliver, List.countP_eq_length_filter]
    · rw [List.mem_filter, mem_members_iff]
      refine and_congr_right fun hmember => ?_
      rw [find?_deliver, if_pos hmember]
      simp only [Option.any_eq_true, Option.map_eq_some_iff, ← Connection.receivesFanout_offered,
        ConnectionState.receivesFanout_eq_true_iff, exists_exists_and_eq_and]

/-- Of the members 2 to 6, one in each state, 4 is handed the frame and 5 is counted with it; 7 is
connected too but its channel is down, and 9 has no connection. -/
example :
    let guest (state : ConnectionState) (peer : PeerId) : PeerId × Connection :=
      (peer, { Connection.ofChannel peer (.reliable "guest") with state })
    let broken : PeerId × Connection :=
      (7, { Connection.ofChannel 7 ((Channel.reliable "guest").failWith (some .closed)) with
        state := .connected })
    let group : Group := ⟨"News", .ofList ([2, 3, 4, 5, 6, 7, 9].map (·, ()))⟩
    let table : ConnectionTable := .ofList [guest .connecting 2, guest .earlySubscribe 3,
      guest .connected 4, guest .suspended 5, guest .closed 6, broken, guest .connected 8]
    (GroupTable.deliver ⟨.ofList [("News", group)]⟩ "News" (.ofControl .preloadFinished default)
      table).value.2 = ⟨2, [7]⟩ := by
  decide

end GroupTable

end ObjectBus
