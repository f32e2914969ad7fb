import ObjectBus.Group
import ObjectBus.Proofs.Connection
import ObjectBus.Proofs.SortedMap

/-!
# Membership and delivery

The view of the groups is `hasMember`, and the view of a delivery is what becomes of each
connection: a transmission to a group is offered once to the connection of every member and to
no other one (`find?_deliver`).
-/

namespace ObjectBus

/-- A connection after a transmission of one of its groups was offered to it: it is handed over
if the connection takes part in traffic. -/
def Connection.offered (c : Connection) (t : Transmission) : Connection :=
  if c.state.receivesFanout then (c.send t).value else c

namespace Connection

variable {allowed : Transmission → Prop}

theorem advances_offered (c : Connection) {t : Transmission} (ht : allowed t) :
    c.Advances allowed (c.offered t) := by
  unfold offered
  split
  · exact advances_send c ht
  · exact .refl allowed c

end Connection

namespace Group

theorem find?_deliverTo (t : Transmission) (table : ConnectionTable) (delivery : Delivery)
    (peer q : PeerId) : (deliverTo t table delivery peer).value.1.find? q =
      if q = peer then (table.find? q).map (·.offered t) else table.find? q := by
  unfold deliverTo
  cases hfind : table.find? peer with
  | none =>
    by_cases hq : q = peer
    · simp [hq, hfind]
    · simp [hq]
  | some c =>
    by_cases hreceives : c.state.receivesFanout = true
    · have htable : (deliverTo t table delivery peer).value.1
          = table.insert peer (c.send t).value := by
        simp only [deliverTo, hfind, hreceives, if_true, Noted.value_bind]
        split <;> rfl
      simp only [deliverTo, hfind] at htable
      rw [htable, SortedMap.find?_insert]
      by_cases hq : q = peer
      · simp [hq, hfind, Connection.offered, hreceives]
      · simp [hq]
    · simp only [hreceives, Bool.false_eq_true, if_false, Noted.value_pure]
      by_cases hq : q = peer
      · simp [hq, hfind, Connection.offered, hreceives]
      · simp [hq]

theorem find?_deliverAll (t : Transmission) {peers : List PeerId} (hpeers : peers.Nodup)
    (table : ConnectionTable) (delivery : Delivery) (q : PeerId) :
    (deliverAll t peers table delivery).value.1.find? q =
      if q ∈ peers then (table.find? q).map (·.offered t) else table.find? q := by
  induction peers generalizing table delivery with
  | nil => rfl
  | cons peer rest ih =>
    obtain ⟨hpeer, hrest⟩ := List.nodup_cons.1 hpeers
    simp only [deliverAll, Noted.value_bind]
    rw [ih hrest, find?_deliverTo]
    by_cases hq : q = peer
    · subst hq
      simp [hpeer]
    · simp [hq]

/-- A delivery offers the transmission once to each member and to nobody else. -/
theorem find?_deliver (g : Group) (t : Transmission) (table : ConnectionTable) (q : PeerId) :
    (g.deliver t table).value.1.find? q =
      if g.contains q then (table.find? q).map (·.offered t) else table.find? q := by
  have hmember : q ∈ g.members ↔ g.contains q = true :=
    SortedMap.mem_keys_iff.trans SortedMap.contains_eq_true_iff.symm
  have hnodup : g.members.Nodup := SortedMap.nodup_keys g.membership
  rw [deliver, find?_deliverAll t hnodup]
  simp only [hmember]

theorem contains_join (g : Group) (peer q : PeerId) :
    (g.join peer).value.1.contains q = (decide (q = peer) || g.contains q) := by
  unfold join
  by_cases hmember : g.contains peer = true
  · rw [if_pos hmember]
    by_cases hq : q = peer
    · simp [hq, hmember]
    · simp [hq]
  · rw [if_neg hmember]
    by_cases hq : q = peer <;> simp [contains, SortedMap.contains, hq]

theorem contains_drop (g : Group) (peer q : PeerId) :
    (g.drop peer).contains q = (!decide (q = peer) && g.contains q) := by
  by_cases hq : q = peer <;> simp [drop, contains, SortedMap.contains, hq]

theorem contains_leave (g : Group) (peer q : PeerId) :
    (g.leave peer).value.1.contains q = (!decide (q = peer) && g.contains q) := by
  unfold leave
  by_cases hmember : g.contains peer = true
  · rw [if_pos hmember]
    exact contains_drop g peer q
  · rw [if_neg hmember]
    by_cases hq : q = peer
    · simp [hq, hmember]
    · simp [hq]

end Group

namespace GroupTable

/-- Whether a peer is a member of the group of a name. -/
def hasMember (t : GroupTable) (name : String) (peer : PeerId) : Bool :=
  match t.find? name with
  | some g => g.contains peer
  | none => false

theorem hasMember_join (t : GroupTable) (name name' : String) (peer q : PeerId) :
    (t.join name peer).value.1.hasMember name' q =
      (decide (name' = name ∧ q = peer) || t.hasMember name' q) := by
  by_cases hname : name' = name
  · subst hname
    simp only [hasMember, join, find?, Noted.value_bind, Noted.value_pure, SortedMap.find?_insert,
      if_true, true_and, Group.contains_join]
    cases t.groups.find? name' <;> rfl
  · simp [hasMember, join, find?, hname]

theorem hasMember_leave (t : GroupTable) (name name' : String) (peer q : PeerId) :
    (t.leave name peer).value.1.hasMember name' q =
      (!decide (name' = name ∧ q = peer) && t.hasMember name' q) := by
  unfold leave
  cases hgroup : t.find? name with
  | none =>
    by_cases hname : name' = name
    · simp [hasMember, hname, hgroup]
    · simp [hasMember, hname]
  | some g =>
    by_cases hname : name' = name
    · subst hname
      have hgroup' : t.groups.find? name' = some g := hgroup
      simp [hasMember, find?, Group.contains_leave, hgroup']
    · simp [hasMember, find?, hname]

theorem hasMember_drop (t : GroupTable) (name : String) (peer q : PeerId) :
    (t.drop peer).hasMember name q = (!decide (q = peer) && t.hasMember name q) := by
  simp only [hasMember, drop, find?, SortedMap.find?_map]
  cases t.groups.find? name with
  | none => simp
  | some g => simp [Group.contains_drop]

/-- Whoever is dropped is no longer a member, and all others stay what they are. -/
theorem hasMember_foldl_drop (peers : List PeerId) (t : GroupTable) (name : String) (q : PeerId) :
    (peers.foldl drop t).hasMember name q = (!decide (q ∈ peers) && t.hasMember name q) := by
  induction peers generalizing t with
  | nil => simp
  | cons peer rest ih =>
    rw [List.foldl_cons, ih, hasMember_drop, ← Bool.and_assoc]
    simp [List.mem_cons, Bool.and_comm]

/-- A delivery to a group offers the transmission once to each member and to nobody else. -/
theorem find?_deliver (t : GroupTable) (name : String) (transmission : Transmission)
    (table : ConnectionTable) (q : PeerId) :
    (t.deliver name transmission table).value.1.find? q =
      if t.hasMember name q then (table.find? q).map (·.offered transmission)
      else table.find? q := by
  unfold deliver hasMember
  cases t.find? name with
  | none => simp
  | some g => exact g.find?_deliver transmission table q

end GroupTable

end ObjectBus
